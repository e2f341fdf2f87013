import KernelTools.Proofs.Wildcard.Meaning
import Mathlib.Tactic.Linarith

/-!
# Matching with one retry point

The matcher keeps what followed the most recent run and forgets every earlier one.  Nothing is lost
by that: when a later run has been entered, whatever an earlier run could still absorb the later one
can absorb as well.

Main results:

- Theorem {lit}`Cursor.matchable_iff_of_step`: a move changes nothing about whether the match can
  still succeed.
- Theorem {lit}`Cursor.budget_lt_of_step`: every move draws on a budget of moves that the length of
  the pattern and of the name bound.
- Theorem {lit}`matches_iff_exists_pieces`: a pattern matches a name exactly when the name can be cut
  into pieces, one for each token.
-/

namespace KernelTools.Wildcard

/-! ## Moves -/

/-- Tokens that start with neither a run nor a token that accepts a character. -/
def Stuck (tokens : List Token) (c : Char) : Prop :=
  ∀ token ∈ tokens.head?, token ≠ .anyRun ∧ token.accepts c = false

/-- The moves of a cursor that has a character ahead. -/
inductive Cursor.Step : Cursor → Cursor → Prop
  /-- A run is entered and becomes the retry point. -/
  | enterRun (tokens : List Token) (c : Char) (rest : Text) (retry : Option (List Token × Text)) :
    Step ⟨.anyRun :: tokens, c :: rest, retry⟩ ⟨tokens, c :: rest, some (tokens, c :: rest)⟩
  /-- A token takes a character. -/
  | takeChar {token : Token} {c : Char} (haccepts : token.accepts c = true) (tokens : List Token)
    (rest : Text) (retry : Option (List Token × Text)) :
    Step ⟨token :: tokens, c :: rest, retry⟩ ⟨tokens, rest, retry⟩
  /-- The most recent run absorbs one character more. -/
  | absorbChar {tokens : List Token} {c : Char} (hstuck : Stuck tokens c) (rest : Text)
    (afterRun : List Token) (absorbed : Text) :
    Step ⟨tokens, c :: rest, some (afterRun, absorbed)⟩
      ⟨afterRun, absorbed.tail, some (afterRun, absorbed.tail)⟩

/-- A stuck cursor moves only by its retry point. -/
theorem Cursor.move_eq_absorb {s : Cursor} {c : Char} (h : Stuck s.tokens c) (rest : Text) :
    s.move c rest = s.absorb := by
  unfold Cursor.move
  split
  · next tokens htokens => simp [htokens, Stuck] at h
  · next token tokens _ htokens =>
    have hrefuses : token.accepts c = false := (h token (by simp [htokens])).2
    simp [hrefuses]
  · rfl

/-- All that a move can come to. -/
theorem Cursor.move_cases {s : Cursor} {c : Char} {rest : Text} (hname : s.name = c :: rest) :
    (∃ s', s.move c rest = some s' ∧ s.Step s') ∨
      (s.move c rest = none ∧ s.retry = none ∧ Stuck s.tokens c) := by
  rcases s with ⟨tokens, name, retry⟩
  subst hname
  by_cases hstuck : Stuck tokens c
  · rw [Cursor.move_eq_absorb hstuck]
    cases retry with
    | none => exact .inr ⟨rfl, rfl, hstuck⟩
    | some point => exact .inl ⟨_, rfl, .absorbChar hstuck rest point.1 point.2⟩
  · cases tokens with
    | nil => simp [Stuck] at hstuck
    | cons token tokens =>
      by_cases hrun : token = .anyRun
      · subst hrun
        exact .inl ⟨_, rfl, .enterRun tokens c rest retry⟩
      · have haccepts : token.accepts c = true := by simpa [Stuck, hrun] using hstuck
        refine .inl ⟨_, ?_, .takeChar haccepts tokens rest retry⟩
        simp [Cursor.move, haccepts]

/-- Stuck tokens describe no name that starts with the character. -/
theorem Stuck.not_describes {tokens : List Token} {c : Char} (h : Stuck tokens c) (rest : Text) :
    ¬ Describes tokens (c :: rest) := by
  intro hdescribes
  cases tokens with
  | nil => simp at hdescribes
  | cons token tokens =>
    rcases h token rfl with ⟨hrun, hrefuses⟩
    rcases (describes_cons_iff hrun).1 hdescribes with ⟨d, rest', heq, haccepts, -⟩
    cases heq
    rw [hrefuses] at haccepts
    contradiction

/-! ## Whether a match can still succeed -/

/-- What is left of the pattern describes what is left of the name, both counted from the most
recent run when there is one. -/
def Cursor.Matchable (s : Cursor) : Prop :=
  match s.retry with
  | none => Describes s.tokens s.name
  | some (afterRun, absorbed) => Describes (.anyRun :: afterRun) absorbed

/-- The tokens between the most recent run and the cursor have taken the characters between. -/
def Cursor.Coherent (s : Cursor) : Prop :=
  ∀ afterRun absorbed, s.retry = some (afterRun, absorbed) →
    ∃ taken passed, Accepted taken passed ∧ afterRun = taken ++ s.tokens ∧
      absorbed = passed ++ s.name

theorem Cursor.coherent_start (tokens : List Token) (name : Text) :
    (Cursor.start tokens name).Coherent := by
  intro afterRun absorbed h
  simp [Cursor.start] at h

/-- A move keeps a cursor coherent. -/
theorem Cursor.coherent_of_step {s s' : Cursor} (h : s.Step s') (hs : s.Coherent) :
    s'.Coherent := by
  intro afterRun absorbed hretry
  cases h with
  | enterRun =>
    cases hretry
    exact ⟨[], [], .nil, rfl, rfl⟩
  | @takeChar token c haccepts tokens rest retry =>
    rcases hs afterRun absorbed hretry with ⟨taken, passed, htaken, rfl, rfl⟩
    exact ⟨taken ++ [token], passed ++ [c], List.rel_append htaken (.cons haccepts .nil), by simp,
      by simp⟩
  | absorbChar =>
    cases hretry
    exact ⟨[], [], .nil, rfl, rfl⟩

/-- A run describes what is left of a name when it does so without its first character, provided
that the tokens behind the run do not describe the whole. -/
theorem describes_run_tail_iff {tokens : List Token} {name : Text}
    (h : ¬ Describes tokens name) (hname : name ≠ []) :
    Describes (.anyRun :: tokens) name.tail ↔ Describes (.anyRun :: tokens) name := by
  rcases List.exists_cons_of_ne_nil hname with ⟨c, rest, rfl⟩
  rw [describes_run_iff, describes_run_iff, List.tail_cons]
  constructor
  · rintro ⟨left, hleft, hdescribes⟩
    exact ⟨left, hleft.trans (List.suffix_cons c rest), hdescribes⟩
  · rintro ⟨left, hleft, hdescribes⟩
    rcases List.suffix_cons_iff.1 hleft with rfl | hleft
    · exact absurd hdescribes h
    · exact ⟨left, hleft, hdescribes⟩

/-- A later run can absorb all that an earlier run could, once the tokens between the two have taken
the characters between. -/
theorem describes_run_append_run_iff {taken tokens : List Token} {passed rest : Text}
    (htaken : Accepted taken passed) :
    Describes (.anyRun :: (taken ++ .anyRun :: tokens)) (passed ++ rest) ↔
      Describes (.anyRun :: tokens) rest := by
  constructor
  · intro h
    rcases exists_suffix_of_describes_run htaken h with ⟨right, hsuffix, hright⟩
    rcases describes_run_iff.1 hright with ⟨last, hlast, hdescribes⟩
    exact describes_run_iff.2 ⟨last, hlast.trans hsuffix, hdescribes⟩
  · intro h
    exact .run [] ((describes_append_of_accepted htaken).2 h)

/-- A move changes nothing about whether the match can still succeed. -/
theorem Cursor.matchable_iff_of_step {s s' : Cursor} (h : s.Step s') (hs : s.Coherent) :
    s'.Matchable ↔ s.Matchable := by
  cases h with
  | enterRun tokens c rest retry =>
    cases retry with
    | none => rfl
    | some point =>
      rcases hs point.1 point.2 rfl with ⟨taken, passed, htaken, hafter, habsorbed⟩
      simp only [Cursor.Matchable, hafter, habsorbed]
      exact (describes_run_append_run_iff htaken).symm
  | @takeChar token c haccepts tokens rest retry =>
    cases retry with
    | none =>
      simp [Cursor.Matchable, describes_cons_iff (Token.ne_anyRun_of_accepts haccepts), haccepts]
    | some point => rfl
  | @absorbChar tokens c hstuck rest afterRun absorbed =>
    rcases hs afterRun absorbed rfl with ⟨taken, passed, htaken, hafter, habsorbed⟩
    dsimp only at hafter habsorbed
    refine describes_run_tail_iff ?_ (by simp [habsorbed])
    rw [hafter, habsorbed, describes_append_of_accepted htaken]
    exact hstuck.not_describes rest

/-- With the name used up, a match succeeds exactly when only runs are left. -/
theorem Cursor.matchable_iff_takesNothing {s : Cursor} (hname : s.name = []) (hs : s.Coherent) :
    s.Matchable ↔ takesNothing s.tokens = true := by
  rcases s with ⟨tokens, name, retry⟩
  subst hname
  rw [← describes_nil_right_iff]
  cases retry with
  | none => rfl
  | some point =>
    rcases hs point.1 point.2 rfl with ⟨taken, passed, htaken, hafter, habsorbed⟩
    simp only [Cursor.Matchable, hafter, habsorbed, List.append_nil]
    constructor
    · intro h
      have hall : Describes (.anyRun :: (taken ++ tokens)) (passed ++ []) := by
        rwa [List.append_nil]
      rcases exists_suffix_of_describes_run htaken hall with ⟨right, hsuffix, hright⟩
      rwa [List.suffix_nil.1 hsuffix] at hright
    · intro h
      have hall : Describes (taken ++ tokens) (passed ++ []) :=
        (describes_append_of_accepted htaken).2 h
      rw [List.append_nil] at hall
      exact .run [] hall

/-! ## A budget of moves -/

/-- Number of tokens before the first run. -/
def tokensBeforeRun (tokens : List Token) : Nat :=
  (tokens.takeWhile (· != .anyRun)).length

/-- Number of tokens from the first run on. -/
def tokensFromRun (tokens : List Token) : Nat :=
  (tokens.dropWhile (· != .anyRun)).length

theorem tokensBeforeRun_add_tokensFromRun (tokens : List Token) :
    tokensBeforeRun tokens + tokensFromRun tokens = tokens.length := by
  rw [tokensBeforeRun, tokensFromRun, ← List.length_append, List.takeWhile_append_dropWhile]

@[simp]
theorem tokensBeforeRun_run (tokens : List Token) : tokensBeforeRun (.anyRun :: tokens) = 0 := by
  simp [tokensBeforeRun]

@[simp]
theorem tokensFromRun_run (tokens : List Token) :
    tokensFromRun (.anyRun :: tokens) = tokens.length + 1 := by
  simp [tokensFromRun]

theorem tokensBeforeRun_append_of_accepted {taken : List Token} {passed : Text}
    (h : Accepted taken passed) (tokens : List Token) :
    tokensBeforeRun (taken ++ tokens) = taken.length + tokensBeforeRun tokens := by
  induction h with
  | nil => simp
  | cons haccepts _ ih =>
    have := Token.ne_anyRun_of_accepts haccepts
    simp_all [tokensBeforeRun]
    omega

theorem tokensFromRun_append_of_accepted {taken : List Token} {passed : Text}
    (h : Accepted taken passed) (tokens : List Token) :
    tokensFromRun (taken ++ tokens) = tokensFromRun tokens := by
  induction h with
  | nil => rfl
  | cons haccepts _ ih =>
    have := Token.ne_anyRun_of_accepts haccepts
    simp_all [tokensFromRun]

/-- Moves that a cursor has left at most.  Up to the next run, each absorption starts a diagonal of
at most as many moves as there are tokens to that run, the run included; each of the tokens behind
costs at most one move for every character. -/
def Cursor.budget (s : Cursor) : Nat :=
  if s.name = [] then 0
  else
    match s.retry with
    | none => tokensFromRun s.tokens * s.name.length + tokensBeforeRun s.tokens + 1
    | some (afterRun, absorbed) =>
      tokensFromRun s.tokens * absorbed.length +
        (absorbed.length - 1) * (tokensBeforeRun afterRun + 1) + tokensBeforeRun s.tokens + 1

theorem Cursor.budget_none (tokens : List Token) {name : Text} (hname : name ≠ []) :
    (Cursor.mk tokens name none).budget =
      tokensFromRun tokens * name.length + tokensBeforeRun tokens + 1 :=
  if_neg hname

theorem Cursor.budget_some (tokens : List Token) {name : Text} (hname : name ≠ [])
    (afterRun : List Token) (absorbed : Text) :
    (Cursor.mk tokens name (some (afterRun, absorbed))).budget =
      tokensFromRun tokens * absorbed.length +
        (absorbed.length - 1) * (tokensBeforeRun afterRun + 1) + tokensBeforeRun tokens + 1 :=
  if_neg hname

/-- A cursor with characters left has a move left. -/
theorem Cursor.budget_pos {s : Cursor} (hname : s.name ≠ []) : 0 < s.budget := by
  unfold Cursor.budget
  rw [if_neg hname]
  split <;> omega

/-- A match starts with the budget that the lengths of the pattern and of the name allow. -/
theorem Cursor.budget_start_le (tokens : List Token) (name : Text) :
    (Cursor.start tokens name).budget ≤ moveBound tokens name := by
  have hsplit := tokensBeforeRun_add_tokensFromRun tokens
  cases name with
  | nil => simp [Cursor.budget, Cursor.start]
  | cons c rest =>
    rw [Cursor.start, Cursor.budget_none tokens (List.cons_ne_nil c rest), moveBound, ← hsplit,
      List.length_cons]
    nlinarith

/-- Entering a run draws on the budget: the run becomes the retry point of the tokens behind it. -/
theorem Cursor.budget_enterRun_lt {tokens : List Token} {c : Char} {rest : Text}
    {retry : Option (List Token × Text)}
    (hs : (Cursor.mk (.anyRun :: tokens) (c :: rest) retry).Coherent) :
    (Cursor.mk tokens (c :: rest) (some (tokens, c :: rest))).budget <
      (Cursor.mk (.anyRun :: tokens) (c :: rest) retry).budget := by
  have hsplit := tokensBeforeRun_add_tokensFromRun tokens
  have hname := List.cons_ne_nil c rest
  rw [Cursor.budget_some tokens hname]
  cases retry with
  | none =>
    rw [Cursor.budget_none _ hname, tokensFromRun_run, tokensBeforeRun_run, ← hsplit,
      List.length_cons, Nat.add_sub_cancel]
    nlinarith
  | some point =>
    rcases hs point.1 point.2 rfl with ⟨taken, passed, -, -, habsorbed⟩
    have hlength : rest.length + 1 ≤ point.2.length := by simp [habsorbed]
    rw [Cursor.budget_some _ hname, tokensFromRun_run, tokensBeforeRun_run, ← hsplit,
      List.length_cons, Nat.add_sub_cancel]
    nlinarith

/-- Taking a character draws on the budget: one token less is left before the next run. -/
theorem Cursor.budget_takeChar_lt {token : Token} {c : Char} (haccepts : token.accepts c = true)
    (tokens : List Token) {rest : Text} (hrest : rest ≠ []) (retry : Option (List Token × Text)) :
    (Cursor.mk tokens rest retry).budget < (Cursor.mk (token :: tokens) (c :: rest) retry).budget := by
  have hone : Accepted [token] [c] := .cons haccepts .nil
  have hbefore : tokensBeforeRun (token :: tokens) = 1 + tokensBeforeRun tokens :=
    tokensBeforeRun_append_of_accepted hone tokens
  have hfrom : tokensFromRun (token :: tokens) = tokensFromRun tokens :=
    tokensFromRun_append_of_accepted hone tokens
  have hname := List.cons_ne_nil c rest
  cases retry with
  | none =>
    rw [Cursor.budget_none _ hrest, Cursor.budget_none _ hname, hbefore, hfrom, List.length_cons]
    nlinarith
  | some point =>
    rw [Cursor.budget_some _ hrest, Cursor.budget_some _ hname, hbefore, hfrom]
    omega

/-- Absorbing a character draws on the budget: one diagonal less is left before the next run. -/
theorem Cursor.budget_absorbChar_lt {tokens : List Token} {c : Char} {rest : Text}
    {afterRun : List Token} {absorbed : Text} (hrest : absorbed.tail ≠ [])
    (hs : (Cursor.mk tokens (c :: rest) (some (afterRun, absorbed))).Coherent) :
    (Cursor.mk afterRun absorbed.tail (some (afterRun, absorbed.tail))).budget <
      (Cursor.mk tokens (c :: rest) (some (afterRun, absorbed))).budget := by
  rcases hs afterRun absorbed rfl with ⟨taken, passed, htaken, hafter, -⟩
  have hfrom : tokensFromRun afterRun = tokensFromRun tokens := by
    rw [hafter, tokensFromRun_append_of_accepted htaken]
  obtain ⟨n, hlength⟩ : ∃ n, absorbed.length = n + 2 := by
    have := List.length_pos_of_ne_nil hrest
    rw [List.length_tail] at this
    exact ⟨absorbed.length - 2, by omega⟩
  rw [Cursor.budget_some _ hrest, Cursor.budget_some _ (List.cons_ne_nil c rest), hfrom,
    List.length_tail, hlength]
  simp only [Nat.add_one_sub_one]
  nlinarith

/-- Every move draws on the budget. -/
theorem Cursor.budget_lt_of_step {s s' : Cursor} (h : s.Step s') (hs : s.Coherent) :
    s'.budget < s.budget := by
  by_cases hname : s'.name = []
  · have hzero : s'.budget = 0 := if_pos hname
    rw [hzero]
    apply Cursor.budget_pos
    cases h <;> simp
  · cases h with
    | enterRun => exact Cursor.budget_enterRun_lt hs
    | takeChar haccepts tokens rest retry =>
      exact Cursor.budget_takeChar_lt haccepts tokens hname retry
    | absorbChar => exact Cursor.budget_absorbChar_lt hname hs

/-! ## A whole match -/

/-- A run of moves that the budget covers succeeds exactly when the match can succeed. -/
theorem Cursor.run_iff_matchable {s : Cursor} (hs : s.Coherent) {fuel : Nat}
    (hfuel : s.budget ≤ fuel) : s.run fuel = true ↔ s.Matchable := by
  induction fuel generalizing s with
  | zero =>
    have hname : s.name = [] := by
      by_contra hname
      have := Cursor.budget_pos hname
      omega
    rw [Cursor.matchable_iff_takesNothing hname hs]
    simp [Cursor.run, hname]
  | succ fuel ih =>
    cases hname : s.name with
    | nil =>
      rw [Cursor.matchable_iff_takesNothing hname hs]
      simp [Cursor.run, hname]
    | cons c rest =>
      simp only [Cursor.run, hname]
      rcases Cursor.move_cases hname with ⟨s', hmove, hstep⟩ | ⟨hmove, hretry, hstuck⟩
      · have hbudget := Cursor.budget_lt_of_step hstep hs
        simp only [hmove]
        rw [ih (Cursor.coherent_of_step hstep hs) (by omega)]
        exact Cursor.matchable_iff_of_step hstep hs
      · have hfails := hstuck.not_describes rest
        simp [hmove, Cursor.Matchable, hretry, hname, hfails]

/-- A pattern matches the names that its tokens describe. -/
theorem matches_iff_describes (p : Pattern) (name : Text) :
    p.matches name = true ↔ Describes p.tokens name :=
  Cursor.run_iff_matchable (Cursor.coherent_start p.tokens name)
    (Cursor.budget_start_le p.tokens name)

/-- A pattern, whatever its tokens, matches a name exactly when the name can be cut into consecutive
pieces, one for each token in order, that the tokens take. -/
theorem matches_iff_exists_pieces (p : Pattern) (name : Text) :
    p.matches name = true ↔
      ∃ pieces : List Text, pieces.flatten = name ∧ List.Forall₂ Token.Takes p.tokens pieces := by
  rw [matches_iff_describes]
  exact describes_iff_exists_pieces

/-- Two runs around a repeated middle: the first run gives up nothing that the name needs. -/
example : (Pattern.ofText "a*bc*d".toList).matches "abxbcbcd".toList = true := by decide +kernel

end KernelTools.Wildcard
