import KernelTools.Proofs.Wildcard.Matching

/-!
# Positions of a match

A cursor holds what is left of a pattern and of a name.  The same match can be told by numbers: how
many tokens and how many characters lie behind.  Both numbers may fall when the most recent run
absorbs a character, so neither of them shows that a match ends.  But together they settle what the
retry point is, since it lies behind the last run among the tokens passed; so the position tells the
whole cursor, and a match that draws on a budget with every move never comes to a position twice.

Main results:

- Theorem {lit}`Position.next?_cursor`: numbers move as the cursor does.
- Theorem {lit}`Position.Sound.of_step`: a move stays within the pattern and the name.
- Theorem {lit}`Position.Sound.eq_of_same`: a position settles the retry point.
- Theorem {lit}`matches_without_return`: a match comes to no position twice, stays in bounds and ends
  within {lit}`(tokens + 1) * characters` moves.
-/

namespace KernelTools.Wildcard

/-! ## Numbers for a cursor -/

/-- Where a match stands, in numbers: tokens and characters that lie behind, and, once a run has been
entered, those that lay behind when the most recent run ended its absorption. -/
structure Position where
  token : Nat
  char : Nat
  retry : Option (Nat × Nat)

namespace Position

/-- The position at the start of a match. -/
def start : Position :=
  ⟨0, 0, none⟩

/-- Lets the most recent run absorb one character more; {lean}`none` when there is no run. -/
def absorb (p : Position) : Option Position :=
  p.retry.map fun (afterRun, absorbed) => ⟨afterRun, absorbed + 1, some (afterRun, absorbed + 1)⟩

/-- One move of a match; {lean}`none` when the match has ended. -/
def next? (tokens : List Token) (name : Text) (p : Position) : Option Position :=
  match name[p.char]? with
  | none => none
  | some c =>
    match tokens[p.token]? with
    | some .anyRun => some ⟨p.token + 1, p.char, some (p.token + 1, p.char)⟩
    | some token => if token.accepts c then some ⟨p.token + 1, p.char + 1, p.retry⟩ else p.absorb
    | none => p.absorb

/-- The cursor at a position. -/
def cursor (tokens : List Token) (name : Text) (p : Position) : Cursor :=
  ⟨tokens.drop p.token, name.drop p.char,
    p.retry.map fun (afterRun, absorbed) => (tokens.drop afterRun, name.drop absorbed)⟩

/-- Whether a match that has ended at a position has succeeded. -/
def verdict (tokens : List Token) (name : Text) (p : Position) : Bool :=
  decide (p.char = name.length) && takesNothing (tokens.drop p.token)

end Position

/-- One move of a cursor; {lean}`none` when the match has ended. -/
def Cursor.next? (s : Cursor) : Option Cursor :=
  match s.name with
  | [] => none
  | c :: rest => s.move c rest

variable {tokens : List Token} {name : Text} {p q : Position} {m n : Nat}

/-! ## The same match -/

theorem Position.absorb_cursor (tokens : List Token) (name : Text) (p : Position) :
    (p.cursor tokens name).absorb = p.absorb.map (cursor tokens name) := by
  rcases p with ⟨token, char, _ | ⟨afterRun, absorbed⟩⟩
  · rfl
  · simp [Position.cursor, Position.absorb, Cursor.absorb]

/-- What is left of a list starts with the element of that number. -/
theorem getElem?_of_drop_eq_cons {α : Type} {l rest : List α} {i : Nat} {a : α}
    (h : l.drop i = a :: rest) : l[i]? = some a ∧ l.drop (i + 1) = rest := by
  constructor
  · rw [← List.head?_drop, h, List.head?_cons]
  · rw [← List.tail_drop, h, List.tail_cons]

/-- Numbers move as the cursor does. -/
theorem Position.next?_cursor (tokens : List Token) (name : Text) (p : Position) :
    (p.cursor tokens name).next? = (p.next? tokens name).map (cursor tokens name) := by
  cases hname : name.drop p.char with
  | nil =>
    have hnone : name[p.char]? = none := by rw [← List.head?_drop, hname, List.head?_nil]
    simp only [Cursor.next?, Position.next?, Position.cursor, hname, hnone, Option.map_none]
  | cons c rest =>
    rcases getElem?_of_drop_eq_cons hname with ⟨hchar, hrest⟩
    have hnext : (p.cursor tokens name).next? = (p.cursor tokens name).move c rest := by
      simp only [Cursor.next?, Position.cursor, hname]
    rw [hnext, Position.next?, hchar]
    cases htokens : tokens.drop p.token with
    | nil =>
      have hnone : tokens[p.token]? = none := by rw [← List.head?_drop, htokens, List.head?_nil]
      have hstuck : Stuck (p.cursor tokens name).tokens c := by simp [Position.cursor, htokens, Stuck]
      rw [Cursor.move_eq_absorb hstuck, Position.absorb_cursor, hnone]
    | cons token more =>
      rcases getElem?_of_drop_eq_cons htokens with ⟨htoken, hmore⟩
      rw [htoken]
      by_cases hrun : token = .anyRun
      · subst hrun
        simp [Cursor.move, Position.cursor, htokens, hmore]
      · by_cases haccepts : token.accepts c = true
        · simp [Cursor.move, Position.cursor, htokens, hmore, hrest, haccepts]
        · have hstuck : Stuck (p.cursor tokens name).tokens c := by
            simpa [Position.cursor, htokens, Stuck, hrun] using haccepts
          rw [Cursor.move_eq_absorb hstuck, Position.absorb_cursor]
          simp [haccepts]

/-- What a match does with fuel left: it ends, or makes a move. -/
theorem Cursor.run_succ (s : Cursor) (fuel : Nat) :
    s.run (fuel + 1) =
      match s.next? with
      | none => s.name.isEmpty && takesNothing s.tokens
      | some s' => s'.run fuel := by
  rcases s with ⟨tokens, _ | ⟨c, rest⟩, retry⟩
  · rfl
  · rw [Cursor.run, Cursor.next?]
    cases (Cursor.mk tokens (c :: rest) retry).move c rest <;> rfl

theorem Cursor.step_of_next? {s s' : Cursor} (h : s.next? = some s') : s.Step s' := by
  cases hname : s.name with
  | nil => simp [Cursor.next?, hname] at h
  | cons c rest =>
    simp only [Cursor.next?, hname] at h
    rcases Cursor.move_cases hname with ⟨s'', hmove, hstep⟩ | ⟨hmove, -, -⟩
    · rw [hmove, Option.some.injEq] at h
      exact h ▸ hstep
    · rw [hmove] at h
      contradiction

/-! ## What a move does to the numbers -/

/-- The moves of a position that has a character ahead. -/
inductive Position.Step (tokens : List Token) (name : Text) (p : Position) : Position → Prop
  | enterRun (hchar : p.char < name.length) (htoken : tokens[p.token]? = some .anyRun) :
    p.Step tokens name ⟨p.token + 1, p.char, some (p.token + 1, p.char)⟩
  | takeChar {token : Token} (hchar : p.char < name.length)
    (htoken : tokens[p.token]? = some token) (hrun : token ≠ .anyRun) :
    p.Step tokens name ⟨p.token + 1, p.char + 1, p.retry⟩
  | absorbChar {afterRun absorbed : Nat} (hchar : p.char < name.length)
    (hretry : p.retry = some (afterRun, absorbed)) :
    p.Step tokens name ⟨afterRun, absorbed + 1, some (afterRun, absorbed + 1)⟩

theorem Position.step_of_absorb (hchar : p.char < name.length) (h : p.absorb = some q) :
    p.Step tokens name q := by
  rcases Option.map_eq_some_iff.1 h with ⟨⟨afterRun, absorbed⟩, hretry, rfl⟩
  exact .absorbChar hchar hretry

theorem Position.step_of_next? (h : p.next? tokens name = some q) : p.Step tokens name q := by
  rw [Position.next?] at h
  cases hname : name[p.char]? with
  | none => simp [hname] at h
  | some c =>
    have hchar : p.char < name.length := (List.getElem?_eq_some_iff.1 hname).1
    cases htoken : tokens[p.token]? with
    | none =>
      simp only [hname, htoken] at h
      exact step_of_absorb hchar h
    | some token =>
      by_cases hrun : token = .anyRun
      · subst hrun
        simp only [hname, htoken, Option.some.injEq] at h
        subst h
        exact .enterRun hchar htoken
      · simp only [hname, htoken] at h
        by_cases haccepts : token.accepts c = true
        · rw [if_pos haccepts, Option.some.injEq] at h
          subst h
          exact .takeChar hchar htoken hrun
        · rw [if_neg haccepts] at h
          exact step_of_absorb hchar h

/-! ## What a position settles -/

/-- So many tokens make up the first ones to the last run among them, that run included. -/
structure EndsLastRun (tokens : List Token) (token afterRun : Nat) : Prop where
  pos : 0 < afterRun
  le : afterRun ≤ token
  isRun : tokens[afterRun - 1]? = some .anyRun
  last : ∀ i, afterRun ≤ i → i < token → tokens[i]? ≠ some .anyRun

theorem EndsLastRun.unique {token afterRun afterRun' : Nat} (h : EndsLastRun tokens token afterRun)
    (h' : EndsLastRun tokens token afterRun') : afterRun = afterRun' := by
  have hle := h.le
  have hle' := h'.le
  by_contra hne
  rcases Nat.lt_or_gt_of_ne hne with hlt | hlt
  · exact h.last (afterRun' - 1) (by omega) (by omega) h'.isRun
  · exact h'.last (afterRun - 1) (by omega) (by omega) h.isRun

theorem endsLastRun_self {afterRun : Nat} (hpos : 0 < afterRun)
    (hrun : tokens[afterRun - 1]? = some .anyRun) : EndsLastRun tokens afterRun afterRun where
  pos := hpos
  le := Nat.le_refl _
  isRun := hrun
  last := by
    intro i hle hlt
    omega

/-- A position lies within the pattern and the name, and its retry point is the last run among the
tokens passed, moved along by as much as the position lies behind it. -/
structure Position.Sound (tokens : List Token) (name : Text) (p : Position) : Prop where
  token_le : p.token ≤ tokens.length
  char_le : p.char ≤ name.length
  of_none : p.retry = none → ∀ i < p.token, tokens[i]? ≠ some .anyRun
  of_some : ∀ afterRun absorbed, p.retry = some (afterRun, absorbed) →
    EndsLastRun tokens p.token afterRun ∧ p.token + absorbed = p.char + afterRun

theorem Position.sound_start (tokens : List Token) (name : Text) :
    start.Sound tokens name where
  token_le := Nat.zero_le _
  char_le := Nat.zero_le _
  of_none := by
    intro _ i hi
    cases hi
  of_some := by
    intro afterRun absorbed h
    cases h

/-- A move stays within the pattern and the name, and keeps the retry point in its place. -/
theorem Position.Sound.of_step (hp : p.Sound tokens name) (h : p.Step tokens name q) :
    q.Sound tokens name := by
  have htoken_le := hp.token_le
  have hchar_le := hp.char_le
  cases h with
  | enterRun hchar htoken =>
    have hlt : p.token < tokens.length := (List.getElem?_eq_some_iff.1 htoken).1
    refine ⟨hlt, hchar_le, by simp, ?_⟩
    intro afterRun absorbed hretry
    cases hretry
    exact ⟨endsLastRun_self (Nat.succ_pos _) htoken, Nat.add_comm _ _⟩
  | takeChar hchar htoken hrun =>
    have hlt : p.token < tokens.length := (List.getElem?_eq_some_iff.1 htoken).1
    -- The token passed is no run, so that the last run among the tokens passed stays the same.
    have hpassed : tokens[p.token]? ≠ some .anyRun := by
      rw [htoken]
      simpa using hrun
    refine ⟨hlt, hchar, ?_, ?_⟩
    · intro hretry i hi
      rcases Nat.lt_succ_iff_lt_or_eq.1 hi with hi | rfl
      · exact hp.of_none hretry i hi
      · exact hpassed
    · intro afterRun absorbed hretry
      rcases hp.of_some afterRun absorbed hretry with ⟨hends, hsum⟩
      refine ⟨⟨hends.pos, Nat.le_succ_of_le hends.le, hends.isRun, ?_⟩, ?_⟩
      · intro i hle hi
        rcases Nat.lt_succ_iff_lt_or_eq.1 hi with hi | rfl
        · exact hends.last i hle hi
        · exact hpassed
      · dsimp only
        omega
  | @absorbChar afterRun absorbed hchar hretry =>
    rcases hp.of_some afterRun absorbed hretry with ⟨hends, hsum⟩
    have hle := hends.le
    refine ⟨by dsimp only; omega, by dsimp only; omega, by simp, ?_⟩
    intro afterRun' absorbed' hretry'
    cases hretry'
    exact ⟨endsLastRun_self hends.pos hends.isRun, Nat.add_comm _ _⟩

/-- Without a retry point there is no run among the tokens passed. -/
theorem Position.Sound.not_endsLastRun {afterRun : Nat} (hp : p.Sound tokens name)
    (hretry : p.retry = none) : ¬ EndsLastRun tokens p.token afterRun := by
  intro hends
  have hpos := hends.pos
  have hle := hends.le
  exact hp.of_none hretry (afterRun - 1) (by omega) hends.isRun

/-- A position settles the retry point: it is behind the last run among the tokens passed, and has
absorbed as much as the characters behind that run leave. -/
theorem Position.Sound.eq_of_same (hp : p.Sound tokens name) (hq : q.Sound tokens name)
    (htoken : p.token = q.token) (hchar : p.char = q.char) : p = q := by
  rcases p with ⟨token, char, retry⟩
  rcases q with ⟨token', char', retry'⟩
  dsimp only at htoken hchar
  subst htoken hchar
  cases retry with
  | none =>
    cases retry' with
    | none => rfl
    | some point =>
      rcases hq.of_some point.1 point.2 rfl with ⟨hends, -⟩
      exact absurd hends (hp.not_endsLastRun rfl)
  | some point =>
    rcases hp.of_some point.1 point.2 rfl with ⟨hends, hsum⟩
    cases retry' with
    | none => exact absurd hends (hq.not_endsLastRun rfl)
    | some point' =>
      rcases hq.of_some point'.1 point'.2 rfl with ⟨hends', hsum'⟩
      have hafter := hends.unique hends'
      dsimp only at hsum hsum'
      have habsorbed : point.2 = point'.2 := by omega
      rw [Prod.ext hafter habsorbed]

/-! ## The moves of a match -/

/-- Moving on from a state so many times comes to another. -/
inductive Moves {α : Type} (next? : α → Option α) (a : α) : Nat → α → Prop
  | start : Moves next? a 0 a
  | next {n : Nat} {b c : α} (h : Moves next? a n b) (hnext : next? b = some c) :
    Moves next? a (n + 1) c

theorem Moves.unique {α : Type} {next? : α → Option α} {a b c : α} (h : Moves next? a n b)
    (h' : Moves next? a n c) : b = c := by
  induction h generalizing c with
  | start =>
    cases h'
    rfl
  | next _ hnext ih =>
    cases h' with
    | next h' hnext' =>
      cases ih h'
      exact Option.some.inj (hnext.symm.trans hnext')

/-- Moves that a view keeps up with can be told by either side of it. -/
theorem moves_view_iff {α β : Type} {next? : α → Option α} {next?' : β → Option β} {view : α → β}
    (hview : ∀ a, next?' (view a) = (next? a).map view) {a : α} {b : β} :
    Moves next?' (view a) n b ↔ ∃ c, Moves next? a n c ∧ view c = b := by
  constructor
  · intro h
    induction h with
    | start => exact ⟨a, .start, rfl⟩
    | next _ hnext ih =>
      rcases ih with ⟨c, hc, rfl⟩
      rw [hview, Option.map_eq_some_iff] at hnext
      rcases hnext with ⟨d, hd, hb⟩
      exact ⟨d, hc.next hd, hb⟩
  · rintro ⟨c, hc, rfl⟩
    induction hc with
    | start => exact .start
    | next _ hnext ih => exact ih.next (by rw [hview, hnext, Option.map_some])

/-- A match comes to a position after so many moves. -/
abbrev Position.Reached (tokens : List Token) (name : Text) : Nat → Position → Prop :=
  Moves (next? tokens name) start

/-- The cursors of a match are those at the positions that it comes to. -/
theorem Position.moves_cursor_iff {s : Cursor} :
    Moves Cursor.next? (Cursor.start tokens name) n s ↔
      ∃ p, Reached tokens name n p ∧ p.cursor tokens name = s := by
  have hstart : Cursor.start tokens name = start.cursor tokens name := rfl
  rw [hstart]
  exact moves_view_iff (next?_cursor tokens name)

theorem Position.Reached.sound (h : Reached tokens name n p) : p.Sound tokens name := by
  induction h with
  | start => exact sound_start tokens name
  | next _ hnext ih => exact ih.of_step (step_of_next? hnext)

theorem Position.step_cursor (h : p.next? tokens name = some q) :
    (p.cursor tokens name).Step (q.cursor tokens name) := by
  apply Cursor.step_of_next?
  rw [next?_cursor, h, Option.map_some]

theorem Position.Reached.coherent (h : Reached tokens name n p) :
    (p.cursor tokens name).Coherent := by
  induction h with
  | start => exact Cursor.coherent_start tokens name
  | next _ hnext ih => exact Cursor.coherent_of_step (step_cursor hnext) ih

theorem Position.Reached.budget_lt (h : Reached tokens name n p)
    (hnext : p.next? tokens name = some q) :
    (q.cursor tokens name).budget < (p.cursor tokens name).budget :=
  Cursor.budget_lt_of_step (step_cursor hnext) h.coherent

/-- The moves made and those left never exceed what the match started with. -/
theorem Position.Reached.budget_add_le (h : Reached tokens name n p) :
    (p.cursor tokens name).budget + n ≤ moveBound tokens name := by
  induction h with
  | start => exact Cursor.budget_start_le tokens name
  | next h hnext ih =>
    have hlt := Reached.budget_lt h hnext
    omega

/-- Later positions have less of the budget left. -/
theorem Position.Reached.budget_lt_of_lt (hp : Reached tokens name m p)
    (hq : Reached tokens name n q) (hlt : m < n) :
    (q.cursor tokens name).budget < (p.cursor tokens name).budget := by
  induction hq with
  | start => cases hlt
  | @next n r q hr hnext ih =>
    have hrest := Reached.budget_lt hr hnext
    rcases Nat.lt_succ_iff_lt_or_eq.1 hlt with hlt | rfl
    · exact hrest.trans (ih hlt)
    · rw [Moves.unique hp hr]
      exact hrest

/-- No position is come to twice. -/
theorem Position.Reached.eq_of_same (hp : Reached tokens name m p) (hq : Reached tokens name n q)
    (htoken : p.token = q.token) (hchar : p.char = q.char) : m = n := by
  have heq : p = q := hp.sound.eq_of_same hq.sound htoken hchar
  subst heq
  by_contra hne
  rcases Nat.lt_or_gt_of_ne hne with hlt | hlt
  · exact Nat.lt_irrefl _ (hp.budget_lt_of_lt hq hlt)
  · exact Nat.lt_irrefl _ (hq.budget_lt_of_lt hp hlt)

theorem Position.Sound.verdict_eq (hp : p.Sound tokens name) :
    p.verdict tokens name =
      ((p.cursor tokens name).name.isEmpty && takesNothing (p.cursor tokens name).tokens) := by
  have hchar := hp.char_le
  have hend : decide (p.char = name.length) = (name.drop p.char).isEmpty := by
    rw [Bool.eq_iff_iff, decide_eq_true_iff, List.isEmpty_iff, List.drop_eq_nil_iff]
    omega
  rw [verdict, hend]
  rfl

/-- A match ends at some position, which tells how it has ended. -/
theorem Position.Reached.exists_last (h : Reached tokens name n p) {fuel : Nat}
    (hfuel : (p.cursor tokens name).budget ≤ fuel) :
    ∃ m q, Reached tokens name m q ∧ q.next? tokens name = none ∧
      (p.cursor tokens name).run fuel = q.verdict tokens name := by
  induction fuel generalizing n p with
  | zero =>
    have hname : (p.cursor tokens name).name = [] := by
      by_contra hname
      have hpos := Cursor.budget_pos hname
      omega
    have hnext : p.next? tokens name = none := by
      rw [← Option.map_eq_none_iff, ← next?_cursor, Cursor.next?, hname]
    exact ⟨n, p, h, hnext, h.sound.verdict_eq.symm⟩
  | succ fuel ih =>
    rw [Cursor.run_succ, next?_cursor]
    cases hnext : p.next? tokens name with
    | none => exact ⟨n, p, h, hnext, h.sound.verdict_eq.symm⟩
    | some q =>
      have hlt := h.budget_lt hnext
      exact ih (h.next hnext) (by omega)

/-! ## A whole match -/

/-- A position lies within the pattern and the name, and so does its retry point, which is directly
behind a run and has absorbed no more than what lies behind. -/
structure Position.InBounds (tokens : List Token) (name : Text) (p : Position) : Prop where
  token_le : p.token ≤ tokens.length
  char_le : p.char ≤ name.length
  retry : ∀ afterRun absorbed, p.retry = some (afterRun, absorbed) →
    0 < afterRun ∧ tokens[afterRun - 1]? = some .anyRun ∧ absorbed ≤ p.char

theorem Position.Sound.inBounds (hp : p.Sound tokens name) : p.InBounds tokens name where
  token_le := hp.token_le
  char_le := hp.char_le
  retry := by
    intro afterRun absorbed hretry
    rcases hp.of_some afterRun absorbed hretry with ⟨hends, hsum⟩
    have hle := hends.le
    exact ⟨hends.pos, hends.isRun, by omega⟩

theorem Position.Reached.le_moveBound (h : Reached tokens name n p) : n ≤ moveBound tokens name := by
  have hle := h.budget_add_le
  omega

/-- As long as there is a character ahead, one move more is allowed for. -/
theorem Position.Reached.lt_moveBound (h : Reached tokens name n p) (hchar : p.char < name.length) :
    n < moveBound tokens name := by
  have hname : (p.cursor tokens name).name ≠ [] := by
    rw [cursor, ne_eq, List.drop_eq_nil_iff]
    omega
  have hpos := Cursor.budget_pos hname
  have hle := h.budget_add_le
  omega

/-- A match of a pattern against a name goes through the cursors at the positions that it comes to.
They lie within the pattern and the name, no two of them are the same, and those with a character
ahead are at most {lit}`(tokens + 1) * characters` in number.  So the match ends after no more moves
than that, and its last position tells how. -/
theorem matches_without_return (pattern : Pattern) (name : Text) :
    (∀ n s, Moves Cursor.next? (Cursor.start pattern.tokens name) n s ↔
      ∃ p, Position.Reached pattern.tokens name n p ∧ p.cursor pattern.tokens name = s) ∧
    (∀ n p, Position.Reached pattern.tokens name n p → p.InBounds pattern.tokens name ∧
      (p.char < name.length → n < (pattern.tokens.length + 1) * name.length)) ∧
    (∀ m n p q, Position.Reached pattern.tokens name m p → Position.Reached pattern.tokens name n q →
      p.token = q.token → p.char = q.char → m = n) ∧
    ∃ n p, n ≤ (pattern.tokens.length + 1) * name.length ∧
      Position.Reached pattern.tokens name n p ∧ p.next? pattern.tokens name = none ∧
      pattern.matches name = p.verdict pattern.tokens name := by
  refine ⟨?_, ?_, ?_, ?_⟩
  · intro n s
    exact Position.moves_cursor_iff
  · intro n p hp
    exact ⟨hp.sound.inBounds, hp.lt_moveBound⟩
  · intro m n p q hp hq
    exact hp.eq_of_same hq
  · rcases Position.Reached.exists_last .start (Cursor.budget_start_le pattern.tokens name) with
      ⟨n, p, hp, hend, hverdict⟩
    exact ⟨n, p, hp.le_moveBound, hp, hend, hverdict⟩

/-- The run absorbs a first character after it has been tried without: the match falls back to a token
that it has passed, but to a position that it comes to then only. -/
theorem matches_without_return_of_fallback :
    let pattern : Pattern := ⟨[.anyRun, .literal 'a', .literal 'b']⟩
    let name := "aab".toList
    let p : Position := ⟨1, 1, some (1, 1)⟩
    Position.Reached pattern.tokens name 3 p ∧ p.InBounds pattern.tokens name ∧ 3 < (3 + 1) * 3 ∧
      ∀ m q, Position.Reached pattern.tokens name m q → q.token = 1 → q.char = 1 → m = 3 := by
  intro pattern name p
  have hp : Position.Reached pattern.tokens name 3 p := .next (.next (.next .start rfl) rfl) rfl
  rcases matches_without_return pattern name with ⟨-, hbounds, hsame, -⟩
  rcases hbounds 3 p hp with ⟨hinBounds, hlt⟩
  refine ⟨hp, hinBounds, hlt (by decide), ?_⟩
  intro m q hq htoken hchar
  exact hsame m 3 q p hq hp htoken hchar

end KernelTools.Wildcard
