import KernelTools.Wildcard.Matching
import Mathlib.Data.List.Forall2

/-!
# What a wildcard pattern describes

This module says without any matcher which names a pattern describes.  A name is cut into
consecutive pieces, one for each token and in the order of the tokens, and every token takes its own
piece: a run takes any piece, every other token one character.

Main results:

- Theorem {lit}`describes_iff_exists_pieces`: the inductive relation {lit}`Describes` holds exactly
  when such a cut exists.
- Theorem {lit}`describes_append_iff`: a pattern in two parts describes the names that can be cut in
  two accordingly.
- Theorem {lit}`describes_append_of_accepted`: tokens that have taken characters one by one can be
  dropped together with these characters.
-/

namespace KernelTools.Wildcard

/-! ## Pieces -/

/-- A class member holds one character, or all from its lower to its upper end. -/
def ClassItem.Holds : ClassItem → Char → Prop
  | .single d, c => c = d
  | .range low high, c => low ≤ c ∧ c ≤ high

/-- The pieces of a name that a token takes.  A class takes one character whose membership in its
items differs from the negation flag. -/
def Token.Takes : Token → Text → Prop
  | .literal d, piece => piece = [d]
  | .anyChar, piece => ∃ c, piece = [c]
  | .anyRun, _ => True
  | .charClass negated items, piece =>
    ∃ c, piece = [c] ∧ ((∃ item ∈ items, item.Holds c) ↔ negated = false)

/-- Covering a character is holding it. -/
theorem ClassItem.covers_iff_holds (item : ClassItem) (c : Char) :
    item.covers c = true ↔ item.Holds c := by
  cases item with
  | single d =>
    rw [ClassItem.covers, ClassItem.Holds, beq_iff_eq]
    exact eq_comm
  | range low high => simp [ClassItem.covers, ClassItem.Holds]

/-- A range whose ends are the wrong way round holds nothing. -/
theorem ClassItem.not_holds_range {low high : Char} (h : high < low) (c : Char) :
    ¬ (ClassItem.range low high).Holds c := by
  rintro ⟨hlow, hhigh⟩
  exact absurd (Char.le_trans hlow hhigh) (Char.not_le.2 h)

/-- A token other than a run takes the pieces of one character that it accepts. -/
theorem Token.takes_iff_accepts {token : Token} (h : token ≠ .anyRun) (piece : Text) :
    token.Takes piece ↔ ∃ c, piece = [c] ∧ token.accepts c = true := by
  cases token with
  | literal d =>
    constructor
    · intro hpiece
      exact ⟨d, hpiece, by simp [Token.accepts]⟩
    · rintro ⟨c, hpiece, haccepts⟩
      have hdc : d = c := by simpa [Token.accepts] using haccepts
      rw [hdc]
      exact hpiece
  | anyChar => simp [Token.Takes, Token.accepts]
  | anyRun => exact absurd rfl h
  | charClass negated items =>
    have hfound (c : Char) :
        items.any (·.covers c) = true ↔ ∃ item ∈ items, item.Holds c := by
      simp [List.any_eq_true, ClassItem.covers_iff_holds]
    simp only [Token.Takes, Token.accepts, ← hfound]
    cases negated <;> simp

/-! ## Described names -/

/-- The names that a list of tokens describes. -/
inductive Describes : List Token → Text → Prop
  /-- No tokens describe the empty name. -/
  | nothing : Describes [] []
  /-- A run takes any piece. -/
  | run (absorbed : Text) {tokens : List Token} {rest : Text} (h : Describes tokens rest) :
    Describes (.anyRun :: tokens) (absorbed ++ rest)
  /-- Another token takes a character that it accepts. -/
  | char {token : Token} {c : Char} (haccepts : token.accepts c = true) {tokens : List Token}
    {rest : Text} (h : Describes tokens rest) : Describes (token :: tokens) (c :: rest)

/-- No run is accepted as a character. -/
theorem Token.ne_anyRun_of_accepts {token : Token} {c : Char} (h : token.accepts c = true) :
    token ≠ .anyRun := by
  rintro rfl
  simp [Token.accepts] at h

@[simp]
theorem describes_nil_iff {name : Text} : Describes [] name ↔ name = [] := by
  constructor
  · intro h
    cases h
    rfl
  · rintro rfl
    exact .nothing

/-- A run takes the front of a name and leaves an end of it. -/
theorem describes_run_iff {tokens : List Token} {name : Text} :
    Describes (.anyRun :: tokens) name ↔ ∃ rest, rest <:+ name ∧ Describes tokens rest := by
  constructor
  · intro h
    cases h with
    | run absorbed h => exact ⟨_, List.suffix_append _ _, h⟩
    | char haccepts => simp [Token.accepts] at haccepts
  · rintro ⟨rest, ⟨absorbed, rfl⟩, h⟩
    exact .run absorbed h

/-- A token other than a run takes the first character. -/
theorem describes_cons_iff {token : Token} (htoken : token ≠ .anyRun) {tokens : List Token}
    {name : Text} :
    Describes (token :: tokens) name ↔
      ∃ c rest, name = c :: rest ∧ token.accepts c = true ∧ Describes tokens rest := by
  constructor
  · intro h
    cases h with
    | run absorbed h => exact absurd rfl htoken
    | char haccepts h => exact ⟨_, _, rfl, haccepts, h⟩
  · rintro ⟨c, rest, rfl, haccepts, h⟩
    exact .char haccepts h

/-- A list of tokens describes a name exactly when the name can be cut into pieces, one for each
token in order. -/
theorem describes_iff_exists_pieces {tokens : List Token} {name : Text} :
    Describes tokens name ↔
      ∃ pieces : List Text, pieces.flatten = name ∧ List.Forall₂ Token.Takes tokens pieces := by
  constructor
  · intro h
    induction h with
    | nothing => exact ⟨[], rfl, .nil⟩
    | run absorbed _ ih =>
      rcases ih with ⟨pieces, rfl, htakes⟩
      exact ⟨absorbed :: pieces, rfl, .cons trivial htakes⟩
    | @char token c haccepts _ _ _ ih =>
      rcases ih with ⟨pieces, rfl, htakes⟩
      have hpiece : token.Takes [c] :=
        (Token.takes_iff_accepts (Token.ne_anyRun_of_accepts haccepts) _).2 ⟨c, rfl, haccepts⟩
      exact ⟨[c] :: pieces, rfl, .cons hpiece htakes⟩
  · rintro ⟨pieces, rfl, htakes⟩
    induction htakes with
    | nil => exact .nothing
    | @cons token piece tokens pieces hpiece _ ih =>
      by_cases hrun : token = .anyRun
      · subst hrun
        exact .run piece ih
      · rcases (Token.takes_iff_accepts hrun piece).1 hpiece with ⟨c, rfl, haccepts⟩
        exact .char haccepts ih

/-! ## Patterns in two parts -/

/-- A pattern in two parts describes the names that can be cut in two accordingly. -/
theorem describes_append_iff {front back : List Token} {name : Text} :
    Describes (front ++ back) name ↔
      ∃ left right, name = left ++ right ∧ Describes front left ∧ Describes back right := by
  constructor
  · intro h
    induction front generalizing name with
    | nil => exact ⟨[], name, rfl, .nothing, h⟩
    | cons token front ih =>
      rw [List.cons_append] at h
      cases h with
      | run absorbed h =>
        rcases ih h with ⟨left, right, rfl, hleft, hright⟩
        exact ⟨absorbed ++ left, right, by simp, .run absorbed hleft, hright⟩
      | @char _ c haccepts _ _ h =>
        rcases ih h with ⟨left, right, rfl, hleft, hright⟩
        exact ⟨c :: left, right, rfl, .char haccepts hleft, hright⟩
  · rintro ⟨left, right, rfl, hleft, hright⟩
    induction hleft with
    | nothing => exact hright
    | run absorbed _ ih =>
      rw [List.append_assoc]
      exact .run absorbed ih
    | char haccepts _ ih => exact .char haccepts ih

/-- Tokens that accept characters one by one. -/
abbrev Accepted : List Token → Text → Prop :=
  List.Forall₂ fun token c => token.accepts c = true

/-- Tokens that have taken characters one by one can be dropped together with these characters. -/
theorem describes_append_of_accepted {taken tokens : List Token} {passed rest : Text}
    (h : Accepted taken passed) :
    Describes (taken ++ tokens) (passed ++ rest) ↔ Describes tokens rest := by
  induction h with
  | nil => rfl
  | cons haccepts _ ih =>
    rw [List.cons_append, List.cons_append,
      describes_cons_iff (Token.ne_anyRun_of_accepts haccepts)]
    simp [haccepts, ih]

/-- Tokens that accept characters one by one describe no name of another length. -/
theorem length_eq_of_accepted {taken : List Token} {passed name : Text} (h : Accepted taken passed)
    (hname : Describes taken name) : name.length = passed.length := by
  induction h generalizing name with
  | nil =>
    rw [describes_nil_iff] at hname
    rw [hname]
  | cons haccepts _ ih =>
    rw [describes_cons_iff (Token.ne_anyRun_of_accepts haccepts)] at hname
    rcases hname with ⟨d, rest, rfl, -, hrest⟩
    rw [List.length_cons, List.length_cons, ih hrest]

/-- A run in front of tokens that have taken characters one by one only shifts them: what it leaves
for the tokens behind is an end of what was left before. -/
theorem exists_suffix_of_describes_run {taken tokens : List Token} {passed rest : Text}
    (htaken : Accepted taken passed)
    (h : Describes (.anyRun :: (taken ++ tokens)) (passed ++ rest)) :
    ∃ right, right <:+ rest ∧ Describes tokens right := by
  rcases describes_run_iff.1 h with ⟨name, ⟨absorbed, hname⟩, hdescribes⟩
  rcases describes_append_iff.1 hdescribes with ⟨left, right, rfl, hleft, hright⟩
  refine ⟨right, ?_, hright⟩
  have hsuffix : right <:+ passed ++ rest := ⟨absorbed ++ left, by simpa using hname⟩
  have hlength : left.length = passed.length := length_eq_of_accepted htaken hleft
  have hle : right.length ≤ rest.length := by
    have htotal := congrArg List.length hname
    simp only [List.length_append] at htotal
    omega
  exact List.suffix_of_suffix_length_le hsuffix (List.suffix_append _ _) hle

/-- The empty name is described by runs alone. -/
theorem describes_nil_right_iff {tokens : List Token} :
    Describes tokens [] ↔ takesNothing tokens = true := by
  induction tokens with
  | nil => simp [takesNothing]
  | cons token tokens ih =>
    by_cases hrun : token = .anyRun
    · subst hrun
      rw [describes_run_iff]
      simpa [takesNothing] using ih
    · rw [describes_cons_iff hrun]
      simp [takesNothing, hrun]

end KernelTools.Wildcard
