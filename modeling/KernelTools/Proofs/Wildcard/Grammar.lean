import KernelTools.Wildcard.Pattern
import Mathlib.Data.List.Basic

/-!
# The grammar of wildcard patterns

A pattern is a sequence of units, and every text is one in exactly one way.  The grammar has one rule
for each kind of unit; the two rules for a {lit}`[` exclude each other, since one asks for a
{lit}`]` behind the first character of the class body and the other for its absence.  Reading a
pattern finds the units of the grammar and merges adjacent stars.

Main results:

- Theorem {lit}`exists_scans` and theorem {lit}`Scans.unique`: every text has exactly one sequence of
  units.
- Theorem {lit}`readTokens_of_scans`: reading gives these units with adjacent stars merged.
-/

namespace KernelTools.Wildcard

/-! ## Class bodies -/

/-- Whether the text behind a {lit}`[` would begin a negated class. -/
def isNegated (t : Text) : Bool :=
  t.head? == some '!'

/-- The text behind a {lit}`[` from the first character of a class body on: a leading {lit}`!` does
not belong to the body. -/
def classBody (t : Text) : Text :=
  if isNegated t then t.tail else t

/-- No {lit}`]` stands behind the first character of a class body, so none closes the class. -/
def Unclosed (body : Text) : Prop :=
  ∀ first more, body = first :: more → ']' ∉ more

/-- The items of a class body without its closing bracket, from left to right: {lit}`x-y` is a range,
any other character stands for itself. -/
inductive ItemsOf : Text → List ClassItem → Prop
  | nothing : ItemsOf [] []
  | range (low high : Char) {rest : Text} {items : List ClassItem} (h : ItemsOf rest items) :
    ItemsOf (low :: '-' :: high :: rest) (.range low high :: items)
  | single (c : Char) {rest : Text} {items : List ClassItem}
    (hsingle : ∀ high rest', rest ≠ '-' :: high :: rest') (h : ItemsOf rest items) :
    ItemsOf (c :: rest) (.single c :: items)

theorem ItemsOf.unique {body : Text} {items items' : List ClassItem} (h : ItemsOf body items)
    (h' : ItemsOf body items') : items = items' := by
  induction h generalizing items' with
  | nothing =>
    cases h'
    rfl
  | range low high _ ih =>
    cases h' with
    | range _ _ h' => rw [ih h']
    | single _ hsingle => exact absurd rfl (hsingle _ _)
  | single c hsingle _ ih =>
    cases h' with
    | range => exact absurd rfl (hsingle _ _)
    | single _ _ h' => rw [ih h']

theorem exists_itemsOf : (body : Text) → ∃ items, ItemsOf body items
  | [] => ⟨[], .nothing⟩
  | c :: rest => by
    by_cases hrange : ∃ high rest', rest = '-' :: high :: rest'
    · rcases hrange with ⟨high, rest', rfl⟩
      rcases exists_itemsOf rest' with ⟨items, h⟩
      exact ⟨_, .range c high h⟩
    · rcases exists_itemsOf rest with ⟨items, h⟩
      exact ⟨_, .single c (fun high rest' heq => hrange ⟨high, rest', heq⟩) h⟩

/-! ## Units -/

/-- The units of a text, from left to right.  They are tokens, but every star counts. -/
inductive Scans : Text → List Token → Prop
  | nothing : Scans [] []
  | run {rest : Text} {units : List Token} (h : Scans rest units) :
    Scans ('*' :: rest) (.anyRun :: units)
  | anyChar {rest : Text} {units : List Token} (h : Scans rest units) :
    Scans ('?' :: rest) (.anyChar :: units)
  /-- A class ends at the first {lit}`]` behind the first character of its body. -/
  | charClass {t more rest : Text} {first : Char} {items : List ClassItem} {units : List Token}
    (hbody : classBody t = first :: (more ++ ']' :: rest)) (hmore : ']' ∉ more)
    (hitems : ItemsOf (first :: more) items) (h : Scans rest units) :
    Scans ('[' :: t) (.charClass (isNegated t) items :: units)
  /-- A {lit}`[` that no {lit}`]` closes stands for itself, and the next character is next. -/
  | bracket {t : Text} {units : List Token} (hunclosed : Unclosed (classBody t))
    (h : Scans t units) : Scans ('[' :: t) (.literal '[' :: units)
  | literal {c : Char} {rest : Text} {units : List Token} (hrun : c ≠ '*') (hany : c ≠ '?')
    (hclass : c ≠ '[') (h : Scans rest units) : Scans (c :: rest) (.literal c :: units)

/-- The first occurrence of a character divides a text in one way only. -/
theorem eq_of_append_cons_eq {c : Char} {s s' t t' : Text} (hs : c ∉ s) (hs' : c ∉ s')
    (h : s ++ c :: t = s' ++ c :: t') : s = s' ∧ t = t' := by
  induction s generalizing s' with
  | nil =>
    cases s' with
    | nil => simpa using h
    | cons d s' =>
      rw [List.nil_append, List.cons_append, List.cons.injEq] at h
      simp [h.1] at hs'
  | cons d s ih =>
    cases s' with
    | nil =>
      rw [List.nil_append, List.cons_append, List.cons.injEq] at h
      simp [h.1] at hs
    | cons d' s' =>
      rw [List.cons_append, List.cons_append, List.cons.injEq] at h
      rcases ih (List.not_mem_of_not_mem_cons hs) (List.not_mem_of_not_mem_cons hs') h.2 with
        ⟨rfl, rfl⟩
      exact ⟨by rw [h.1], rfl⟩

/-- A body that a bracket closes is not unclosed. -/
theorem not_unclosed {body more rest : Text} {first : Char}
    (h : body = first :: (more ++ ']' :: rest)) : ¬ Unclosed body := by
  intro hunclosed
  exact hunclosed first _ h (by simp)

theorem exists_close_of_not_unclosed {body : Text} (h : ¬ Unclosed body) :
    ∃ first more rest, body = first :: (more ++ ']' :: rest) ∧ ']' ∉ more := by
  simp only [Unclosed, not_forall, not_not] at h
  rcases h with ⟨first, tail, rfl, hmem⟩
  rcases List.eq_append_cons_of_mem hmem with ⟨more, rest, rfl, hmore⟩
  exact ⟨first, more, rest, rfl, hmore⟩

/-- A text has one sequence of units at most. -/
theorem Scans.unique {t : Text} {units units' : List Token} (h : Scans t units)
    (h' : Scans t units') : units = units' := by
  induction h generalizing units' with
  | nothing =>
    cases h'
    rfl
  | run _ ih =>
    cases h' with
    | run h' => rw [ih h']
    | literal hrun => contradiction
  | anyChar _ ih =>
    cases h' with
    | anyChar h' => rw [ih h']
    | literal _ hany => contradiction
  | charClass hbody hmore hitems _ ih =>
    cases h' with
    | charClass hbody' hmore' hitems' h' =>
      rw [hbody, List.cons.injEq] at hbody'
      rcases hbody' with ⟨rfl, hrest⟩
      rcases eq_of_append_cons_eq hmore hmore' hrest with ⟨rfl, rfl⟩
      rw [hitems.unique hitems', ih h']
    | bracket hunclosed => exact absurd hunclosed (not_unclosed hbody)
    | literal _ _ hclass => contradiction
  | bracket hunclosed _ ih =>
    cases h' with
    | charClass hbody => exact absurd hunclosed (not_unclosed hbody)
    | bracket _ h' => rw [ih h']
    | literal _ _ hclass => contradiction
  | literal hrun hany hclass _ ih =>
    cases h' with
    | literal _ _ _ h' => rw [ih h']
    | _ => contradiction

theorem length_classBody_le (t : Text) : (classBody t).length ≤ t.length := by
  rw [classBody]
  split
  · simp
  · exact Nat.le_refl _

/-- Every text has a sequence of units. -/
theorem exists_scans (t : Text) : ∃ units, Scans t units := by
  match t with
  | [] => exact ⟨[], .nothing⟩
  | c :: rest =>
    rcases exists_scans rest with ⟨units, h⟩
    by_cases hrun : c = '*'
    · subst hrun
      exact ⟨_, .run h⟩
    by_cases hany : c = '?'
    · subst hany
      exact ⟨_, .anyChar h⟩
    by_cases hclass : c = '['
    · subst hclass
      by_cases hunclosed : Unclosed (classBody rest)
      · exact ⟨_, .bracket hunclosed h⟩
      · rcases exists_close_of_not_unclosed hunclosed with ⟨first, more, behind, hbody, hmore⟩
        rcases exists_itemsOf (first :: more) with ⟨items, hitems⟩
        have hlength : behind.length < (classBody rest).length := by
          rw [hbody]
          simp only [List.length_cons, List.length_append]
          omega
        have hbehind := length_classBody_le rest
        rcases exists_scans behind with ⟨units', h'⟩
        exact ⟨_, .charClass hbody hmore hitems h'⟩
    · exact ⟨_, .literal hrun hany hclass h⟩
termination_by t.length

/-! ## Reading a class -/

section

variable {atHead : Bool} {c : Char} {t rest : Text} {items : List ClassItem}

/-- A bracket behind the first character of a body closes it. -/
theorem readItems_close (t : Text) : readItems false (']' :: t) = some ([], t) := by
  cases t with
  | nil => rfl
  | cons d t => cases t <;> rfl

/-- A range is read with one step over three characters. -/
theorem readItems_range {low high : Char} (hlow : ¬ (low = ']' ∧ atHead = false))
    (hhigh : high ≠ ']') :
    readItems atHead (low :: '-' :: high :: t) =
      (readItems false t).map fun (items, left) => (.range low high :: items, left) := by
  rw [readItems, if_neg hlow]
  simp [hhigh]

/-- A character that begins no range is read alone. -/
theorem readItems_single (hc : ¬ (c = ']' ∧ atHead = false))
    (hsingle : ∀ high rest', t = '-' :: high :: rest' → high = ']') :
    readItems atHead (c :: t) =
      (readItems false t).map fun (items, left) => (.single c :: items, left) := by
  match t with
  | [] => simp [readItems, hc]
  | [d] => simp [readItems, hc]
  | d :: e :: rest' =>
    have hrange : ¬ (d = '-' ∧ e ≠ ']') := by
      rintro ⟨rfl, he⟩
      exact he (hsingle e rest' rfl)
    rw [readItems, if_neg hc, if_neg hrange]

/-- A body is read up to the bracket that closes it. -/
theorem readItems_of_itemsOf {body : Text} (h : ItemsOf body items)
    (hbody : atHead = true → body ≠ [])
    (hclosed : ∀ first more, body = first :: more →
      ']' ∉ more ∧ ¬ (first = ']' ∧ atHead = false)) :
    readItems atHead (body ++ ']' :: rest) = some (items, rest) := by
  induction h generalizing atHead with
  | nothing =>
    cases atHead with
    | true => exact absurd rfl (hbody rfl)
    | false => exact readItems_close rest
  | @range low high rest' items _ ih =>
    rcases hclosed _ _ rfl with ⟨hmore, hlow⟩
    simp only [List.mem_cons, not_or] at hmore
    have hrest : readItems false (rest' ++ ']' :: rest) = some (_, rest) := ih (by simp) (by
      rintro first more rfl
      simp only [List.mem_cons, not_or] at hmore
      exact ⟨hmore.2.2.2, fun hfirst => hmore.2.2.1 hfirst.1.symm⟩)
    rw [List.cons_append, List.cons_append, List.cons_append,
      readItems_range hlow (Ne.symm hmore.2.1), hrest]
    rfl
  | @single c rest' items hsingle _ ih =>
    rcases hclosed _ _ rfl with ⟨hmore, hc⟩
    have hrest : readItems false (rest' ++ ']' :: rest) = some (_, rest) := ih (by simp) (by
      rintro first more rfl
      rw [List.mem_cons, not_or] at hmore
      exact ⟨hmore.2, fun hfirst => hmore.1 hfirst.1.symm⟩)
    rw [List.cons_append, readItems_single hc, hrest]
    · rfl
    · -- The bracket that closes the class is never the end of a range.
      intro high behind heq
      cases rest' with
      | nil => simp at heq
      | cons d rest' =>
        cases rest' with
        | nil =>
          simp only [List.cons_append, List.nil_append, List.cons.injEq] at heq
          exact heq.2.1.symm
        | cons e rest' =>
          simp only [List.cons_append, List.cons.injEq] at heq
          rcases heq with ⟨rfl, -⟩
          exact absurd rfl (hsingle e rest')

/-- A body that no bracket closes is not read. -/
theorem readItems_eq_none {body : Text}
    (h : ∀ first more, body = first :: more → ']' ∉ more ∧ ¬ (first = ']' ∧ atHead = false)) :
    readItems atHead body = none := by
  fun_induction readItems atHead body with
  | case1 => rfl
  | case2 atHead c rest hclose => exact absurd hclose (h _ _ rfl).2
  | case3 atHead c d e rest' _ _ ih =>
    have hmore := (h _ _ rfl).1
    rw [ih]
    · rfl
    · rintro first more rfl
      simp only [List.mem_cons, not_or] at hmore
      exact ⟨hmore.2.2.2, fun hfirst => hmore.2.2.1 hfirst.1.symm⟩
  | case4 atHead c d e rest' _ _ ih =>
    have hmore := (h _ _ rfl).1
    rw [ih]
    · rfl
    · rintro first more heq
      rw [heq, List.mem_cons, not_or] at hmore
      exact ⟨hmore.2, fun hfirst => hmore.1 hfirst.1.symm⟩
  | case5 atHead c rest _ _ ih =>
    have hmore := (h _ _ rfl).1
    rw [ih]
    · rfl
    · rintro first more heq
      rw [heq, List.mem_cons, not_or] at hmore
      exact ⟨hmore.2, fun hfirst => hmore.1 hfirst.1.symm⟩

theorem readClass_eq (t : Text) :
    readClass t = (readItems true (classBody t)).map fun (items, left) =>
      (.charClass (isNegated t) items, left) :=
  rfl

/-- A class that a bracket closes is read up to that bracket. -/
theorem readClass_of_closed {more : Text} {first : Char}
    (hbody : classBody t = first :: (more ++ ']' :: rest)) (hmore : ']' ∉ more)
    (hitems : ItemsOf (first :: more) items) :
    readClass t = some (.charClass (isNegated t) items, rest) := by
  have hread : readItems true ((first :: more) ++ ']' :: rest) = some (items, rest) := by
    apply readItems_of_itemsOf hitems
    · simp
    · intro first' more' heq
      cases heq
      exact ⟨hmore, by simp⟩
  rw [readClass_eq, hbody, ← List.cons_append, hread]
  rfl

/-- A class that no bracket closes is not read. -/
theorem readClass_of_unclosed (h : Unclosed (classBody t)) : readClass t = none := by
  have hread : readItems true (classBody t) = none := by
    apply readItems_eq_none
    intro first more heq
    exact ⟨h first more heq, by simp⟩
  rw [readClass_eq, hread]
  rfl

end

/-! ## Reading a pattern -/

/-- A list with adjacent copies of one element merged. -/
def mergeAdjacent {α : Type} [DecidableEq α] (x : α) : List α → List α
  | [] => []
  | a :: rest =>
    if a = x ∧ rest.head? = some x then mergeAdjacent x rest else a :: mergeAdjacent x rest

section

variable {α : Type} [DecidableEq α] {x a : α}

/-- Merging never changes what a list starts with. -/
theorem exists_mergeAdjacent_cons (x a : α) (rest : List α) :
    ∃ merged, mergeAdjacent x (a :: rest) = a :: merged := by
  induction rest generalizing a with
  | nil => exact ⟨[], by simp [mergeAdjacent]⟩
  | cons b rest ih =>
    rw [mergeAdjacent]
    split
    · next h =>
      have hb : b = x := by simpa using h.2
      rw [h.1, ← hb]
      exact hb ▸ ih b
    · exact ⟨_, rfl⟩

theorem mergeAdjacent_cons_of_ne (h : a ≠ x) (rest : List α) :
    mergeAdjacent x (a :: rest) = a :: mergeAdjacent x rest := by
  rw [mergeAdjacent, if_neg fun hand => h hand.1]

end

/-- Putting a run in front of merged units merges it with a run there. -/
theorem consRun_mergeAdjacent (units : List Token) :
    consRun (mergeAdjacent .anyRun units) = mergeAdjacent .anyRun (.anyRun :: units) := by
  cases units with
  | nil => rfl
  | cons unit units =>
    rcases exists_mergeAdjacent_cons Token.anyRun unit units with ⟨merged, hmerged⟩
    by_cases hrun : unit = .anyRun
    · have hboth : mergeAdjacent .anyRun (.anyRun :: unit :: units) =
          mergeAdjacent .anyRun (unit :: units) := by
        rw [mergeAdjacent, if_pos ⟨rfl, by rw [List.head?_cons, hrun]⟩]
      rw [hboth, hmerged, hrun]
      rfl
    · have hone : mergeAdjacent .anyRun (.anyRun :: unit :: units) =
          .anyRun :: mergeAdjacent .anyRun (unit :: units) := by
        rw [mergeAdjacent, if_neg fun h => hrun (by simpa using h.2)]
      rw [hone, hmerged]
      cases unit with
      | anyRun => exact absurd rfl hrun
      | _ => rfl

/-- Reading a text gives its units with adjacent stars merged. -/
theorem readTokens_of_scans {t : Text} {units : List Token} (h : Scans t units) :
    readTokens t = mergeAdjacent .anyRun units := by
  induction h with
  | nothing => simp [readTokens, mergeAdjacent]
  | run _ ih => rw [readTokens, if_pos rfl, ih, consRun_mergeAdjacent]
  | anyChar _ ih =>
    rw [readTokens, if_neg (by decide), if_pos rfl, ih, mergeAdjacent_cons_of_ne (by simp)]
  | charClass hbody hmore hitems _ ih =>
    rw [readTokens, if_neg (by decide), if_neg (by decide), if_pos rfl,
      mergeAdjacent_cons_of_ne (by simp), ← ih]
    have hread := readClass_of_closed hbody hmore hitems
    split
    · next token left hsome =>
      rw [hread] at hsome
      cases hsome
      rfl
    · next hnone =>
      rw [hread] at hnone
      contradiction
  | bracket hunclosed _ ih =>
    rw [readTokens, if_neg (by decide), if_neg (by decide), if_pos rfl,
      mergeAdjacent_cons_of_ne (by simp), ← ih]
    have hread := readClass_of_unclosed hunclosed
    split
    · next token left hsome =>
      rw [hread] at hsome
      contradiction
    · rfl
  | literal hrun hany hclass _ ih =>
    rw [readTokens, if_neg hrun, if_neg hany, if_neg hclass, ih,
      mergeAdjacent_cons_of_ne (by simp)]

end KernelTools.Wildcard
