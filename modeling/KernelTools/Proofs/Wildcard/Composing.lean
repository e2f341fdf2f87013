import KernelTools.Proofs.Wildcard.Matching
import KernelTools.Proofs.Wildcard.Spelling

/-!
# Putting patterns together

Patterns are written as texts, so they are put together by writing one behind the other.  That means
what one expects as long as the first text leaves no bracket open for the second to close.  In
particular a name can be put into a pattern once all that is special in it stands in a class of its
own.

Main results:

- Theorem {lit}`matches_ofText_iff`: a text matches the names that its units describe; merging stars
  changes nothing about that.
- Theorem {lit}`Scans.append`: the units of a text with no open bracket stay as they are when another
  text follows.
- Theorem {lit}`matches_append_iff`: of two patterns, one behind the other, each takes its part of a
  name.
- Theorem {lit}`matches_escape_iff`: the pattern of an escaped text matches that text alone.
-/

namespace KernelTools.Wildcard

variable {p q t name : Text} {units units' : List Token}

/-! ## Units describe names -/

/-- Two runs in a row describe the names that one of them does. -/
theorem describes_run_run_iff {tokens : List Token} :
    Describes (.anyRun :: .anyRun :: tokens) name ↔ Describes (.anyRun :: tokens) name := by
  constructor
  · intro h
    rcases describes_run_iff.1 h with ⟨rest, hrest, hrun⟩
    rcases describes_run_iff.1 hrun with ⟨last, hlast, hdescribes⟩
    exact describes_run_iff.2 ⟨last, hlast.trans hrest, hdescribes⟩
  · intro h
    exact .run [] h

/-- Merging adjacent runs changes nothing about the names that are described. -/
theorem describes_mergeAdjacent_iff :
    Describes (mergeAdjacent .anyRun units) name ↔ Describes units name := by
  induction units generalizing name with
  | nil => rfl
  | cons unit units ih =>
    rw [mergeAdjacent]
    split
    · next h =>
      rcases h with ⟨rfl, hhead⟩
      rcases List.head?_eq_some_iff.1 hhead with ⟨tokens, rfl⟩
      rw [ih, describes_run_run_iff]
    · by_cases hrun : unit = .anyRun
      · subst hrun
        simp only [describes_run_iff, ih]
      · simp only [describes_cons_iff hrun, ih]

/-- A text matches the names that its units describe. -/
theorem matches_ofText_iff (h : Scans t units) :
    (Pattern.ofText t).matches name = true ↔ Describes units name := by
  rw [matches_iff_describes, Pattern.ofText, readTokens_of_scans h, describes_mergeAdjacent_iff]

/-! ## One pattern behind another -/

/-- Every bracket in a pattern opens a class that is closed: none is read as a character. -/
def BracketsClosed (p : Text) : Prop :=
  Token.literal '[' ∉ (Pattern.ofText p).tokens

instance (p : Text) : Decidable (BracketsClosed p) :=
  inferInstanceAs (Decidable (¬ _))

/-- Merging loses no kind of element. -/
theorem mem_mergeAdjacent_iff {α : Type} [DecidableEq α] {x a : α} {list : List α} :
    a ∈ mergeAdjacent x list ↔ a ∈ list := by
  constructor
  · intro h
    exact (mergeAdjacent_sublist x list).subset h
  · intro h
    induction list with
    | nil => contradiction
    | cons b rest ih =>
      rw [mergeAdjacent]
      split
      · next hmerged =>
        rcases hmerged with ⟨rfl, hhead⟩
        have hb : b ∈ rest := List.mem_of_head? hhead
        rcases List.mem_cons.1 h with rfl | hrest
        · exact ih hb
        · exact ih hrest
      · rcases List.mem_cons.1 h with rfl | hrest
        · exact List.mem_cons_self
        · exact List.mem_cons_of_mem b (ih hrest)

theorem bracketsClosed_iff (h : Scans p units) :
    BracketsClosed p ↔ Token.literal '[' ∉ units := by
  rw [BracketsClosed, Pattern.ofText, readTokens_of_scans h, mem_mergeAdjacent_iff]

/-- What follows a class body that has begun does not change how it begins. -/
theorem classBody_append (h : classBody t ≠ []) (q : Text) :
    isNegated (t ++ q) = isNegated t ∧ classBody (t ++ q) = classBody t ++ q := by
  have hhead : isNegated t = false → (classBody t ++ q).head? ≠ some '!' := by
    intro hnot
    rw [List.head?_append_of_ne_nil _ h]
    exact head?_classBody_ne hnot
  have htext : t ++ q = bang (isNegated t) ++ (classBody t ++ q) := by
    rw [← List.append_assoc, bang_append_classBody]
  rw [htext]
  exact classBody_bang_append hhead

/-- The units of a text with no open bracket stay as they are when another text follows. -/
theorem Scans.append (h : Scans p units) (hclosed : Token.literal '[' ∉ units)
    (h' : Scans q units') : Scans (p ++ q) (units ++ units') := by
  induction h with
  | nothing => exact h'
  | run _ ih => exact .run (ih (List.not_mem_of_not_mem_cons hclosed))
  | anyChar _ ih => exact .anyChar (ih (List.not_mem_of_not_mem_cons hclosed))
  | @charClass t more rest first items units hbody hmore hitems _ ih =>
    have hne : classBody t ≠ [] := by
      rw [hbody]
      exact List.cons_ne_nil _ _
    rcases classBody_append hne q with ⟨hnegated, hbody'⟩
    -- The bracket that closes the class is still the first behind the head of the body.
    have hclose : classBody (t ++ q) = first :: (more ++ ']' :: (rest ++ q)) := by
      rw [hbody', hbody]
      simp
    have hscans := Scans.charClass hclose hmore hitems (ih (List.not_mem_of_not_mem_cons hclosed))
    rw [hnegated] at hscans
    exact hscans
  | bracket => simp at hclosed
  | literal hrun hany hclass _ ih =>
    exact .literal hrun hany hclass (ih (List.not_mem_of_not_mem_cons hclosed))

/-- A pattern that leaves no bracket open matches, with another pattern written behind it, the names
that can be cut in two parts, one for each of them. -/
theorem matches_append_iff (h : BracketsClosed p) (q name : Text) :
    (Pattern.ofText (p ++ q)).matches name = true ↔
      ∃ left right, name = left ++ right ∧ (Pattern.ofText p).matches left = true ∧
        (Pattern.ofText q).matches right = true := by
  rcases exists_scans p with ⟨units, hp⟩
  rcases exists_scans q with ⟨units', hq⟩
  have hboth := hp.append ((bracketsClosed_iff hp).1 h) hq
  simp only [matches_ofText_iff hboth, matches_ofText_iff hp, matches_ofText_iff hq]
  exact describes_append_iff

/-- A class that ends in a hyphen, and behind it a pattern that could make the hyphen a range; a star
at the seam of either pattern. -/
theorem matches_append_iff_of_seams :
    BracketsClosed "*[]a-]".toList ∧ BracketsClosed "[!-]*".toList ∧
      (Pattern.ofText ("*[]a-]".toList ++ "-z]*".toList)).matches "]]-z]".toList = true ∧
      (Pattern.ofText ("*[]a-]".toList ++ "-z]*".toList)).matches "]z]".toList = false ∧
      (Pattern.ofText ("[!-]*".toList ++ "*[".toList)).matches "ab[".toList = true := by
  have hhyphen : BracketsClosed "*[]a-]".toList := by decide +kernel
  have hstar : BracketsClosed "[!-]*".toList := by decide +kernel
  refine ⟨hhyphen, hstar, ?_, by decide +kernel, ?_⟩
  · apply (matches_append_iff hhyphen _ _).2
    exact ⟨"]]".toList, "-z]".toList, rfl, by decide +kernel, by decide +kernel⟩
  · apply (matches_append_iff hstar _ _).2
    exact ⟨"ab".toList, "[".toList, rfl, by decide +kernel, by decide +kernel⟩

/-- An open bracket is closed by what follows, and then the two texts make one class. -/
example : (Pattern.ofText ("[".toList ++ "a]".toList)).matches "a".toList = true ∧
    (Pattern.ofText "[".toList).matches "a".toList = false ∧
    (Pattern.ofText "[".toList).matches [] = false := by
  decide +kernel

/-! ## Escaping -/

/-- A text in which each character that could begin something else than itself is put in a class of
its own. -/
def escape (s : Text) : Text :=
  s.flatMap fun c => if c = '*' ∨ c = '?' ∨ c = '[' then ['[', c, ']'] else [c]

/-- The unit that stands for a character in an escaped text. -/
def escapedUnit (c : Char) : Token :=
  if c = '*' ∨ c = '?' ∨ c = '[' then .charClass false [.single c] else .literal c

/-- An escaped text has one unit for each character: a class is closed by its own bracket, whatever
follows. -/
theorem scans_escape (s : Text) : Scans (escape s) (s.map escapedUnit) := by
  induction s with
  | nil => exact .nothing
  | cons c s ih =>
    rw [escape, List.flatMap_cons, List.map_cons, escapedUnit]
    split
    · next hspecial =>
      have hbang : c ≠ '!' := by
        rintro rfl
        simp at hspecial
      have hplain : isNegated (c :: ']' :: escape s) = false := by simpa [isNegated] using hbang
      have hbody : classBody (c :: ']' :: escape s) = c :: ([] ++ ']' :: escape s) := by
        simp [classBody, hplain]
      have hitems : ItemsOf [c] [.single c] := .single c (by simp) .nothing
      have hscans := Scans.charClass hbody (by simp) hitems ih
      rw [hplain] at hscans
      exact hscans
    · next hplain =>
      simp only [not_or] at hplain
      exact .literal hplain.1 hplain.2.1 hplain.2.2 ih

/-- The unit of a character accepts that character alone. -/
theorem accepts_escapedUnit_iff {c d : Char} : (escapedUnit c).accepts d = true ↔ d = c := by
  rw [escapedUnit]
  split
  · simpa [Token.accepts, ClassItem.covers] using eq_comm
  · simpa [Token.accepts] using eq_comm

theorem escapedUnit_ne_anyRun (c : Char) : escapedUnit c ≠ .anyRun :=
  Token.ne_anyRun_of_accepts (accepts_escapedUnit_iff.2 rfl)

/-- The units of an escaped text describe the text alone. -/
theorem describes_escapedUnits_iff {s : Text} :
    Describes (s.map escapedUnit) name ↔ name = s := by
  induction s generalizing name with
  | nil => exact describes_nil_iff
  | cons c s ih =>
    rw [List.map_cons, describes_cons_iff (escapedUnit_ne_anyRun c)]
    simp only [accepts_escapedUnit_iff, ih]
    constructor
    · rintro ⟨d, rest, rfl, rfl, rfl⟩
      rfl
    · rintro rfl
      exact ⟨c, s, rfl, rfl, rfl⟩

/-- The pattern of an escaped text matches that text and no other. -/
theorem matches_escape_iff (s t : Text) :
    (Pattern.ofText (escape s)).matches t = true ↔ t = s := by
  rw [matches_ofText_iff (scans_escape s), describes_escapedUnits_iff]

end KernelTools.Wildcard
