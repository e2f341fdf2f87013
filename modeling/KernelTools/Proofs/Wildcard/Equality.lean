import KernelTools.Proofs.Wildcard.Spelling
import Mathlib.Data.List.TakeWhile

/-!
# When two texts spell the same pattern

Two texts spell the same pattern just when they are the same text but for the number of stars in a
row.  Stars in a row are merged outside classes only, so the texts are compared after a merging that
knows where classes begin and end, and nothing else about patterns.

Main results:

- Theorem {lit}`cutClass?_eq_some_iff` and theorem {lit}`cutClass?_eq_none_iff`: where a class ends,
  by its text alone.
- Theorem {lit}`mergeStars_of_scans`: merging the stars of a text spells its pattern.
- Theorem {lit}`ofText_eq_iff`: equal patterns are texts that are equal once their stars are merged;
  all that stands in a class counts, and so does a bracket that opens none.
-/

namespace KernelTools.Wildcard

/-! ## Where a class ends -/

/-- Number of characters behind a {lit}`[` that cannot close the class: a {lit}`!` in front, and the
first character of the body. -/
def headLength (t : Text) : Nat :=
  if isNegated t then 2 else 1

/-- Cuts the text behind a {lit}`[` after the {lit}`]` that closes the class; {lean}`none` when none
does. -/
def cutClass? (t : Text) : Option (Text × Text) :=
  match (t.drop (headLength t)).dropWhile (· != ']') with
  | [] => none
  | close :: behind =>
    some (t.take (headLength t) ++ (t.drop (headLength t)).takeWhile (· != ']') ++ [close], behind)

/-- A text that a {lit}`[` in front makes a class, with nothing behind it. -/
def IsClassText (t : Text) : Prop :=
  cutClass? t = some (t, [])

instance (t : Text) : Decidable (IsClassText t) :=
  inferInstanceAs (Decidable (_ = _))

variable {t inside behind : Text} {units : List Token}

/-- The character at the head of a body is the last that cannot close the class. -/
theorem head_of_classBody {first : Char} {more : Text} (h : classBody t = first :: more) :
    t.take (headLength t) = bang (isNegated t) ++ [first] ∧ t.drop (headLength t) = more := by
  have htext := bang_append_classBody t
  rw [h] at htext
  rw [headLength]
  cases hnegated : isNegated t with
  | true =>
    rw [hnegated] at htext
    simp [← htext, bang]
  | false =>
    rw [hnegated] at htext
    simp [← htext, bang]

theorem headLength_of_classBody_eq_nil (h : classBody t = []) : t.drop (headLength t) = [] := by
  have htext := bang_append_classBody t
  rw [h, List.append_nil] at htext
  rw [headLength, ← htext]
  cases isNegated t <;> rfl

theorem bne_bracket_of_not_mem {more : Text} (h : ']' ∉ more) : ∀ c ∈ more, (c != ']') = true := by
  intro c hc
  have hne : c ≠ ']' := fun heq => h (heq ▸ hc)
  simpa using hne

/-- No class is cut off when no bracket closes one. -/
theorem cutClass?_eq_none_iff : cutClass? t = none ↔ Unclosed (classBody t) := by
  have hnone : cutClass? t = none ↔ ']' ∉ t.drop (headLength t) := by
    unfold cutClass?
    split
    · next hnil =>
      rw [List.dropWhile_eq_nil_iff] at hnil
      exact iff_of_true rfl fun hmem => by simpa using hnil ']' hmem
    · next close behind hcons =>
      refine iff_of_false (by simp) fun hmem => ?_
      rw [List.dropWhile_eq_nil_iff.2 (bne_bracket_of_not_mem hmem)] at hcons
      contradiction
  rw [hnone]
  cases hbody : classBody t with
  | nil => simp [Unclosed, headLength_of_classBody_eq_nil hbody]
  | cons first more =>
    rw [(head_of_classBody hbody).2]
    constructor
    · rintro h first' more' heq
      cases heq
      exact h
    · intro h
      exact h first more rfl

/-- A class that a bracket closes is cut off behind that bracket. -/
theorem cutClass?_of_closed {first : Char} {more : Text}
    (hbody : classBody t = first :: (more ++ ']' :: behind)) (hmore : ']' ∉ more) :
    cutClass? t = some (bang (isNegated t) ++ first :: (more ++ [']']), behind) := by
  obtain ⟨htake, hdrop⟩ := head_of_classBody hbody
  have hall := bne_bracket_of_not_mem hmore
  rw [cutClass?, htake, hdrop, List.dropWhile_append_of_pos hall, List.takeWhile_append_of_pos hall]
  simp

/-- What is cut off is a class by the grammar of patterns, and the other way round. -/
theorem cutClass?_eq_some_iff :
    cutClass? t = some (inside, behind) ↔
      ∃ first more, classBody t = first :: (more ++ ']' :: behind) ∧ ']' ∉ more ∧
        inside = bang (isNegated t) ++ first :: (more ++ [']']) := by
  constructor
  · intro h
    have hclosed : ¬ Unclosed (classBody t) := by
      rw [← cutClass?_eq_none_iff, h]
      simp
    rcases exists_close_of_not_unclosed hclosed with ⟨first, more, rest, hbody, hmore⟩
    rw [cutClass?_of_closed hbody hmore] at h
    cases h
    exact ⟨first, more, hbody, hmore, rfl⟩
  · rintro ⟨first, more, hbody, hmore, rfl⟩
    exact cutClass?_of_closed hbody hmore

/-- A class and what stands behind it make up the text. -/
theorem append_of_cutClass? (h : cutClass? t = some (inside, behind)) : inside ++ behind = t := by
  obtain ⟨first, more, hbody, -, rfl⟩ := cutClass?_eq_some_iff.1 h
  have htext := bang_append_classBody t
  rw [hbody] at htext
  simpa using htext

theorem length_of_cutClass? (h : cutClass? t = some (inside, behind)) :
    behind.length < t.length := by
  obtain ⟨first, more, -, -, hinside⟩ := cutClass?_eq_some_iff.1 h
  rw [← append_of_cutClass? h, hinside]
  simp only [List.length_append, List.length_cons]
  omega

/-- Where a class ends does not depend on what stands behind it. -/
theorem cutClass?_append (h : cutClass? t = some (inside, behind)) (more : Text) :
    cutClass? (inside ++ more) = some (inside, more) := by
  obtain ⟨first, body, hbody, hclosing, rfl⟩ := cutClass?_eq_some_iff.1 h
  have hfirst : isNegated t = false → (first :: (body ++ ']' :: more)).head? ≠ some '!' := by
    intro hnot
    have hhead := head?_classBody_ne hnot
    rw [hbody] at hhead
    exact hhead
  obtain ⟨hnegated, hbody'⟩ := classBody_bang_append hfirst
  have htext : bang (isNegated t) ++ first :: (body ++ [']']) ++ more =
      bang (isNegated t) ++ first :: (body ++ ']' :: more) := by
    simp
  rw [htext, cutClass?_of_closed hbody' hclosing, hnegated]

/-! ## Merging stars -/

/-- A text with each run of adjacent stars merged into one, but for those within a class that is
closed. -/
def mergeStars : Text → Text
  | [] => []
  | c :: rest =>
    if c = '*' then
      if rest.head? = some '*' then mergeStars rest else '*' :: mergeStars rest
    else if c = '[' then
      match _h : cutClass? rest with
      | some (inside, behind) => '[' :: inside ++ mergeStars behind
      | none => '[' :: mergeStars rest
    else c :: mergeStars rest
termination_by t => t.length
decreasing_by
  all_goals simp_wf
  have := length_of_cutClass? _h
  omega

/-- A class is left as it is. -/
theorem mergeStars_of_cutClass? (h : cutClass? t = some (inside, behind)) :
    mergeStars ('[' :: t) = '[' :: inside ++ mergeStars behind := by
  rw [mergeStars, if_neg (by decide), if_pos rfl]
  split
  · next hsome =>
    rw [h] at hsome
    cases hsome
    rfl
  · next hnone =>
    rw [h] at hnone
    contradiction

/-- A bracket that opens no class is left as it is, and what follows is merged. -/
theorem mergeStars_of_cutClass?_eq_none (h : cutClass? t = none) :
    mergeStars ('[' :: t) = '[' :: mergeStars t := by
  rw [mergeStars, if_neg (by decide), if_pos rfl]
  split
  · next hsome =>
    rw [h] at hsome
    contradiction
  · rfl

/-- Merging leaves the first character in front. -/
theorem head?_mergeStars (t : Text) : (mergeStars t).head? = t.head? := by
  fun_induction mergeStars t with
  | case1 => rfl
  | case2 rest hhead ih => rw [ih, hhead, List.head?_cons]
  | _ => rfl

/-- A text starts with a star when its first unit is a run. -/
theorem Scans.head?_eq_iff (h : Scans t units) :
    t.head? = some '*' ↔ units.head? = some .anyRun := by
  cases h with
  | literal hrun => simpa using hrun
  | _ => simp

/-- Merging the stars of a text spells its units with adjacent runs merged. -/
theorem mergeStars_of_scans (h : Scans t units) :
    mergeStars t = spelled (mergeAdjacent .anyRun units) := by
  induction h with
  | nothing => simp [mergeStars, mergeAdjacent, spelled]
  | @run rest units h ih =>
    have hhead := h.head?_eq_iff
    rw [mergeStars, if_pos rfl, mergeAdjacent, ih]
    simp only [hhead, true_and]
    split
    · rfl
    · rw [spelled_cons]
      rfl
  | anyChar _ ih =>
    rw [mergeStars, if_neg (by decide), if_neg (by decide), ih, mergeAdjacent_cons_of_ne (by simp),
      spelled_cons]
    rfl
  | charClass hbody hmore hitems _ ih =>
    rw [mergeStars_of_cutClass? (cutClass?_of_closed hbody hmore), ih,
      mergeAdjacent_cons_of_ne (by simp), spelled_cons, Token.spelling, hitems.spelling_eq]
    simp
  | bracket hunclosed _ ih =>
    rw [mergeStars_of_cutClass?_eq_none (cutClass?_eq_none_iff.2 hunclosed), ih,
      mergeAdjacent_cons_of_ne (by simp), spelled_cons]
    rfl
  | literal hrun _ hclass _ ih =>
    rw [mergeStars, if_neg hrun, if_neg hclass, ih, mergeAdjacent_cons_of_ne (by simp), spelled_cons]
    rfl

/-- Merging stars closes no class. -/
theorem cutClass?_mergeStars (h : cutClass? t = none) : cutClass? (mergeStars t) = none := by
  rcases exists_scans t with ⟨units, hscans⟩
  rw [cutClass?_eq_none_iff] at h ⊢
  rw [mergeStars_of_scans hscans]
  exact hscans.unclosed_classBody_merged h

/-! ## Equal patterns -/

/-- A text with its stars merged is how its pattern is spelled. -/
theorem spelling_ofText (t : Text) : (Pattern.ofText t).spelling = mergeStars t := by
  rcases exists_scans t with ⟨units, h⟩
  rw [mergeStars_of_scans h, Pattern.spelling, Pattern.ofText, readTokens_of_scans h]

/-- A text with its stars merged spells the same pattern. -/
theorem ofText_mergeStars (t : Text) : Pattern.ofText (mergeStars t) = Pattern.ofText t := by
  rcases exists_scans t with ⟨units, h⟩
  rw [mergeStars_of_scans h, Pattern.ofText, Pattern.ofText, readTokens_of_scans h,
    readTokens_of_scans h.merged, mergeAdjacent_mergeAdjacent]

/-- Texts spell the same pattern when they are the same once their stars are merged. -/
theorem ofText_eq_iff_mergeStars_eq {a b : Text} :
    Pattern.ofText a = Pattern.ofText b ↔ mergeStars a = mergeStars b := by
  constructor
  · intro h
    rw [← spelling_ofText, ← spelling_ofText, h]
  · intro h
    rw [← ofText_mergeStars a, ← ofText_mergeStars b, h]

/-- Two patterns that begin with a class are equal when the classes are written alike, star by star
and member by member, and the patterns behind them are equal. -/
theorem ofText_class_eq_iff {inside inside' : Text} (h : IsClassText inside)
    (h' : IsClassText inside') (a b : Text) :
    Pattern.ofText ('[' :: inside ++ a) = Pattern.ofText ('[' :: inside' ++ b) ↔
      inside = inside' ∧ Pattern.ofText a = Pattern.ofText b := by
  rw [ofText_eq_iff_mergeStars_eq, ofText_eq_iff_mergeStars_eq, List.cons_append, List.cons_append,
    mergeStars_of_cutClass? (cutClass?_append h a), mergeStars_of_cutClass? (cutClass?_append h' b),
    List.cons_append, List.cons_append, List.cons.injEq]
  constructor
  · rintro ⟨-, heq⟩
    -- Both classes are what is cut off from the same text.
    have hcut := cutClass?_append h (mergeStars a)
    rw [heq, cutClass?_append h', Option.some.injEq, Prod.mk.injEq] at hcut
    exact ⟨hcut.1.symm, hcut.2.symm⟩
  · rintro ⟨rfl, heq⟩
    exact ⟨rfl, by rw [heq]⟩

/-- A pattern that begins with a bracket for itself equals those only that begin in the same way. -/
theorem ofText_bracket_eq_iff {a : Text} (h : cutClass? a = none) (b : Text) :
    Pattern.ofText ('[' :: a) = Pattern.ofText b ↔
      ∃ t, b = '[' :: t ∧ cutClass? t = none ∧ Pattern.ofText a = Pattern.ofText t := by
  rw [ofText_eq_iff_mergeStars_eq, mergeStars_of_cutClass?_eq_none h]
  constructor
  · intro heq
    have hhead := head?_mergeStars b
    rw [← heq, List.head?_cons, eq_comm, List.head?_eq_some_iff] at hhead
    rcases hhead with ⟨t, rfl⟩
    refine ⟨t, rfl, ?_⟩
    cases hcut : cutClass? t with
    | some cut =>
      -- A class there would be closed in the merged text too, where none is.
      obtain ⟨inside, behind⟩ := cut
      rw [mergeStars_of_cutClass? hcut, List.cons_append, List.cons.injEq] at heq
      have hmerged := cutClass?_mergeStars h
      rw [heq.2, cutClass?_append hcut] at hmerged
      contradiction
    | none =>
      rw [mergeStars_of_cutClass?_eq_none hcut, List.cons.injEq] at heq
      exact ⟨rfl, ofText_eq_iff_mergeStars_eq.2 heq.2⟩
  · rintro ⟨t, rfl, hcut, heq⟩
    rw [mergeStars_of_cutClass?_eq_none hcut, ofText_eq_iff_mergeStars_eq.1 heq]

/-- Texts spell the same pattern just when they are the same once each run of adjacent stars outside
a closed class is merged.  So classes have to be written alike, in their stars, in the order of their
members and in how often each stands there; and a bracket that opens no class has to be there in both
texts, without a class either time. -/
theorem ofText_eq_iff (a b : Text) :
    (Pattern.ofText a = Pattern.ofText b ↔ mergeStars a = mergeStars b) ∧
      (∀ inside inside', IsClassText inside → IsClassText inside' →
        (Pattern.ofText ('[' :: inside ++ a) = Pattern.ofText ('[' :: inside' ++ b) ↔
          inside = inside' ∧ Pattern.ofText a = Pattern.ofText b)) ∧
      (cutClass? a = none →
        (Pattern.ofText ('[' :: a) = Pattern.ofText b ↔
          ∃ t, b = '[' :: t ∧ cutClass? t = none ∧ Pattern.ofText a = Pattern.ofText t)) :=
  ⟨ofText_eq_iff_mergeStars_eq, fun _ _ h h' => ofText_class_eq_iff h h' a b,
    fun h => ofText_bracket_eq_iff h b⟩

/-- Stars count within a class and are merged behind it; the order and the number of its members
count; and a bracket that opens no class is not the same as one that does. -/
theorem ofText_eq_iff_of_classes :
    Pattern.ofText "[a**]**".toList = Pattern.ofText "[a**]*".toList ∧
      Pattern.ofText "[a**]".toList ≠ Pattern.ofText "[a*]".toList ∧
      Pattern.ofText "[ab]".toList ≠ Pattern.ofText "[ba]".toList ∧
      Pattern.ofText "[aa]".toList ≠ Pattern.ofText "[a]".toList ∧
      Pattern.ofText "[a**".toList = Pattern.ofText "[a*".toList ∧
      Pattern.ofText "[[".toList ≠ Pattern.ofText "[[[]".toList := by
  have hclass (inside inside' : Text) (h : IsClassText inside) (h' : IsClassText inside')
      (hne : inside ≠ inside') :
      Pattern.ofText ('[' :: inside ++ []) ≠ Pattern.ofText ('[' :: inside' ++ []) :=
    fun heq => hne (((ofText_eq_iff [] []).2.1 inside inside' h h').1 heq).1
  refine ⟨(ofText_eq_iff _ _).1.2 (by decide +kernel), ?_, ?_, ?_,
    (ofText_eq_iff _ _).1.2 (by decide +kernel), ?_⟩
  · exact hclass "a**]".toList "a*]".toList (by decide) (by decide) (by decide)
  · exact hclass "ab]".toList "ba]".toList (by decide) (by decide) (by decide)
  · exact hclass "aa]".toList "a]".toList (by decide) (by decide) (by decide)
  · intro heq
    obtain ⟨t, ht, hcut, -⟩ := ((ofText_eq_iff "[".toList _).2.2 (by decide)).1 heq
    obtain rfl : "[[]".toList = t := (List.cons.inj ht).2
    exact absurd hcut (by decide)

end KernelTools.Wildcard
