import KernelTools.Proofs.Wildcard.Grammar

/-!
# Spelling a wildcard pattern

A pattern can be spelled again from its tokens.  The spelling is the text that was read, but for
adjacent stars, of which one is left; and it reads as the same pattern.  What makes this delicate is a
{lit}`[` that stands for itself: merging stars behind it must not close it.

Main results:

- Theorem {lit}`Scans.spelled_eq`: the units of a text spell the text.
- Theorem {lit}`Scans.merged`: the units that are left when stars are merged are the units of their
  own spelling.
- Theorem {lit}`ofText_exact`: reading, spelling and reading again.
-/

namespace KernelTools.Wildcard

/-! ## Spelling -/

/-- How a class member is spelled. -/
def ClassItem.spelling : ClassItem → Text
  | .single c => [c]
  | .range low high => [low, '-', high]

/-- What stands in front of a class body: a {lit}`!` when the class is negated. -/
def bang (negated : Bool) : Text :=
  if negated then ['!'] else []

/-- How a token is spelled. -/
def Token.spelling : Token → Text
  | .literal c => [c]
  | .anyChar => ['?']
  | .anyRun => ['*']
  | .charClass negated items =>
    '[' :: bang negated ++ items.flatMap ClassItem.spelling ++ [']']

/-- The text of tokens spelled one after the other. -/
def spelled (tokens : List Token) : Text :=
  tokens.flatMap Token.spelling

/-- How a pattern is spelled. -/
def Pattern.spelling (p : Pattern) : Text :=
  spelled p.tokens

@[simp]
theorem spelled_cons (token : Token) (tokens : List Token) :
    spelled (token :: tokens) = token.spelling ++ spelled tokens :=
  List.flatMap_cons

/-- The items of a class body spell the body. -/
theorem ItemsOf.spelling_eq {body : Text} {items : List ClassItem} (h : ItemsOf body items) :
    items.flatMap ClassItem.spelling = body := by
  induction h with
  | nothing => rfl
  | range low high _ ih => simp [ClassItem.spelling, ih]
  | single c _ _ ih => simp [ClassItem.spelling, ih]

/-- A text is its class body behind the {lit}`!` that negates the class. -/
theorem bang_append_classBody (t : Text) : bang (isNegated t) ++ classBody t = t := by
  cases t with
  | nil => rfl
  | cons c t =>
    by_cases hc : c = '!'
    · simp [bang, isNegated, classBody, hc]
    · simp [bang, isNegated, classBody, hc]

/-- What stands behind a {lit}`!` is the body of a negated class; any other text is a body, unless
it starts with a {lit}`!` itself. -/
theorem classBody_bang_append {negated : Bool} {body : Text}
    (h : negated = false → body.head? ≠ some '!') :
    isNegated (bang negated ++ body) = negated ∧ classBody (bang negated ++ body) = body := by
  cases negated with
  | true => simp [bang, isNegated, classBody]
  | false =>
    have hnot : isNegated body = false := by simpa [isNegated] using h rfl
    simp [bang, classBody, hnot]

/-- A class body that is not negated does not start with a {lit}`!`. -/
theorem head?_classBody_ne {t : Text} (h : isNegated t = false) :
    (classBody t).head? ≠ some '!' := by
  rw [classBody, h]
  simpa [isNegated] using h

variable {t : Text} {units : List Token}

/-- The units of a text spell the text. -/
theorem Scans.spelled_eq (h : Scans t units) : spelled units = t := by
  induction h with
  | nothing => rfl
  | @charClass t more rest first items units hbody _ hitems _ ih =>
    have htext := bang_append_classBody t
    rw [hbody] at htext
    rw [spelled_cons, ih, Token.spelling, hitems.spelling_eq]
    simp only [List.cons_append, List.append_assoc, List.nil_append, htext]
  | run _ ih => simp [Token.spelling, ih]
  | anyChar _ ih => simp [Token.spelling, ih]
  | bracket _ _ ih => simp [Token.spelling, ih]
  | literal _ _ _ _ ih => simp [Token.spelling, ih]

/-- Only a run among the units of a text is spelled by a star alone. -/
theorem Scans.spelling_eq_star_iff (h : Scans t units) :
    ∀ unit ∈ units, unit.spelling = ['*'] ↔ unit = .anyRun := by
  induction h with
  | nothing => simp
  | charClass _ _ _ _ ih => simpa [Token.spelling] using ih
  | run _ ih => simpa [Token.spelling] using ih
  | anyChar _ ih => simpa [Token.spelling] using ih
  | bracket _ _ ih => simpa [Token.spelling] using ih
  | literal hrun _ _ _ ih => simpa [Token.spelling, hrun] using ih

/-! ## Merging -/

section

variable {α β : Type} [DecidableEq α] [DecidableEq β]

/-- Merging leaves out elements and changes none. -/
theorem mergeAdjacent_sublist (x : α) (list : List α) : (mergeAdjacent x list).Sublist list := by
  induction list with
  | nil => exact List.Sublist.refl _
  | cons a rest ih =>
    rw [mergeAdjacent]
    split
    · exact ih.cons a
    · exact ih.cons_cons a

/-- What is merged once stays as it is. -/
theorem mergeAdjacent_mergeAdjacent (x : α) (list : List α) :
    mergeAdjacent x (mergeAdjacent x list) = mergeAdjacent x list := by
  induction list with
  | nil => rfl
  | cons a rest ih =>
    rw [mergeAdjacent]
    split
    · exact ih
    · next h =>
      rw [mergeAdjacent, ih, if_neg]
      rintro ⟨ha, hhead⟩
      cases rest with
      | nil => simp [mergeAdjacent] at hhead
      | cons b rest =>
        rcases exists_mergeAdjacent_cons x b rest with ⟨merged, hmerged⟩
        rw [hmerged] at hhead
        exact h ⟨ha, by simpa using hhead⟩

/-- Merging can be done before or after a translation that tells the merged element from all
others. -/
theorem mergeAdjacent_map {x : α} {y : β} {f : α → β} {list : List α}
    (h : ∀ a ∈ list, f a = y ↔ a = x) :
    mergeAdjacent y (list.map f) = (mergeAdjacent x list).map f := by
  induction list with
  | nil => rfl
  | cons a rest ih =>
    have ha := h a List.mem_cons_self
    have ih := ih fun b hb => h b (List.mem_cons_of_mem a hb)
    have hhead : (rest.map f).head? = some y ↔ rest.head? = some x := by
      cases rest with
      | nil => simp
      | cons b rest => simpa using h b (by simp)
    simp only [List.map_cons, mergeAdjacent, ha, hhead]
    split
    · exact ih
    · rw [List.map_cons, ih]

end

/-- Merging brings no new character into a text. -/
theorem Scans.mem_of_mem_merged (h : Scans t units) {c : Char}
    (hc : c ∈ spelled (mergeAdjacent .anyRun units)) : c ∈ t := by
  rw [spelled, List.mem_flatMap] at hc
  rcases hc with ⟨unit, hunit, hc⟩
  rw [← h.spelled_eq, spelled, List.mem_flatMap]
  exact ⟨unit, (mergeAdjacent_sublist Token.anyRun units).subset hunit, hc⟩

/-- A character that is a unit of its own stays in front. -/
theorem Scans.merged_cons {c : Char} {rest : Text} (h : Scans (c :: rest) units) (hrun : c ≠ '*')
    (hany : c ≠ '?') (hclass : c ≠ '[') :
    ∃ units', Scans rest units' ∧
      spelled (mergeAdjacent .anyRun units) = c :: spelled (mergeAdjacent .anyRun units') := by
  cases h with
  | literal _ _ _ h =>
    refine ⟨_, h, ?_⟩
    rw [mergeAdjacent_cons_of_ne (by simp), spelled_cons]
    rfl
  | _ => contradiction

theorem head?_spelling (token : Token) (t : Text) :
    (token.spelling ++ t).head? = token.spelling.head? := by
  cases token <;> rfl

/-- Merging leaves the first character of a text in front. -/
theorem Scans.head?_merged (h : Scans t units) :
    (spelled (mergeAdjacent .anyRun units)).head? = t.head? := by
  cases units with
  | nil =>
    rw [← h.spelled_eq]
    rfl
  | cons unit units =>
    rcases exists_mergeAdjacent_cons Token.anyRun unit units with ⟨merged, hmerged⟩
    rw [hmerged, ← h.spelled_eq, spelled_cons, spelled_cons, head?_spelling, head?_spelling]

/-- Merging stars in a body closes no class. -/
theorem Scans.unclosed_merged (h : Scans t units) (hunclosed : Unclosed t) :
    Unclosed (spelled (mergeAdjacent .anyRun units)) := by
  intro first more heq hclose
  cases t with
  | nil =>
    have hmem : first ∈ ([] : Text) := h.mem_of_mem_merged (by rw [heq]; exact List.mem_cons_self)
    contradiction
  | cons c rest =>
    have hrest := hunclosed c rest rfl
    by_cases hc : c = ']'
    · -- A bracket at the head of the body is an item, and stays at the head.
      subst hc
      rcases h.merged_cons (by decide) (by decide) (by decide) with ⟨units', h', hmerged⟩
      rw [heq, List.cons.injEq] at hmerged
      rw [hmerged.2] at hclose
      exact hrest (h'.mem_of_mem_merged hclose)
    · have hmem := h.mem_of_mem_merged (heq ▸ List.mem_cons_of_mem first hclose)
      rw [List.mem_cons] at hmem
      exact hmem.elim (fun heq' => hc heq'.symm) hrest

/-- The same behind a {lit}`!`. -/
theorem Scans.unclosed_classBody_merged (h : Scans t units) (hunclosed : Unclosed (classBody t)) :
    Unclosed (classBody (spelled (mergeAdjacent .anyRun units))) := by
  have hnegated : isNegated (spelled (mergeAdjacent .anyRun units)) = isNegated t := by
    rw [isNegated, isNegated, h.head?_merged]
  rw [classBody, hnegated]
  rw [classBody] at hunclosed
  split
  · next hbang =>
    rw [if_pos hbang] at hunclosed
    cases t with
    | nil => simp [isNegated] at hbang
    | cons c rest =>
      obtain rfl : c = '!' := by simpa [isNegated] using hbang
      rcases h.merged_cons (by decide) (by decide) (by decide) with ⟨units', h', hmerged⟩
      rw [hmerged]
      exact h'.unclosed_merged hunclosed
  · next hbang =>
    rw [if_neg hbang] at hunclosed
    exact h.unclosed_merged hunclosed

/-- The units that are left when stars are merged are the units of their own spelling. -/
theorem Scans.merged (h : Scans t units) :
    Scans (spelled (mergeAdjacent .anyRun units)) (mergeAdjacent .anyRun units) := by
  induction h with
  | nothing => exact .nothing
  | run _ ih =>
    rw [mergeAdjacent]
    split
    · exact ih
    · exact .run ih
  | anyChar _ ih =>
    rw [mergeAdjacent_cons_of_ne (by simp)]
    exact .anyChar ih
  | @charClass t more rest first items units hbody hmore hitems _ ih =>
    rw [mergeAdjacent_cons_of_ne (by simp)]
    -- The class is spelled as it was read; only what follows it has changed.
    have hspelled : spelled (.charClass (isNegated t) items :: mergeAdjacent .anyRun units) =
        '[' :: (bang (isNegated t) ++
          first :: (more ++ ']' :: spelled (mergeAdjacent .anyRun units))) := by
      simp [Token.spelling, hitems.spelling_eq]
    have hfirst : isNegated t = false →
        (first :: (more ++ ']' :: spelled (mergeAdjacent .anyRun units))).head? ≠ some '!' := by
      intro hnot
      have hhead := head?_classBody_ne hnot
      rw [hbody] at hhead
      exact hhead
    rcases classBody_bang_append hfirst with ⟨hnegated, hbody'⟩
    have hscans := Scans.charClass hbody' hmore hitems ih
    rw [hnegated] at hscans
    rw [hspelled]
    exact hscans
  | bracket hunclosed h ih =>
    rw [mergeAdjacent_cons_of_ne (by simp), spelled_cons]
    exact .bracket (h.unclosed_classBody_merged hunclosed) ih
  | literal hrun hany hclass _ ih =>
    rw [mergeAdjacent_cons_of_ne (by simp)]
    exact .literal hrun hany hclass ih

/-! ## Reading and spelling -/

/-- Every text is a sequence of units in exactly one way.  Its pattern has these units with adjacent
stars merged; it is spelled like the text with adjacent stars merged, and the spelling reads as the
same pattern again. -/
theorem ofText_exact (t : Text) :
    ∃ units, (∀ units', Scans t units' ↔ units' = units) ∧
      (units.map Token.spelling).flatten = t ∧
      (Pattern.ofText t).tokens = mergeAdjacent .anyRun units ∧
      (Pattern.ofText t).spelling = (mergeAdjacent ['*'] (units.map Token.spelling)).flatten ∧
      Pattern.ofText (Pattern.ofText t).spelling = Pattern.ofText t := by
  rcases exists_scans t with ⟨units, h⟩
  have htokens : (Pattern.ofText t).tokens = mergeAdjacent .anyRun units := readTokens_of_scans h
  refine ⟨units, ?_, ?_, htokens, ?_, ?_⟩
  · intro units'
    constructor
    · intro h'
      exact h'.unique h
    · rintro rfl
      exact h
  · rw [← List.flatMap_def]
    exact h.spelled_eq
  · rw [mergeAdjacent_map h.spelling_eq_star_iff, ← List.flatMap_def, ← htokens]
    rfl
  · have hagain : readTokens (spelled (mergeAdjacent .anyRun units)) =
        mergeAdjacent .anyRun units := by
      rw [readTokens_of_scans h.merged, mergeAdjacent_mergeAdjacent]
    rw [Pattern.spelling, htokens, Pattern.ofText, hagain, Pattern.ofText, readTokens_of_scans h]

end KernelTools.Wildcard
