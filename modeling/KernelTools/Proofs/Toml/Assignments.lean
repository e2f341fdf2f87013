import KernelTools.Proofs.Toml.Lines

/-!
# Strings under keys

Strings are given to keys one by one, on lines of their own or in a table between braces.  The table
that this makes has them in the order in which they were written; it is made only when no key is given
twice.

Main results:

- Theorem {lit}`foldlM_add`: strings are added under their keys, unless a key comes twice.
- Theorem {lit}`readValue_braced`: a table between braces reads as the strings that it writes.
- Theorem {lit}`holds_of_readValue_braced`: a key between braces is in the table, if it is one.
-/

namespace KernelTools.Toml

variable {t table : Table} {entries : List (Text × Text)} {entry : Text × Text} {depth : Nat}
  {line w rest behind : Text} {lines before after : List Text} {path : List Text} {value : Value}
  {pairs : List (DottedKey × Value)} {reader : ValueReader}

/-- The ways to write a string under a key without dots. -/
def Assigns (entry : Text × Text) (line : Text) : Prop :=
  WritesPair (entry.1, []) entry.2 line

/-- The table of strings under keys. -/
def strings (entries : List (Text × Text)) : Table :=
  entries.map fun entry => (entry.1, .string entry.2)

/-- Strings under keys, as a document or a table between braces gives them. -/
def stringPairs (entries : List (Text × Text)) : List (DottedKey × Value) :=
  entries.map fun entry => ((entry.1, []), .string entry.2)

/-! ## Adding -/

theorem keys_strings (entries : List (Text × Text)) :
    (strings entries).map Prod.fst = entries.map Prod.fst := by
  simp [strings]

/-- Strings are added under their keys, unless a key comes twice. -/
theorem foldlM_add (entries : List (Text × Text)) (ht : (t.map Prod.fst).Nodup) :
    entries.foldlM (fun (t : Table) entry => t.add entry.1 (.string entry.2)) t =
      if (t.map Prod.fst ++ entries.map Prod.fst).Nodup then some (t ++ strings entries)
      else none := by
  induction entries generalizing t with
  | nil => simp [ht, strings]
  | cons entry entries ih =>
    rw [List.foldlM_cons, Table.add]
    cases hget : t.get? entry.1 with
    | none =>
      have hkey : entry.1 ∉ t.map Prod.fst := Table.get?_eq_none_iff.1 hget
      have hkeys : ((t ++ [(entry.1, Value.string entry.2)]).map Prod.fst).Nodup := by
        rw [List.map_append]
        exact List.nodup_append_comm.1 (List.nodup_cons.2 ⟨hkey, ht⟩)
      simp only [Option.bind_eq_bind, Option.bind_some]
      rw [ih hkeys]
      simp [strings, List.append_assoc]
    | some v =>
      have hkey : entry.1 ∈ t.map Prod.fst := by
        by_contra hkey
        rw [Table.get?_eq_none_iff.2 hkey] at hget
        contradiction
      rw [if_neg]
      · rfl
      · intro hnodup
        exact (List.nodup_append.1 hnodup).2.2 _ hkey _ (by simp) rfl

theorem tableOfPairs_stringPairs (entries : List (Text × Text)) :
    tableOfPairs (stringPairs entries) =
      if (entries.map Prod.fst).Nodup then some (strings entries) else none := by
  rw [tableOfPairs, stringPairs, List.foldlM_map]
  exact foldlM_add entries List.nodup_nil

/-- The table that pairs make holds the key of each of them. -/
theorem holds_of_tableOfPairs {pair : DottedKey × Value} (h : tableOfPairs pairs = some table)
    (hmem : pair ∈ pairs) : table.Holds pair.1.parts := by
  obtain ⟨before, after, rfl⟩ := List.append_of_mem hmem
  rw [tableOfPairs, List.foldlM_append, Option.bind_eq_bind, Option.bind_eq_some_iff] at h
  obtain ⟨first, -, h⟩ := h
  rw [List.foldlM_cons, Option.bind_eq_bind, Option.bind_eq_some_iff] at h
  obtain ⟨next, hnext, hrest⟩ := h
  exact of_foldlM (fun t => t.Holds pair.1.parts)
    (fun _ _ _ _ hnext ht => (Table.grows_of_addDotted hnext).keeps ht) hrest
    (Table.grows_of_addDotted hnext).holds

/-! ## Between braces -/

/-- A table as it is written between braces, with commas between its pairs. -/
def braced (lines : List Text) : Text :=
  "\x7b ".toList ++ ", ".toList.intercalate lines ++ " \x7d".toList

theorem skipBlanks_of_assigns (h : Assigns entry line) (rest : Text) :
    skipBlanks (' ' :: (line ++ rest)) = line ++ rest := by
  obtain ⟨c, more, rfl, hc⟩ := exists_beginsKey_of_writesPair h
  exact skipBlanks_of_beginsKey hc (more ++ rest)

theorem readPairs_comma (h : Assigns entry line) (rest : Text) :
    readPairs (readValue depth) (' ' :: (line ++ ", ".toList ++ rest)) =
      (readPairs (readValue depth) (' ' :: rest)).map fun (pairs, rest) =>
        (((entry.1, []), .string entry.2) :: pairs, rest) := by
  have ht : skipBlanks (' ' :: (line ++ ", ".toList ++ rest)) = line ++ (',' :: ' ' :: rest) := by
    rw [List.append_assoc, skipBlanks_of_assigns h]
    rfl
  have hcomma : skipBlanks (',' :: ' ' :: rest) = ',' :: ' ' :: rest := rfl
  rw [readPairs, readPair_of_writes h ht (by simp)]
  simp only [hcomma, dif_pos (length_lt_of_skipBlanks ht)]

theorem readPairs_last (h : Assigns entry line) (rest : Text) :
    readPairs (readValue depth) (' ' :: (line ++ (" \x7d".toList ++ rest))) =
      some ([((entry.1, []), .string entry.2)], rest) := by
  have hbrace : skipBlanks (" \x7d".toList ++ rest) = '\x7d' :: rest := rfl
  rw [readPairs, readPair_of_writes h (skipBlanks_of_assigns h _) (by simp)]
  simp only [hbrace]

theorem readPairs_of_assigns (depth : Nat) (h : List.Forall₂ Assigns entries lines) (hne : lines ≠ [])
    (rest : Text) :
    readPairs (readValue depth)
        (' ' :: (", ".toList.intercalate lines ++ (" \x7d".toList ++ rest))) =
      some (stringPairs entries, rest) := by
  induction h with
  | nil => contradiction
  | @cons entry line entries lines hline hlines ih =>
    by_cases hlast : lines = []
    · subst hlast
      cases hlines
      rw [List.intercalate_singleton]
      exact readPairs_last hline rest
    · rw [List.intercalate_cons_of_ne_nil hlast, List.append_assoc, readPairs_comma hline, ih hlast]
      rfl

/-- A table between braces in which a key stands first is made of pairs. -/
theorem readBraces_of_beginsKey {c : Char} (hc : beginsKey c = true) (rest : Text) :
    readBraces reader (' ' :: c :: rest) =
      (readPairs reader (' ' :: c :: rest)).bind fun (pairs, rest) =>
        (tableOfPairs pairs).map fun table => (.table .braces table, rest) := by
  have hskip : skipBlanks (' ' :: c :: rest) = c :: rest := skipBlanks_of_beginsKey hc rest
  rw [readBraces, hskip]
  split
  · next heq =>
    cases heq
    contradiction
  · cases readPairs reader (' ' :: c :: rest) <;> rfl

theorem intercalate_cons (separator line : Text) (lines : List Text) :
    separator.intercalate (line :: lines) = line ++ lines.flatMap (separator ++ ·) := by
  induction lines generalizing line with
  | nil => simp
  | cons next lines ih =>
    rw [List.intercalate_cons_cons, ih, List.flatMap_cons]
    simp only [List.append_assoc]

theorem readValue_braced_eq (lines : List Text) (rest : Text) :
    readValue (depth + 1) (braced lines ++ rest) = readBraces (readValue depth)
      (' ' :: (", ".toList.intercalate lines ++ (" \x7d".toList ++ rest))) := by
  have htext : braced lines ++ rest =
      '\x7b' :: ' ' :: (", ".toList.intercalate lines ++ (" \x7d".toList ++ rest)) := by
    simp [braced]
  rw [htext, readValue]

/-- A table between braces reads as the strings that it writes, unless a key comes twice. -/
theorem readValue_braced (h : List.Forall₂ Assigns entries lines) (rest : Text) :
    readValue (depth + 1) (braced lines ++ rest) =
      if (entries.map Prod.fst).Nodup then some (.table .braces (strings entries), rest)
      else none := by
  rw [readValue_braced_eq]
  cases h with
  | nil => rfl
  | @cons entry line entries lines hline hlines =>
    have hread := readPairs_of_assigns depth (.cons hline hlines)
      (List.cons_ne_nil line lines) rest
    obtain ⟨c, more, rfl, hc⟩ := exists_beginsKey_of_writesPair hline
    rw [intercalate_cons, List.cons_append, List.cons_append] at hread ⊢
    rw [readBraces_of_beginsKey hc, hread]
    simp only [Option.bind_some, tableOfPairs_stringPairs]
    split <;> rfl

/-- Pairs of which one begins with a key have a pair with that key, if they are pairs. -/
theorem exists_of_readPairs (hbefore : List.Forall₂ Assigns entries before)
    (hpath : WritesPath path w) (hrest : EndsKey rest) {more : Text}
    (hread : readPairs (readValue depth) (' ' ::
      (", ".toList.intercalate (before ++ (w ++ rest) :: after) ++ (" \x7d".toList ++ more))) =
        some (pairs, behind)) : ∃ pair ∈ pairs, path <+: pair.1.parts := by
  induction hbefore generalizing pairs behind with
  | nil =>
    have hends : EndsKey (rest ++ after.flatMap (", ".toList ++ ·) ++ (" \x7d".toList ++ more)) := by
      rw [List.append_assoc]
      cases after with
      | nil => exact hrest.append (by decide) _
      | cons next after => exact hrest.append (by decide) _
    have ht : skipBlanks (' ' :: (w ++ (rest ++ after.flatMap (", ".toList ++ ·) ++
        (" \x7d".toList ++ more)))) = w ++ (rest ++ after.flatMap (", ".toList ++ ·) ++
        (" \x7d".toList ++ more)) := skipBlanks_of_writesPath hpath _
    rw [List.nil_append, intercalate_cons, List.append_assoc, List.append_assoc,
      ← List.append_assoc rest, readPairs] at hread
    split at hread
    · contradiction
    · next pair _ hpair =>
      have hstart : path <+: pair.1.parts := prefix_of_readPair hpath ht hends hpair
      split at hread
      · cases hread
        exact ⟨pair, by simp, hstart⟩
      · split at hread
        · obtain ⟨⟨others, behind'⟩, -, heq⟩ := Option.map_eq_some_iff.1 hread
          cases heq
          exact ⟨pair, by simp, hstart⟩
        · contradiction
      · contradiction
  | @cons entry line entries before hline hbefore ih =>
    rw [List.cons_append, List.intercalate_cons_of_ne_nil (by simp), List.append_assoc,
      readPairs_comma hline] at hread
    obtain ⟨⟨others, behind'⟩, hothers, heq⟩ := Option.map_eq_some_iff.1 hread
    cases heq
    obtain ⟨pair, hmem, hstart⟩ := ih hothers
    exact ⟨pair, List.mem_cons_of_mem _ hmem, hstart⟩

/-- A key between braces is in the table, if it is one, whatever follows the key. -/
theorem holds_of_readValue_braced (hbefore : List.Forall₂ Assigns entries before)
    (hpath : WritesPath path w) (hrest : EndsKey rest) {more : Text}
    (hread : readValue (depth + 1) (braced (before ++ (w ++ rest) :: after) ++ more) =
      some (value, behind)) : ∃ inner ∈ value.subtables, inner.Holds path := by
  have hbegins : ∃ c t, ", ".toList.intercalate (before ++ (w ++ rest) :: after) = c :: t ∧
      beginsKey c = true := by
    cases hbefore with
    | nil =>
      obtain ⟨c, t, rfl, hc⟩ := exists_beginsKey_of_writesPath hpath
      exact ⟨c, _, intercalate_cons _ _ _, hc⟩
    | cons hline _ =>
      obtain ⟨c, t, rfl, hc⟩ := exists_beginsKey_of_writesPair hline
      exact ⟨c, _, intercalate_cons _ _ _, hc⟩
  obtain ⟨c, t, heq, hc⟩ := hbegins
  rw [readValue_braced_eq, heq, List.cons_append, readBraces_of_beginsKey hc, ← List.cons_append,
    ← heq] at hread
  obtain ⟨⟨pairs, behind'⟩, hpairs, hmade⟩ := Option.bind_eq_some_iff.1 hread
  obtain ⟨table, htable, hvalue⟩ := Option.map_eq_some_iff.1 hmade
  cases hvalue
  obtain ⟨pair, hmem, hstart⟩ := exists_of_readPairs hbefore hpath hrest hpairs
  exact ⟨table, List.mem_singleton_self table, (holds_of_tableOfPairs htable hmem).of_start hstart⟩

end KernelTools.Toml
