import KernelTools.Proofs.Toml.Growing

/-!
# Documents are well-formed

Every value that is read has distinct keys in each of its tables, however deep it nests; so the table
that a document reads as has distinct keys on every level, which is what makes it a TOML document.

Main results:

- Theorem {lit}`wellFormed_of_readValue`: values are read well-formed, at every depth.
- Theorem {lit}`wellFormed_of_readDocument`: documents are read well-formed.
-/

namespace KernelTools.Toml

variable {t rest : Text} {value : Value} {reader : ValueReader}

/-! ## Words -/

theorem wellFormed_of_integerInBase? {base : Nat} {isDigit : Char → Bool}
    (h : integerInBase? base isDigit t = some value) : value.WellFormed := by
  simp only [integerInBase?] at h
  split at h
  · contradiction
  · split at h
    · cases h
      exact .integer _
    · contradiction

theorem wellFormed_of_integer? (h : integer? t = some value) : value.WellFormed := by
  rw [integer?.eq_def] at h
  split at h
  · exact wellFormed_of_integerInBase? h
  · exact wellFormed_of_integerInBase? h
  · exact wellFormed_of_integerInBase? h
  · simp only at h
    split at h
    · contradiction
    · split at h <;> split at h <;> cases h <;> exact .integer _

theorem wellFormed_of_float? (h : float? t = some value) : value.WellFormed := by
  simp only [float?] at h
  split at h
  · cases h
    exact .float _
  · split at h
    · contradiction
    · split at h
      · contradiction
      · cases h
        exact .float _

theorem wellFormed_of_word? (h : word? t = some value) : value.WellFormed := by
  rw [word?] at h
  split at h
  · cases h
    exact .boolean _
  split at h
  · cases h
    exact .boolean _
  split at h
  · cases h
    exact .dateTime _
  · rcases Option.or_eq_some_iff.1 h with hinteger | ⟨-, hfloat⟩
    · exact wellFormed_of_integer? hinteger
    · exact wellFormed_of_float? hfloat

theorem wellFormed_of_readWord (h : readWord t = some (value, rest)) : value.WellFormed := by
  simp only [readWord] at h
  split at h
  · split at h <;> cases h <;> exact .dateTime _
  · obtain ⟨word, hword, heq⟩ := Option.map_eq_some_iff.1 h
    cases heq
    exact wellFormed_of_word? hword

/-! ## Arrays and tables -/

/-- A reader reads well-formed values only. -/
def ReadsWellFormed (reader : ValueReader) : Prop :=
  ∀ t value rest, reader t = some (value, rest) → value.WellFormed

theorem wellFormed_of_readItems {items : List Value} (hreader : ReadsWellFormed reader)
    (h : readItems reader t = some (items, rest)) : ∀ item ∈ items, item.WellFormed := by
  fun_induction readItems reader t generalizing items rest with
  | case1 | case3 | case6 | case7 => contradiction
  | case2 =>
    cases h
    simp
  | case4 _ _ _ _ _ _ hitem =>
    cases h
    simpa using hreader _ _ _ hitem
  | case5 _ _ _ _ _ _ hitem _ _ _ ih =>
    obtain ⟨⟨others, behind⟩, hothers, heq⟩ := Option.map_eq_some_iff.1 h
    cases heq
    exact List.forall_mem_cons.2 ⟨hreader _ _ _ hitem, ih hothers⟩

theorem wellFormed_of_readPair {pair : DottedKey × Value} (hreader : ReadsWellFormed reader)
    (h : readPair reader t = some (pair, rest)) : pair.2.WellFormed := by
  rw [readPair] at h
  split at h
  · obtain ⟨⟨value, behind⟩, hvalue, heq⟩ := Option.map_eq_some_iff.1 h
    cases heq
    exact hreader _ _ _ hvalue
  · contradiction

theorem wellFormed_of_readPairs {pairs : List (DottedKey × Value)} (hreader : ReadsWellFormed reader)
    (h : readPairs reader t = some (pairs, rest)) : ∀ pair ∈ pairs, pair.2.WellFormed := by
  fun_induction readPairs reader t generalizing pairs rest with
  | case1 | case4 | case5 => contradiction
  | case2 _ _ _ hpair =>
    cases h
    simpa using wellFormed_of_readPair hreader hpair
  | case3 _ _ _ hpair _ _ _ ih =>
    obtain ⟨⟨others, behind⟩, hothers, heq⟩ := Option.map_eq_some_iff.1 h
    cases heq
    exact List.forall_mem_cons.2 ⟨wellFormed_of_readPair hreader hpair, ih hothers⟩

/-- Adding pairs one after the other keeps a table well-formed. -/
theorem wellFormed_of_addPairs {pairs : List (DottedKey × Value)} {table table' : Table}
    (h : pairs.foldlM (fun (t : Table) ((key, value) : DottedKey × Value) =>
      t.addDotted key.1 value key.2) table = some table')
    (hpairs : ∀ pair ∈ pairs, pair.2.WellFormed) (htable : table.WellFormed) : table'.WellFormed :=
  of_foldlM Table.WellFormed (fun pair hpair _ _ hnext ht =>
    (Table.grows_of_addDotted hnext).wellFormed (hpairs pair hpair) ht) h htable

theorem wellFormed_of_readBraces (hreader : ReadsWellFormed reader)
    (h : readBraces reader t = some (value, rest)) : value.WellFormed := by
  rw [readBraces] at h
  split at h
  · cases h
    exact Value.wellFormed_table_iff.2 Table.wellFormed_nil
  · split at h
    · contradiction
    · next pairs behind hpairs =>
      obtain ⟨table, htable, heq⟩ := Option.map_eq_some_iff.1 h
      cases heq
      have hwell := wellFormed_of_readPairs hreader hpairs
      exact Value.wellFormed_table_iff.2 (wellFormed_of_addPairs htable hwell Table.wellFormed_nil)

/-- Values are read well-formed, at every depth. -/
theorem wellFormed_of_readValue (depth : Nat) : ReadsWellFormed (readValue depth) := by
  have hstring : ∀ t value rest, (readString t).map (fun read => (Value.string read.1, read.2)) =
      some (value, rest) → value.WellFormed := by
    intro t value rest h
    obtain ⟨⟨text, behind⟩, -, heq⟩ := Option.map_eq_some_iff.1 h
    cases heq
    exact .string text
  induction depth with
  | zero =>
    intro t value rest h
    unfold readValue at h
    split at h
    · exact hstring _ _ _ h
    · exact hstring _ _ _ h
    · contradiction
    · contradiction
    · exact wellFormed_of_readWord h
  | succ depth ih =>
    intro t value rest h
    unfold readValue at h
    split at h
    · exact hstring _ _ _ h
    · exact hstring _ _ _ h
    · next depth' _ hdepth =>
      obtain rfl : depth = depth' := Nat.succ.inj hdepth
      obtain ⟨⟨items, behind⟩, hitems, heq⟩ := Option.map_eq_some_iff.1 h
      cases heq
      exact .array (wellFormed_of_readItems ih hitems)
    · next depth' _ hdepth =>
      obtain rfl : depth = depth' := Nat.succ.inj hdepth
      exact wellFormed_of_readBraces ih h
    · exact wellFormed_of_readWord h

/-! ## Documents -/

theorem wellFormed_of_readStatement {s : Statement} (h : readStatement t = some (s, rest)) :
    s.added.WellFormed := by
  rw [readStatement.eq_def] at h
  split at h
  · split at h
    · cases h
      exact Value.wellFormed_tables_iff.2 ⟨List.cons_ne_nil _ _, by simpa using Table.wellFormed_nil⟩
    · contradiction
  · split at h
    · cases h
      exact Value.wellFormed_table_iff.2 Table.wellFormed_nil
    · contradiction
  · obtain ⟨⟨pair, behind⟩, hpair, heq⟩ := Option.map_eq_some_iff.1 h
    cases heq
    exact wellFormed_of_readPair (wellFormed_of_readValue nestingLimit) hpair

theorem wellFormed_of_readStatements {statements : List Statement}
    (h : readStatements t = some statements) : ∀ s ∈ statements, s.added.WellFormed := by
  fun_induction readStatements t generalizing statements with
  | case1 =>
    cases h
    simp
  | case2 | case4 | case5 | case6 | case8 => contradiction
  | case3 _ _ _ _ _ _ _ _ ih => exact ih h
  | case7 _ _ _ _ _ _ _ hstatement _ _ _ ih =>
    obtain ⟨others, hothers, rfl⟩ := Option.map_eq_some_iff.1 h
    exact List.forall_mem_cons.2 ⟨wellFormed_of_readStatement hstatement, ih hothers⟩

/-- Documents are read well-formed. -/
theorem wellFormed_of_readDocument {top : Table} (h : readDocument t = some top) : top.WellFormed := by
  obtain ⟨statements, hstatements, hassemble⟩ := Option.bind_eq_some_iff.1 h
  obtain ⟨draft, hdraft, rfl⟩ := Option.map_eq_some_iff.1 hassemble
  exact wellFormed_of_foldlM hdraft (wellFormed_of_readStatements hstatements) Table.wellFormed_nil

end KernelTools.Toml
