import KernelTools.Config
import KernelTools.Proofs.Toml.WellFormed

/-!
# The schema of a configuration

A document is a configuration just when it says nothing but the two paths, as strings: under their
keys in the table {lit}`isrs`, or by position when {lit}`isrs` is an array.  What it says does not depend
on the order in which keys are written, on any level.

Main results:

- Theorem {lit}`ofValue?_eq_some_iff`: what the value of {lit}`isrs` is read as.
- Theorem {lit}`ofTable?_eq_some_iff`: what a document is read as.
- Theorem {lit}`parse_eq_some_iff`: what a text is read as.
- Theorem {lit}`ofTable?_exact`: which documents are configurations, and what these set.
-/

namespace KernelTools

namespace Toml

/-! ## The order of keys -/

/-- Two values differ in the order of keys alone, on any level. -/
inductive Value.Rearranges : Value → Value → Prop
  | refl (v : Value) : Rearranges v v
  | array {items items' : List Value} (hlength : items.length = items'.length)
    (hitems : ∀ (i : Nat) (v v' : Value), items[i]? = some v → items'[i]? = some v' → Rearranges v v') :
    Rearranges (.array items) (.array items')
  | tables {tables tables' : List Table} (hlength : tables.length = tables'.length)
    (htables : ∀ (i : Nat) (t t' : Table), tables[i]? = some t → tables'[i]? = some t' →
      Rearranges (.table .header t) (.table .header t')) :
    Rearranges (.tables tables) (.tables tables')
  | table {origin origin' : Origin} {entries entries' : Table}
    (hkeys : (entries.map Prod.fst).Perm (entries'.map Prod.fst))
    (hvalues : ∀ key v v', (key, v) ∈ entries → (key, v') ∈ entries' → Rearranges v v') :
    Rearranges (.table origin entries) (.table origin' entries')

/-- Two tables differ in the order of keys alone, on any level. -/
def Table.Rearranges (t t' : Table) : Prop :=
  (Value.table .header t).Rearranges (.table .header t')

theorem Value.Rearranges.symm {v v' : Value} (h : v.Rearranges v') : v'.Rearranges v := by
  induction h with
  | refl v => exact .refl v
  | array hlength _ ih => exact .array hlength.symm fun i v v' hv hv' => ih i v' v hv' hv
  | tables hlength _ ih => exact .tables hlength.symm fun i t t' ht ht' => ih i t' t ht' ht
  | table hkeys _ ih => exact .table hkeys.symm fun key v v' hv hv' => ih key v' v hv' hv

end Toml

namespace Config

open Toml (Table Value Origin)

variable {value : Value} {top entries : Table} {config : Config} {item : Option Value}
  {set : Option Text} {key : Text} {position : Nat}

/-! ## The schema -/

/-- The items of a value that is an array; headers in double brackets make one too. -/
def items? : Value → Option (List Value)
  | .array items => some items
  | .tables latestFirst => some (latestFirst.reverse.map (.table .header))
  | _ => none

/-- What {lit}`isrs` may be: a table with no keys but those of the two paths, each of which holds a
string, or an array whose first two items, as far as there are any, are strings. -/
inductive Allowed : Value → Prop
  | table (origin : Origin) {entries : Table}
    (hkeys : ∀ entry ∈ entries, entry.1 = "source".toList ∨ entry.1 = "include".toList)
    (hstrings : ∀ entry ∈ entries, ∃ s, entry.2 = .string s) : Allowed (.table origin entries)
  | array {value : Value} {items : List Value} (hitems : items? value = some items)
    (hstrings : ∀ item ∈ items.take 2, ∃ s, item = .string s) : Allowed value

/-- What {lit}`isrs` sets one of the paths to: the string under its key, or at its position. -/
inductive Sets : Value → (key : Text) → (position : Nat) → Text → Prop
  | table (origin : Origin) {entries : Table} {key s : Text} (position : Nat)
    (hmem : (key, .string s) ∈ entries) : Sets (.table origin entries) key position s
  | array {value : Value} {items : List Value} {position : Nat} {s : Text} (key : Text)
    (hitems : items? value = some items) (hitem : items[position]? = some (.string s)) :
    Sets value key position s

/-- A document obeys the schema: it has no key but {lit}`isrs`, which is what it may be. -/
structure Obeys (top : Table) : Prop where
  keys : ∀ entry ∈ top, entry.1 = "isrs".toList
  allowed : ∀ entry ∈ top, Allowed entry.2

/-- What a document sets one of the paths to. -/
def Says (top : Table) (key : Text) (position : Nat) (s : Text) : Prop :=
  ∃ value, ("isrs".toList, value) ∈ top ∧ Sets value key position s

/-- A value of {lit}`isrs` sets exactly the paths of a configuration. -/
structure Fits (value : Value) (config : Config) : Prop where
  allowed : Allowed value
  source_iff : ∀ s, config.source = some s ↔ Sets value "source".toList 0 s
  inclusion_iff : ∀ s, config.inclusion = some s ↔ Sets value "include".toList 1 s

/-! ## Reading a value -/

theorem ofOptional?_eq_some_iff :
    ofOptional? item = some set ↔
      (∀ v, item = some v → ∃ s, v = .string s) ∧ ∀ s, set = some s ↔ item = some (.string s) := by
  cases item with
  | none => cases set <;> simp [ofOptional?]
  | some v => cases v <;> cases set <;> simp [ofOptional?, eq_comm]

theorem sets_table_iff {origin : Origin} {s : Text} :
    Sets (.table origin entries) key position s ↔ (key, .string s) ∈ entries :=
  ⟨fun | .table _ _ hmem => hmem, .table origin position⟩

theorem sets_array_iff {items : List Value} {s : Text} (hitems : items? value = some items) :
    Sets value key position s ↔ items[position]? = some (.string s) := by
  constructor
  · rintro (_ | ⟨_, hitems', hitem⟩)
    · contradiction
    · cases hitems.symm.trans hitems'
      exact hitem
  · exact .array key hitems

theorem ofEntries?_eq_some_iff :
    ofEntries? entries = some config ↔
      (∀ entry ∈ entries, entry.1 = "source".toList ∨ entry.1 = "include".toList) ∧
        ofOptional? (entries.get? "source".toList) = some config.source ∧
        ofOptional? (entries.get? "include".toList) = some config.inclusion := by
  rw [ofEntries?]
  simp only [List.all_eq_true, decide_eq_true_eq]
  split
  · next hkeys =>
    rw [and_iff_right hkeys]
    cases ofOptional? (entries.get? "source".toList) <;>
      cases ofOptional? (entries.get? "include".toList) <;> cases config <;> simp
  · next hkeys => exact ⟨fun h => by contradiction, fun h => absurd h.1 hkeys⟩

theorem fits_table_iff {origin : Origin} (h : entries.WellFormed) :
    Fits (.table origin entries) config ↔ ofEntries? entries = some config := by
  rw [ofEntries?_eq_some_iff, ofOptional?_eq_some_iff, ofOptional?_eq_some_iff]
  simp only [Table.get?_eq_some_iff h.keys]
  constructor
  · rintro ⟨hallowed, hsource, hinclusion⟩
    simp only [sets_table_iff] at hsource hinclusion
    rcases hallowed with ⟨_, hkeys, hstrings⟩ | ⟨hitems, -⟩
    · exact ⟨hkeys, ⟨fun v hmem => hstrings _ hmem, hsource⟩, fun v hmem => hstrings _ hmem, hinclusion⟩
    · contradiction
  · rintro ⟨hkeys, ⟨hsource, hsourceIff⟩, hinclusion, hinclusionIff⟩
    refine ⟨.table origin hkeys ?_, fun s => (hsourceIff s).trans sets_table_iff.symm,
      fun s => (hinclusionIff s).trans sets_table_iff.symm⟩
    rintro ⟨key, v⟩ hmem
    rcases hkeys _ hmem with hkey | hkey
    · cases hkey
      exact hsource v hmem
    · cases hkey
      exact hinclusion v hmem

/-- The first two items of an array are those at its first two positions. -/
theorem forall_mem_take_two_iff {items : List Value} {p : Value → Prop} :
    (∀ item ∈ items.take 2, p item) ↔
      (∀ item, items[0]? = some item → p item) ∧ ∀ item, items[1]? = some item → p item := by
  rcases items with _ | ⟨first, _ | ⟨second, rest⟩⟩ <;> simp

theorem ofItems?_eq_some_iff {items : List Value} :
    ofValue? (.array items) = some config ↔
      ofOptional? items[0]? = some config.source ∧ ofOptional? items[1]? = some config.inclusion := by
  rw [ofValue?]
  cases ofOptional? items[0]? <;> cases ofOptional? items[1]? <;> cases config <;> simp

theorem fits_array_iff {items : List Value} :
    Fits (.array items) config ↔ ofValue? (.array items) = some config := by
  have hitems : items? (.array items) = some items := rfl
  rw [ofItems?_eq_some_iff, ofOptional?_eq_some_iff, ofOptional?_eq_some_iff]
  constructor
  · rintro ⟨hallowed, hsource, hinclusion⟩
    simp only [sets_array_iff hitems] at hsource hinclusion
    rcases hallowed with _ | ⟨hitems', hstrings⟩
    cases hitems'
    obtain ⟨hfirst, hsecond⟩ := forall_mem_take_two_iff.1 hstrings
    exact ⟨⟨hfirst, hsource⟩, hsecond, hinclusion⟩
  · rintro ⟨⟨hfirst, hsource⟩, hsecond, hinclusion⟩
    refine ⟨.array hitems (forall_mem_take_two_iff.2 ⟨hfirst, hsecond⟩), ?_, ?_⟩
    · exact fun s => (hsource s).trans (sets_array_iff hitems).symm
    · exact fun s => (hinclusion s).trans (sets_array_iff hitems).symm

/-- An array of tables begins with a table, which is no string. -/
theorem not_allowed_tables {tables : List Table} (hne : tables ≠ []) : ¬Allowed (.tables tables) := by
  rintro (_ | ⟨hitems, hstrings⟩)
  cases hitems
  obtain ⟨first, rest, hreverse⟩ := List.exists_cons_of_ne_nil (List.reverse_ne_nil_iff.2 hne)
  obtain ⟨s, hs⟩ := hstrings (.table .header first) (by simp [hreverse])
  contradiction

/-- What the value of {lit}`isrs` is read as. -/
theorem ofValue?_eq_some_iff (h : value.WellFormed) :
    ofValue? value = some config ↔ Fits value config := by
  have hrefused (hnone : ofValue? value = none) (hallowed : ¬Allowed value) :
      ofValue? value = some config ↔ Fits value config := by
    rw [hnone]
    exact ⟨fun heq => by contradiction, fun hfits => absurd hfits.allowed hallowed⟩
  cases value with
  | table origin entries => exact (fits_table_iff (Toml.Value.wellFormed_table_iff.1 h)).symm
  | array items => exact fits_array_iff.symm
  | tables tables =>
    exact hrefused rfl (not_allowed_tables (Toml.Value.wellFormed_tables_iff.1 h).1)
  | _ =>
    refine hrefused rfl ?_
    rintro (_ | ⟨hitems, -⟩)
    contradiction

theorem exists_ofOptional? (item : Option Value) (h : ∀ v, item = some v → ∃ s, v = .string s) :
    ∃ set, ofOptional? item = some set := by
  cases item with
  | none => exact ⟨none, rfl⟩
  | some v =>
    obtain ⟨s, rfl⟩ := h v rfl
    exact ⟨some s, rfl⟩

/-- What {lit}`isrs` may be is read as something. -/
theorem exists_ofValue?_of_allowed (h : value.WellFormed) (hallowed : Allowed value) :
    ∃ config, ofValue? value = some config := by
  rcases hallowed with @⟨origin, entries, hkeys, hstrings⟩ | @⟨_, items, hitems, hstrings⟩
  · obtain ⟨source, hsource⟩ := exists_ofOptional? (entries.get? "source".toList)
      fun v hget => hstrings _ (Table.mem_of_get? hget)
    obtain ⟨inclusion, hinclusion⟩ := exists_ofOptional? (entries.get? "include".toList)
      fun v hget => hstrings _ (Table.mem_of_get? hget)
    exact ⟨⟨source, inclusion⟩, ofEntries?_eq_some_iff.2 ⟨hkeys, hsource, hinclusion⟩⟩
  · cases value with
    | array items' =>
      cases hitems
      obtain ⟨hfirst, hsecond⟩ := forall_mem_take_two_iff.1 hstrings
      obtain ⟨source, hsource⟩ := exists_ofOptional? _ hfirst
      obtain ⟨inclusion, hinclusion⟩ := exists_ofOptional? _ hsecond
      exact ⟨⟨source, inclusion⟩, ofItems?_eq_some_iff.2 ⟨hsource, hinclusion⟩⟩
    | tables tables =>
      have hne := (Toml.Value.wellFormed_tables_iff.1 h).1
      exact absurd (.array hitems hstrings) (not_allowed_tables hne)
    | _ => contradiction

/-! ## Reading a document -/

/-- A document with no key but {lit}`isrs` is empty or has that key once. -/
theorem eq_nil_or_singleton (h : ∀ entry ∈ top, entry.1 = "isrs".toList)
    (hkeys : (top.map Prod.fst).Nodup) : top = [] ∨ ∃ value, top = [("isrs".toList, value)] := by
  rcases top with _ | ⟨⟨key, value⟩, _ | ⟨second, rest⟩⟩
  · exact .inl rfl
  · cases h (key, value) (by simp)
    exact .inr ⟨value, rfl⟩
  · have hfirst := h (key, value) (by simp)
    have hsecond := h second (by simp)
    simp only [List.map_cons, List.nodup_cons, List.mem_cons, not_or] at hkeys
    exact absurd (hfirst.trans hsecond.symm) hkeys.1.1

theorem ofTable?_of_unknown (h : ¬∀ entry ∈ top, entry.1 = "isrs".toList) : ofTable? top = none := by
  rw [ofTable?, if_neg]
  simpa using h

theorem ofTable?_singleton (value : Value) : ofTable? [("isrs".toList, value)] = ofValue? value :=
  rfl

theorem says_singleton_iff {s : Text} :
    Says [("isrs".toList, value)] key position s ↔ Sets value key position s := by
  simp [Says]

/-- What a document is read as. -/
theorem ofTable?_eq_some_iff (h : top.WellFormed) :
    ofTable? top = some config ↔ Obeys top ∧
      (∀ s, config.source = some s ↔ Says top "source".toList 0 s) ∧
      ∀ s, config.inclusion = some s ↔ Says top "include".toList 1 s := by
  by_cases hkeys : ∀ entry ∈ top, entry.1 = "isrs".toList
  · rcases eq_nil_or_singleton hkeys h.keys with rfl | ⟨value, rfl⟩
    · have hobeys : Obeys [] := ⟨by simp, by simp⟩
      have hempty : ofTable? [] = some empty := rfl
      rw [hempty, and_iff_right hobeys]
      cases config
      simp [Says, empty, Option.eq_none_iff_forall_ne_some, eq_comm]
    · have hvalue : value.WellFormed := h.values ("isrs".toList, value) (by simp)
      rw [ofTable?_singleton, ofValue?_eq_some_iff hvalue]
      simp only [says_singleton_iff]
      constructor
      · rintro ⟨hallowed, hsource, hinclusion⟩
        exact ⟨⟨hkeys, by simpa using hallowed⟩, hsource, hinclusion⟩
      · rintro ⟨hobeys, hsource, hinclusion⟩
        exact ⟨hobeys.allowed ("isrs".toList, value) (by simp), hsource, hinclusion⟩
  · rw [ofTable?_of_unknown hkeys]
    exact ⟨fun heq => by contradiction, fun hobeys => absurd hobeys.1.keys hkeys⟩

/-- A text is read as a configuration just when it is a document that obeys the schema and says what
the configuration sets. -/
theorem parse_eq_some_iff {contents : Text} :
    parse contents = some config ↔ ∃ top, Toml.readDocument contents = some top ∧ Obeys top ∧
      (∀ s, config.source = some s ↔ Says top "source".toList 0 s) ∧
      ∀ s, config.inclusion = some s ↔ Says top "include".toList 1 s := by
  rw [parse, Option.bind_eq_some_iff]
  refine exists_congr fun top => and_congr_right fun hread => ?_
  exact ofTable?_eq_some_iff (Toml.wellFormed_of_readDocument hread)

theorem exists_ofTable?_of_obeys (h : top.WellFormed) (hobeys : Obeys top) :
    ∃ config, ofTable? top = some config := by
  rcases eq_nil_or_singleton hobeys.keys h.keys with rfl | ⟨value, rfl⟩
  · exact ⟨empty, rfl⟩
  · rw [ofTable?_singleton]
    exact exists_ofValue?_of_allowed (h.values ("isrs".toList, value) (by simp))
      (hobeys.allowed ("isrs".toList, value) (by simp))

/-! ## The order of keys -/

/-- The items of a rearranged array are rearranged in their places. -/
theorem exists_items?_of_rearranges {value' : Value} {items : List Value}
    (h : value.Rearranges value') (hitems : items? value = some items) :
    ∃ items', items? value' = some items' ∧ items.length = items'.length ∧
      ∀ (i : Nat) (v v' : Value), items[i]? = some v → items'[i]? = some v' → v.Rearranges v' := by
  cases h with
  | refl =>
    refine ⟨items, hitems, rfl, ?_⟩
    intro i v v' hv hv'
    cases hv.symm.trans hv'
    exact .refl v
  | array hlength hrearranges =>
    cases hitems
    exact ⟨_, rfl, hlength, hrearranges⟩
  | @tables tables tables' hlength hrearranges =>
    cases hitems
    refine ⟨_, rfl, by simpa using hlength, ?_⟩
    intro i v v' hv hv'
    have hi : i < tables.length := by
      have := (List.getElem?_eq_some_iff.1 hv).1
      simpa using this
    rw [List.getElem?_map, List.getElem?_reverse hi, Option.map_eq_some_iff] at hv
    rw [List.getElem?_map, List.getElem?_reverse (hlength ▸ hi), Option.map_eq_some_iff] at hv'
    obtain ⟨t, ht, rfl⟩ := hv
    obtain ⟨t', ht', rfl⟩ := hv'
    exact hrearranges _ t t' ht (hlength ▸ ht')
  | table => contradiction

/-- A rearranged table has the same keys with rearranged values. -/
theorem exists_mem_of_rearranges {origin origin' : Origin} {entries' : Table} {v : Value}
    (h : (Value.table origin entries).Rearranges (.table origin' entries'))
    (hmem : (key, v) ∈ entries) : ∃ v', (key, v') ∈ entries' ∧ v.Rearranges v' := by
  cases h with
  | refl => exact ⟨v, hmem, .refl v⟩
  | table hkeys hvalues =>
    have hkey : key ∈ entries'.map Prod.fst := hkeys.subset (List.mem_map_of_mem hmem)
    obtain ⟨⟨_, v'⟩, hmem', rfl⟩ := List.mem_map.1 hkey
    exact ⟨v', hmem', hvalues _ v v' hmem hmem'⟩

theorem eq_string_of_rearranges {s : Text} (h : (Value.string s).Rearranges value) :
    value = .string s := by
  cases h
  rfl

theorem exists_eq_table_of_rearranges {origin : Origin}
    (h : (Value.table origin entries).Rearranges value) :
    ∃ origin' entries', value = .table origin' entries' := by
  cases h <;> exact ⟨_, _, rfl⟩

theorem Sets.of_rearranges {value' : Value} {s : Text} (hsets : Sets value key position s)
    (h : value.Rearranges value') : Sets value' key position s := by
  rcases hsets with ⟨origin, _, hmem⟩ | ⟨_, hitems, hitem⟩
  · obtain ⟨origin', entries', rfl⟩ := exists_eq_table_of_rearranges h
    obtain ⟨v', hmem', hv⟩ := exists_mem_of_rearranges h hmem
    cases eq_string_of_rearranges hv
    exact .table origin' position hmem'
  · obtain ⟨items', hitems', hlength, hrearranges⟩ := exists_items?_of_rearranges h hitems
    have hposition : position < items'.length := hlength ▸ (List.getElem?_eq_some_iff.1 hitem).1
    have hitem' := List.getElem?_eq_getElem hposition
    rw [eq_string_of_rearranges (hrearranges position _ _ hitem hitem')] at hitem'
    exact .array key hitems' hitem'

theorem Allowed.of_rearranges {value' : Value} (hallowed : Allowed value)
    (h : value.Rearranges value') : Allowed value' := by
  rcases hallowed with ⟨origin, hkeys, hstrings⟩ | @⟨_, items, hitems, hstrings⟩
  · obtain ⟨origin', entries', rfl⟩ := exists_eq_table_of_rearranges h
    refine .table origin' ?_ ?_
    · intro entry hmem
      obtain ⟨v, hv, -⟩ := exists_mem_of_rearranges h.symm hmem
      exact hkeys (entry.1, v) hv
    · intro entry hmem
      obtain ⟨v, hv, hrearranges⟩ := exists_mem_of_rearranges h.symm hmem
      obtain ⟨s, rfl⟩ := hstrings (entry.1, v) hv
      exact ⟨s, eq_string_of_rearranges hrearranges.symm⟩
  · obtain ⟨items', hitems', hlength, hrearranges⟩ := exists_items?_of_rearranges h hitems
    have hback : ∀ (i : Nat) (v' : Value), (∀ v, items[i]? = some v → ∃ s, v = .string s) →
        items'[i]? = some v' → ∃ s, v' = .string s := by
      intro i v' hstring hv'
      have hi := hlength ▸ (List.getElem?_eq_some_iff.1 hv').1
      have hv := List.getElem?_eq_getElem hi
      obtain ⟨s, hs⟩ := hstring _ hv
      rw [hs] at hv
      exact ⟨s, eq_string_of_rearranges (hrearranges i _ _ hv hv')⟩
    obtain ⟨hfirst, hsecond⟩ := forall_mem_take_two_iff.1 hstrings
    exact .array hitems' (forall_mem_take_two_iff.2 ⟨fun v' => hback 0 v' hfirst,
      fun v' => hback 1 v' hsecond⟩)

theorem Obeys.of_rearranges {top' : Table} (hobeys : Obeys top) (h : top.Rearranges top') :
    Obeys top' := by
  constructor
  · intro entry hmem
    obtain ⟨v, hv, -⟩ := exists_mem_of_rearranges h.symm hmem
    exact hobeys.keys (entry.1, v) hv
  · intro entry hmem
    obtain ⟨v, hv, hrearranges⟩ := exists_mem_of_rearranges h.symm hmem
    exact (hobeys.allowed (entry.1, v) hv).of_rearranges hrearranges.symm

theorem Says.of_rearranges {top' : Table} {s : Text} (hset : Says top key position s)
    (h : top.Rearranges top') : Says top' key position s := by
  obtain ⟨value, hmem, hsets⟩ := hset
  obtain ⟨value', hmem', hrearranges⟩ := exists_mem_of_rearranges h hmem
  exact ⟨value', hmem', hsets.of_rearranges hrearranges⟩

/-- A document is read as it was when its keys are written in another order. -/
theorem ofTable?_of_rearranges {top' : Table} (h : top.WellFormed) (h' : top'.WellFormed)
    (hrearranges : top.Rearranges top') : ofTable? top' = ofTable? top := by
  have hobeys : Obeys top' ↔ Obeys top :=
    ⟨fun hobeys => hobeys.of_rearranges hrearranges.symm, fun hobeys => hobeys.of_rearranges hrearranges⟩
  have hset : ∀ key position s, Says top' key position s ↔ Says top key position s :=
    fun _ _ _ => ⟨fun hset => hset.of_rearranges hrearranges.symm,
      fun hset => hset.of_rearranges hrearranges⟩
  refine Option.ext fun config => ?_
  rw [ofTable?_eq_some_iff h', ofTable?_eq_some_iff h, hobeys]
  simp only [hset]

/-- A document whose keys are distinct on every level is a configuration just when it obeys the
schema.  It then sets the two paths to exactly the strings that it gives for them, and leaves the
others unset; and the order of its keys does not matter, on any level. -/
theorem ofTable?_exact (h : top.WellFormed) :
    ((∃ config, ofTable? top = some config) ↔ Obeys top) ∧
      (∀ config, ofTable? top = some config →
        (∀ s, config.source = some s ↔ Says top "source".toList 0 s) ∧
        ∀ s, config.inclusion = some s ↔ Says top "include".toList 1 s) ∧
      ∀ top', top'.WellFormed → top.Rearranges top' → ofTable? top' = ofTable? top := by
  refine ⟨⟨?_, exists_ofTable?_of_obeys h⟩, ?_, fun top' => ofTable?_of_rearranges h⟩
  · rintro ⟨config, hconfig⟩
    exact ((ofTable?_eq_some_iff h).1 hconfig).1
  · intro config hconfig
    exact ((ofTable?_eq_some_iff h).1 hconfig).2

/-- Two documents with distinct keys on every level: one that gives both paths in a table, and one that
gives one of them in an array. -/
theorem ofTable?_exact_of_documents :
    let table : Table := [("isrs".toList, .table .header
      [("include".toList, .string "b".toList), ("source".toList, .string "a".toList)])]
    let array : Table := [("isrs".toList, .array [.string "a".toList])]
    table.WellFormed ∧ Obeys table ∧ Says table "source".toList 0 "a".toList ∧
      array.WellFormed ∧ Obeys array ∧ ∀ s, ¬Says array "include".toList 1 s := by
  intro table array
  have hstrings : Table.WellFormed
      [("include".toList, .string "b".toList), ("source".toList, .string "a".toList)] :=
    ⟨by decide, by simpa using ⟨.string _, .string _⟩⟩
  have htable : table.WellFormed :=
    ⟨by decide, List.forall_mem_singleton.2 (Toml.Value.wellFormed_table_iff.2 hstrings)⟩
  have harray : array.WellFormed :=
    ⟨by decide, List.forall_mem_singleton.2 (.array (List.forall_mem_singleton.2 (.string _)))⟩
  obtain ⟨hobeys, hset, -⟩ := ofTable?_exact htable
  obtain ⟨hobeys', hset', -⟩ := ofTable?_exact harray
  refine ⟨htable, hobeys.1 ⟨⟨some "a".toList, some "b".toList⟩, rfl⟩, ?_, harray,
    hobeys'.1 ⟨⟨some "a".toList, none⟩, rfl⟩, ?_⟩
  · exact ((hset ⟨some "a".toList, some "b".toList⟩ rfl).1 _).1 rfl
  · intro s hs
    have := ((hset' ⟨some "a".toList, none⟩ rfl).2 s).2 hs
    contradiction

end Config

end KernelTools
