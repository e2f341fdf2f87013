import KernelTools.Toml.Document
import Mathlib.Data.List.Nodup

/-!
# How a document grows

A statement adds one thing to the tables so far: a value under a free key, or a table that a header
opens.  Where it adds something, and what, is said once, and what a document keeps follows from that:
keys stay distinct on every level, and what is there stays there.

Main results:

- Theorem {lit}`grows_of_apply`: a statement adds one thing along its path.
- Theorem {lit}`Table.Grows.wellFormed`: keys stay distinct on every level.
- Theorem {lit}`Table.Grows.holds` and theorem {lit}`Table.Grows.keeps`: what a statement names is there
  afterwards, with all that was there before.
- Theorem {lit}`holds_of_foldlM` and theorem {lit}`wellFormed_of_foldlM`: the same for a whole document.
-/

namespace KernelTools.Toml

variable {t t' inner : Table} {key other : Text} {path back : List Text} {value v : Value}

namespace Table

/-! ## Values under keys -/

theorem get?_eq_none_iff : t.get? key = none ↔ key ∉ t.map Prod.fst := by
  rw [get?, List.lookup_eq_none_iff, List.mem_map]
  constructor
  · rintro h ⟨entry, hmem, rfl⟩
    simpa using h entry hmem
  · intro h entry hmem
    rw [bne_iff_ne]
    rintro rfl
    exact h ⟨entry, hmem, rfl⟩

theorem mem_of_get? (h : t.get? key = some value) : (key, value) ∈ t := by
  obtain ⟨before, after, rfl, -⟩ := List.lookup_eq_some_iff.1 h
  exact List.mem_append_right _ List.mem_cons_self

/-- With distinct keys, a value stands under a key just when the table has the two together. -/
theorem get?_eq_some_iff (hkeys : (t.map Prod.fst).Nodup) :
    t.get? key = some value ↔ (key, value) ∈ t := by
  refine ⟨mem_of_get?, ?_⟩
  intro hmem
  obtain ⟨before, after, rfl⟩ := List.append_of_mem hmem
  refine List.lookup_eq_some_iff.2 ⟨before, after, rfl, ?_⟩
  intro entry hentry
  rw [List.map_append, List.nodup_append] at hkeys
  rw [bne_iff_ne]
  exact (hkeys.2.2 _ (List.mem_map_of_mem hentry) _ (by simp)).symm

theorem get?_append_free (hfree : t.get? key = none) (value : Value) (other : Text) :
    Table.get? (t ++ [(key, value)]) other = if other = key then some value else t.get? other := by
  rw [get?, get?, List.lookup_append, List.lookup_cons, List.lookup_nil]
  by_cases hother : other = key
  · have hlookup : List.lookup key t = none := hfree
    simp [hother, hlookup]
  · simp [hother, beq_eq_false_iff_ne.2 hother]

theorem get?_replace (h : t.get? key = some v) (value : Value) (other : Text) :
    Table.get? (replace key value t) other = if other = key then some value else t.get? other := by
  induction t with
  | nil => contradiction
  | cons entry rest ih =>
    rw [get?, List.lookup_cons] at h
    rw [replace]
    by_cases hkey : entry.1 = key
    · rw [if_pos hkey, get?, get?, List.lookup_cons, List.lookup_cons, hkey]
      by_cases hother : other = key
      · simp [hother]
      · simp [hother, beq_eq_false_iff_ne.2 hother]
    · have hne : (key == entry.1) = false := beq_eq_false_iff_ne.2 (Ne.symm hkey)
      rw [hne] at h
      rw [if_neg hkey, get?, get?, List.lookup_cons, List.lookup_cons]
      have hrest := ih h
      rw [get?, get?] at hrest
      rw [hrest]
      by_cases hother : other = key
      · simp [hother, hne]
      · simp [hother]

theorem mem_replace {entry : Text × Value} (h : entry ∈ replace key value t) :
    entry = (key, value) ∨ entry ∈ t := by
  induction t with
  | nil => exact absurd h List.not_mem_nil
  | cons first rest ih =>
    rw [replace] at h
    split at h
    · rcases List.mem_cons.1 h with rfl | hmem
      · exact .inl rfl
      · exact .inr (List.mem_cons_of_mem _ hmem)
    · rcases List.mem_cons.1 h with rfl | hmem
      · exact .inr List.mem_cons_self
      · exact (ih hmem).imp_right (List.mem_cons_of_mem _)

/-- Puts a value under a key, in the place of the one that is there, if there is one. -/
def put (t : Table) (key : Text) (value : Value) : Table :=
  if (t.get? key).isNone then t ++ [(key, value)] else replace key value t

theorem put_of_free (hfree : t.get? key = none) (value : Value) :
    t.put key value = t ++ [(key, value)] := by
  rw [put, hfree, Option.isNone_none, if_pos rfl]

theorem put_of_get? (h : t.get? key = some v) (value : Value) :
    t.put key value = replace key value t := by
  rw [put, h, Option.isNone_some, if_neg Bool.false_ne_true]

theorem get?_put (t : Table) (key : Text) (value : Value) (other : Text) :
    (t.put key value).get? other = if other = key then some value else t.get? other := by
  cases h : t.get? key with
  | none => rw [put_of_free h, get?_append_free h]
  | some v => rw [put_of_get? h, get?_replace h]

theorem mem_put {entry : Text × Value} (h : entry ∈ t.put key value) :
    entry = (key, value) ∨ entry ∈ t := by
  cases hget : t.get? key with
  | none =>
    rw [put_of_free hget, List.mem_append, List.mem_singleton] at h
    exact h.symm
  | some v =>
    rw [put_of_get? hget] at h
    exact mem_replace h

theorem nodup_keys_put (hkeys : (t.map Prod.fst).Nodup) (key : Text) (value : Value) :
    ((t.put key value).map Prod.fst).Nodup := by
  cases h : t.get? key with
  | none =>
    rw [put_of_free h, List.map_append, List.map_singleton]
    exact List.nodup_append_comm.1 (List.nodup_cons.2 ⟨get?_eq_none_iff.1 h, hkeys⟩)
  | some v => rwa [put_of_get? h, keys_replace]

/-! ## Growing -/

/-- A table grows into another: along a path, through tables that are there or are made on the way,
a value is put under a free key, or a header opens a table that was implied, or one more of an array
of tables. -/
inductive Grows (value : Value) : Table → List Text → Table → Prop
  | free {t : Table} {key : Text} (hfree : t.get? key = none) : Grows value t [key] (t.put key value)
  | implied {t inner : Table} {key : Text} (hget : t.get? key = some (.table .implied inner)) :
    Grows value t [key] (t.put key (.table .header inner))
  | next {t : Table} {key : Text} {tables : List Table} (hget : t.get? key = some (.tables tables)) :
    Grows value t [key] (t.put key (.tables ([] :: tables)))
  | made {t inner : Table} {key : Text} {path : List Text} (origin : Origin)
    (hfree : t.get? key = none) (hgrows : Grows value [] path inner) :
    Grows value t (key :: path) (t.put key (.table origin inner))
  | inside {t inner inner' : Table} {key : Text} {path : List Text} {origin : Origin}
    (hget : t.get? key = some (.table origin inner)) (hgrows : Grows value inner path inner') :
    Grows value t (key :: path) (t.put key (.table origin inner'))
  | latest {t latest latest' : Table} {key : Text} {path : List Text} {earlier : List Table}
    (hget : t.get? key = some (.tables (latest :: earlier)))
    (hgrows : Grows value latest path latest') :
    Grows value t (key :: path) (t.put key (.tables (latest' :: earlier)))

theorem grows_of_add (h : t.add key value = some t') : Grows value t [key] t' := by
  rw [add] at h
  cases hget : t.get? key with
  | none =>
    simp only [hget, Option.some.injEq] at h
    subst h
    rw [← put_of_free hget]
    exact .free hget
  | some v => simp [hget] at h

/-- A value under a dotted key is added along the parts of the key. -/
theorem grows_of_addDotted {more : List Text} (h : t.addDotted key value more = some t') :
    Grows value t (key :: more) t' := by
  induction more generalizing t key t' with
  | nil => exact grows_of_add h
  | cons next more ih =>
    rw [addDotted] at h
    split at h
    · next hfree =>
      obtain ⟨inner, hinner, rfl⟩ := Option.map_eq_some_iff.1 h
      rw [← put_of_free hfree]
      exact .made .dotted hfree (ih hinner)
    · next inner hget =>
      obtain ⟨inner', hinner, rfl⟩ := Option.map_eq_some_iff.1 h
      rw [← put_of_get? hget]
      exact .inside hget (ih hinner)
    · contradiction

/-- What is added to the table that a header leads to is added along the parts of the header. -/
theorem grows_of_changeAt {change : Table → Option Table}
    (hchange : ∀ inner inner', change inner = some inner' → Grows value inner back inner')
    (h : t.changeAt change path = some t') : Grows value t (path ++ back) t' := by
  induction path generalizing t t' with
  | nil => exact hchange t t' h
  | cons key path ih =>
    rw [changeAt] at h
    split at h
    · next hfree =>
      obtain ⟨inner, hinner, rfl⟩ := Option.map_eq_some_iff.1 h
      rw [← put_of_free hfree]
      exact .made .implied hfree (ih hinner)
    · contradiction
    · next origin inner _ hget =>
      obtain ⟨inner', hinner, rfl⟩ := Option.map_eq_some_iff.1 h
      rw [← put_of_get? hget]
      exact .inside hget (ih hinner)
    · next latest earlier hget =>
      obtain ⟨latest', hlatest, rfl⟩ := Option.map_eq_some_iff.1 h
      rw [← put_of_get? hget]
      exact .latest hget (ih hlatest)
    · contradiction

theorem grows_of_openTable (h : openTable key t = some t') :
    Grows (.table .header []) t [key] t' := by
  rw [openTable] at h
  split at h
  · next hfree =>
    cases h
    rw [← put_of_free hfree]
    exact .free hfree
  · next inner hget =>
    cases h
    rw [← put_of_get? hget]
    exact .implied hget
  · contradiction

theorem grows_of_openNext (h : openNext key t = some t') : Grows (.tables [[]]) t [key] t' := by
  rw [openNext] at h
  split at h
  · next hfree =>
    cases h
    rw [← put_of_free hfree]
    exact .free hfree
  · next tables hget =>
    cases h
    rw [← put_of_get? hget]
    exact .next hget
  · contradiction

end Table

/-! ## Well-formed values -/

/-- A value in which no table has a key twice and no array of tables is empty. -/
inductive Value.WellFormed : Value → Prop
  | string (text : Text) : WellFormed (.string text)
  | boolean (b : Bool) : WellFormed (.boolean b)
  | integer (n : Int) : WellFormed (.integer n)
  | float (spelling : Text) : WellFormed (.float spelling)
  | dateTime (spelling : Text) : WellFormed (.dateTime spelling)
  | array {items : List Value} (hitems : ∀ item ∈ items, WellFormed item) : WellFormed (.array items)
  | tables {latestFirst : List Table} (hne : latestFirst ≠ [])
    (hkeys : ∀ t ∈ latestFirst, (t.map Prod.fst).Nodup)
    (hvalues : ∀ t ∈ latestFirst, ∀ entry ∈ t, WellFormed entry.2) : WellFormed (.tables latestFirst)
  | table (origin : Origin) {entries : Table} (hkeys : (entries.map Prod.fst).Nodup)
    (hvalues : ∀ entry ∈ entries, WellFormed entry.2) : WellFormed (.table origin entries)

/-- A table without a key twice, on any level. -/
structure Table.WellFormed (t : Table) : Prop where
  keys : (t.map Prod.fst).Nodup
  values : ∀ entry ∈ t, entry.2.WellFormed

theorem Table.wellFormed_nil : Table.WellFormed [] :=
  ⟨List.nodup_nil, by simp⟩

theorem Value.wellFormed_table_iff {origin : Origin} :
    (Value.table origin t).WellFormed ↔ t.WellFormed :=
  ⟨fun | .table _ hkeys hvalues => ⟨hkeys, hvalues⟩, fun h => .table origin h.keys h.values⟩

theorem Value.wellFormed_tables_iff {tables : List Table} :
    (Value.tables tables).WellFormed ↔ tables ≠ [] ∧ ∀ t ∈ tables, t.WellFormed := by
  constructor
  · rintro (_ | _)
    next hne hkeys hvalues =>
    exact ⟨hne, fun t hmem => ⟨hkeys t hmem, hvalues t hmem⟩⟩
  · rintro ⟨hne, h⟩
    exact .tables hne (fun t hmem => (h t hmem).keys) fun t hmem => (h t hmem).values

namespace Table

theorem WellFormed.get? (h : t.WellFormed) (hget : t.get? key = some value) : value.WellFormed :=
  h.values _ (mem_of_get? hget)

theorem WellFormed.put (h : t.WellFormed) (key : Text) (hvalue : value.WellFormed) :
    (t.put key value).WellFormed := by
  refine ⟨nodup_keys_put h.keys key value, ?_⟩
  intro entry hmem
  rcases mem_put hmem with rfl | hmem
  · exact hvalue
  · exact h.values entry hmem

/-- Adding a well-formed value keeps a table well-formed. -/
theorem Grows.wellFormed (h : Grows value t path t') (hvalue : value.WellFormed)
    (ht : t.WellFormed) : t'.WellFormed := by
  induction h with
  | free hfree => exact ht.put _ hvalue
  | implied hget =>
    exact ht.put _ (Value.wellFormed_table_iff.2 (Value.wellFormed_table_iff.1 (ht.get? hget)))
  | next hget =>
    obtain ⟨-, htables⟩ := Value.wellFormed_tables_iff.1 (ht.get? hget)
    refine ht.put _ (Value.wellFormed_tables_iff.2 ⟨List.cons_ne_nil _ _, ?_⟩)
    exact List.forall_mem_cons.2 ⟨wellFormed_nil, htables⟩
  | made origin hfree hgrows ih => exact ht.put _ (Value.wellFormed_table_iff.2 (ih wellFormed_nil))
  | inside hget hgrows ih =>
    exact ht.put _ (Value.wellFormed_table_iff.2 (ih (Value.wellFormed_table_iff.1 (ht.get? hget))))
  | latest hget hgrows ih =>
    obtain ⟨-, htables⟩ := Value.wellFormed_tables_iff.1 (ht.get? hget)
    obtain ⟨hlatest, hearlier⟩ := List.forall_mem_cons.1 htables
    refine ht.put _ (Value.wellFormed_tables_iff.2 ⟨List.cons_ne_nil _ _, ?_⟩)
    exact List.forall_mem_cons.2 ⟨ih hlatest, hearlier⟩

/-! ## What is there -/

end Table

/-- The tables that a value holds directly. -/
def Value.subtables : Value → List Table
  | .table _ entries => [entries]
  | .tables latestFirst => latestFirst
  | _ => []

namespace Table

/-- Something is there along a path of keys. -/
def Holds (t : Table) : List Text → Prop
  | [] => True
  | key :: path => ∃ value, t.get? key = some value ∧ (path = [] ∨ ∃ inner ∈ value.subtables, Holds inner path)

/-- The start of a path leads to something as well. -/
theorem Holds.of_start (h : t.Holds path) {start : List Text} (hstart : start <+: path) :
    t.Holds start := by
  induction start generalizing t path with
  | nil => trivial
  | cons key start ih =>
    cases path with
    | nil => exact absurd (List.prefix_nil.1 hstart) (List.cons_ne_nil _ _)
    | cons first path =>
      obtain ⟨rfl, htail⟩ := List.cons_prefix_cons.1 hstart
      obtain ⟨value, hget, hpath⟩ := h
      refine ⟨value, hget, ?_⟩
      rcases hpath with rfl | ⟨inner, hinner, hpath⟩
      · exact .inl (List.prefix_nil.1 htail)
      · exact .inr ⟨inner, hinner, ih hpath htail⟩

theorem get?_put_self (t : Table) (key : Text) (value : Value) :
    (t.put key value).get? key = some value := by
  rw [get?_put, if_pos rfl]

/-- What was added is there. -/
theorem Grows.holds (h : Grows value t path t') : t'.Holds path := by
  induction h with
  | free hfree => exact ⟨_, get?_put_self _ _ _, .inl rfl⟩
  | implied hget => exact ⟨_, get?_put_self _ _ _, .inl rfl⟩
  | next hget => exact ⟨_, get?_put_self _ _ _, .inl rfl⟩
  | made origin hfree hgrows ih =>
    exact ⟨_, get?_put_self _ _ _, .inr ⟨_, List.mem_singleton_self _, ih⟩⟩
  | inside hget hgrows ih =>
    exact ⟨_, get?_put_self _ _ _, .inr ⟨_, List.mem_singleton_self _, ih⟩⟩
  | latest hget hgrows ih =>
    exact ⟨_, get?_put_self _ _ _, .inr ⟨_, List.mem_cons_self, ih⟩⟩

/-- What was there stays, when a value is replaced by one that holds what that holds. -/
theorem Holds.put {others : List Text} (h : t.Holds others) (key : Text) {new : Value}
    (hkeeps : ∀ old rest, t.get? key = some old → (∃ inner ∈ old.subtables, inner.Holds rest) →
      ∃ inner ∈ new.subtables, inner.Holds rest) :
    (t.put key new).Holds others := by
  cases others with
  | nil => trivial
  | cons other rest =>
    obtain ⟨old, hget, hrest⟩ := h
    by_cases hother : other = key
    · subst hother
      exact ⟨new, get?_put_self t other new, hrest.imp_right (hkeeps old rest hget)⟩
    · refine ⟨old, ?_, hrest⟩
      rw [get?_put, if_neg hother, hget]

/-- What was there stays. -/
theorem Grows.keeps {others : List Text} (h : Grows value t path t') (hothers : t.Holds others) :
    t'.Holds others := by
  induction h generalizing others with
  | free hfree =>
    refine hothers.put _ fun old rest hget => ?_
    rw [hfree] at hget
    contradiction
  | implied hget =>
    refine hothers.put _ fun old rest hget' hrest => ?_
    cases hget.symm.trans hget'
    exact hrest
  | next hget =>
    refine hothers.put _ fun old rest hget' hrest => ?_
    cases hget.symm.trans hget'
    obtain ⟨inner, hinner, hrest⟩ := hrest
    exact ⟨inner, List.mem_cons_of_mem _ hinner, hrest⟩
  | made origin hfree hgrows ih =>
    refine hothers.put _ fun old rest hget => ?_
    rw [hfree] at hget
    contradiction
  | inside hget hgrows ih =>
    refine hothers.put _ fun old rest hget' hrest => ?_
    cases hget.symm.trans hget'
    obtain ⟨inner, hinner, hrest⟩ := hrest
    cases List.mem_singleton.1 hinner
    exact ⟨_, List.mem_singleton_self _, ih hrest⟩
  | latest hget hgrows ih =>
    refine hothers.put _ fun old rest hget' hrest => ?_
    cases hget.symm.trans hget'
    obtain ⟨inner, hinner, hrest⟩ := hrest
    rcases List.mem_cons.1 hinner with rfl | hinner
    · exact ⟨_, List.mem_cons_self, ih hrest⟩
    · exact ⟨inner, List.mem_cons_of_mem _ hinner, hrest⟩

end Table

/-! ## Statements -/

/-- What a statement adds. -/
def Statement.added : Statement → Value
  | .header _ => .table .header []
  | .nextHeader _ => .tables [[]]
  | .pair _ value => value

/-- Where a statement adds something, given where pairs go. -/
def Statement.place (current : List Text) : Statement → List Text
  | .header key => key.parts
  | .nextHeader key => key.parts
  | .pair key _ => current ++ key.parts

/-- Where pairs go behind a statement. -/
def Statement.currentAfter (current : List Text) : Statement → List Text
  | .header key => key.parts
  | .nextHeader key => key.parts
  | .pair _ _ => current

variable {d d' : Draft} {s : Statement} {statements : List Statement}

theorem DottedKey.dropLast_append_getLast (key : DottedKey) :
    key.parts.dropLast ++ [key.parts.getLast (by simp [DottedKey.parts])] = key.parts :=
  List.dropLast_append_getLast _

/-- A statement adds one thing along its path. -/
theorem grows_of_apply (h : d.apply s = some d') :
    Table.Grows s.added d.top (s.place d.current) d'.top ∧ d'.current = s.currentAfter d.current := by
  cases s with
  | header key =>
    obtain ⟨top, htop, rfl⟩ := Option.map_eq_some_iff.1 h
    refine ⟨?_, rfl⟩
    rw [Statement.place, ← key.dropLast_append_getLast]
    exact Table.grows_of_changeAt (fun _ _ => Table.grows_of_openTable) htop
  | nextHeader key =>
    obtain ⟨top, htop, rfl⟩ := Option.map_eq_some_iff.1 h
    refine ⟨?_, rfl⟩
    rw [Statement.place, ← key.dropLast_append_getLast]
    exact Table.grows_of_changeAt (fun _ _ => Table.grows_of_openNext) htop
  | pair key value =>
    obtain ⟨top, htop, rfl⟩ := Option.map_eq_some_iff.1 h
    exact ⟨Table.grows_of_changeAt (fun _ _ => Table.grows_of_addDotted) htop, rfl⟩

/-- What each step of a fold keeps, the fold keeps. -/
theorem of_foldlM {α β : Type} {step : β → α → Option β} (p : β → Prop) {l : List α} {b b' : β}
    (hstep : ∀ a ∈ l, ∀ b b', step b a = some b' → p b → p b') (h : l.foldlM step b = some b')
    (hb : p b) : p b' := by
  induction l generalizing b with
  | nil =>
    cases h
    exact hb
  | cons a l ih =>
    rw [List.foldlM_cons, Option.bind_eq_bind, Option.bind_eq_some_iff] at h
    obtain ⟨next, hnext, hrest⟩ := h
    obtain ⟨hfirst, hothers⟩ := List.forall_mem_cons.1 hstep
    exact ih hothers hrest (hfirst b next hnext hb)

/-- Statements keep what was there. -/
theorem holds_of_foldlM (h : statements.foldlM Draft.apply d = some d') (hpath : d.top.Holds path) :
    d'.top.Holds path :=
  of_foldlM (fun d => d.top.Holds path) (fun _ _ _ _ hnext hd => (grows_of_apply hnext).1.keeps hd)
    h hpath

/-- Statements keep tables well-formed when the values that they add are. -/
theorem wellFormed_of_foldlM (h : statements.foldlM Draft.apply d = some d')
    (hadded : ∀ s ∈ statements, s.added.WellFormed) (hd : d.top.WellFormed) : d'.top.WellFormed :=
  of_foldlM (fun d => d.top.WellFormed)
    (fun s hs _ _ hnext hd => (grows_of_apply hnext).1.wellFormed (hadded s hs) hd) h hd

end KernelTools.Toml
