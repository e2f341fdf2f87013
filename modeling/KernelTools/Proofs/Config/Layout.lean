import KernelTools.Proofs.Config.Schema
import KernelTools.Proofs.Toml.Assignments

/-!
# Writing a configuration down

A configuration is written as the strings that it sets, in any order and in one of three layouts: under
a header, with dotted keys, or in a table between braces.  It is read back from each of them, whatever
characters its strings have.  With a key more, the text is refused.

Main results:

- Theorem {lit}`readDocument_text`: what a text in one of the layouts reads as.
- Theorem {lit}`ofTable?_eq_none_of_holds`: a document that holds an unknown key is no configuration.
- Theorem {lit}`parse_text_exact`: a configuration that is written down is read back, and is refused with
  a key twice or with an unknown key.
-/

namespace KernelTools.Config

open Toml (Table Value Origin Statement Draft DottedKey Assigns WritesKey WritesPath EndsKey Begins
  ReadsLine braced strings)

/-! ## Layouts -/

/-- The strings that a configuration sets, under their keys. -/
def entries (config : Config) : List (Text × Text) :=
  config.source.toList.map ("source".toList, ·) ++ config.inclusion.toList.map ("include".toList, ·)

/-- A string under its key, with the escapes that it needs. -/
def assignment (entry : Text × Text) : Text :=
  entry.1 ++ " = \"".toList ++ entry.2.flatMap Toml.escaped ++ "\"".toList

/-- A document with one table. -/
def documentOf (origin : Origin) (t : Table) : Table :=
  [("isrs".toList, .table origin t)]

/-- Where the strings of a configuration stand. -/
inductive Layout
  /-- Under a header. -/
  | header
  /-- Under dotted keys. -/
  | dotted
  /-- In a table between braces. -/
  | braces

namespace Layout

/-- The lines of a configuration with certain assignments. -/
def lines : Layout → List Text → List Text
  | header, assignments => "[isrs]".toList :: assignments
  | dotted, assignments => assignments.map ("isrs.".toList ++ ·)
  | braces, assignments => ["isrs = ".toList ++ braced assignments]

/-- The text of a configuration with certain assignments. -/
def text (layout : Layout) (assignments : List Text) : Text :=
  Text.ofLines (layout.lines assignments)

/-- Where pairs go behind some lines of a configuration. -/
def current : Layout → List Text → List Text
  | header, _ :: _ => ["isrs".toList]
  | _, _ => []

/-- What the lines of a configuration say. -/
def statements : Layout → List (Text × Text) → List Statement
  | header, entries => .header ("isrs".toList, []) ::
      entries.map fun entry => .pair (entry.1, []) (.string entry.2)
  | dotted, entries => entries.map fun entry => .pair ("isrs".toList, [entry.1]) (.string entry.2)
  | braces, entries => [.pair ("isrs".toList, []) (.table .braces (strings entries))]

/-- The document that a configuration is written as. -/
def top : Layout → List (Text × Text) → Table
  | header, entries => documentOf .header (strings entries)
  | dotted, [] => []
  | dotted, entry :: entries => documentOf .dotted (strings (entry :: entries))
  | braces, entries => documentOf .braces (strings entries)

end Layout

variable {config : Config} {layout : Layout} {entries : List (Text × Text)}
  {assignments before after : List Text} {place path : List Text} {added w rest : Text} {top : Table}
  {origin : Origin} {current : List Text}

/-! ## Reading the lines -/

theorem writesKey_isrs : WritesKey "isrs".toList "isrs".toList :=
  Toml.writesKey_of_all (by decide) rfl

theorem writesPath_isrs : WritesPath (DottedKey.parts ("isrs".toList, [])) "isrs".toList :=
  .last writesKey_isrs

/-- An assignment under the table is one with a dotted key. -/
theorem writesPair_of_assigns {entry : Text × Text} {line : Text} (h : Assigns entry line) :
    Toml.WritesPair ("isrs".toList, [entry.1]) entry.2 ("isrs.".toList ++ line) := by
  obtain ⟨k, v, hk, hv, rfl⟩ := h
  exact ⟨_, v, .dot writesKey_isrs hk, hv, by simp⟩

/-- A line that gives a value to the table. -/
theorem readStatement_isrs (t : Text) :
    Toml.readStatement ("isrs = ".toList ++ t) =
      (Toml.readValue Toml.nestingLimit (Toml.skipBlanks t)).map fun (value, rest) =>
        (.pair ("isrs".toList, []) value, rest) := by
  have hskip : Toml.skipBlanks ("isrs = ".toList ++ t) = "isrs".toList ++ (" = ".toList ++ t) := rfl
  have hpair := Toml.readPair_of_writesPath (Toml.readValue Toml.nestingLimit) writesPath_isrs t hskip
  have hstatement : Toml.readStatement ("isrs = ".toList ++ t) = _ :=
    Toml.readStatement_of_beginsKey (c := 'i') (by decide) ("srs = ".toList ++ t)
  rw [hstatement]
  exact (congrArg _ hpair).trans (by rw [Option.map_map]; rfl)

theorem Layout.text_braces (assignments : List Text) :
    Layout.braces.text assignments = "isrs = ".toList ++ (braced assignments ++ ['\n']) := by
  simp [Layout.text, Layout.lines, Text.ofLines]

theorem skipBlanks_braced (lines : List Text) (rest : Text) :
    Toml.skipBlanks (braced lines ++ rest) = braced lines ++ rest :=
  rfl

theorem readStatement_braced (h : List.Forall₂ Assigns entries assignments) (rest : Text) :
    Toml.readStatement ("isrs = ".toList ++ (braced assignments ++ rest)) =
      if (entries.map Prod.fst).Nodup then
        some (.pair ("isrs".toList, []) (.table .braces (strings entries)), rest)
      else none := by
  rw [readStatement_isrs, skipBlanks_braced, Toml.nestingLimit, Toml.readValue_braced h]
  split <;> rfl

/-- The lines of a configuration read one by one; between braces, no key may come twice. -/
theorem readsLine_lines (layout : Layout) (h : List.Forall₂ Assigns entries assignments)
    (hkeys : layout = .braces → (entries.map Prod.fst).Nodup) :
    List.Forall₂ ReadsLine (layout.lines assignments) (layout.statements entries) := by
  cases layout with
  | header =>
    have hheader : ReadsLine "[isrs]".toList (.header ("isrs".toList, [])) :=
      Toml.readsLine_header writesPath_isrs
    refine .cons hheader (List.forall₂_map_right_iff.2 (h.flip.imp ?_))
    exact fun _ _ hline => Toml.readsLine_of_writesPair hline
  | dotted =>
    refine List.forall₂_map_left_iff.2 (List.forall₂_map_right_iff.2 (h.flip.imp ?_))
    exact fun _ _ hline => Toml.readsLine_of_writesPair (writesPair_of_assigns hline)
  | braces =>
    refine .cons (Toml.readsLine_of_readStatement (c := 'i') (by decide) fun rest => ?_) .nil
    exact (readStatement_braced h ('\n' :: rest)).trans (if_pos (hkeys rfl))

/-! ## The document -/

/-- Statements that add strings to the table of a document add them one after the other. -/
theorem foldlM_apply_strings {statement : Text × Text → Statement}
    (hstep : ∀ t entry, Draft.apply ⟨documentOf origin t, current⟩ (statement entry) =
      (Table.add t entry.1 (.string entry.2)).map fun t => ⟨documentOf origin t, current⟩)
    (t : Table) (entries : List (Text × Text)) :
    (entries.map statement).foldlM Draft.apply ⟨documentOf origin t, current⟩ =
      (entries.foldlM (fun (t : Table) entry => t.add entry.1 (.string entry.2)) t).map fun t =>
        ⟨documentOf origin t, current⟩ := by
  induction entries generalizing t with
  | nil => rfl
  | cons entry entries ih =>
    rw [List.map_cons, List.foldlM_cons, List.foldlM_cons, hstep]
    cases t.add entry.1 (.string entry.2) with
    | none => rfl
    | some t => exact ih t

theorem apply_header (t : Table) (entry : Text × Text) :
    Draft.apply ⟨documentOf .header t, ["isrs".toList]⟩ (.pair (entry.1, []) (.string entry.2)) =
      (t.add entry.1 (.string entry.2)).map fun t => ⟨documentOf .header t, ["isrs".toList]⟩ := by
  cases h : t.add entry.1 (.string entry.2) <;>
    simp [documentOf, Draft.apply, Table.changeAt, Table.get?, Table.addDotted, Table.replace, h]

theorem apply_dotted (t : Table) (entry : Text × Text) :
    Draft.apply ⟨documentOf .dotted t, []⟩ (.pair ("isrs".toList, [entry.1]) (.string entry.2)) =
      (t.add entry.1 (.string entry.2)).map fun t => ⟨documentOf .dotted t, []⟩ := by
  cases h : t.add entry.1 (.string entry.2) <;>
    simp [documentOf, Draft.apply, Table.changeAt, Table.get?, Table.addDotted, Table.replace, h]

theorem assemble_header (entries : List (Text × Text)) :
    Toml.assemble (Layout.header.statements entries) =
      if (entries.map Prod.fst).Nodup then some (Layout.header.top entries) else none := by
  have hfold := (foldlM_apply_strings apply_header [] entries).trans
    (congrArg _ (Toml.foldlM_add entries List.nodup_nil))
  have hopen : Draft.apply .start (.header ("isrs".toList, [])) =
      some ⟨documentOf .header [], ["isrs".toList]⟩ := rfl
  rw [Toml.assemble, Layout.statements, List.foldlM_cons, hopen, Option.bind_eq_bind,
    Option.bind_some, hfold]
  simp only [List.map_nil, List.nil_append]
  split <;> rfl

theorem assemble_dotted (entries : List (Text × Text)) :
    Toml.assemble (Layout.dotted.statements entries) =
      if (entries.map Prod.fst).Nodup then some (Layout.dotted.top entries) else none := by
  cases entries with
  | nil => rfl
  | cons entry entries =>
    have hfold := (foldlM_apply_strings apply_dotted (strings [entry]) entries).trans
      (congrArg _ (Toml.foldlM_add entries (by simp [strings])))
    have hfirst : Draft.apply .start (.pair ("isrs".toList, [entry.1]) (.string entry.2)) =
        some ⟨documentOf .dotted (strings [entry]), []⟩ := rfl
    rw [Toml.assemble, Layout.statements, List.map_cons, List.foldlM_cons, hfirst,
      Option.bind_eq_bind, Option.bind_some, hfold, Toml.keys_strings]
    simp only [List.map_cons, List.map_nil, List.singleton_append]
    split <;> rfl

/-- A document that begins with the value of the table has what this value holds. -/
theorem exists_readValue_of_readDocument {t : Text}
    (h : Toml.readDocument ("isrs = ".toList ++ t) = some top) :
    ∃ value behind, Toml.readValue Toml.nestingLimit (Toml.skipBlanks t) = some (value, behind) ∧
      ∀ path, (∃ inner ∈ value.subtables, inner.Holds path) → top.Holds ("isrs".toList :: path) := by
  have hmark : Toml.dropByteOrderMark ("isrs = ".toList ++ t) = "isrs = ".toList ++ t := rfl
  have hbegins : Toml.beginsStatement 'i' = true := by decide
  rw [Toml.readDocument, hmark] at h
  obtain ⟨all, hall, hassemble⟩ := Option.bind_eq_some_iff.1 h
  obtain ⟨s, behind, others, hs, rfl⟩ := Toml.exists_of_readStatements hbegins hall
  obtain ⟨⟨value, behind'⟩, hvalue, heq⟩ :=
    Option.map_eq_some_iff.1 ((readStatement_isrs t).symm.trans hs)
  cases heq
  refine ⟨value, behind, hvalue, fun path hpath => ?_⟩
  obtain ⟨draft, hdraft, rfl⟩ := Option.map_eq_some_iff.1 hassemble
  have hfirst : Draft.apply .start (.pair ("isrs".toList, []) value) =
      some ⟨[("isrs".toList, value)], []⟩ := rfl
  rw [List.foldlM_cons, hfirst] at hdraft
  exact Toml.holds_of_foldlM hdraft ⟨value, rfl, .inr hpath⟩

/-- What a text in one of the layouts reads as. -/
theorem readDocument_text (layout : Layout) (h : List.Forall₂ Assigns entries assignments) :
    Toml.readDocument (layout.text assignments) =
      if (entries.map Prod.fst).Nodup then some (layout.top entries) else none := by
  cases layout with
  | header =>
    rw [Layout.text, Toml.readDocument_ofLines (readsLine_lines .header h (by simp))]
    exact assemble_header entries
  | dotted =>
    rw [Layout.text, Toml.readDocument_ofLines (readsLine_lines .dotted h (by simp))]
    exact assemble_dotted entries
  | braces =>
    by_cases hkeys : (entries.map Prod.fst).Nodup
    · rw [Layout.text, Toml.readDocument_ofLines (readsLine_lines .braces h fun _ => hkeys)]
      exact (if_pos hkeys).symm
    · rw [if_neg hkeys, Layout.text_braces, Option.eq_none_iff_forall_ne_some]
      intro top htop
      obtain ⟨value, behind, hvalue, -⟩ := exists_readValue_of_readDocument htop
      rw [skipBlanks_braced, Toml.nestingLimit, Toml.readValue_braced h, if_neg hkeys] at hvalue
      contradiction

/-! ## Unknown keys -/

/-- A place that no configuration has: beside the table, or in it under another key. -/
inductive Unknown : List Text → Prop
  | beside {key : Text} (hkey : key ≠ "isrs".toList) (more : List Text) : Unknown (key :: more)
  | inside {key : Text} (hsource : key ≠ "source".toList) (hinclude : key ≠ "include".toList)
    (more : List Text) : Unknown ("isrs".toList :: key :: more)

/-- A document that holds an unknown key is no configuration. -/
theorem ofTable?_eq_none_of_holds (h : top.Holds place) (hunknown : Unknown place) :
    ofTable? top = none := by
  cases hunknown with
  | @beside key hkey more =>
    obtain ⟨value, hget, -⟩ := h
    refine ofTable?_of_unknown fun hall => ?_
    exact hkey (hall _ (Toml.Table.mem_of_get? hget))
  | @inside key hsource hinclude more =>
    obtain ⟨value, hget, hmore⟩ := h
    obtain ⟨inner, hinner, hholds⟩ := hmore.resolve_left (List.cons_ne_nil _ _)
    obtain ⟨value', hget', -⟩ := hholds
    rw [ofTable?]
    split
    · simp only [hget]
      cases value with
      | table origin t =>
        cases List.mem_singleton.1 hinner
        rw [ofValue?, ofEntries?, if_neg]
        intro hall
        have hkey : key = "source".toList ∨ key = "include".toList :=
          of_decide_eq_true (List.all_eq_true.1 hall _ (Toml.Table.mem_of_get? hget'))
        exact hkey.elim hsource hinclude
      | tables tables => rfl
      | _ => exact absurd hinner List.not_mem_nil
    · rfl

theorem parse_eq_none_of_holds {t : Text} (h : ∀ top, Toml.readDocument t = some top → top.Holds place)
    (hunknown : Unknown place) : parse t = none := by
  rw [parse, Option.bind_eq_none_iff]
  exact fun top htop => ofTable?_eq_none_of_holds (h top htop) hunknown

/-- Behind some lines of a configuration, pairs go where the layout has them. -/
theorem foldl_currentAfter (layout : Layout) (entries : List (Text × Text)) (before : List Text) :
    ((layout.statements entries).take before.length).foldl Statement.currentAfter [] =
      layout.current before := by
  have hpairs : ∀ (statements : List Statement) (current : List Text),
      (∀ s ∈ statements, ∀ current, s.currentAfter current = current) →
        statements.foldl Statement.currentAfter current = current := by
    intro statements current hall
    induction statements with
    | nil => rfl
    | cons s statements ih =>
      obtain ⟨hs, hstatements⟩ := List.forall_mem_cons.1 hall
      rw [List.foldl_cons, hs, ih hstatements]
  cases layout with
  | header =>
    cases before with
    | nil => rfl
    | cons line before =>
      refine hpairs _ ["isrs".toList] fun s hs current => ?_
      obtain ⟨entry, -, rfl⟩ := List.mem_map.1 (List.mem_of_mem_take hs)
      rfl
  | dotted =>
    refine (hpairs _ [] fun s hs current => ?_).trans (by cases before <;> rfl)
    obtain ⟨entry, -, rfl⟩ := List.mem_map.1 (List.mem_of_mem_take hs)
    rfl
  | braces =>
    refine (hpairs _ [] fun s hs current => ?_).trans (by cases before <;> rfl)
    cases List.mem_singleton.1 (List.mem_of_mem_take hs)
    rfl

/-- A line that names an unknown key, between the lines of a configuration. -/
theorem parse_insert_line (h : List.Forall₂ Assigns entries assignments)
    (hkeys : (entries.map Prod.fst).Nodup) (hlines : layout.lines assignments = before ++ after)
    (hadded : Begins (layout.current before) place added) (hunknown : Unknown place) :
    parse (Text.ofLines (before ++ added :: after)) = none := by
  have hreads := hlines ▸ readsLine_lines layout h fun _ => hkeys
  have hbefore := (List.forall₂_take_append _ _ _ hreads.flip).flip
  rw [← foldl_currentAfter layout entries before] at hadded
  exact parse_eq_none_of_holds (fun top => Toml.holds_of_readDocument hbefore hadded) hunknown

/-- An assignment that names an unknown key, between the assignments of a configuration. -/
theorem parse_insert_assignment (h : List.Forall₂ Assigns entries (before ++ after))
    (hkeys : (entries.map Prod.fst).Nodup) (hpath : WritesPath path w) (hrest : EndsKey rest)
    (hunknown : Unknown ("isrs".toList :: path)) :
    parse (layout.text (before ++ (w ++ rest) :: after)) = none := by
  cases layout with
  | header =>
    have hlines : Layout.header.lines (before ++ after) = ("[isrs]".toList :: before) ++ after := rfl
    exact parse_insert_line h hkeys hlines (.pair hpath hrest) hunknown
  | dotted =>
    have hlines : Layout.dotted.lines (before ++ after) =
        Layout.dotted.lines before ++ Layout.dotted.lines after := List.map_append
    have hbegins : Begins (Layout.dotted.current (Layout.dotted.lines before))
        ("isrs".toList :: path) ("isrs.".toList ++ (w ++ rest)) := by
      have hdotted : WritesPath ("isrs".toList :: path) ("isrs".toList ++ '.' :: w) :=
        .dot writesKey_isrs hpath
      have htext : "isrs.".toList ++ (w ++ rest) = "isrs".toList ++ '.' :: w ++ rest := by simp
      rw [htext]
      cases before <;> exact .pair hdotted hrest
    have hinsert := parse_insert_line h hkeys hlines hbegins hunknown
    simpa [Layout.text, Layout.lines] using hinsert
  | braces =>
    have hbefore := List.forall₂_take_append _ _ _ h
    refine parse_eq_none_of_holds (fun top htop => ?_) hunknown
    rw [Layout.text_braces] at htop
    obtain ⟨value, behind, hvalue, hholds⟩ := exists_readValue_of_readDocument htop
    rw [skipBlanks_braced] at hvalue
    exact hholds path (Toml.holds_of_readValue_braced hbefore hpath hrest hvalue)

/-! ## Reading back -/

theorem source_ne_include : "source".toList ≠ "include".toList := by
  decide

theorem mem_entries_iff {key s : Text} :
    (key, s) ∈ config.entries ↔
      key = "source".toList ∧ config.source = some s ∨
        key = "include".toList ∧ config.inclusion = some s := by
  simp only [entries, List.mem_append, List.mem_map, Option.mem_toList, Prod.mk.injEq]
  constructor
  · rintro (⟨_, hs, rfl, rfl⟩ | ⟨_, hs, rfl, rfl⟩)
    · exact .inl ⟨rfl, hs⟩
    · exact .inr ⟨rfl, hs⟩
  · rintro (⟨rfl, hs⟩ | ⟨rfl, hs⟩)
    · exact .inl ⟨s, hs, rfl, rfl⟩
    · exact .inr ⟨s, hs, rfl, rfl⟩

theorem key_of_mem_entries {entry : Text × Text} (h : entry ∈ config.entries) :
    entry.1 = "source".toList ∨ entry.1 = "include".toList :=
  (mem_entries_iff.1 h).imp And.left And.left

theorem nodup_keys_entries (config : Config) : (config.entries.map Prod.fst).Nodup := by
  obtain ⟨source, inclusion⟩ := config
  cases source <;> cases inclusion <;> simp [entries]

/-- The plain way to write a string under a key is one of the ways. -/
theorem assigns_assignment {entry : Text × Text} (h : entry ∈ config.entries) :
    Assigns entry (assignment entry) := by
  have hkey : WritesKey entry.1 entry.1 := by
    rcases key_of_mem_entries h with hkey | hkey
    · exact hkey ▸ Toml.writesKey_of_all (by decide) rfl
    · exact hkey ▸ Toml.writesKey_of_all (by decide) rfl
  exact ⟨entry.1, _, .last hkey, Toml.writesText_escaped entry.2, rfl⟩

/-- The table of the strings that a configuration sets is read as the configuration. -/
theorem ofEntries?_strings (horder : entries.Perm config.entries) :
    ofEntries? (strings entries) = some config := by
  have hkeys : ((strings entries).map Prod.fst).Nodup := by
    rw [Toml.keys_strings]
    exact (horder.map Prod.fst).nodup_iff.2 (nodup_keys_entries config)
  have hget : ∀ (key : Text) (v : Value), (strings entries).get? key = some v ↔
      ∃ s, (key, s) ∈ config.entries ∧ .string s = v := by
    intro key v
    rw [Table.get?_eq_some_iff hkeys]
    simp only [strings, List.mem_map, Prod.mk.injEq, ← horder.mem_iff]
    constructor
    · rintro ⟨⟨_, s⟩, hmem, rfl, hv⟩
      exact ⟨s, hmem, hv⟩
    · rintro ⟨s, hmem, hv⟩
      exact ⟨(key, s), hmem, rfl, hv⟩
  have hoptional : ∀ (key : Text) (set : Option Text),
      (∀ s, (key, s) ∈ config.entries ↔ set = some s) →
        ofOptional? ((strings entries).get? key) = some set := by
    intro key set hset
    rw [ofOptional?_eq_some_iff]
    simp only [hget, hset]
    constructor
    · rintro v ⟨s, -, rfl⟩
      exact ⟨s, rfl⟩
    · simp
  refine ofEntries?_eq_some_iff.2 ⟨?_, hoptional _ _ fun s => ?_, hoptional _ _ fun s => ?_⟩
  · intro entry hentry
    obtain ⟨⟨key, s⟩, hs, rfl⟩ := List.mem_map.1 hentry
    exact key_of_mem_entries (horder.mem_iff.1 hs)
  · rw [mem_entries_iff, and_iff_right rfl, or_iff_left fun h => source_ne_include h.1]
  · rw [mem_entries_iff, and_iff_right rfl, or_iff_right fun h => source_ne_include h.1.symm]

theorem ofTable?_top (layout : Layout) (horder : entries.Perm config.entries) :
    ofTable? (layout.top entries) = some config := by
  have hstrings := ofEntries?_strings horder
  cases layout with
  | header => exact hstrings
  | braces => exact hstrings
  | dotted =>
    cases entries with
    | nil => exact hstrings
    | cons entry entries => exact hstrings

/-- A configuration can be written down, with its strings in any order and in each layout, and whatever
characters they have; and however it is written, it is read back.  With one of its keys given twice, with
an unknown key among its assignments, or with an unknown key on a line of its own, the text is refused,
whatever stands behind that key. -/
theorem parse_text_exact (config : Config) (layout : Layout) (horder : entries.Perm config.entries) :
    List.Forall₂ Assigns entries (entries.map assignment) ∧
      ∀ assignments, List.Forall₂ Assigns entries assignments →
        parse (layout.text assignments) = some config ∧
        (∀ before after key value repeated, assignments = before ++ after →
          key ∈ entries.map Prod.fst → Assigns (key, value) repeated →
            parse (layout.text (before ++ repeated :: after)) = none) ∧
        (∀ before after path w rest, assignments = before ++ after →
          Unknown ("isrs".toList :: path) → WritesPath path w → EndsKey rest →
            parse (layout.text (before ++ (w ++ rest) :: after)) = none) ∧
        ∀ before after place added, layout.lines assignments = before ++ after →
          Unknown place → Begins (layout.current before) place added →
            parse (Text.ofLines (before ++ added :: after)) = none := by
  have hkeys : (entries.map Prod.fst).Nodup :=
    (horder.map Prod.fst).nodup_iff.2 (nodup_keys_entries config)
  refine ⟨?_, fun assignments hassigns => ⟨?_, ?_, ?_, ?_⟩⟩
  · refine List.forall₂_map_right_iff.2 (List.forall₂_same.2 fun entry hentry => ?_)
    exact assigns_assignment (horder.mem_iff.1 hentry)
  · rw [parse, readDocument_text layout hassigns, if_pos hkeys]
    exact ofTable?_top layout horder
  · rintro before after key value repeated rfl hkey hrepeated
    have hbefore := List.forall₂_take_append _ _ _ hassigns
    have hafter := List.forall₂_drop_append _ _ _ hassigns
    have hall := List.rel_append hbefore (.cons hrepeated hafter)
    rw [parse, readDocument_text layout hall, if_neg]
    · rfl
    · rw [List.map_append, List.map_cons, List.nodup_middle, ← List.map_append, List.take_append_drop]
      exact fun hnodup => (List.nodup_cons.1 hnodup).1 hkey
  · rintro before after path w rest rfl hunknown hpath hrest
    exact parse_insert_assignment hassigns hkeys hpath hrest hunknown
  · intro before after place added hlines hunknown hadded
    exact parse_insert_line hassigns hkeys hlines hadded hunknown

/-- Two strings with a quote, control characters and the characters that begin a comment and end a header,
written the second one first: with dotted keys; under a header, with an unknown header behind them; and
between braces, with the first one once more. -/
theorem parse_text_exact_of_controls :
    let config : Config := ⟨some "\"\n".toList, some "\x00#]".toList⟩
    parse "isrs.include = \"\\u0000#]\"\nisrs.source = \"\\\"\\u000a\"\n".toList = some config ∧
      parse "[isrs]\ninclude = \"\\u0000#]\"\nsource = \"\\\"\\u000a\"\n[[other]]\n".toList = none ∧
      parse ("isrs = \x7b include = \"\\u0000#]\", source = \"\\\"\\u000a\", ".toList ++
        "\"source\" = \"\" \x7d\n".toList) = none := by
  intro config
  let ordered : List (Text × Text) :=
    [("include".toList, "\x00#]".toList), ("source".toList, "\"\n".toList)]
  have horder : ordered.Perm config.entries := .swap _ _ _
  obtain ⟨hassigns, hdotted⟩ := parse_text_exact config .dotted horder
  obtain ⟨-, hheader⟩ := parse_text_exact config .header horder
  obtain ⟨-, hbraces⟩ := parse_text_exact config .braces horder
  refine ⟨(hdotted _ hassigns).1, ?_, ?_⟩
  · have hother : WritesPath ["other".toList] "other".toList :=
      .last (Toml.writesKey_of_all (by decide) rfl)
    have hends : EndsKey "]]".toList := by
      rintro c ⟨⟩
      decide
    have hbegins : Begins ["isrs".toList] ["other".toList] "[[other]]".toList :=
      .nextHeader hother hends
    exact (hheader _ hassigns).2.2.2 (Layout.header.lines (ordered.map assignment)) [] _ _ (by simp)
      (.beside (by decide) []) hbegins
  · have hrepeated : Assigns ("source".toList, []) "\"source\" = \"\"".toList :=
      ⟨_, [], .last (.basic (Toml.writesText_escaped _)), .nil, rfl⟩
    have hkey : "source".toList ∈ ordered.map Prod.fst := by decide
    have hrefused := (hbraces _ hassigns).2.1 (ordered.map assignment) [] _ _ _ (by simp) hkey hrepeated
    have htext : "isrs = \x7b include = \"\\u0000#]\", source = \"\\\"\\u000a\", ".toList ++
        "\"source\" = \"\" \x7d\n".toList =
          Layout.braces.text (ordered.map assignment ++ ["\"source\" = \"\"".toList]) := by
      rfl
    rw [htext]
    exact hrefused

end KernelTools.Config
