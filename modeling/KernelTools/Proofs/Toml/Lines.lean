import KernelTools.Proofs.Toml.Growing
import KernelTools.Proofs.Toml.Spelling

/-!
# How lines are written

A pair is written as its key, an equals sign and a string in double quotes, and a header as its key in
brackets.  A document that is written line by line reads as the statements of its lines.  A line that
goes on behind a certain key in any way is a statement about that key, or refused.

Main results:

- Theorem {lit}`readDottedKey_of_writes`: a dotted key reads as what it writes.
- Theorem {lit}`readPair_of_writes`: a pair reads as what it writes, whatever is in its string.
- Theorem {lit}`readStatements_ofLines`: lines read one by one.
- Theorem {lit}`holds_of_readDocument`: what a line names is in the document, if it is one.
-/

namespace KernelTools.Toml

variable {c : Char} {t w rest behind line : Text} {key : DottedKey} {path : List Text} {value : Text}
  {s : Statement} {statements : List Statement} {lines : List Text} {depth : Nat}

/-! ## Dotted keys -/

/-- The ways to write the parts of a key, with dots between them. -/
inductive WritesPath : List Text → Text → Prop
  | last {part w : Text} (hw : WritesKey part w) : WritesPath [part] w
  | dot {part w : Text} {path : List Text} {ws : Text} (hw : WritesKey part w)
    (hpath : WritesPath path ws) : WritesPath (part :: path) (w ++ '.' :: ws)

theorem exists_beginsKey_of_writesPath (h : WritesPath path w) :
    ∃ c more, w = c :: more ∧ beginsKey c = true := by
  cases h with
  | last hw => exact exists_beginsKey_of_writes hw
  | dot hw hpath =>
    obtain ⟨c, more, rfl, hc⟩ := exists_beginsKey_of_writes hw
    exact ⟨c, _, rfl, hc⟩

theorem skipBlanks_of_writesPath (h : WritesPath path w) (rest : Text) :
    skipBlanks (w ++ rest) = w ++ rest := by
  obtain ⟨c, more, rfl, hc⟩ := exists_beginsKey_of_writesPath h
  exact skipBlanks_of_beginsKey hc (more ++ rest)

theorem endsKey_dot (rest : Text) : EndsKey ('.' :: rest) := by
  rintro c ⟨⟩
  decide

theorem length_lt_of_skipBlanks (h : skipBlanks t = w ++ c :: rest) : rest.length < t.length := by
  have hle : (skipBlanks t).length ≤ t.length := (List.dropWhile_sublist _).length_le
  rw [h, List.length_append, List.length_cons] at hle
  omega

theorem readDottedKey_dot {part : Text} (hw : WritesKey part w)
    (ht : skipBlanks t = w ++ '.' :: rest) :
    readDottedKey t = (readDottedKey rest).map fun (next, rest) => ((part, next.parts), rest) := by
  have hdot : skipBlanks ('.' :: rest) = '.' :: rest := rfl
  rw [readDottedKey]
  simp only [ht, readKey_of_writes hw (endsKey_dot rest), hdot, dif_pos (length_lt_of_skipBlanks ht)]

/-- A dotted key reads as what it writes. -/
theorem readDottedKey_of_writes (h : WritesPath path w) (ht : skipBlanks t = w ++ rest)
    (hrest : EndsKey rest) (hdot : (skipBlanks rest).head? ≠ some '.') :
    ∃ key : DottedKey, key.parts = path ∧ readDottedKey t = some (key, skipBlanks rest) := by
  induction h generalizing t with
  | last hw =>
    refine ⟨(_, []), rfl, ?_⟩
    rw [readDottedKey]
    simp only [ht, readKey_of_writes hw hrest]
    split
    · next heq => simp [heq] at hdot
    · rfl
  | @dot part w path ws hw hpath ih =>
    obtain ⟨key, rfl, hkey⟩ := ih (skipBlanks_of_writesPath hpath rest)
    rw [List.append_assoc, List.cons_append] at ht
    exact ⟨(part, key.parts), rfl, by rw [readDottedKey_dot hw ht, hkey]; rfl⟩

/-- A text that begins with a dotted key reads as that key with what may follow, or not at all. -/
theorem prefix_of_readDottedKey (h : WritesPath path w) (ht : skipBlanks t = w ++ rest)
    (hrest : EndsKey rest) (hread : readDottedKey t = some (key, behind)) : path <+: key.parts := by
  induction h generalizing t key with
  | last hw =>
    rw [readDottedKey] at hread
    simp only [ht, readKey_of_writes hw hrest] at hread
    split at hread
    · split at hread
      · obtain ⟨⟨next, behind'⟩, -, heq⟩ := Option.map_eq_some_iff.1 hread
        cases heq
        exact ⟨next.parts, rfl⟩
      · contradiction
    · cases hread
      exact List.prefix_rfl
  | dot hw hpath ih =>
    rw [List.append_assoc, List.cons_append] at ht
    rw [readDottedKey_dot hw ht] at hread
    obtain ⟨⟨next, behind'⟩, hnext, heq⟩ := Option.map_eq_some_iff.1 hread
    cases heq
    exact List.cons_prefix_cons.2 ⟨rfl, ih (skipBlanks_of_writesPath hpath rest) hnext⟩

/-! ## Pairs -/

/-- The ways to write a key with a string. -/
def WritesPair (key : DottedKey) (value line : Text) : Prop :=
  ∃ k v, WritesPath key.parts k ∧ WritesText value v ∧ line = k ++ " = \"".toList ++ v ++ "\"".toList

theorem exists_beginsKey_of_writesPair (h : WritesPair key value line) :
    ∃ c more, line = c :: more ∧ beginsKey c = true := by
  obtain ⟨k, v, hk, -, rfl⟩ := h
  obtain ⟨c, more, rfl, hc⟩ := exists_beginsKey_of_writesPath hk
  exact ⟨c, _, rfl, hc⟩

/-- A string in double quotes reads as what it writes, unless two quotes make the start of three. -/
theorem readValue_of_writes (h : WritesText value w) (hrest : rest.head? ≠ some '"') :
    readValue depth ('"' :: (w ++ '"' :: rest)) = some (.string value, rest) := by
  have hbasic := readBasic_of_writes h rest
  have hstring : readString ('"' :: (w ++ '"' :: rest)) = some (value, rest) := by
    rw [readString.eq_def]
    split
    · next more heq =>
      -- Two quotes right at the start close the empty string, and a third one would follow them.
      rw [(List.cons.inj heq).2] at hbasic
      cases hbasic
      exact absurd rfl hrest
    · next heq => exact absurd (List.cons.inj heq).1 (by decide)
    · next heq =>
      cases heq
      exact hbasic
    · next heq => exact absurd (List.cons.inj heq).1 (by decide)
    · next hquote _ => exact absurd rfl (hquote _)
  have hvalue : readValue depth ('"' :: (w ++ '"' :: rest)) =
      (readString ('"' :: (w ++ '"' :: rest))).map fun read => (.string read.1, read.2) := by
    cases depth <;> rfl
  rw [hvalue, hstring]
  rfl

theorem EndsKey.of_blank (rest : Text) : EndsKey (' ' :: rest) := by
  rintro c ⟨⟩
  decide

theorem DottedKey.parts_injective {key key' : DottedKey} (h : key.parts = key'.parts) : key = key' :=
  Prod.ext (List.cons.inj h).1 (List.cons.inj h).2

/-- Behind a key and an equals sign comes the value. -/
theorem readPair_of_writesPath (reader : ValueReader) (hkey : WritesPath key.parts w) (rest : Text)
    (ht : skipBlanks t = w ++ (" = ".toList ++ rest)) :
    readPair reader t = (reader (skipBlanks rest)).map fun (value, rest) => ((key, value), rest) := by
  have hskip : skipBlanks (" = ".toList ++ rest) = '=' :: ' ' :: rest := rfl
  have hblank : skipBlanks (' ' :: rest) = skipBlanks rest := rfl
  obtain ⟨key', hparts, hread⟩ :=
    readDottedKey_of_writes hkey ht (.of_blank _) (by rw [hskip]; simp)
  obtain rfl := DottedKey.parts_injective hparts
  rw [readPair, hread, hskip]
  simp only [hblank]

/-- A pair reads as what it writes, whatever is in its string. -/
theorem readPair_of_writes (h : WritesPair key value line) (ht : skipBlanks t = line ++ rest)
    (hrest : rest.head? ≠ some '"') :
    readPair (readValue depth) t = some ((key, .string value), rest) := by
  obtain ⟨k, v, hk, hv, rfl⟩ := h
  have hquote : skipBlanks ('"' :: (v ++ '"' :: rest)) = '"' :: (v ++ '"' :: rest) := rfl
  rw [readPair_of_writesPath _ hk ('"' :: (v ++ '"' :: rest)) (by simp [ht]), hquote,
    readValue_of_writes hv hrest, Option.map_some]

/-! ## Lines -/

/-- A character with which a line begins that holds a statement. -/
def beginsStatement (c : Char) : Bool :=
  beginsKey c || c == '['

theorem readStatement_of_beginsKey (hc : beginsKey c = true) (t : Text) :
    readStatement (c :: t) =
      (readPair (readValue nestingLimit) (c :: t)).map fun (pair, rest) =>
        (.pair pair.1 pair.2, rest) := by
  have hbracket : c ≠ '[' := ne_of_class hc (by decide)
  rw [readStatement.eq_def]
  split
  · next heq => exact absurd (List.cons.inj heq).1 hbracket
  · next heq => exact absurd (List.cons.inj heq).1 hbracket
  · rfl

/-- Behind the blanks, a statement neither ends its line nor begins a comment. -/
theorem readStatements_of_begins (hc : beginsStatement c = true) (t : Text) :
    readStatements (c :: t) =
      (readStatement (c :: t)).bind fun (s, behind) =>
        (endOfLine? behind).bind fun more =>
          if more.length < (c :: t).length then (readStatements more).map (s :: ·) else none := by
  have hne : ∀ d, beginsStatement d = false → c ≠ d := fun d => ne_of_class hc
  have hskip : skipBlanks (c :: t) = c :: t :=
    List.dropWhile_cons_of_neg (by simp [isBlank, hne ' ' (by decide), hne '\t' (by decide)])
  have hline : ¬(c = '\n' ∨ c = '\r' ∨ c = '#') := by
    simp [hne '\n' (by decide), hne '\r' (by decide), hne '#' (by decide)]
  rw [readStatements]
  simp only [hskip, if_neg hline]
  cases readStatement (c :: t) with
  | none => rfl
  | some read => cases hend : endOfLine? read.2 <;> simp [hend]

theorem exists_of_readStatements (hc : beginsStatement c = true)
    (h : readStatements (c :: t) = some statements) :
    ∃ s behind others, readStatement (c :: t) = some (s, behind) ∧ statements = s :: others := by
  rw [readStatements_of_begins hc] at h
  obtain ⟨⟨s, behind⟩, hs, hrest⟩ := Option.bind_eq_some_iff.1 h
  obtain ⟨more, -, hrest⟩ := Option.bind_eq_some_iff.1 hrest
  split at hrest
  · obtain ⟨others, -, rfl⟩ := Option.map_eq_some_iff.1 hrest
    exact ⟨s, behind, others, hs, rfl⟩
  · contradiction

/-- A line reads as a statement: the document goes on behind it.  It does not begin with a byte order
mark. -/
structure ReadsLine (line : Text) (s : Statement) : Prop where
  mark : line.head? ≠ some '\ufeff'
  reads : ∀ rest, readStatements (line ++ '\n' :: rest) = (readStatements rest).map (s :: ·)

theorem readsLine_of_readStatement (hc : beginsStatement c = true)
    (h : ∀ rest, readStatement (c :: (t ++ '\n' :: rest)) = some (s, '\n' :: rest)) :
    ReadsLine (c :: t) s := by
  constructor
  · rintro ⟨⟩
    contradiction
  · intro rest
    have hend : endOfLine? ('\n' :: rest) = some rest := rfl
    rw [List.cons_append, readStatements_of_begins hc, h]
    simp only [Option.bind_some, hend]
    rw [if_pos (by simp only [List.length_cons, List.length_append]; omega)]

theorem readsLine_of_writesPair (h : WritesPair key value line) :
    ReadsLine line (.pair key (.string value)) := by
  obtain ⟨c, more, rfl, hc⟩ := exists_beginsKey_of_writesPair h
  refine readsLine_of_readStatement (by simp [beginsStatement, hc]) fun rest => ?_
  have hskip := skipBlanks_of_beginsKey hc (more ++ '\n' :: rest)
  rw [readStatement_of_beginsKey hc, readPair_of_writes h hskip (by simp)]
  rfl

theorem readsLine_header (h : WritesPath key.parts w) :
    ReadsLine ('[' :: (w ++ [']'])) (.header key) := by
  refine readsLine_of_readStatement rfl fun rest => ?_
  obtain ⟨c, more, rfl, hc⟩ := exists_beginsKey_of_writesPath h
  have hends : EndsKey (']' :: '\n' :: rest) := by
    rintro c ⟨⟩
    decide
  have hskip : skipBlanks (']' :: '\n' :: rest) = ']' :: '\n' :: rest := rfl
  obtain ⟨key', hparts, hread⟩ := readDottedKey_of_writes h
    (skipBlanks_of_writesPath h (']' :: '\n' :: rest)) hends (by simp [hskip])
  obtain rfl := DottedKey.parts_injective hparts
  have hbracket : c ≠ '[' := ne_of_class hc (by decide)
  rw [List.append_assoc, List.singleton_append, readStatement.eq_def]
  split
  · next heq => exact absurd (List.cons.inj (List.cons.inj heq).2).1 hbracket
  · next heq =>
    cases heq
    simp only [hread, hskip]
  · next hheader => exact absurd rfl (hheader _)

/-- Lines read one by one. -/
theorem readStatements_ofLines (h : List.Forall₂ ReadsLine lines statements) (rest : Text) :
    readStatements (Text.ofLines lines ++ rest) = (readStatements rest).map (statements ++ ·) := by
  induction h with
  | nil =>
    rw [Text.ofLines, List.flatMap_nil, List.nil_append]
    exact (Option.map_id_fun' ▸ rfl)
  | @cons line s lines statements hline _ ih =>
    have hfirst : Text.ofLines (line :: lines) ++ rest = line ++ '\n' :: (Text.ofLines lines ++ rest) := by
      simp [Text.ofLines]
    rw [hfirst, hline.reads, ih, Option.map_map]
    rfl

/-! ## What a line names -/

/-- A text begins with a statement about a certain place, given where pairs go: with the key of a pair
or of a header.  What follows the key is arbitrary. -/
inductive Begins (current : List Text) : List Text → Text → Prop
  | pair {path : List Text} {w rest : Text} (hpath : WritesPath path w) (hrest : EndsKey rest) :
    Begins current (current ++ path) (w ++ rest)
  | header {path : List Text} {w rest : Text} (hpath : WritesPath path w) (hrest : EndsKey rest) :
    Begins current path ('[' :: (w ++ rest))
  | nextHeader {path : List Text} {w rest : Text} (hpath : WritesPath path w) (hrest : EndsKey rest) :
    Begins current path ('[' :: '[' :: (w ++ rest))

variable {current place : List Text} {before after : List Text} {added : Text} {top : Table}
  {d d' : Draft}

theorem EndsKey.append (h : EndsKey rest) (hc : isKeyChar c = false) (more : Text) :
    EndsKey (rest ++ c :: more) := by
  cases rest with
  | nil =>
    rintro d ⟨⟩
    exact hc
  | cons d rest => exact fun e he => h e he

theorem Begins.append (h : Begins current place t) (hc : isKeyChar c = false) (more : Text) :
    Begins current place (t ++ c :: more) := by
  cases h with
  | pair hpath hrest =>
    rw [List.append_assoc]
    exact .pair hpath (hrest.append hc more)
  | header hpath hrest =>
    rw [List.cons_append, List.append_assoc]
    exact .header hpath (hrest.append hc more)
  | nextHeader hpath hrest =>
    rw [List.cons_append, List.cons_append, List.append_assoc]
    exact .nextHeader hpath (hrest.append hc more)

theorem Begins.exists_beginsStatement (h : Begins current place t) :
    ∃ c more, t = c :: more ∧ beginsStatement c = true := by
  cases h with
  | pair hpath hrest =>
    obtain ⟨c, more, rfl, hc⟩ := exists_beginsKey_of_writesPath hpath
    exact ⟨c, _, rfl, by simp [beginsStatement, hc]⟩
  | header hpath hrest => exact ⟨_, _, rfl, rfl⟩
  | nextHeader hpath hrest => exact ⟨_, _, rfl, rfl⟩

/-- A pair that begins with a key is a pair with that key, if it is one. -/
theorem prefix_of_readPair {reader : ValueReader} {pair : DottedKey × Value}
    (h : WritesPath path w) (ht : skipBlanks t = w ++ rest) (hrest : EndsKey rest)
    (hread : readPair reader t = some (pair, behind)) : path <+: pair.1.parts := by
  rw [readPair] at hread
  split at hread
  · next hkey =>
    obtain ⟨⟨value, behind'⟩, -, heq⟩ := Option.map_eq_some_iff.1 hread
    cases heq
    exact prefix_of_readDottedKey h ht hrest hkey
  · contradiction

/-- A statement that begins in this way is about the place, if it is one. -/
theorem Begins.prefix_of_readStatement (h : Begins current place t)
    (hread : readStatement t = some (s, behind)) : place <+: s.place current := by
  rw [readStatement.eq_def] at hread
  cases h with
  | pair hpath hrest =>
    obtain ⟨c, more, rfl, hc⟩ := exists_beginsKey_of_writesPath hpath
    rw [← readStatement.eq_def, List.cons_append, readStatement_of_beginsKey hc] at hread
    obtain ⟨⟨pair, behind'⟩, hpair, heq⟩ := Option.map_eq_some_iff.1 hread
    cases heq
    exact (List.prefix_append_right_inj current).2
      (prefix_of_readPair hpath (skipBlanks_of_writesPath hpath _) hrest hpair)
  | header hpath hrest =>
    have hskip := skipBlanks_of_writesPath hpath
    obtain ⟨c, more, rfl, hc⟩ := exists_beginsKey_of_writesPath hpath
    have hbracket : c ≠ '[' := ne_of_class hc (by decide)
    split at hread
    · next heq => exact absurd (List.cons.inj (List.cons.inj heq).2).1 hbracket
    · next heq =>
      cases heq
      split at hread
      · next hkey =>
        cases hread
        exact prefix_of_readDottedKey hpath (hskip _) hrest hkey
      · contradiction
    · next hheader => exact absurd rfl (hheader _)
  | nextHeader hpath hrest =>
    split at hread
    · next heq =>
      cases heq
      split at hread
      · next hkey =>
        cases hread
        exact prefix_of_readDottedKey hpath (skipBlanks_of_writesPath hpath _) hrest hkey
      · contradiction
    · next hheader heq =>
      cases heq
      exact absurd rfl (hheader _)
    · next hheader => exact absurd rfl (hheader _)

theorem dropByteOrderMark_of_head (h : t.head? ≠ some '\ufeff') : dropByteOrderMark t = t := by
  unfold dropByteOrderMark
  split
  · exact absurd rfl h
  · rfl

theorem head?_ofLines (h : List.Forall₂ ReadsLine before statements)
    (ht : t.head? ≠ some '\ufeff') : (Text.ofLines before ++ t).head? ≠ some '\ufeff' := by
  cases h with
  | nil => exact ht
  | @cons line s before statements hline _ =>
    have hmark := hline.mark
    cases line with
    | nil => simp [Text.ofLines]
    | cons c line => exact hmark

/-- A document that is written line by line says what its lines say. -/
theorem readDocument_ofLines (h : List.Forall₂ ReadsLine lines statements) :
    readDocument (Text.ofLines lines) = assemble statements := by
  have hmark : (Text.ofLines lines ++ []).head? ≠ some '\ufeff' := head?_ofLines h (by simp)
  have hnil : readStatements [] = some [] := by
    rw [readStatements]
    rfl
  have hread : readStatements (Text.ofLines lines ++ []) = some statements := by
    rw [readStatements_ofLines h, hnil, Option.map_some, List.append_nil]
  rw [List.append_nil] at hmark hread
  rw [readDocument, dropByteOrderMark_of_head hmark, hread, Option.bind_some]

/-- Where pairs go behind statements. -/
theorem current_of_foldlM (h : statements.foldlM Draft.apply d = some d') :
    d'.current = statements.foldl Statement.currentAfter d.current := by
  induction statements generalizing d with
  | nil =>
    cases h
    rfl
  | cons s statements ih =>
    rw [List.foldlM_cons, Option.bind_eq_bind, Option.bind_eq_some_iff] at h
    obtain ⟨next, hnext, hrest⟩ := h
    rw [ih hrest, (grows_of_apply hnext).2, List.foldl_cons]

/-- What a line names is in the document, if it is one, whatever follows its key. -/
theorem holds_of_readDocument (hbefore : List.Forall₂ ReadsLine before statements)
    (hadded : Begins (statements.foldl Statement.currentAfter []) place added)
    (hread : readDocument (Text.ofLines (before ++ added :: after)) = some top) : top.Holds place := by
  have htext : Text.ofLines (before ++ added :: after) =
      Text.ofLines before ++ (added ++ '\n' :: Text.ofLines after) := by simp [Text.ofLines]
  have hbegins := hadded.append (c := '\n') (by decide) (Text.ofLines after)
  obtain ⟨c, more, hmore, hc⟩ := hbegins.exists_beginsStatement
  have hmark : (c :: more).head? ≠ some '\ufeff' := by
    rintro ⟨⟩
    contradiction
  rw [readDocument, htext, hmore, dropByteOrderMark_of_head (head?_ofLines hbefore hmark),
    readStatements_ofLines hbefore] at hread
  obtain ⟨all, hall, hassemble⟩ := Option.bind_eq_some_iff.1 hread
  obtain ⟨behind, hbehind, rfl⟩ := Option.map_eq_some_iff.1 hall
  obtain ⟨s, rest, others, hs, rfl⟩ := exists_of_readStatements hc hbehind
  obtain ⟨draft, hdraft, rfl⟩ := Option.map_eq_some_iff.1 hassemble
  rw [List.foldlM_append, Option.bind_eq_bind, Option.bind_eq_some_iff] at hdraft
  obtain ⟨first, hfirst, hdraft⟩ := hdraft
  rw [List.foldlM_cons, Option.bind_eq_bind, Option.bind_eq_some_iff] at hdraft
  obtain ⟨next, hnext, hrest⟩ := hdraft
  have hcurrent : first.current = statements.foldl Statement.currentAfter [] :=
    current_of_foldlM hfirst
  have hplace : place <+: s.place first.current := by
    rw [hcurrent]
    exact (hmore ▸ hbegins).prefix_of_readStatement hs
  exact holds_of_foldlM hrest ((grows_of_apply hnext).1.holds.of_start hplace)

end KernelTools.Toml
