import KernelTools.Config
import KernelTools.Proofs.FileSystem.Rewriting

/-!
# Loading a configuration after files were written

A configuration is loaded from one file, which a path is chosen for and links are followed to.
Writing other files does not change what is loaded.  Overwriting that very file does: a text whose
first character cannot begin a document is refused.

Main results:

- Theorem {lit}`readDocument_eq_none`: a text that begins with a character of the wrong kind is no
  document.
- Theorem {lit}`load_eq_of_rewrites`: a configuration loads as before when its file was not written.
- Theorem {lit}`load_eq_malformed`: a file that holds no configuration cannot be loaded.
-/

namespace KernelTools.Toml

/-! ## The first character of a document -/

/-- A character with which a document can begin: one of a key or of what may stand around
statements, an opening bracket or quote, or a byte order mark. -/
def canBegin (c : Char) : Bool :=
  isKeyChar c || isBlank c || ['\n', '\r', '#', '[', '"', '\'', '\ufeff'].contains c

variable {c d : Char} {rest : Text}

theorem ne_of_canBegin (hc : canBegin c = false) (hd : canBegin d = true) : c ≠ d := by
  rintro rfl
  rw [hc] at hd
  contradiction

theorem isKeyChar_of_canBegin (hc : canBegin c = false) : isKeyChar c = false := by
  rw [canBegin, Bool.or_assoc, Bool.or_eq_false_iff] at hc
  exact hc.1

theorem skipBlanks_of_canBegin (hc : canBegin c = false) : skipBlanks (c :: rest) = c :: rest := by
  rw [canBegin, Bool.or_eq_false_iff, Bool.or_eq_false_iff] at hc
  exact List.dropWhile_cons_of_neg (Bool.eq_false_iff.1 hc.1.2)

theorem readKey_eq_none (hc : canBegin c = false) : readKey (c :: rest) = none := by
  unfold readKey
  split
  · next heq => exact absurd (List.cons.inj heq).1 (ne_of_canBegin hc (by decide))
  · next heq => exact absurd (List.cons.inj heq).1 (ne_of_canBegin hc (by decide))
  · have hkey : List.takeWhile isKeyChar (c :: rest) = [] :=
      List.takeWhile_cons_of_neg (Bool.eq_false_iff.1 (isKeyChar_of_canBegin hc))
    simp only [hkey, if_true]

theorem readStatement_eq_none (hc : canBegin c = false) : readStatement (c :: rest) = none := by
  have hkey : readDottedKey (c :: rest) = none := by
    rw [readDottedKey, skipBlanks_of_canBegin hc, readKey_eq_none hc]
  unfold readStatement
  split
  · next heq => exact absurd (List.cons.inj heq).1 (ne_of_canBegin hc (by decide))
  · next heq => exact absurd (List.cons.inj heq).1 (ne_of_canBegin hc (by decide))
  · rw [readPair, hkey]
    rfl

/-- A text that begins with a character of the wrong kind is no document. -/
theorem readDocument_eq_none (hc : canBegin c = false) : readDocument (c :: rest) = none := by
  have hmark : dropByteOrderMark (c :: rest) = c :: rest := by
    unfold dropByteOrderMark
    split
    · next heq => exact absurd (List.cons.inj heq).1 (ne_of_canBegin hc (by decide))
    · rfl
  have hline : ¬(c = '\n' ∨ c = '\r' ∨ c = '#') := by
    rintro (rfl | rfl | rfl) <;> exact absurd hc (by decide)
  have hstatements : readStatements (c :: rest) = none := by
    rw [readStatements, skipBlanks_of_canBegin hc]
    simp only [if_neg hline, readStatement_eq_none hc]
  rw [readDocument, hmark, hstatements]
  rfl

end KernelTools.Toml

namespace KernelTools.Config

open FileSystem (Rewrites)

variable {fs fs' : FileSystem} {named : Option Text} {locs : List Location} {loc : Location}
  {path contents : Text}

/-! ## The file of a configuration -/

/-- The location of the file that the configuration is read from, links followed; {lean}`none` when
there is no such file. -/
def location? (fs : FileSystem) (named : Option Text) : Option Location :=
  (chosenPath fs named).bind fs.foundAt?

theorem chosenPath_none (fs : FileSystem) :
    chosenPath fs none = (fs.foundAt? defaultPath).map fun _ => defaultPath := by
  rw [chosenPath, FileSystem.isPresent_eq]
  cases fs.foundAt? defaultPath <;> rfl

theorem eq_of_chosenPath (h : chosenPath fs named = some path) :
    path = named.getD defaultPath := by
  cases named with
  | some path' =>
    cases h
    rfl
  | none =>
    rw [chosenPath_none, Option.map_eq_some_iff] at h
    rcases h with ⟨_, _, rfl⟩
    rfl

/-- The default path is chosen only when something is there, which is no loss. -/
theorem location?_eq (fs : FileSystem) (named : Option Text) :
    location? fs named = fs.foundAt? (named.getD defaultPath) := by
  cases named with
  | some path => rfl
  | none =>
    rw [location?, chosenPath_none]
    cases hfound : fs.foundAt? defaultPath with
    | none => exact hfound.symm
    | some loc => rfl

/-! ## Loading after files were written -/

/-- The text of a file that was not written is what it was. -/
theorem readText_of_rewrites (h : Rewrites locs fs fs')
    (hapart : ∀ loc, fs'.foundAt? path = some loc → loc ∉ locs) :
    readText fs' path = readText fs path := by
  cases hfound' : fs'.foundAt? path with
  | some loc => rw [readText, readText, h.read_eq hfound' (hapart loc hfound')]
  | none =>
    have hfound : fs.foundAt? path = none := (h.foundAt?_eq hapart).trans hfound'
    rcases FileSystem.read_of_foundAt?_eq_none hfound with ⟨e, he⟩
    rcases FileSystem.read_of_foundAt?_eq_none hfound' with ⟨e', he'⟩
    simp only [readText, he, he']

/-- A configuration loads as before when its file was not written. -/
theorem load_eq_of_rewrites (h : Rewrites locs fs fs')
    (hapart : ∀ loc ∈ locs, location? fs' named ≠ some loc) : load fs' named = load fs named := by
  have hpath : ∀ loc, fs'.foundAt? (named.getD defaultPath) = some loc → loc ∉ locs := by
    intro loc hfound hmem
    rw [← location?_eq] at hfound
    exact hapart loc hmem hfound
  have hchosen : chosenPath fs' named = chosenPath fs named := by
    cases named with
    | some path => rfl
    | none =>
      rw [Option.getD_none] at hpath
      rw [chosenPath_none, chosenPath_none, h.foundAt?_eq hpath]
  unfold load
  rw [hchosen]
  split
  · rfl
  · next path hpath' =>
    rw [← eq_of_chosenPath hpath'] at hpath
    rw [loadFrom, loadFrom, readText_of_rewrites h hpath]

/-- A file that holds no configuration cannot be loaded. -/
theorem load_eq_malformed (hloc : location? fs named = some loc)
    (hfile : fs.nodeAt loc = some (.file contents.utf8)) (hparse : parse contents = none) :
    ∃ path, load fs named = .error (.malformed path) := by
  rcases Option.bind_eq_some_iff.1 hloc with ⟨path, hchosen, hfound⟩
  have htext : readText fs path = some contents := by
    simp only [readText, FileSystem.read_of_foundAt? hfound hfile, Text.ofUtf8?_utf8]
  refine ⟨path, ?_⟩
  simp only [load, hchosen, loadFrom, htext, hparse]

end KernelTools.Config
