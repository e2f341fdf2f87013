import KernelTools.Proofs.Config.Loading
import KernelTools.Proofs.FileSystem.Straying
import KernelTools.Proofs.FileSystem.WorkingDirectory
import KernelTools.Run
import Mathlib.Logic.ExistsUnique

/-!
# Which configuration applies

A configuration comes from the file that is named, or else from the default file if it is there, or
else from nowhere and is empty.  Each setting that a run makes of it stands between a flag and a
built-in default, and the settings are made one by one.

Main results:

- Theorem {lit}`chosenPath_eq_iff`: where a configuration comes from.
- Theorem {lit}`map_config_load_eq_iff`: what loading a configuration comes to.
- Theorem {lit}`readText_anchored`: behind the path of the working directory the same text is read.
- Theorem {lit}`choosePath_eq_iff`: the layers in which a path is chosen.
-/

namespace KernelTools

/-- Octets are read as a text exactly when they are its UTF-8 form. -/
theorem Text.ofUtf8?_eq_some_iff {b : Bytes} {t : Text} : ofUtf8? b = some t ↔ b = utf8 t := by
  constructor
  · intro h
    rw [ofUtf8?, Option.map_eq_some_iff] at h
    rcases h with ⟨decoded, hdecoded, rfl⟩
    have hvalid : b.toByteArray.IsValidUTF8 := by
      rw [← ByteArray.isSome_utf8Decode?_iff, hdecoded]
      rfl
    rcases hvalid with ⟨chars, hchars⟩
    rw [hchars, List.utf8Decode?_utf8Encode] at hdecoded
    cases hdecoded
    have hoctets : b = b.toByteArray.data.toList := by simp
    rw [hoctets, hchars]
    simp [List.utf8Encode, utf8]
  · rintro rfl
    exact ofUtf8?_utf8 t

namespace Config

variable {fs : FileSystem} {named origin : Option Text} {path : Text}

/-! ## Where a configuration comes from -/

/-- Where a configuration comes from, given the file that is named, if one is. -/
inductive ComesFrom (fs : FileSystem) : Option Text → Option Text → Prop
  | named (path : Text) : ComesFrom fs (some path) (some path)
  /-- From the default file, which may be a link to something that is there. -/
  | default {loc : Location} (hfound : fs.foundAt? defaultPath = some loc) :
    ComesFrom fs none (some defaultPath)
  | nowhere (hfound : fs.foundAt? defaultPath = none) : ComesFrom fs none none

theorem comesFrom_chosenPath (fs : FileSystem) (named : Option Text) :
    ComesFrom fs named (chosenPath fs named) := by
  cases named with
  | some path => exact .named path
  | none =>
    rw [chosenPath_none]
    cases hfound : fs.foundAt? defaultPath with
    | none => exact .nowhere hfound
    | some loc => exact .default hfound

theorem chosenPath_eq_iff : chosenPath fs named = origin ↔ ComesFrom fs named origin := by
  constructor
  · rintro rfl
    exact comesFrom_chosenPath fs named
  · intro h
    cases h with
    | named path => rfl
    | default hfound => rw [chosenPath_none, hfound, Option.map_some]
    | nowhere hfound => rw [chosenPath_none, hfound, Option.map_none]

/-! ## What loading comes to -/

/-- The configuration that applies, or why none can be loaded: the file is not there, or no file, or
it holds no text; or the text is no configuration. -/
inductive Configured (fs : FileSystem) (named : Option Text) : Except LoadError Config → Prop
  | nothing (horigin : ComesFrom fs named none) : Configured fs named (.ok empty)
  | unreadable {path : Text} (horigin : ComesFrom fs named (some path))
    (hread : ∀ text : Text, fs.read path ≠ .ok text.utf8) :
    Configured fs named (.error (.unreadable path))
  | malformed {path text : Text} (horigin : ComesFrom fs named (some path))
    (hread : fs.read path = .ok text.utf8) (hparse : parse text = none) :
    Configured fs named (.error (.malformed path))
  | loaded {path text : Text} {config : Config} (horigin : ComesFrom fs named (some path))
    (hread : fs.read path = .ok text.utf8) (hparse : parse text = some config) :
    Configured fs named (.ok config)

theorem readText_eq_some_iff {text : Text} :
    readText fs path = some text ↔ fs.read path = .ok text.utf8 := by
  rw [readText]
  cases fs.read path with
  | error e => simp
  | ok contents => simp [Text.ofUtf8?_eq_some_iff]

theorem configured_load (fs : FileSystem) (named : Option Text) :
    Configured fs named ((load fs named).map Loaded.config) := by
  unfold load
  split
  · next hchosen => exact .nothing (chosenPath_eq_iff.1 hchosen)
  · next path hchosen =>
    have horigin := chosenPath_eq_iff.1 hchosen
    cases htext : readText fs path with
    | none =>
      simp only [loadFrom, htext]
      refine .unreadable horigin fun text hread => ?_
      rw [readText_eq_some_iff.2 hread] at htext
      contradiction
    | some text =>
      have hread := readText_eq_some_iff.1 htext
      cases hparse : parse text with
      | none =>
        simp only [loadFrom, htext, hparse]
        exact .malformed horigin hread hparse
      | some config =>
        simp only [loadFrom, htext, hparse]
        exact .loaded horigin hread hparse

/-- What loading a configuration comes to, what it logs apart. -/
theorem map_config_load_eq_iff {outcome : Except LoadError Config} :
    (load fs named).map Loaded.config = outcome ↔ Configured fs named outcome := by
  constructor
  · rintro rfl
    exact configured_load fs named
  · intro h
    cases h with
    | nothing horigin => simp only [load, chosenPath_eq_iff.2 horigin, Except.map]
    | @unreadable path horigin hread =>
      have htext : readText fs path = none := by
        rw [Option.eq_none_iff_forall_ne_some]
        exact fun text htext => hread text (readText_eq_some_iff.1 htext)
      simp only [load, chosenPath_eq_iff.2 horigin, loadFrom, htext, Except.map]
    | malformed horigin hread hparse =>
      simp only [load, chosenPath_eq_iff.2 horigin, loadFrom, readText_eq_some_iff.2 hread, hparse,
        Except.map]
    | loaded horigin hread hparse =>
      simp only [load, chosenPath_eq_iff.2 horigin, loadFrom, readText_eq_some_iff.2 hread, hparse,
        Except.map]

/-- A configuration fails to load for one reason. -/
theorem load_eq_error_iff {e : LoadError} :
    load fs named = .error e ↔ Configured fs named (.error e) := by
  rw [← map_config_load_eq_iff]
  cases load fs named <;> simp [Except.map]

theorem exists_load_eq_ok_iff {config : Config} :
    (∃ loaded, load fs named = .ok loaded ∧ loaded.config = config) ↔
      Configured fs named (.ok config) := by
  rw [← map_config_load_eq_iff]
  cases load fs named <;> simp [Except.map]

/-- Exactly one configuration applies, or none for exactly one reason. -/
theorem existsUnique_configured (fs : FileSystem) (named : Option Text) :
    ∃! outcome, Configured fs named outcome :=
  ⟨_, configured_load fs named, fun _ h => (map_config_load_eq_iff.2 h).symm⟩

/-- When a file is named, all that matters is what reading it comes to. -/
theorem load_congr_of_named {fs' : FileSystem} (h : fs'.read path = fs.read path) :
    load fs' (some path) = load fs (some path) := by
  simp only [load, chosenPath, loadFrom, readText, h]

/-! ## Behind the path of the working directory -/

/-- The text of a file is the same behind the path of the working directory; the empty path, which leads
to nothing here and to a directory there, has a text in neither case. -/
theorem readText_anchored (h : fs.Settled)
    (hoctets : (fs.anchored path).octets ≤ Path.maxOctets) :
    readText fs (fs.anchored path) = readText fs path := by
  by_cases hnil : path = []
  · subst hnil
    have hempty : fs.read [] = .error .notFound := FileSystem.read_eq_notFound_iff.2 (.inl rfl)
    rw [readText, readText, FileSystem.read_anchored_nil h hoctets, hempty]
  · rw [readText, readText, FileSystem.read_anchored h hnil hoctets]

/-- The default file is looked for in the working directory. -/
theorem chosenPath_eq_of_anchored (h : fs.Settled)
    (hoctets : (fs.anchored defaultPath).octets ≤ Path.maxOctets) :
    chosenPath fs none =
      if fs.isPresent (fs.anchored defaultPath) then some defaultPath else none := by
  rw [chosenPath, FileSystem.isPresent_anchored h (by decide) hoctets]

end Config

/-! ## Choosing a path -/

/-- A path is the one that is given, or else the one that is configured, or else the default. -/
inductive Chosen : (given configured : Option Text) → (fallback path : Text) → Prop
  | given (path : Text) (configured : Option Text) (fallback : Text) :
    Chosen (some path) configured fallback path
  | configured (path fallback : Text) : Chosen none (some path) fallback path
  | fallback (path : Text) : Chosen none none path path

theorem choosePath_eq_iff {given configured : Option Text} {fallback path : Text} :
    choosePath given configured fallback = path ↔ Chosen given configured fallback path := by
  constructor
  · rintro rfl
    cases given with
    | some path => exact .given path configured fallback
    | none =>
      cases configured with
      | some path => exact .configured path fallback
      | none => exact .fallback fallback
  · intro h
    cases h <;> rfl

end KernelTools
