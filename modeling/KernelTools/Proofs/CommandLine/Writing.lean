import KernelTools.Proofs.CommandLine.Taking
import Mathlib.Data.List.Nodup

/-!
# Writing options on a command line

Options can be written out in many ways: the global settings ahead of the command or behind it, in
any order, the verbosity in any portions, and the operands behind the separator.  Every way is read
back as the options that were written, whatever the values look like: behind the first equals sign
and behind the separator no sign means anything.

A side that has taken in settings is described by which settings they are, so that their order
cannot matter.

Main results:

- Theorem {lit}`Side.Holds.take?`: a setting that is new to a side is taken in.
- Theorem {lit}`Side.Holds.perm`: the order of settings does not matter.
- Theorem {lit}`read_of_conveys`: a command line that conveys options is read as these.
- Theorem {lit}`read_of_plain_sizes`: sizes without a dash need no separator.
- Theorem {lit}`exists_conveys_and_read_eq`: there is a command line for all options that can be
  asked for.
-/

namespace KernelTools.CommandLine

/-! ## Settings -/

/-- One setting, as a single word gives it; a word may hold more than one step of verbosity. -/
inductive Setting
  | verbose (more : Nat)
  | quiet
  | check
  | value (flag : Flag) (text : Text)
deriving DecidableEq

namespace Setting

/-- The flag of a setting. -/
@[simp]
def flag : Setting → Flag
  | .verbose _ => .verbose
  | .quiet => .quiet
  | .check => .check
  | .value flag _ => flag

/-- The word by which a setting is given. -/
def word : Setting → Text
  | .verbose more => '-' :: 'v' :: List.replicate more 'v'
  | .quiet => "-q".toList
  | .check => Flag.check.word
  | .value flag text => flag.word ++ '=' :: text

/-- The letters by which a setting raises the verbosity, one step for each. -/
def letters : Setting → Text
  | .verbose more => 'v' :: List.replicate more 'v'
  | _ => []

/-- The flag of a setting that cannot be given twice. -/
def once? : Setting → Option Flag
  | .verbose _ => none
  | setting => some setting.flag

/-- A setting can be given at a place: its flag is known there, and its value may be what it is. -/
structure Allowed (place : Option CommandName) (setting : Setting) : Prop where
  known : setting.flag ∈ Flag.known place
  value : ∀ flag text, setting = .value flag text →
    flag.takesValue = true ∧ (text = [] → flag.allowsEmpty = true)

end Setting

/-- By how many steps settings raise the verbosity together. -/
def stepsOf (settings : List Setting) : Nat :=
  (settings.flatMap Setting.letters).length

theorem stepsOf_append (settings settings' : List Setting) :
    stepsOf (settings ++ settings') = stepsOf settings + stepsOf settings' := by
  simp [stepsOf]

theorem stepsOf_perm {settings settings' : List Setting} (h : settings.Perm settings') :
    stepsOf settings = stepsOf settings' :=
  (h.flatMap_right Setting.letters).length_eq

/-- No two settings are of the same flag, unless it may be repeated. -/
def Distinct (settings : List Setting) : Prop :=
  (settings.filterMap Setting.once?).Nodup

theorem Distinct.perm {settings settings' : List Setting} (h : Distinct settings)
    (hperm : settings.Perm settings') : Distinct settings' :=
  (hperm.filterMap Setting.once?).nodup_iff.1 h

theorem Distinct.of_append {settings given : List Setting} (h : Distinct (settings ++ given)) :
    Distinct settings ∧ Distinct given := by
  rw [Distinct, List.filterMap_append] at h
  exact ⟨(List.nodup_append.1 h).1, (List.nodup_append.1 h).2.1⟩

/-! ## Words of settings -/

theorem Flag.ofLong?_longName {place : Option CommandName} {flag : Flag}
    (h : flag ∈ Flag.known place) : Flag.ofLong? place flag.longName = some flag := by
  revert h
  rcases place with _ | command
  · cases flag <;> decide
  · cases command <;> cases flag <;> decide

theorem splitAtEquals_append {name : Text} (h : '=' ∉ name) (value : Text) :
    splitAtEquals (name ++ '=' :: value) = (name, some value) := by
  have hne : ∀ c ∈ name, (c != '=') = true := by
    intro c hc
    rw [bne_iff_ne]
    rintro rfl
    exact h hc
  rw [splitAtEquals, List.dropWhile_append_of_pos hne, List.takeWhile_append_of_pos hne]
  simp

/-- Everything behind the first equals sign is the value. -/
theorem ofText_word_value (flag : Flag) (text : Text) :
    Word.ofText (Setting.value flag text).word = .long flag.longName (some text) := by
  have hsplit : splitAtEquals (flag.longName ++ '=' :: text) = (flag.longName, some text) := by
    apply splitAtEquals_append
    cases flag <;> decide
  have hword : Word.ofText (Setting.value flag text).word =
      .long (splitAtEquals (flag.longName ++ '=' :: text)).1
        (splitAtEquals (flag.longName ++ '=' :: text)).2 := by
    cases flag <;> rfl
  rw [hword, hsplit]

namespace Side

variable {s t : Side} {given given' settings : List Setting} {setting : Setting}
  {place : Option CommandName} {command : CommandName} {words : List Text}

/-! ## Taking in a setting -/

/-- A side with one more setting. -/
def plus (s : Side) : Setting → Side
  | .verbose more => { s with verbosity := min (s.verbosity + (more + 1)) maxVerbosity }
  | .quiet => { s with quiet := true }
  | .check => { s with check := true }
  | .value flag text => { s with values := s.values ++ [(flag, text)] }

/-- The letters of a verbosity count one by one. -/
theorem takeShort_verbose (hs : s.waiting = none) (more : Nat) :
    s.takeShort ('v' :: List.replicate more 'v') = .ok (s.plus (.verbose more)) := by
  induction more generalizing s with
  | zero =>
    exact takeShort_cons_eq_ok_iff.2 ⟨_, s, _, rfl, settle_of_waiting hs, .verbose, rfl⟩
  | succ more ih =>
    refine takeShort_cons_eq_ok_iff.2 ⟨_, s, _, rfl, settle_of_waiting hs, .verbose, ?_⟩
    rw [List.replicate_succ]
    refine (ih (by exact hs)).trans ?_
    simp only [plus]
    congr 2
    omega

/-- A setting that is allowed and not given yet is taken in. -/
theorem take?_word (hs : s.waiting = none) (honly : s.operandsOnly = false)
    (hallowed : setting.Allowed place) (hquiet : setting = .quiet → s.quiet = false)
    (hcheck : setting = .check → s.check = false)
    (hvalue : ∀ flag text, setting = .value flag text → s.value? flag = none) :
    s.take? place setting.word = some (.ok (s.plus setting)) := by
  have hsettle := settle_of_waiting hs
  have hflag := Flag.ofLong?_longName hallowed.known
  cases setting with
  | verbose more => rw [take?_of_short honly rfl, takeShort_verbose hs]
  | quiet =>
    rw [take?_of_short honly rfl, Option.some.injEq]
    exact takeShort_cons_eq_ok_iff.2 ⟨.quiet, s, _, rfl, hsettle, .quiet (hquiet rfl), rfl⟩
  | check =>
    have hword : Word.ofText Setting.check.word = .long Flag.check.longName none :=
      ofText_word_check
    rw [take?_of_long honly hword, Option.some.injEq]
    exact takeLong_eq_ok_iff.2 ⟨.check, s, hflag, hsettle, .flag rfl (.check (hcheck rfl))⟩
  | value flag text =>
    rcases hallowed.value flag text rfl with ⟨htakes, hempty⟩
    rw [take?_of_long honly (ofText_word_value flag text), Option.some.injEq]
    refine takeLong_eq_ok_iff.2 ⟨flag, s, hflag, hsettle, .value htakes ?_⟩
    exact setValue_eq_ok_iff.2 ⟨hvalue flag text rfl, hempty, rfl⟩

/-! ## Which settings a side holds -/

/-- A side has taken in settings, in whatever order, and nothing waits on it. -/
structure Holds (s : Side) (given : List Setting) : Prop where
  verbosity_eq : s.verbosity = min (stepsOf given) maxVerbosity
  quiet_iff : s.quiet = true ↔ .quiet ∈ given
  check_iff : s.check = true ↔ .check ∈ given
  value?_iff : ∀ flag text, s.value? flag = some text ↔ .value flag text ∈ given
  waiting_eq : s.waiting = none

theorem holds_empty : Holds {} [] where
  verbosity_eq := rfl
  quiet_iff := by simp
  check_iff := by simp
  value?_iff := by simp [value?]
  waiting_eq := rfl

/-- The order of settings does not matter. -/
theorem Holds.perm (hs : s.Holds given) (hperm : given.Perm given') : s.Holds given' where
  verbosity_eq := by rw [hs.verbosity_eq, stepsOf_perm hperm]
  quiet_iff := hs.quiet_iff.trans hperm.mem_iff
  check_iff := hs.check_iff.trans hperm.mem_iff
  value?_iff := fun flag text => (hs.value?_iff flag text).trans hperm.mem_iff
  waiting_eq := hs.waiting_eq

/-- Settings that are distinct from one by a flag that cannot be given twice have other flags. -/
theorem not_mem_of_distinct {flag : Flag} {other : Setting}
    (hdistinct : Distinct (setting :: given)) (honce : setting.once? = some flag)
    (hother : other.once? = some flag) : other ∉ given := by
  rw [Distinct, List.filterMap_cons_some honce, List.nodup_cons, List.mem_filterMap] at hdistinct
  intro hmem
  exact hdistinct.1 ⟨other, hmem, hother⟩

theorem Holds.value?_eq_none (hs : s.Holds given) {flag : Flag} {text : Text}
    (hdistinct : Distinct (.value flag text :: given)) : s.value? flag = none := by
  rw [Option.eq_none_iff_forall_ne_some]
  intro text' htext'
  exact not_mem_of_distinct hdistinct rfl rfl ((hs.value?_iff flag text').1 htext')

/-- A new setting is taken in, and held besides the others. -/
theorem Holds.take? (hs : s.Holds given) (honly : s.operandsOnly = false)
    (hallowed : setting.Allowed place) (hdistinct : Distinct (setting :: given)) :
    s.take? place setting.word = some (.ok (s.plus setting)) := by
  refine take?_word hs.waiting_eq honly hallowed ?_ ?_ ?_
  · rintro rfl
    rw [Bool.eq_false_iff, Ne, hs.quiet_iff]
    exact not_mem_of_distinct hdistinct rfl rfl
  · rintro rfl
    rw [Bool.eq_false_iff, Ne, hs.check_iff]
    exact not_mem_of_distinct hdistinct rfl rfl
  · rintro flag text rfl
    exact hs.value?_eq_none hdistinct

theorem value?_plus_value (s : Side) (flag flag' : Flag) (text : Text) :
    (s.plus (.value flag text)).value? flag' =
      (s.value? flag').or (if flag' = flag then some text else none) := by
  rw [value?, plus, List.lookup_append, List.lookup_cons, List.lookup_nil, value?]
  by_cases hflag : flag' = flag
  · simp [hflag]
  · simp [hflag, beq_false_of_ne hflag]

theorem Holds.plus (hs : s.Holds given) (hdistinct : Distinct (setting :: given)) :
    (s.plus setting).Holds (setting :: given) where
  verbosity_eq := by
    cases setting with
    | verbose more =>
      simp only [Side.plus, hs.verbosity_eq, stepsOf, List.flatMap_cons, Setting.letters,
        List.length_append, List.length_cons, List.length_replicate]
      omega
    | quiet | check | value => exact hs.verbosity_eq
  quiet_iff := by cases setting <;> simp [Side.plus, hs.quiet_iff]
  check_iff := by cases setting <;> simp [Side.plus, hs.check_iff]
  value?_iff := by
    intro flag text
    cases setting with
    | verbose | quiet | check =>
      rw [List.mem_cons, or_iff_right (by simp)]
      exact hs.value?_iff flag text
    | value flag' text' =>
      rw [value?_plus_value, List.mem_cons, ← hs.value?_iff, Setting.value.injEq]
      by_cases hflag : flag = flag'
      · subst hflag
        simp [hs.value?_eq_none hdistinct, eq_comm]
      · simp [hflag]
  waiting_eq := by cases setting <;> exact hs.waiting_eq

/-! ## Taking in many settings -/

/-- Operands have nothing to do with settings. -/
theorem plus_keeps (s : Side) (setting : Setting) :
    (s.plus setting).operands = s.operands ∧ (s.plus setting).operandsOnly = s.operandsOnly := by
  cases setting <;> exact ⟨rfl, rfl⟩

/-- However the words are read on behind each, settings are taken in one after the other. -/
theorem Holds.read_settings {α : Type} {reading : Side → List Text → α}
    (hreading : ∀ s t word words, s.take? place word = some (.ok t) →
      reading s (word :: words) = reading t words)
    (hs : s.Holds given) (honly : s.operandsOnly = false)
    (hallowed : ∀ setting ∈ settings, setting.Allowed place)
    (hdistinct : Distinct (settings ++ given)) :
    ∃ t : Side, t.Holds (settings ++ given) ∧ t.operandsOnly = false ∧ t.operands = s.operands ∧
      ∀ words, reading s (settings.map Setting.word ++ words) = reading t words := by
  induction settings generalizing s given with
  | nil => exact ⟨s, hs, honly, rfl, fun _ => rfl⟩
  | cons setting settings ih =>
    rw [List.forall_mem_cons] at hallowed
    -- The new setting moves from the front of those to come to the front of those given.
    have hperm : (settings ++ setting :: given).Perm (setting :: settings ++ given) :=
      List.perm_middle
    have hdistinct' := hdistinct.perm hperm.symm
    have hnew : Distinct (setting :: given) := hdistinct'.of_append.2
    rcases plus_keeps s setting with ⟨hoperands, honly'⟩
    rcases ih (hs.plus hnew) (honly'.trans honly) hallowed.2 hdistinct' with
      ⟨t, ht, htonly, htoperands, hwords⟩
    refine ⟨t, ht.perm hperm, htonly, htoperands.trans hoperands, fun words => ?_⟩
    rw [← hwords]
    exact hreading _ _ _ _ (hs.take? honly hallowed.1 hnew)

end Side

/-! ## Options as settings -/

/-- The name of a command. -/
def Command.name : Command → CommandName
  | .isrs _ _ _ => .isrs
  | .size _ => .size
  | .glob _ _ _ => .glob

/-- The settings of a command. -/
def Command.settings : Command → List Setting
  | .isrs source inclusion check =>
    source.toList.map (.value .source) ++ inclusion.toList.map (.value .inclusion) ++
      if check then [.check] else []
  | .size _ => []
  | .glob _ root first => .value .root root :: first.toList.map (.value .first)

/-- The operands of a command. -/
def Command.operands : Command → List Text
  | .isrs _ _ _ => []
  | .size sizes => sizes
  | .glob pattern _ _ => [pattern]

/-- The settings that hold for every command, with the verbosity in portions. -/
def Options.settings (options : Options) (portions : List Nat) : List Setting :=
  portions.map .verbose ++ (if options.quiet then [.quiet] else []) ++
    options.config.toList.map (.value .config)

/-- Portions, each of one step or more, make up a verbosity. -/
def MakesUp (portions : List Nat) (verbosity : Nat) : Prop :=
  stepsOf (portions.map .verbose) = verbosity

/-- A command that can be asked for: no path is empty, and there is something to count. -/
def Command.Askable : Command → Prop
  | .isrs source inclusion _ => source ≠ some [] ∧ inclusion ≠ some []
  | .size sizes => sizes ≠ []
  | .glob _ root _ => root ≠ []

/-- Options that can be asked for. -/
structure Options.Askable (options : Options) : Prop where
  verbosity_le : options.verbosity ≤ maxVerbosity
  verbosity_eq : options.quiet = true → options.verbosity = 0
  config_ne : options.config ≠ some []
  command : options.command.Askable

/-- The word behind which only operands follow. -/
def separator : Text :=
  "--".toList

/-- The words for the operands of a command; without any the separator may be left out. -/
inductive ConveysOperands : List Text → List Text → Prop
  | nothing : ConveysOperands [] []
  | separated (operands : List Text) : ConveysOperands operands (separator :: operands)

/-- The settings for every command stand all ahead of the command, or all behind it among its own;
on either side the order is free. -/
inductive Placed (shared own : List Setting) : (front back : List Setting) → Prop
  | ahead {front back : List Setting} (hfront : front.Perm shared) (hback : back.Perm own) :
    Placed shared own front back
  | behind {back : List Setting} (hback : back.Perm (shared ++ own)) : Placed shared own [] back

/-- A command line conveys options. -/
inductive Conveys (options : Options) : List Text → Prop
  | line {portions : List Nat} {front back : List Setting} {last : List Text}
    (hportions : MakesUp portions options.verbosity)
    (hplaced : Placed (options.settings portions) options.command.settings front back)
    (hlast : ConveysOperands options.command.operands last) :
    Conveys options
      (front.map Setting.word ++ options.command.name.text :: (back.map Setting.word ++ last))

/-! ## What the settings are -/

section

variable {options : Options} {portions : List Nat} {shared own front back : List Setting}
  {setting : Setting} {command : Command} {place : Option CommandName}

theorem mem_settings_iff :
    setting ∈ options.settings portions ↔
      (∃ more ∈ portions, setting = .verbose more) ∨ (options.quiet = true ∧ setting = .quiet) ∨
        ∃ text, options.config = some text ∧ setting = .value .config text := by
  simp [Options.settings, eq_comm (a := setting)]

theorem allowed_value {flag : Flag} {text : Text} (hknown : flag ∈ Flag.known place)
    (htakes : flag.takesValue = true) (hempty : text = [] → flag.allowsEmpty = true) :
    (Setting.value flag text).Allowed place := by
  refine ⟨hknown, ?_⟩
  rintro _ _ ⟨⟩
  exact ⟨htakes, hempty⟩

/-- Settings for every command are allowed everywhere. -/
theorem allowed_of_mem_settings (hconfig : options.config ≠ some [])
    (hsetting : setting ∈ options.settings portions) : setting.Allowed place := by
  have hknown : ∀ flag ∈ Flag.global, flag ∈ Flag.known place := by
    intro flag hflag
    rcases place with _ | command
    · exact hflag
    · cases command <;> simp [Flag.known, hflag]
  rcases mem_settings_iff.1 hsetting with ⟨more, -, rfl⟩ | ⟨-, rfl⟩ | ⟨text, htext, rfl⟩
  · exact ⟨hknown .verbose (by decide), by simp⟩
  · exact ⟨hknown .quiet (by decide), by simp⟩
  · refine allowed_value (hknown .config (by decide)) rfl ?_
    rintro rfl
    exact absurd htext hconfig

/-- The settings of a command are allowed behind it, and they are not meant for every command. -/
theorem allowed_of_mem_command (hcommand : command.Askable)
    (hsetting : setting ∈ command.settings) :
    setting.Allowed (some command.name) ∧ setting.flag ∉ Flag.global := by
  cases command with
  | isrs source inclusion check =>
    simp only [Command.settings, List.mem_append, List.mem_map, Option.mem_toList] at hsetting
    rcases hsetting with (⟨text, htext, rfl⟩ | ⟨text, htext, rfl⟩) | hcheck
    · refine ⟨allowed_value (by simp [Command.name, Flag.known]) rfl ?_, by simp [Flag.global]⟩
      rintro rfl
      exact absurd htext hcommand.1
    · refine ⟨allowed_value (by simp [Command.name, Flag.known]) rfl ?_, by simp [Flag.global]⟩
      rintro rfl
      exact absurd htext hcommand.2
    · cases check with
      | true =>
        cases List.mem_singleton.1 hcheck
        exact ⟨⟨by simp [Command.name, Flag.known], by simp⟩, by simp [Flag.global]⟩
      | false => cases hcheck
  | size sizes => cases hsetting
  | glob pattern root first =>
    simp only [Command.settings, List.mem_cons, List.mem_map, Option.mem_toList] at hsetting
    rcases hsetting with rfl | ⟨text, htext, rfl⟩
    · refine ⟨allowed_value (by simp [Command.name, Flag.known]) rfl ?_, by simp [Flag.global]⟩
      intro hempty
      exact absurd hempty hcommand
    · refine ⟨allowed_value (by simp [Command.name, Flag.known]) rfl ?_, by simp [Flag.global]⟩
      intro _
      rfl

theorem sublist_of_toList (flag : Flag) (text : Option Text) :
    ((text.toList.map (.value flag)).filterMap Setting.once?).Sublist [flag] := by
  cases text <;> simp [Setting.once?, Setting.flag]

theorem sublist_of_ite (setting : Setting) (given : Bool) :
    ((if given then [setting] else []).filterMap Setting.once?).Sublist [setting.flag] := by
  cases given <;> cases setting <;> simp [Setting.once?, Setting.flag]

/-- Nothing is set twice by options. -/
theorem distinct_settings : Distinct (options.settings portions ++ options.command.settings) := by
  have hshared :
      ((options.settings portions).filterMap Setting.once?).Sublist [.quiet, .config] := by
    have hportions : (portions.map Setting.verbose).filterMap Setting.once? = [] := by
      simp [List.filterMap_map, Setting.once?, Function.comp_def]
    rw [Options.settings, List.filterMap_append, List.filterMap_append, hportions]
    exact (sublist_of_ite .quiet options.quiet).append (sublist_of_toList .config options.config)
  obtain ⟨flags, hown, hnodup⟩ : ∃ flags,
      (options.command.settings.filterMap Setting.once?).Sublist flags ∧
        ([Flag.quiet, .config] ++ flags).Nodup := by
    cases options.command with
    | isrs source inclusion check =>
      refine ⟨[.source, .inclusion, .check], ?_, by decide⟩
      rw [Command.settings, List.filterMap_append, List.filterMap_append]
      have hpaths := (sublist_of_toList .source source).append
        (sublist_of_toList .inclusion inclusion)
      exact hpaths.append (sublist_of_ite .check check)
    | size sizes => exact ⟨[], .refl _, by decide⟩
    | glob pattern root first =>
      refine ⟨[.root, .first], ?_, by decide⟩
      exact (sublist_of_toList .root (some root)).append (sublist_of_toList .first first)
  rw [Distinct, List.filterMap_append]
  exact (hshared.append hown).nodup hnodup

/-! ## Where the settings stand -/

theorem Placed.mem_shared (h : Placed shared own front back) (hsetting : setting ∈ front) :
    setting ∈ shared := by
  cases h with
  | ahead hfront _ => exact hfront.mem_iff.1 hsetting
  | behind => cases hsetting

theorem Placed.mem_iff (h : Placed shared own front back) :
    setting ∈ front ∨ setting ∈ back ↔ setting ∈ shared ++ own := by
  cases h with
  | ahead hfront hback => rw [hfront.mem_iff, hback.mem_iff, List.mem_append]
  | behind hback => simp [hback.mem_iff]

/-- Whatever is not for every command stands behind the command. -/
theorem Placed.mem_back_iff (h : Placed shared own front back) (hsetting : setting ∉ shared) :
    setting ∈ back ↔ setting ∈ own := by
  cases h with
  | ahead _ hback => exact hback.mem_iff
  | behind hback => rw [hback.mem_iff, List.mem_append, or_iff_right hsetting]

theorem Placed.distinct (h : Placed shared own front back) (hdistinct : Distinct (shared ++ own)) :
    Distinct front ∧ Distinct back := by
  cases h with
  | ahead hfront hback =>
    rcases hdistinct.of_append with ⟨hshared, hown⟩
    exact ⟨hshared.perm hfront.symm, hown.perm hback.symm⟩
  | behind hback => exact ⟨List.nodup_nil, hdistinct.perm hback.symm⟩

theorem stepsOf_settings (hportions : MakesUp portions options.verbosity) :
    stepsOf (options.settings portions) = options.verbosity := by
  have hquiet : stepsOf (if options.quiet then [Setting.quiet] else []) = 0 := by
    cases options.quiet <;> rfl
  have hconfig : stepsOf (options.config.toList.map (Setting.value .config)) = 0 := by
    cases options.config <;> rfl
  rw [Options.settings, stepsOf_append, stepsOf_append, hquiet, hconfig]
  exact hportions

theorem stepsOf_command (command : Command) : stepsOf command.settings = 0 := by
  rcases command with ⟨_ | _, _ | _, _ | _⟩ | _ | ⟨_, _, _ | _⟩ <;> rfl

/-- One side has the whole verbosity, and the other has none. -/
theorem Placed.stepsOf_eq
    (h : Placed (options.settings portions) options.command.settings front back)
    (hportions : MakesUp portions options.verbosity) :
    stepsOf front = options.verbosity ∧ stepsOf back = 0 ∨
      stepsOf front = 0 ∧ stepsOf back = options.verbosity := by
  cases h with
  | ahead hfront hback =>
    refine .inl ⟨?_, ?_⟩
    · rw [stepsOf_perm hfront, stepsOf_settings hportions]
    · rw [stepsOf_perm hback, stepsOf_command]
  | behind hback =>
    refine .inr ⟨rfl, ?_⟩
    rw [stepsOf_perm hback, stepsOf_append, stepsOf_settings hportions, stepsOf_command,
      Nat.add_zero]

/-! ## Reading back -/

variable {s before behind : Side} {given : List Setting}

theorem Side.Holds.value?_eq (hs : s.Holds given) {flag : Flag} {value : Option Text}
    (hvalue : ∀ text, .value flag text ∈ given ↔ value = some text) : s.value? flag = value := by
  apply Option.ext
  intro text
  rw [hs.value?_iff, hvalue]

/-- The settings of a command are those that were given behind it. -/
theorem commandOf_of_holds (hs : s.Holds given) (hoperands : s.operands = command.operands)
    (hown : ∀ setting, setting.flag ∉ Flag.global →
      (setting ∈ given ↔ setting ∈ command.settings)) (hcommand : command.Askable) :
    commandOf command.name s = .ok command := by
  have hvalue : ∀ {flag : Flag} {value : Option Text}, flag ∉ Flag.global →
      (∀ text, .value flag text ∈ command.settings ↔ value = some text) →
      s.value? flag = value := by
    intro flag value hflag hgiven
    apply hs.value?_eq
    intro text
    rw [hown (.value flag text) hflag, hgiven]
  cases command with
  | isrs source inclusion check =>
    have hsource : s.value? .source = source := by
      apply hvalue (by decide)
      cases check <;> simp [Command.settings]
    have hinclusion : s.value? .inclusion = inclusion := by
      apply hvalue (by decide)
      cases check <;> simp [Command.settings]
    have hcheck : s.check = check := by
      rw [Bool.eq_iff_iff, hs.check_iff, hown _ (by decide)]
      cases check <;> simp [Command.settings]
    simp only [commandOf, Command.name, hsource, hinclusion, hcheck]
  | size sizes =>
    have hsizes : s.operands = sizes := hoperands
    have hne : sizes ≠ [] := hcommand
    simp only [commandOf, Command.name, hsizes, if_neg hne]
  | glob pattern root first =>
    have hroot : s.value? .root = some root := by
      apply hvalue (by decide)
      simp [Command.settings, eq_comm]
    have hfirst : s.value? .first = first := by
      apply hvalue (by decide)
      simp [Command.settings]
    have hpattern : s.operands = [pattern] := hoperands
    simp only [commandOf, Command.name, hpattern, hroot, hfirst, Option.getD_some]

/-- A setting for every command that stands on either side is one of the options. -/
theorem Placed.mem_settings_iff
    (hplaced : Placed (options.settings portions) options.command.settings front back)
    (hcommand : options.command.Askable) (hsetting : setting.flag ∈ Flag.global) :
    setting ∈ front ∨ setting ∈ back ↔ setting ∈ options.settings portions := by
  rw [hplaced.mem_iff, List.mem_append, or_iff_left]
  intro hown
  exact (allowed_of_mem_command hcommand hown).2 hsetting

/-- The settings for every command are those that were given on either side. -/
theorem combine_of_holds (hbefore : before.Holds front) (hbehind : behind.Holds back)
    (hplaced : Placed (options.settings portions) options.command.settings front back)
    (hportions : MakesUp portions options.verbosity) (haskable : options.Askable) :
    combine before behind options.command = options := by
  have hle := haskable.verbosity_le
  -- A side without verbosity leaves it to the other, and one of them has none.
  have hverbosity : (if behind.verbosity = 0 then before.verbosity else behind.verbosity) =
      options.verbosity := by
    rw [hbefore.verbosity_eq, hbehind.verbosity_eq]
    rcases hplaced.stepsOf_eq hportions with ⟨hfront, hback⟩ | ⟨hfront, hback⟩
    · rw [hfront, hback, Nat.zero_min, if_pos rfl, Nat.min_eq_left hle]
    · rw [hfront, hback, Nat.zero_min, Nat.min_eq_left hle]
      split_ifs with hzero
      · exact hzero.symm
      · rfl
  have hquiet : (before.quiet || behind.quiet) = options.quiet := by
    rw [Bool.eq_iff_iff, Bool.or_eq_true, hbefore.quiet_iff, hbehind.quiet_iff,
      hplaced.mem_settings_iff haskable.command (by decide)]
    simp [CommandLine.mem_settings_iff]
  have hconfig : (behind.value? .config).or (before.value? .config) = options.config := by
    have hvalue : ∀ text, .value .config text ∈ front ∨ .value .config text ∈ back ↔
        options.config = some text := by
      intro text
      rw [hplaced.mem_settings_iff haskable.command (by simp [Flag.global])]
      simp [CommandLine.mem_settings_iff]
    cases hgiven : behind.value? .config with
    | some text =>
      have hmem := (hbehind.value?_iff .config text).1 hgiven
      rw [Option.some_or, (hvalue text).1 (.inr hmem)]
    | none =>
      rw [Option.none_or]
      apply hbefore.value?_eq
      intro text
      rw [← hvalue, or_iff_left]
      rw [← hbehind.value?_iff, hgiven]
      simp
  rw [combine, hverbosity, hquiet, hconfig]

theorem Side.Holds.close (hs : s.Holds given)
    (hquiet : .quiet ∈ given → stepsOf given = 0) : s.close = .ok s := by
  rw [Side.close, Side.settle_of_waiting hs.waiting_eq]
  refine if_neg ?_
  rintro ⟨hset, hverbosity⟩
  rw [hs.verbosity_eq, hquiet (hs.quiet_iff.1 hset)] at hverbosity
  exact hverbosity rfl

/-- Behind the separator every word is an operand, and so is a word without a dash anywhere. -/
theorem takeWords_operands {name : CommandName} {operands : List Text} (hs : s.waiting = none)
    (hwords : s.operandsOnly = true ∨ ∀ word ∈ operands, Word.ofText word = .plain)
    (hanother : ∀ n, s.operands.length ≤ n → n < s.operands.length + operands.length →
      name.takesAnother n = true) :
    takeWords name s operands = .ok { s with operands := s.operands ++ operands } := by
  induction operands generalizing s with
  | nil => simp [takeWords]
  | cons word operands ih =>
    rw [List.forall_mem_cons] at hwords
    have hword : takeWord name s word = .ok { s with operands := s.operands ++ [word] } := by
      rw [takeWord, Side.take?_eq_none_iff.2 (hwords.imp_right fun hplain => ⟨hplain.1, by simp [hs]⟩)]
      refine takeOperand_eq_ok_iff.2 ⟨?_, s, Side.settle_of_waiting hs, rfl⟩
      exact hanother _ (Nat.le_refl _) (by simp)
    refine takeWords_cons_eq_ok_iff.2 ⟨_, hword, (ih ?_ ?_ ?_).trans ?_⟩
    · exact hs
    · exact hwords.imp_right And.right
    · intro n hle hlt
      simp only [List.length_append, List.length_singleton] at hle hlt
      exact hanother n (by omega) (by simp only [List.length_cons]; omega)
    · simp

/-- A command takes its operands, where none has been given before. -/
theorem takesAnother_of_lt {n : Nat} (hn : n < command.operands.length) :
    command.name.takesAnother n = true := by
  cases command with
  | isrs => cases hn
  | size => rfl
  | glob =>
    have hzero : n = 0 := Nat.lt_one_iff.1 hn
    rw [hzero]
    rfl

/-- The operands of a command are taken in behind its settings. -/
theorem exists_takeWords_of_conveysOperands {last : List Text} (hs : s.Holds given)
    (honly : s.operandsOnly = false) (hnone : s.operands = [])
    (hlast : ConveysOperands command.operands last) :
    ∃ t : Side, takeWords command.name s last = .ok t ∧ t.Holds given ∧
      t.operands = command.operands := by
  generalize hoperands : command.operands = operands at hlast
  cases hlast with
  | nothing => exact ⟨s, rfl, hs, hnone⟩
  | separated =>
    subst hoperands
    have hseparator : takeWord command.name s separator = .ok { s with operandsOnly := true } := by
      rw [takeWord, Side.take?_of_separator honly rfl]
    have htail : takeWords command.name { s with operandsOnly := true } command.operands =
        .ok { s with operandsOnly := true, operands := s.operands ++ command.operands } := by
      refine takeWords_operands hs.waiting_eq (.inl rfl) ?_
      intro n _ hn
      rw [hnone, List.length_nil, Nat.zero_add] at hn
      exact takesAnother_of_lt hn
    exact ⟨_, takeWords_cons_eq_ok_iff.2 ⟨_, hseparator, htail⟩, { hs with }, by simp [hnone]⟩

/-- The name of a command is neither a flag nor a value. -/
theorem take?_name (hs : s.waiting = none) (name : CommandName) :
    s.take? place name.text = none := by
  refine Side.take?_eq_none_iff.2 (.inr ⟨?_, ?_⟩)
  · cases name <;> rfl
  · simp [hs]

/-- Settings ahead of the command are held there. -/
theorem exists_readWords_settings (hallowed : ∀ setting ∈ front, setting.Allowed none)
    (hdistinct : Distinct front) :
    ∃ before : Side, before.Holds front ∧ before.operandsOnly = false ∧
      ∀ words, readWords {} (front.map Setting.word ++ words) = readWords before words := by
  have hreading : ∀ s t word words, s.take? none word = some (.ok t) →
      readWords s (word :: words) = readWords t words := by
    intro s t word words htake
    rw [readWords, htake]
  rw [← List.append_nil front] at hdistinct
  rcases Side.holds_empty.read_settings hreading rfl hallowed hdistinct with
    ⟨before, hbefore, honly, -, hwords⟩
  rw [List.append_nil] at hbefore
  exact ⟨before, hbefore, honly, hwords⟩

/-- Settings and operands behind a command are held there. -/
theorem exists_takeWords_settings {last : List Text}
    (hallowed : ∀ setting ∈ back, setting.Allowed (some command.name)) (hdistinct : Distinct back)
    (hlast : ConveysOperands command.operands last) :
    ∃ behind : Side, takeWords command.name {} (back.map Setting.word ++ last) = .ok behind ∧
      behind.Holds back ∧ behind.operands = command.operands := by
  have hreading : ∀ s t word words, s.take? (some command.name) word = some (.ok t) →
      takeWords command.name s (word :: words) = takeWords command.name t words := by
    intro s t word words htake
    rw [takeWords, takeWord, htake]
  rw [← List.append_nil back] at hdistinct
  rcases Side.holds_empty.read_settings hreading rfl hallowed hdistinct with
    ⟨s, hs, honly, hoperands, hwords⟩
  rw [List.append_nil] at hs
  rw [hwords]
  exact exists_takeWords_of_conveysOperands hs honly hoperands hlast

/-- Whatever conveys options is read as these options. -/
theorem read_of_conveys {words : List Text} (haskable : options.Askable)
    (hwords : Conveys options words) : read words = .ok options := by
  rcases hwords with @⟨portions, front, back, last, hportions, hplaced, hlast⟩
  rcases hplaced.distinct distinct_settings with ⟨hfrontDistinct, hbackDistinct⟩
  have hfront : ∀ setting ∈ front, setting.Allowed none := by
    intro setting hsetting
    exact allowed_of_mem_settings haskable.config_ne (hplaced.mem_shared hsetting)
  have hback : ∀ setting ∈ back, setting.Allowed (some options.command.name) := by
    intro setting hsetting
    rcases List.mem_append.1 (hplaced.mem_iff.1 (.inr hsetting)) with hshared | hown
    · exact allowed_of_mem_settings haskable.config_ne hshared
    · exact (allowed_of_mem_command haskable.command hown).1
  rcases exists_readWords_settings hfront hfrontDistinct with ⟨before, hbefore, honly, hread⟩
  rcases exists_takeWords_settings hback hbackDistinct hlast with
    ⟨behind, htake, hbehind, hoperands⟩
  -- Quiet options have no verbosity, so that neither side contradicts itself.
  have hzero : .quiet ∈ front ∨ .quiet ∈ back → stepsOf front = 0 ∧ stepsOf back = 0 := by
    rw [hplaced.mem_settings_iff haskable.command (by decide), mem_settings_iff]
    intro hquiet
    have hverbosity : options.verbosity = 0 := haskable.verbosity_eq (by simpa using hquiet)
    have hsum := hplaced.stepsOf_eq hportions
    omega
  have hown : ∀ setting, setting.flag ∉ Flag.global →
      (setting ∈ back ↔ setting ∈ options.command.settings) := by
    intro setting hsetting
    refine hplaced.mem_back_iff fun hshared => hsetting ?_
    rcases mem_settings_iff.1 hshared with ⟨_, _, rfl⟩ | ⟨_, rfl⟩ | ⟨_, _, rfl⟩ <;>
      simp [Flag.global]
  have hcommand := readCommand_eq_ok_iff.2 ⟨behind, behind, options.command, before, htake,
    hbehind.close fun h => (hzero (.inr h)).2,
    commandOf_of_holds hbehind hoperands hown haskable.command,
    hbefore.close fun h => (hzero (.inl h)).1,
    (combine_of_holds hbefore hbehind hplaced hportions haskable).symm⟩
  have hname : CommandName.ofText? options.command.name.text = some options.command.name := by
    cases options.command <;> rfl
  rw [read, hread]
  exact readWords_cons_eq_ok_iff.2
    (.inr ⟨_, take?_name hbefore.waiting_eq _, hname, honly, hcommand⟩)

end

/-- Sizes without a dash need no separator. -/
theorem read_of_plain_sizes {sizes : List Text} (hne : sizes ≠ [])
    (hplain : ∀ size ∈ sizes, Word.ofText size = .plain) :
    read (CommandName.size.text :: sizes) = .ok ⟨0, false, none, .size sizes⟩ := by
  have htake : takeWords .size {} sizes = .ok { operands := sizes } :=
    takeWords_operands rfl (.inr hplain) fun _ _ _ => rfl
  have hcommand : commandOf .size { operands := sizes } = .ok (.size sizes) := if_neg hne
  refine readWords_cons_eq_ok_iff.2 (.inr ⟨.size, take?_name rfl _, rfl, rfl, ?_⟩)
  exact readCommand_eq_ok_iff.2 ⟨_, _, _, {}, htake, rfl, hcommand, rfl, rfl⟩

/-- One portion is enough for any verbosity. -/
theorem exists_makesUp (verbosity : Nat) : ∃ portions, MakesUp portions verbosity := by
  cases verbosity with
  | zero => exact ⟨[], rfl⟩
  | succ more => exact ⟨[more], by simp [MakesUp, stepsOf, Setting.letters]⟩

theorem exists_conveys (options : Options) : ∃ words, Conveys options words := by
  rcases exists_makesUp options.verbosity with ⟨portions, hportions⟩
  exact ⟨_, .line hportions (.ahead (.refl _) (.refl _)) (.separated _)⟩

/-- Options that can be asked for can be written on a command line, and however they are written,
they are read back as they are. -/
theorem exists_conveys_and_read_eq {options : Options} (haskable : options.Askable) :
    (∃ words, Conveys options words) ∧ ∀ words, Conveys options words → read words = .ok options :=
  ⟨exists_conveys options, fun _ hwords => read_of_conveys haskable hwords⟩

/-- Values that look like something else: an equals sign, a command, nothing and the separator. -/
theorem exists_conveys_and_read_eq_of_lookalikes :
    let options : Options :=
      ⟨3, false, some "=".toList, .glob "--".toList "size".toList (some [])⟩
    let words : List Text := ["glob", "--first=", "-vv", "--config==", "--root=size", "-v", "--",
      "--"].map String.toList
    options.Askable ∧ Conveys options words ∧ read words = .ok options := by
  intro options words
  have hroot : "size".toList ≠ [] := by decide
  have haskable : options.Askable := ⟨by decide, by decide, by decide, hroot⟩
  have hportions : MakesUp [0, 1] options.verbosity := rfl
  let back : List Setting := [.value .first [], .verbose 1, .value .config "=".toList,
    .value .root "size".toList, .verbose 0]
  have hback : back.Perm (options.settings [0, 1] ++ options.command.settings) := by decide
  have hwords : Conveys options words := .line hportions (.behind hback) (.separated _)
  exact ⟨haskable, hwords, (exists_conveys_and_read_eq haskable).2 words hwords⟩

end KernelTools.CommandLine
