import KernelTools.Proofs.CommandLine.Taking

/-!
# Leaving flags out of a command line

Two aspects of a run are settled by global flags alone, its verbosity and its configuration file.
When the flags of an aspect are taken out of a command line that is accepted, with their values,
what is left is accepted too and says the same about everything else.  Words behind the separator
are operands and stay.

The two readings run side by side.  Where one takes in a flag that the other does not see, the first
settles its side and the second may still have a value waiting; it takes that value in with the next
word it sees.

Main results:

- Theorem {lit}`Without.take?`: a word is left out, or both sides take it in.
- Theorem {lit}`readWords_leaveOut`: what is left is read as before, without the settings of the
  aspect.
- Theorem {lit}`AlikeBut.without_eq`: two command lines that differ in an aspect alone ask for the
  same apart from it.
-/

namespace KernelTools.CommandLine

/-! ## Aspects -/

/-- What global flags settle, and a command line may be read without. -/
inductive Aspect
  | verbosity
  | configuration

namespace Aspect

/-- The flags of an aspect. -/
def flags : Aspect → List Flag
  | .verbosity => [.verbose, .quiet]
  | .configuration => [.config]

/-- The flag of an aspect under a long name. -/
def flag? (a : Aspect) (name : Text) : Option Flag :=
  a.flags.find? fun flag => flag.longName = name

/-- Whether a letter behind one dash is a flag of an aspect. -/
def hasLetter (a : Aspect) (c : Char) : Bool :=
  a.flags.any fun flag => Flag.ofLetter? c = some flag

variable {a : Aspect} {flag : Flag} {name : Text} {c : Char}

theorem flag?_longName (a : Aspect) (flag : Flag) :
    a.flag? flag.longName = if flag ∈ a.flags then some flag else none := by
  cases a <;> cases flag <;> rfl

/-- Among the flags of an aspect a name means what it means anywhere. -/
theorem flag?_of_ofLong? {place : Option CommandName} (h : Flag.ofLong? place name = some flag) :
    a.flag? name = if flag ∈ a.flags then some flag else none := by
  rw [← Flag.longName_of_ofLong? h, flag?_longName]

theorem hasLetter_eq_true_iff (h : Flag.ofLetter? c = some flag) :
    a.hasLetter c = true ↔ flag ∈ a.flags := by
  simp [hasLetter, h]

end Aspect

/-- The words without the flags of an aspect and their values; what follows the separator stays.  It
must be told whether the first word is the value of a flag that is left out. -/
def leaveOut (a : Aspect) (awaits : Bool) : List Text → List Text
  | [] => []
  | word :: words =>
    match Word.ofText word with
    | .separator => word :: words
    | .long name value =>
      match a.flag? name with
      | some flag => leaveOut a (flag.takesValue && value.isNone) words
      | none => word :: leaveOut a false words
    | .short letters =>
      if letters.all a.hasLetter then leaveOut a false words
      else word :: leaveOut a false words
    | .plain => if awaits then leaveOut a false words else word :: leaveOut a false words

/-- Nothing more is left out of what is left. -/
theorem leaveOut_leaveOut (a : Aspect) (awaits : Bool) (words : List Text) :
    leaveOut a false (leaveOut a awaits words) = leaveOut a awaits words := by
  induction words generalizing awaits with
  | nil => rfl
  | cons word words ih =>
    rw [leaveOut]
    cases hword : Word.ofText word with
    | separator => simp only [leaveOut, hword]
    | long name value =>
      cases hname : a.flag? name with
      | none => simp only [leaveOut, hword, hname, ih]
      | some flag =>
        simp only [hname]
        exact ih _
    | short letters =>
      cases hletters : letters.all a.hasLetter with
      | true =>
        simp only [hletters, if_true]
        exact ih _
      | false => simp only [leaveOut, hword, hletters, ih, Bool.false_eq_true, if_false]
    | plain =>
      cases awaits with
      | true => exact ih _
      | false => simp only [leaveOut, hword, ih, Bool.false_eq_true, if_false]

-- A value goes with its flag, and behind the separator nothing is a flag.
example :
    leaveOut .configuration false (["--config", "a", "glob", "--config=b", "--", "--config"].map
      String.toList) = ["glob", "--", "--config"].map String.toList := by
  decide

/-- Two command lines differ in the flags of an aspect alone. -/
def AlikeBut (a : Aspect) (words words' : List Text) : Prop :=
  leaveOut a false words = leaveOut a false words'

/-- Options with the settings of an aspect left out; a verbosity may be put in their place. -/
def Options.without (a : Aspect) (level : Nat) (options : Options) : Options :=
  match a with
  | .verbosity => { options with verbosity := level, quiet := false }
  | .configuration => { options with config := none }

theorem Options.without_verbosity_eq_iff {options options' : Options} {level : Nat} :
    options.without .verbosity level = options'.without .verbosity level ↔
      options.config = options'.config ∧ options.command = options'.command := by
  simp [Options.without]

theorem Options.without_configuration_eq_iff {options options' : Options} {level : Nat} :
    options.without .configuration level = options'.without .configuration level ↔
      options.verbosity = options'.verbosity ∧ options.quiet = options'.quiet ∧
        options.command = options'.command := by
  simp [Options.without]

namespace Side

variable {s t u : Side} {a : Aspect} {level : Nat} {flag : Flag} {value : Text}

/-! ## A side without an aspect -/

/-- A side on which nothing has been given by the flags of an aspect; a verbosity may be put in the
place of theirs. -/
def without (a : Aspect) (level : Nat) (s : Side) : Side :=
  let rest :=
    { s with
      values := s.values.filter (·.1 ∉ a.flags)
      waiting := s.waiting.filter (·.1 ∉ a.flags) }
  match a with
  | .verbosity => { rest with verbosity := level, quiet := false }
  | .configuration => rest

@[simp]
theorem values_without : (s.without a level).values = s.values.filter (·.1 ∉ a.flags) := by
  cases a <;> rfl

@[simp]
theorem waiting_without : (s.without a level).waiting = s.waiting.filter (·.1 ∉ a.flags) := by
  cases a <;> rfl

@[simp]
theorem check_without : (s.without a level).check = s.check := by
  cases a <;> rfl

@[simp]
theorem operands_without : (s.without a level).operands = s.operands := by
  cases a <;> rfl

@[simp]
theorem operandsOnly_without : (s.without a level).operandsOnly = s.operandsOnly := by
  cases a <;> rfl

/-- A value that the aspect brings is left out. -/
theorem without_gain_of_mem (hflag : flag ∈ a.flags) :
    { s with values := s.values ++ [(flag, value)] }.without a level = s.without a level := by
  cases a <;> simp [without, hflag]

theorem without_gain (hflag : flag ∉ a.flags) :
    { s with values := s.values ++ [(flag, value)] }.without a level =
      { s.without a level with values := (s.without a level).values ++ [(flag, value)] } := by
  cases a <;> simp [without, hflag]

/-- A flag of the aspect that waits is left out. -/
theorem without_wait_of_mem {value : Option Text} (hflag : flag ∈ a.flags) :
    { s with waiting := some (flag, value) }.without a level =
      { s.without a level with waiting := none } := by
  cases a <;> simp [without, Option.filter, hflag]

theorem without_wait {value : Option Text} (hflag : flag ∉ a.flags) :
    { s with waiting := some (flag, value) }.without a level =
      { s.without a level with waiting := some (flag, value) } := by
  cases a <;> simp [without, Option.filter, hflag]

theorem without_wait_none :
    { s with waiting := none }.without a level = { s.without a level with waiting := none } := by
  cases a <;> rfl

theorem value?_without (hflag : flag ∉ a.flags) :
    (s.without a level).value? flag = s.value? flag := by
  unfold value?
  rw [values_without]
  induction s.values with
  | nil => rfl
  | cons entry entries ih => grind

theorem value?_without_of_mem (hflag : flag ∈ a.flags) :
    (s.without a level).value? flag = none := by
  unfold value?
  rw [values_without, List.lookup_eq_none_iff]
  grind

/-! ## Values and flags of the aspect -/

theorem setValue_without_of_mem (hflag : flag ∈ a.flags) (h : s.setValue flag value = .ok t) :
    t.without a level = s.without a level := by
  rcases setValue_eq_ok_iff.1 h with ⟨-, -, rfl⟩
  exact without_gain_of_mem hflag

theorem Raises.without_of_mem (hflag : flag ∈ a.flags) (h : Raises u flag t) :
    t.without a level = u.without a level := by
  cases a with
  | verbosity =>
    cases h with
    | verbose | quiet => rfl
    | check => simp [Aspect.flags] at hflag
  | configuration => cases h <;> simp [Aspect.flags] at hflag

/-- A flag of the aspect makes no difference once the aspect is left out. -/
theorem Gains.without_of_mem {value : Option Text} (hflag : flag ∈ a.flags)
    (hu : u.waiting = none) (h : Gains u flag value t) :
    t.without a level = u.without a level := by
  cases h with
  | flag _ hraises => exact hraises.without_of_mem hflag
  | value _ hvalue => exact setValue_without_of_mem hflag hvalue
  | wait => rw [without_wait_of_mem hflag, ← without_wait_none, ← hu]

/-! ## Other values and flags -/

theorem setValue_without (hflag : flag ∉ a.flags) (h : s.setValue flag value = .ok t) :
    (s.without a level).setValue flag value = .ok (t.without a level) := by
  rcases setValue_eq_ok_iff.1 h with ⟨hunset, hempty, rfl⟩
  rw [setValue_eq_ok_iff, value?_without hflag]
  exact ⟨hunset, hempty, without_gain hflag⟩

theorem Raises.without (hflag : flag ∉ a.flags) (h : Raises u flag t) :
    Raises (u.without a level) flag (t.without a level) := by
  cases a with
  | verbosity =>
    cases h with
    | verbose | quiet => simp [Aspect.flags] at hflag
    | check hunset => exact .check hunset
  | configuration =>
    cases h with
    | verbose => exact .verbose
    | quiet hunset => exact .quiet hunset
    | check hunset => exact .check hunset

/-- Any other flag does the same when the aspect is left out. -/
theorem Gains.without {value : Option Text} (hflag : flag ∉ a.flags) (h : Gains u flag value t) :
    Gains (u.without a level) flag value (t.without a level) := by
  cases h with
  | flag htakes hraises => exact .flag htakes (hraises.without hflag)
  | value htakes hvalue => exact .value htakes (setValue_without hflag hvalue)
  | wait htakes =>
    rw [without_wait hflag]
    exact .wait htakes

/-- What settles with the aspect settles without it. -/
theorem settle_without (h : s.settle = .ok u) :
    (s.without a level).settle = .ok (u.without a level) := by
  rcases settle_eq_ok_iff.1 h with ⟨hwaiting, rfl⟩ | ⟨flag, value, hwaiting, hvalue⟩
  · exact settle_of_waiting (by simp [hwaiting])
  · have hs : s = { s with waiting := some (flag, some value) } := by rw [← hwaiting]
    by_cases hflag : flag ∈ a.flags
    · rw [setValue_without_of_mem hflag hvalue, without_wait_none, hs, without_wait_of_mem hflag]
      exact settle_eq_ok_iff.2 (.inl ⟨rfl, rfl⟩)
    · rw [hs, without_wait hflag, settle_eq_ok_iff]
      refine .inr ⟨flag, value, rfl, ?_⟩
      rw [← setValue_without hflag hvalue, without_wait_none]

/-! ## Letters -/

/-- The letters of a word that is accepted are for verbosity. -/
theorem ofLetter?_of_takeShort {letters : Text} (h : s.takeShort letters = .ok t) :
    ∀ c ∈ letters, ∃ flag ∈ Aspect.verbosity.flags, Flag.ofLetter? c = some flag := by
  induction letters generalizing s with
  | nil => simp
  | cons c letters ih =>
    rcases takeShort_cons_eq_ok_iff.1 h with ⟨flag, u, v, hc, -, hraises, hletters⟩
    rw [List.forall_mem_cons]
    refine ⟨⟨flag, ?_, hc⟩, ih hletters⟩
    cases hraises with
    | verbose | quiet => simp [Aspect.flags]
    | check => exact absurd hc (ofLetter?_ne_check c)

/-- They all belong to an aspect, or none of them does. -/
theorem hasLetter_of_takeShort {letters : Text} (h : s.takeShort letters = .ok t) :
    letters.all a.hasLetter = true ∨ ∀ c ∈ letters, a.hasLetter c = false := by
  have hletter := ofLetter?_of_takeShort h
  cases a with
  | verbosity =>
    left
    rw [List.all_eq_true]
    intro c hmem
    rcases hletter c hmem with ⟨flag, hflag, hc⟩
    exact (Aspect.hasLetter_eq_true_iff hc).2 hflag
  | configuration =>
    right
    intro c hmem
    rcases hletter c hmem with ⟨flag, hflag, hc⟩
    rw [← Bool.not_eq_true, Aspect.hasLetter_eq_true_iff hc]
    rcases List.mem_cons.1 hflag with rfl | hflag
    · decide
    · rw [List.mem_singleton.1 hflag]
      decide

/-- Letters of the aspect make no difference once the aspect is left out. -/
theorem takeShort_without_of_all {letters : Text} (hall : letters.all a.hasLetter = true)
    (hs : s.waiting = none) (h : s.takeShort letters = .ok t) :
    t.without a level = s.without a level := by
  induction letters generalizing s with
  | nil =>
    cases h
    rfl
  | cons c letters ih =>
    rcases takeShort_cons_eq_ok_iff.1 h with ⟨flag, u, v, hc, hsettle, hraises, hletters⟩
    rw [List.all_cons, Bool.and_eq_true, Aspect.hasLetter_eq_true_iff hc] at hall
    rw [settle_of_waiting hs] at hsettle
    cases hsettle
    rw [ih hall.2 (hraises.keeps.1.trans hs) hletters, hraises.without_of_mem hall.1]

/-- Other letters do the same when the aspect is left out. -/
theorem takeShort_without {letters : Text} (hnone : ∀ c ∈ letters, a.hasLetter c = false)
    (h : s.takeShort letters = .ok t) :
    (s.without a level).takeShort letters = .ok (t.without a level) := by
  induction letters generalizing s with
  | nil =>
    cases h
    rfl
  | cons c letters ih =>
    rcases takeShort_cons_eq_ok_iff.1 h with ⟨flag, u, v, hc, hsettle, hraises, hletters⟩
    rw [List.forall_mem_cons] at hnone
    have hflag : flag ∉ a.flags := by
      rw [← Aspect.hasLetter_eq_true_iff hc, hnone.1]
      simp
    exact takeShort_cons_eq_ok_iff.2
      ⟨flag, _, _, hc, settle_without hsettle, hraises.without hflag, ih hnone.2 hletters⟩

/-! ## What is left of the words -/

/-- Whether a flag of an aspect waits for its value. -/
def awaits (a : Aspect) (s : Side) : Bool :=
  match s.waiting with
  | some (flag, none) => flag ∈ a.flags
  | _ => false

/-- What is left of the words behind those that a side has taken in. -/
def remaining (a : Aspect) (s : Side) (words : List Text) : List Text :=
  if s.operandsOnly then words else leaveOut a (s.awaits a) words

theorem remaining_of_operandsOnly (hs : s.operandsOnly = false) (words : List Text) :
    s.remaining a words = leaveOut a (s.awaits a) words :=
  if_neg (by simp [hs])

theorem remaining_of_waiting (hs : s.operandsOnly = false) (hwaiting : s.waiting = none)
    (words : List Text) : s.remaining a words = leaveOut a false words := by
  rw [remaining_of_operandsOnly hs, awaits, hwaiting]

end Side

/-! ## Two readings side by side -/

section

variable {a : Aspect} {level : Nat} {s s' t u before before' : Side} {flag : Flag} {word : Text}
  {words words' : List Text} {place : Option CommandName} {command : CommandName}
  {settings : Command} {options options' : Options}

/-- The second side is what the first is without an aspect; a value that the first has taken in may
still wait on the second. -/
def Without (a : Aspect) (level : Nat) (s s' : Side) : Prop :=
  s' = s.without a level ∨ s'.settle = .ok (s.without a level)

/-- Nothing has been given on an empty side. -/
theorem without_empty : Without a 0 {} {} :=
  .inl (by cases a <;> rfl)

theorem Without.settle (hs : Without a level s s') (h : s.settle = .ok u) :
    s'.settle = .ok (u.without a level) := by
  have hwithout : (s.without a level).settle = .ok (u.without a level) := Side.settle_without h
  rcases hs with rfl | hs
  · exact hwithout
  · calc
      s'.settle = .ok (s.without a level) := hs
      _ = (s.without a level).settle := (Side.settle_of_settle hs).symm
      _ = .ok (u.without a level) := hwithout

theorem Without.operandsOnly_eq (hs : Without a level s s') :
    s'.operandsOnly = s.operandsOnly := by
  rcases hs with rfl | hs
  · exact Side.operandsOnly_without
  · rw [← (Side.settle_spec hs).2.2, Side.operandsOnly_without]

theorem Without.operands_eq (hs : Without a level s s') : s'.operands = s.operands := by
  rcases hs with rfl | hs
  · exact Side.operands_without
  · rw [← Side.operands_of_settle hs, Side.operands_without]

/-- A flag outside the aspect that waits for its value waits on both sides. -/
theorem Without.eq_of_waiting (hs : Without a level s s') (hflag : flag ∉ a.flags)
    (hwaiting : s.waiting = some (flag, none)) : s' = s.without a level := by
  rcases hs with rfl | hs
  · rfl
  · have hnone := (Side.settle_spec hs).1
    rw [Side.waiting_without, hwaiting, Option.filter_some_pos (by simpa using hflag)] at hnone
    contradiction

/-- The first of two sides takes in a word; the word is left out for the second, or the second takes
it in as well. -/
inductive Follows (a : Aspect) (level : Nat) (s s' : Side) (word : Text) (t : Side)
    (Taken : Side → Prop) : Prop
  | leftOut (hwords : ∀ words, s.remaining a (word :: words) = t.remaining a words)
    (ht : Without a level t s') : Follows a level s s' word t Taken
  | kept (t' : Side)
    (hwords : ∀ words, s.remaining a (word :: words) = word :: t.remaining a words)
    (htaken : Taken t') (ht : Without a level t t') : Follows a level s s' word t Taken

theorem Without.follows_of_separator (hs : Without a level s s')
    (honly : s.operandsOnly = false) (hword : Word.ofText word = .separator) :
    Follows a level s s' word { s with operandsOnly := true }
      fun t' => s'.take? place word = some (.ok t') := by
  have hend : ({ s with operandsOnly := true } : Side).without a level =
      { s.without a level with operandsOnly := true } := by cases a <;> rfl
  refine .kept _ ?_ (Side.take?_of_separator (hs.operandsOnly_eq.trans honly) hword) ?_
  · intro words
    rw [Side.remaining_of_operandsOnly honly, leaveOut, hword]
    rfl
  · rcases hs with rfl | hs
    · exact .inl hend.symm
    · refine .inr ?_
      rw [Side.apart_operandsOnly.settle, hs, hend]
      rfl

theorem Without.follows_of_long (hs : Without a level s s') (honly : s.operandsOnly = false)
    {name : Text} {value : Option Text} (hword : Word.ofText word = .long name value)
    (h : s.takeLong place name value = .ok t) :
    Follows a level s s' word t fun t' => s'.take? place word = some (.ok t') := by
  rcases Side.takeLong_eq_ok_iff.1 h with ⟨flag, u, hname, hsettle, hgains⟩
  rcases Side.settle_spec hsettle with ⟨hu, -, huonly⟩
  rcases hgains.keeps hu with ⟨hwaiting, htonly⟩
  have hname' := Aspect.flag?_of_ofLong? (a := a) hname
  have htail : ∀ words, t.remaining a words = leaveOut a (t.awaits a) words :=
    Side.remaining_of_operandsOnly (htonly.trans (huonly.trans honly))
  by_cases hflag : flag ∈ a.flags
  -- The first side is settled by the flag, and the second will be by the next word that it sees.
  · refine .leftOut ?_ (.inr ?_)
    · intro words
      rw [if_pos hflag] at hname'
      have hawaits : t.awaits a = (flag.takesValue && value.isNone) := by
        rw [Side.awaits, hwaiting]
        cases flag.takesValue && value.isNone <;> simp [hflag]
      rw [Side.remaining_of_operandsOnly honly, leaveOut, hword, htail, hawaits]
      simp only [hname']
    · rw [hs.settle hsettle, hgains.without_of_mem hflag hu]
  · refine .kept (t.without a level) ?_ ?_ (.inl rfl)
    · intro words
      rw [if_neg hflag] at hname'
      have hawaits : t.awaits a = false := by
        rw [Side.awaits, hwaiting]
        cases flag.takesValue && value.isNone <;> simp [hflag]
      rw [Side.remaining_of_operandsOnly honly, leaveOut, hword, htail, hawaits]
      simp only [hname']
    · rw [Side.take?_of_long (hs.operandsOnly_eq.trans honly) hword, Option.some.injEq]
      exact Side.takeLong_eq_ok_iff.2 ⟨flag, _, hname, hs.settle hsettle, hgains.without hflag⟩

theorem Without.follows_of_short (hs : Without a level s s') (honly : s.operandsOnly = false)
    {letters : Text} (hword : Word.ofText word = .short letters)
    (h : s.takeShort letters = .ok t) :
    Follows a level s s' word t fun t' => s'.take? place word = some (.ok t') := by
  obtain ⟨c, rest, rfl⟩ := List.exists_cons_of_ne_nil (ne_nil_of_ofText_short hword)
  obtain ⟨u, hsettle⟩ : ∃ u, s.settle = .ok u := by
    rcases Side.takeShort_cons_eq_ok_iff.1 h with ⟨_, u, _, _, hsettle, _⟩
    exact ⟨u, hsettle⟩
  rcases Side.settle_spec hsettle with ⟨hu, -, huonly⟩
  rw [Side.takeShort_of_settle hsettle] at h
  rcases Side.takeShort_keeps hu h with ⟨hwaiting, htonly⟩
  have htail : ∀ words, t.remaining a words = leaveOut a false words :=
    Side.remaining_of_waiting (htonly.trans (huonly.trans honly)) hwaiting
  have hsettle' := hs.settle hsettle
  rcases Side.hasLetter_of_takeShort (a := a) h with hall | hnone
  · refine .leftOut ?_ (.inr ?_)
    · intro words
      rw [Side.remaining_of_operandsOnly honly, leaveOut, hword, htail]
      simp only [hall, if_true]
    · rw [hsettle', Side.takeShort_without_of_all hall hu h]
  · refine .kept (t.without a level) ?_ ?_ (.inl rfl)
    · intro words
      have hsome : (c :: rest).all a.hasLetter = false := by
        rw [List.all_cons, hnone c (List.mem_cons_self ..), Bool.false_and]
      rw [Side.remaining_of_operandsOnly honly, leaveOut, hword, htail]
      simp only [hsome, Bool.false_eq_true, if_false]
    · rw [Side.take?_of_short (hs.operandsOnly_eq.trans honly) hword,
        Side.takeShort_of_settle hsettle', Side.takeShort_without hnone h]

theorem Without.follows_of_value (hs : Without a level s s') (honly : s.operandsOnly = false)
    (hword : Word.ofText word = .plain) (hwaiting : s.waiting = some (flag, none)) :
    Follows a level s s' word { s with waiting := some (flag, some word) }
      fun t' => s'.take? place word = some (.ok t') := by
  have htail : ∀ words, Side.remaining a { s with waiting := some (flag, some word) } words =
      leaveOut a false words :=
    Side.remaining_of_operandsOnly (by exact honly)
  have heq : s = { s with waiting := some (flag, none) } := by rw [← hwaiting]
  by_cases hflag : flag ∈ a.flags
  · have hawaits : s.awaits a = true := by simp [Side.awaits, hwaiting, hflag]
    refine .leftOut ?_ ?_
    · intro words
      rw [Side.remaining_of_operandsOnly honly, leaveOut, hword, htail, hawaits]
      rfl
    · have hsame : Side.without a level { s with waiting := some (flag, some word) } =
          s.without a level := by
        rw [Side.without_wait_of_mem hflag, heq, Side.without_wait_of_mem hflag]
      rwa [Without, hsame]
  · have hawaits : s.awaits a = false := by simp [Side.awaits, hwaiting, hflag]
    have hs' := hs.eq_of_waiting hflag hwaiting
    have hwaiting' : s'.waiting = some (flag, none) := by
      rw [hs', Side.waiting_without, hwaiting, Option.filter_some_pos (by simpa using hflag)]
    refine .kept _ ?_
      (Side.take?_of_plain (hs.operandsOnly_eq.trans honly) hword hwaiting') (.inl ?_)
    · intro words
      rw [Side.remaining_of_operandsOnly honly, leaveOut, hword, htail, hawaits]
      rfl
    · rw [hs', Side.without_wait hflag]

/-- A word that one side takes in is left out, or the other side takes it in as well. -/
theorem Without.take? (hs : Without a level s s') (h : s.take? place word = some (.ok t)) :
    Follows a level s s' word t fun t' => s'.take? place word = some (.ok t') := by
  have honly : s.operandsOnly = false := by
    rw [← Bool.not_eq_true]
    intro hset
    rw [Side.take?_eq_none_iff.2 (.inl hset)] at h
    contradiction
  cases hword : Word.ofText word with
  | separator =>
    rw [Side.take?_of_separator honly hword] at h
    cases h
    exact hs.follows_of_separator honly hword
  | long name value =>
    rw [Side.take?_of_long honly hword, Option.some.injEq] at h
    exact hs.follows_of_long honly hword h
  | short letters =>
    rw [Side.take?_of_short honly hword, Option.some.injEq] at h
    exact hs.follows_of_short honly hword h
  | plain =>
    by_cases hwaiting : ∃ flag, s.waiting = some (flag, none)
    · rcases hwaiting with ⟨flag, hwaiting⟩
      rw [Side.take?_of_plain honly hword hwaiting] at h
      cases h
      exact hs.follows_of_value honly hword hwaiting
    · rw [Side.take?_eq_none_iff.2 (.inr ⟨hword, not_exists.1 hwaiting⟩)] at h
      contradiction

/-- A word that is neither a flag nor a value to one side is neither to the other, and stays. -/
theorem Without.take?_eq_none (hs : Without a level s s') (h : s.take? place word = none) :
    s'.take? place word = none ∧
      ∀ words, s.remaining a (word :: words) =
        word :: if s.operandsOnly then words else leaveOut a false words := by
  rw [Side.take?_eq_none_iff] at h ⊢
  rw [hs.operandsOnly_eq]
  rcases h with honly | ⟨hword, hwaiting⟩
  · refine ⟨.inl honly, fun words => ?_⟩
    simp [Side.remaining, honly]
  · constructor
    · refine .inr ⟨hword, fun flag hflag => ?_⟩
      rcases hs with rfl | hs
      · rw [Side.waiting_without, Option.filter_eq_some_iff] at hflag
        exact hwaiting flag hflag.1
      · simp [Side.settle, hflag] at hs
    · intro words
      have hawaits : s.awaits a = false := by
        unfold Side.awaits
        split
        · next flag hflag => exact absurd hflag (hwaiting flag)
        · rfl
      cases honly : s.operandsOnly with
      | true => simp [Side.remaining, honly]
      | false => simp [Side.remaining_of_operandsOnly honly, hawaits, leaveOut, hword]

/-! ## Behind the command -/

/-- A word behind the command is left out, or both sides take it in. -/
theorem Without.takeWord (hs : Without a level s s') (h : takeWord command s word = .ok t) :
    Follows a level s s' word t fun t' => CommandLine.takeWord command s' word = .ok t' := by
  unfold CommandLine.takeWord at h ⊢
  cases htake : s.take? (some command) word with
  | some outcome =>
    rw [htake] at h
    cases h
    cases hs.take? htake with
    | leftOut hwords ht => exact .leftOut hwords ht
    | kept t' hwords htake' ht => exact .kept t' hwords (by rw [htake']) ht
  | none =>
    rw [htake] at h
    rcases takeOperand_eq_ok_iff.1 h with ⟨hanother, u, hsettle, rfl⟩
    rcases hs.take?_eq_none htake with ⟨htake', hwords⟩
    rcases Side.settle_spec hsettle with ⟨hu, -, honly⟩
    have hend : Side.without a level { u with operands := u.operands ++ [word] } =
        { u.without a level with operands := (u.without a level).operands ++ [word] } := by
      cases a <;> rfl
    refine .kept (Side.without a level { u with operands := u.operands ++ [word] }) ?_ ?_ (.inl rfl)
    · intro words
      rw [hwords]
      simp only [Side.remaining, Side.awaits, hu, honly]
    · rw [htake']
      exact takeOperand_eq_ok_iff.2 ⟨by rwa [hs.operands_eq], _, hs.settle hsettle, hend⟩

/-- Words behind the command are read alike with the aspect and without it. -/
theorem Without.takeWords (hs : Without a level s s') (h : takeWords command s words = .ok t) :
    ∃ t', CommandLine.takeWords command s' (s.remaining a words) = .ok t' ∧
      Without a level t t' := by
  induction words generalizing s s' with
  | nil =>
    cases h
    have hnil : t.remaining a [] = [] := by
      rw [Side.remaining]
      split <;> rfl
    rw [hnil]
    exact ⟨s', rfl, hs⟩
  | cons word words ih =>
    rcases takeWords_cons_eq_ok_iff.1 h with ⟨u, hword, hwords⟩
    cases hs.takeWord hword with
    -- The second side stays as it is, and goes with the next state of the first.
    | leftOut hremaining hu =>
      rw [hremaining]
      exact ih hu hwords
    | kept u' hremaining hword' hu =>
      rw [hremaining]
      rcases ih hu hwords with ⟨t', hwords', ht⟩
      exact ⟨t', takeWords_cons_eq_ok_iff.2 ⟨u', hword', hwords'⟩, ht⟩

/-- In the end nothing waits on either side. -/
theorem Without.close (hs : Without a level s s') (h : s.close = .ok t) :
    s'.close = .ok (t.without a level) := by
  unfold Side.close at h ⊢
  cases hsettle : s.settle with
  | error e =>
    rw [hsettle] at h
    contradiction
  | ok u =>
    rw [hsettle] at h
    simp only at h
    split_ifs at h with hconflict
    cases h
    rw [hs.settle hsettle]
    refine if_neg ?_
    cases a with
    | verbosity => simp [Side.without]
    | configuration => exact hconflict

theorem commandOf_without (s : Side) :
    commandOf command (s.without a level) = commandOf command s := by
  have hvalue : ∀ flag ∈ [Flag.source, .inclusion, .root, .first],
      (s.without a level).value? flag = s.value? flag := by
    intro flag hflag
    apply Side.value?_without
    cases a <;> cases flag <;> simp [Aspect.flags] at hflag ⊢
  unfold commandOf
  simp [hvalue]

/-- An aspect left out on both sides is left out of the options. -/
theorem combine_without (before behind : Side) (settings : Command) :
    combine (before.without a level) (behind.without a 0) settings =
      (combine before behind settings).without a level := by
  cases a with
  | verbosity =>
    have hconfig : Flag.config ∉ Aspect.verbosity.flags := by decide
    simp only [combine, Side.value?_without hconfig]
    rfl
  | configuration =>
    have hconfig : Flag.config ∈ Aspect.configuration.flags := by decide
    simp only [combine, Side.value?_without_of_mem hconfig]
    rfl

theorem readCommand_leaveOut (hbefore : Without a level before before')
    (h : readCommand before command words = .ok options) :
    readCommand before' command (leaveOut a false words) = .ok (options.without a level) := by
  rcases readCommand_eq_ok_iff.1 h with
    ⟨s, behind, settings, ahead, hwords, hbehind, hsettings, hahead, rfl⟩
  rcases without_empty.takeWords hwords with ⟨s', hwords', hs⟩
  exact readCommand_eq_ok_iff.2 ⟨s', _, settings, _, hwords', hs.close hbehind,
    (commandOf_without behind).trans hsettings, hbefore.close hahead,
    (combine_without ahead behind settings).symm⟩

/-! ## Whole command lines -/

/-- What is left of the words is read as before, with the aspect left out. -/
theorem readWords_leaveOut (hbefore : Without a level before before')
    (h : readWords before words = .ok options) :
    readWords before' (before.remaining a words) = .ok (options.without a level) := by
  induction words generalizing before before' with
  | nil => contradiction
  | cons word words ih =>
    rcases readWords_cons_eq_ok_iff.1 h with
      ⟨s, htake, hs⟩ | ⟨command, htake, hname, honly, hs⟩
    · cases hbefore.take? htake with
      | leftOut hremaining ht =>
        rw [hremaining]
        exact ih ht hs
      | kept s' hremaining htake' ht =>
        rw [hremaining]
        exact readWords_cons_eq_ok_iff.2 (.inl ⟨s', htake', ih ht hs⟩)
    · rcases hbefore.take?_eq_none htake with ⟨htake', hremaining⟩
      rw [hremaining, honly]
      exact readWords_cons_eq_ok_iff.2 (.inr ⟨command, htake', hname,
        hbefore.operandsOnly_eq.trans honly, readCommand_leaveOut hbefore hs⟩)

/-- A command line that is accepted is accepted without the flags of an aspect, and says the same
about all else. -/
theorem read_leaveOut (h : read words = .ok options) :
    read (leaveOut a false words) = .ok (options.without a 0) :=
  readWords_leaveOut without_empty h

/-- Command lines that differ in the flags of an aspect alone ask for the same apart from it. -/
theorem AlikeBut.without_eq (halike : AlikeBut a words words') (h : read words = .ok options)
    (h' : read words' = .ok options') : options.without a 0 = options'.without a 0 := by
  have hleft := read_leaveOut (a := a) h
  rw [halike, read_leaveOut h'] at hleft
  exact (Except.ok.inj hleft).symm

/-- The word that asks for every record. -/
def mostVerbose : Text :=
  "-vv".toList

/-- Asking for every record instead is a difference in verbosity alone. -/
theorem alikeBut_mostVerbose (words : List Text) :
    AlikeBut .verbosity words (mostVerbose :: leaveOut .verbosity false words) :=
  (leaveOut_leaveOut .verbosity false words).symm

/-- The flags for verbosity can be replaced by those that ask for every record. -/
theorem read_mostVerbose (h : read words = .ok options) :
    read (mostVerbose :: leaveOut .verbosity false words) =
      .ok { options with verbosity := 2, quiet := false } := by
  have hbefore : Without .verbosity 2 {} { verbosity := 2 } := .inl rfl
  have htake : Side.take? {} none mostVerbose = some (.ok { verbosity := 2 }) := rfl
  exact readWords_cons_eq_ok_iff.2 (.inl ⟨_, htake, readWords_leaveOut hbefore h⟩)

end

end KernelTools.CommandLine
