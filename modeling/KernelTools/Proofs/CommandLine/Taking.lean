import KernelTools.Proofs.CommandLine.CheckFlag

/-!
# How a side of the command line grows

What a word that is accepted does to the side on which it stands.  Whatever comes next, the value
that waits is taken in first; then a flag without a value raises a setting, and a flag with one
brings its value or lets it wait.

Main results:

- Theorem {lit}`takeLong_eq_ok_iff`: a long flag settles the side and then makes its gain.
- Theorem {lit}`takeShort_cons_eq_ok_iff`: so does each letter behind one dash.
- Theorem {lit}`take?_eq_none_iff`: which words are neither flags nor values.
-/

namespace KernelTools.CommandLine

/-! ## Words and flags -/

theorem Flag.longName_of_ofLong? {place : Option CommandName} {name : Text} {flag : Flag}
    (h : Flag.ofLong? place name = some flag) : flag.longName = name := by
  simpa using List.find?_some h

/-- The letters behind one dash are not empty. -/
theorem ne_nil_of_ofText_short {word letters : Text} (h : Word.ofText word = .short letters) :
    letters ≠ [] := by
  rintro rfl
  unfold Word.ofText at h
  split at h <;> cases h

namespace Side

variable {s t u : Side} {flag : Flag} {value : Text} {place : Option CommandName} {word : Text}

/-! ## Values -/

/-- The value of a flag is taken in once, and only a flag that allows it has an empty one. -/
theorem setValue_eq_ok_iff :
    s.setValue flag value = .ok t ↔
      s.value? flag = none ∧ (value = [] → flag.allowsEmpty = true) ∧
        t = { s with values := s.values ++ [(flag, value)] } := by
  unfold setValue
  split_ifs with hset hempty
  · simp [Option.isSome_iff_ne_none.1 hset]
  · simp [hempty]
  · rw [Except.ok.injEq, eq_comm (b := t), and_iff_right (by simpa using hset), and_iff_right]
    simpa using hempty

/-- A side settles when nothing waits on it, or a whole value that can be taken in. -/
theorem settle_eq_ok_iff :
    s.settle = .ok u ↔
      s.waiting = none ∧ u = s ∨
        ∃ flag value, s.waiting = some (flag, some value) ∧
          { s with waiting := none }.setValue flag value = .ok u := by
  unfold settle
  split
  · next hwaiting => simp [hwaiting, eq_comm]
  · next hwaiting => simp [hwaiting]
  · next flag value hwaiting =>
    constructor
    · intro h
      exact .inr ⟨flag, value, hwaiting, h⟩
    · rintro (⟨hnone, -⟩ | ⟨flag', value', hwaiting', h⟩)
      · rw [hwaiting] at hnone
        contradiction
      · rw [hwaiting] at hwaiting'
        cases hwaiting'
        exact h

/-- Settling has nothing to do with operands. -/
theorem operands_of_settle (h : s.settle = .ok u) : u.operands = s.operands := by
  rcases settle_eq_ok_iff.1 h with ⟨-, rfl⟩ | ⟨flag, value, -, hvalue⟩
  · rfl
  · rcases setValue_eq_ok_iff.1 hvalue with ⟨-, -, rfl⟩
    rfl

/-! ## Flags -/

/-- What a flag without a value makes of a side. -/
inductive Raises (u : Side) : Flag → Side → Prop
  | verbose : Raises u .verbose { u with verbosity := min (u.verbosity + 1) maxVerbosity }
  | quiet (hunset : u.quiet = false) : Raises u .quiet { u with quiet := true }
  | check (hunset : u.check = false) : Raises u .check { u with check := true }

/-- A flag without a value settles the side and then raises its setting. -/
theorem setFlag_eq_ok_iff :
    s.setFlag flag = .ok t ↔ ∃ u, s.settle = .ok u ∧ Raises u flag t := by
  unfold setFlag
  cases s.settle with
  | error e => simp
  | ok u =>
    simp only [Except.ok.injEq, exists_eq_left']
    constructor
    · intro h
      cases flag with
      | verbose =>
        cases h
        exact .verbose
      | quiet =>
        simp only at h
        split_ifs at h with hquiet
        cases h
        exact .quiet (Bool.eq_false_iff.2 hquiet)
      | check =>
        simp only at h
        split_ifs at h with hcheck
        cases h
        exact .check (Bool.eq_false_iff.2 hcheck)
      | config | help | source | inclusion | root | first => contradiction
    · intro h
      cases h with
      | verbose => rfl
      | quiet hunset => simp [hunset]
      | check hunset => simp [hunset]

/-- What a long flag, with what stands behind its equals sign, makes of a settled side. -/
inductive Gains (u : Side) (flag : Flag) : Option Text → Side → Prop
  | flag {t : Side} (hflag : flag.takesValue = false) (h : Raises u flag t) : Gains u flag none t
  | value {t : Side} {value : Text} (hflag : flag.takesValue = true)
    (h : u.setValue flag value = .ok t) : Gains u flag (some value) t
  | wait (hflag : flag.takesValue = true) :
    Gains u flag none { u with waiting := some (flag, none) }

/-- A flag without a value leaves alone what waits. -/
theorem Raises.keeps (h : Raises u flag t) :
    t.waiting = u.waiting ∧ t.operandsOnly = u.operandsOnly := by
  cases h <;> exact ⟨rfl, rfl⟩

/-- On a settled side nothing waits after a long flag but the flag itself, for its value. -/
theorem Gains.keeps {value : Option Text} (hu : u.waiting = none) (h : Gains u flag value t) :
    t.waiting = (if flag.takesValue && value.isNone then some (flag, none) else none) ∧
      t.operandsOnly = u.operandsOnly := by
  cases h with
  | flag hflag hraises =>
    rw [hflag, hraises.keeps.1, hu]
    exact ⟨rfl, hraises.keeps.2⟩
  | value hflag hvalue =>
    rcases setValue_eq_ok_iff.1 hvalue with ⟨-, -, rfl⟩
    rw [hflag]
    exact ⟨hu, rfl⟩
  | wait hflag =>
    rw [hflag]
    exact ⟨rfl, rfl⟩

/-- A long flag that is known settles the side and then makes its gain. -/
theorem takeLong_eq_ok_iff {name : Text} {value : Option Text} :
    s.takeLong place name value = .ok t ↔
      ∃ flag u, Flag.ofLong? place name = some flag ∧ s.settle = .ok u ∧ Gains u flag value t := by
  unfold takeLong
  cases Flag.ofLong? place name with
  | none => simp
  | some flag =>
    simp only [Option.some.injEq, exists_and_left, exists_eq_left']
    split_ifs with hflag hvalue
    · cases s.settle with
      | error e => simp
      | ok u =>
        simp only [Except.ok.injEq, exists_eq_left']
        cases value with
        | none =>
          constructor
          · rintro ⟨⟩
            exact .wait hflag
          · rintro (⟨hno, -⟩ | - | -)
            · simp [hflag] at hno
            · rfl
        | some value =>
          constructor
          · exact .value hflag
          · rintro (- | ⟨-, h⟩ | -)
            exact h
    · cases value with
      | none => simp at hvalue
      | some value =>
        constructor
        · intro h
          contradiction
        · rintro ⟨u, -, - | ⟨hyes, -⟩ | -⟩
          exact absurd hyes hflag
    · cases value with
      | some value => simp at hvalue
      | none =>
        rw [setFlag_eq_ok_iff]
        refine exists_congr fun u => and_congr_right fun _ => ?_
        constructor
        · exact .flag (Bool.eq_false_iff.2 hflag)
        · rintro (⟨-, h⟩ | - | ⟨hyes⟩)
          · exact h
          · exact absurd hyes hflag

/-- A letter settles the side and raises its setting before the next one is taken. -/
theorem takeShort_cons_eq_ok_iff {c : Char} {letters : Text} :
    s.takeShort (c :: letters) = .ok t ↔
      ∃ flag u v, Flag.ofLetter? c = some flag ∧ s.settle = .ok u ∧ Raises u flag v ∧
        v.takeShort letters = .ok t := by
  rw [takeShort]
  cases Flag.ofLetter? c with
  | none => simp
  | some flag =>
    simp only [Option.some.injEq, exists_and_left, exists_eq_left']
    have hset := @setFlag_eq_ok_iff s
    cases hflag : s.setFlag flag with
    | error e =>
      simp only [reduceCtorEq, false_iff]
      rintro ⟨u, hsettle, v, hraises, -⟩
      rw [hset.2 ⟨u, hsettle, hraises⟩] at hflag
      contradiction
    | ok v =>
      constructor
      · intro h
        rcases hset.1 hflag with ⟨u, hsettle, hraises⟩
        exact ⟨u, hsettle, v, hraises, h⟩
      · rintro ⟨u, hsettle, v', hraises, h⟩
        rw [hset.2 ⟨u, hsettle, hraises⟩] at hflag
        cases hflag
        exact h

/-- Nothing waits after letters behind one dash on a settled side. -/
theorem takeShort_keeps {letters : Text} (hs : s.waiting = none)
    (h : s.takeShort letters = .ok t) :
    t.waiting = none ∧ t.operandsOnly = s.operandsOnly := by
  induction letters generalizing s with
  | nil =>
    cases h
    exact ⟨hs, rfl⟩
  | cons c letters ih =>
    rcases takeShort_cons_eq_ok_iff.1 h with ⟨flag, u, v, -, hsettle, hraises, hletters⟩
    rcases settle_spec hsettle with ⟨hu, -, hoperands⟩
    rcases ih (hraises.keeps.1.trans hu) hletters with ⟨hwaiting, hoperands'⟩
    exact ⟨hwaiting, hoperands'.trans (hraises.keeps.2.trans hoperands)⟩

/-! ## Words -/

theorem take?_of_separator (hs : s.operandsOnly = false) (hword : Word.ofText word = .separator) :
    s.take? place word = some (.ok { s with operandsOnly := true }) := by
  simp [take?, hs, hword]

theorem take?_of_long {name : Text} {value : Option Text} (hs : s.operandsOnly = false)
    (hword : Word.ofText word = .long name value) :
    s.take? place word = some (s.takeLong place name value) := by
  simp [take?, hs, hword]

theorem take?_of_short {letters : Text} (hs : s.operandsOnly = false)
    (hword : Word.ofText word = .short letters) :
    s.take? place word = some (s.takeShort letters) := by
  simp [take?, hs, hword]

theorem take?_of_plain (hs : s.operandsOnly = false) (hword : Word.ofText word = .plain)
    (hwaiting : s.waiting = some (flag, none)) :
    s.take? place word = some (.ok { s with waiting := some (flag, some word) }) := by
  simp [take?, hs, hword, hwaiting]

/-- A word is neither a flag nor a value behind the separator, or when it has no dash and no flag
waits for it. -/
theorem take?_eq_none_iff :
    s.take? place word = none ↔
      s.operandsOnly = true ∨
        Word.ofText word = .plain ∧ ∀ flag, s.waiting ≠ some (flag, none) := by
  cases hs : s.operandsOnly with
  | true => simp [take?, hs]
  | false =>
    cases hword : Word.ofText word with
    | separator => simp [take?_of_separator hs hword]
    | long name value => simp [take?_of_long hs hword]
    | short letters => simp [take?_of_short hs hword]
    | plain =>
      simp only [take?, hs, hword, Bool.false_eq_true, if_false, false_or, true_and]
      split
      · next flag hwaiting => simp [hwaiting]
      · next hwaiting => simpa using hwaiting

end Side

/-! ## Operands -/

/-- An operand settles the side and comes behind the others. -/
theorem takeOperand_eq_ok_iff {s t : Side} {command : CommandName} {word : Text} :
    s.takeOperand command word = .ok t ↔
      command.takesAnother s.operands.length = true ∧
        ∃ u, s.settle = .ok u ∧ t = { u with operands := u.operands ++ [word] } := by
  unfold Side.takeOperand
  split_ifs with hanother
  · cases s.settle <;> simp [hanother, eq_comm]
  · simp [hanother]

end KernelTools.CommandLine
