import KernelTools.CommandLine.Reading
import Mathlib.Tactic.SplitIfs

/-!
# The check flag on a command line

Putting {lit}`--check` into a command line for the interrupt tables changes nothing but the check:
wherever the flag is taken, all other settings are read as without it.  The flag may come between a
value and the word behind it; then the value is taken in one word earlier, which makes no difference
in the end.

Main results:

- Theorem {lit}`read_insert_check`: a command line with the flag put in, if it is accepted at all,
  asks for the same run, only to check.
- Theorem {lit}`exists_read_insert_check`: there is always a place for the flag.
-/

namespace KernelTools.CommandLine

/-! ## Words and settings -/

/-- The word by which a flag is given. -/
def Flag.word (flag : Flag) : Text :=
  '-' :: '-' :: flag.longName

/-- A command that only checks where it would generate. -/
def Command.checked : Command → Command
  | .isrs source inclusion _ => .isrs source inclusion true
  | command => command

/-- Options that only ask for a check. -/
def Options.checked (options : Options) : Options :=
  { options with command := options.command.checked }

theorem ofText_word_check : Word.ofText Flag.check.word = .long Flag.check.longName none := by
  decide

theorem ofLong?_check : Flag.ofLong? (some .isrs) Flag.check.longName = some .check := by
  decide

theorem ofLetter?_ne_check (c : Char) : Flag.ofLetter? c ≠ some .check := by
  unfold Flag.ofLetter?
  split_ifs <;> simp

namespace Side

/-! ## A side with the flag -/

/-- A side on which the check flag is given besides. -/
def withCheck (s : Side) : Side :=
  { s with check := true }

variable {s t u : Side} {flag : Flag} {value : Text} {place : Option CommandName}

/-- A change of a side that has nothing to do with the values on it. -/
structure Apart (change : Side → Side) : Prop where
  values_eq : ∀ s, (change s).values = s.values
  waiting_eq : ∀ s, (change s).waiting = s.waiting
  set_values : ∀ s values, { change s with values := values } = change { s with values := values }
  set_waiting : ∀ s waiting,
    { change s with waiting := waiting } = change { s with waiting := waiting }

theorem Apart.setValue {change : Side → Side} (h : Apart change) (s : Side) (flag : Flag)
    (value : Text) : (change s).setValue flag value = (s.setValue flag value).map change := by
  have hvalue : (change s).value? flag = s.value? flag :=
    congrArg (List.lookup flag) (h.values_eq s)
  rw [Side.setValue, Side.setValue, hvalue, h.values_eq, h.set_values]
  split_ifs <;> rfl

theorem Apart.settle {change : Side → Side} (h : Apart change) (s : Side) :
    (change s).settle = s.settle.map change := by
  rw [Side.settle, Side.settle, h.waiting_eq]
  split
  · rfl
  · rfl
  · rw [h.set_waiting, h.setValue]

theorem apart_withCheck : Apart withCheck :=
  ⟨fun _ => rfl, fun _ => rfl, fun _ _ => rfl, fun _ _ => rfl⟩

theorem apart_operandsOnly : Apart fun s => { s with operandsOnly := true } :=
  ⟨fun _ => rfl, fun _ => rfl, fun _ _ => rfl, fun _ _ => rfl⟩

theorem setFlag_withCheck (s : Side) (hflag : flag ≠ .check) :
    s.withCheck.setFlag flag = (s.setFlag flag).map withCheck := by
  rw [setFlag, setFlag, apart_withCheck.settle]
  cases s.settle with
  | error e => rfl
  | ok s =>
    have hquiet : s.withCheck.quiet = s.quiet := rfl
    cases flag with
    | check => exact absurd rfl hflag
    | quiet =>
      simp only [Except.map, hquiet]
      split <;> rfl
    | _ => rfl

theorem takeLong_withCheck (s : Side) {name : Text} {value : Option Text}
    (hname : Flag.ofLong? place name ≠ some .check) :
    s.withCheck.takeLong place name value = (s.takeLong place name value).map withCheck := by
  rw [takeLong, takeLong]
  split
  · rfl
  · next flag hflag =>
    have hne : flag ≠ .check := by
      rintro rfl
      exact hname hflag
    split_ifs
    · rw [apart_withCheck.settle]
      cases s.settle with
      | error e => rfl
      | ok s =>
        cases value with
        | none => rfl
        | some value => exact apart_withCheck.setValue s flag value
    · rfl
    · exact setFlag_withCheck s hne

theorem takeShort_withCheck (s : Side) (letters : Text) :
    s.withCheck.takeShort letters = (s.takeShort letters).map withCheck := by
  induction letters generalizing s with
  | nil => rfl
  | cons c letters ih =>
    rw [takeShort, takeShort]
    split
    · rfl
    · next flag hflag =>
      have hne : flag ≠ .check := by
        rintro rfl
        exact ofLetter?_ne_check c hflag
      rw [setFlag_withCheck s hne]
      cases s.setFlag flag with
      | error e => rfl
      | ok s => exact ih s

/-! ## Settling -/

/-- Settling leaves no value waiting, and keeps the flags. -/
theorem settle_spec (h : s.settle = .ok u) :
    u.waiting = none ∧ u.check = s.check ∧ u.operandsOnly = s.operandsOnly := by
  unfold settle at h
  split at h
  · next hwaiting =>
    cases h
    exact ⟨hwaiting, rfl, rfl⟩
  · contradiction
  · unfold setValue at h
    split_ifs at h
    cases h
    exact ⟨rfl, rfl, rfl⟩

theorem settle_of_waiting (h : s.waiting = none) : s.settle = .ok s := by
  rw [settle, h]

/-- What is settled stays as it is. -/
theorem settle_of_settle (h : s.settle = .ok u) : u.settle = .ok u :=
  settle_of_waiting (settle_spec h).1

theorem setFlag_of_settle (h : s.settle = .ok u) (flag : Flag) :
    s.setFlag flag = u.setFlag flag := by
  rw [setFlag, setFlag, h, settle_of_settle h]

/-- Settling first makes no difference to a long flag. -/
theorem takeLong_of_settle (h : s.settle = .ok u) (place : Option CommandName) (name : Text)
    (value : Option Text) : s.takeLong place name value = u.takeLong place name value := by
  rw [takeLong, takeLong, h, settle_of_settle h]
  simp only [setFlag_of_settle h]

/-- Settling first makes no difference to letters. -/
theorem takeShort_of_settle (h : s.settle = .ok u) (c : Char) (letters : Text) :
    s.takeShort (c :: letters) = u.takeShort (c :: letters) := by
  rw [takeShort, takeShort]
  simp only [setFlag_of_settle h]

/-- A long check flag that is taken in is set afterwards. -/
theorem check_of_takeLong {name : Text} {value : Option Text}
    (hname : Flag.ofLong? place name = some .check) (h : s.takeLong place name value = .ok t) :
    t.check = true := by
  simp only [takeLong, hname, Flag.takesValue, setFlag] at h
  grind

end Side

/-! ## Words behind the command -/

section

variable {s s' t u : Side} {word : Text} {words : List Text}

/-- What a word behind the command of the tables does to what has been given so far, when it is
accepted; there is one rule for each look of a word. -/
inductive Takes (s : Side) (word : Text) : Side → Prop
  | separator (hword : Word.ofText word = .separator) : Takes s word { s with operandsOnly := true }
  | long {name : Text} {value : Option Text} {t : Side}
    (hword : Word.ofText word = .long name value)
    (h : s.takeLong (some .isrs) name value = .ok t) : Takes s word t
  | short {letters : Text} {t : Side} (hword : Word.ofText word = .short letters)
    (h : s.takeShort letters = .ok t) : Takes s word t
  | value {flag : Flag} (hword : Word.ofText word = .plain)
    (hwaiting : s.waiting = some (flag, none)) :
    Takes s word { s with waiting := some (flag, some word) }

/-- The tables take no operand. -/
theorem takeOperand_isrs (s : Side) (word : Text) :
    s.takeOperand .isrs word = .error .unknownArgument :=
  rfl

/-- A word is accepted behind the command of the tables by one of the rules, and only before the
separator. -/
theorem takeWord_isrs_eq_ok_iff :
    takeWord .isrs s word = .ok t ↔ s.operandsOnly = false ∧ Takes s word t := by
  unfold takeWord Side.take?
  split_ifs with hoperands
  · simp [takeOperand_isrs, hoperands]
  · have hbefore : s.operandsOnly = false := Bool.not_eq_true _ ▸ hoperands
    rw [and_iff_right hbefore]
    constructor
    · intro h
      cases hword : Word.ofText word with
      | separator =>
        rw [hword] at h
        cases h
        exact .separator hword
      | long name value =>
        rw [hword] at h
        exact .long hword h
      | short letters =>
        rw [hword] at h
        exact .short hword h
      | plain =>
        rw [hword] at h
        cases hwaiting : s.waiting with
        | none =>
          simp only [hwaiting, takeOperand_isrs] at h
          contradiction
        | some waiting =>
          obtain ⟨flag, value⟩ := waiting
          cases value with
          | none =>
            simp only [hwaiting, Except.ok.injEq] at h
            subst h
            exact .value hword hwaiting
          | some value =>
            simp only [hwaiting, takeOperand_isrs] at h
            contradiction
    · intro h
      cases h with
      | separator hword => simp only [hword]
      | long hword h => simp only [hword, h]
      | short hword h => simp only [hword, h]
      | value hword hwaiting => simp only [hword, hwaiting]

/-- A word sets the check flag, or does the same whether the flag is set or not. -/
theorem Takes.withCheck (h : Takes s word t) :
    t.check = true ∨ Takes s.withCheck word t.withCheck := by
  cases h with
  | separator hword => exact .inr (.separator hword)
  | @long name value _ hword h =>
    by_cases hname : Flag.ofLong? (some .isrs) name = some .check
    · exact .inl (Side.check_of_takeLong hname h)
    · refine .inr (.long hword ?_)
      rw [Side.takeLong_withCheck s hname, h]
      rfl
  | short hword h =>
    refine .inr (.short hword ?_)
    rw [Side.takeShort_withCheck, h]
    rfl
  | value hword hwaiting => exact .inr (.value hword hwaiting)

/-- A value that waits can be taken in before the next word or after it. -/
theorem Takes.of_settle (hsettle : s.settle = .ok u) (h : Takes s word t) :
    ∃ v, (v = t ∨ t.settle = .ok v) ∧ Takes u word v := by
  cases h with
  | separator hword =>
    refine ⟨_, .inr ?_, .separator hword⟩
    rw [Side.apart_operandsOnly.settle, hsettle]
    rfl
  | long hword h =>
    rw [Side.takeLong_of_settle hsettle] at h
    exact ⟨t, .inl rfl, .long hword h⟩
  | @short letters _ hword h =>
    cases letters with
    | nil =>
      cases h
      exact ⟨u, .inr hsettle, .short hword rfl⟩
    | cons c letters =>
      rw [Side.takeShort_of_settle hsettle] at h
      exact ⟨t, .inl rfl, .short hword h⟩
  | value hword hwaiting =>
    simp only [Side.settle, hwaiting] at hsettle
    contradiction

/-! ## The flag among the words -/

/-- The second side has the check flag besides what the first has; a value that waits on the first
may have been taken in. -/
def WithCheck (s s' : Side) : Prop :=
  ∃ u, (u = s ∨ s.settle = .ok u) ∧ s' = u.withCheck

/-- The word of the flag is accepted where there is no flag yet. -/
theorem takeWord_check_iff :
    takeWord .isrs s Flag.check.word = .ok s' ↔
      s.operandsOnly = false ∧ ∃ u, s.settle = .ok u ∧ u.check = false ∧ s' = u.withCheck := by
  have htake : s.takeLong (some .isrs) Flag.check.longName none = s.setFlag .check := by
    rw [Side.takeLong, ofLong?_check]
    rfl
  have hset : s.setFlag .check = .ok s' ↔
      ∃ u, s.settle = .ok u ∧ u.check = false ∧ s' = u.withCheck := by
    unfold Side.setFlag
    cases s.settle with
    | error e => simp
    | ok u =>
      constructor
      · intro h
        simp only at h
        split_ifs at h with hcheck
        cases h
        exact ⟨u, rfl, Bool.eq_false_iff.2 hcheck, rfl⟩
      · rintro ⟨_, ⟨⟩, hcheck, rfl⟩
        exact if_neg (Bool.eq_false_iff.1 hcheck)
  rw [takeWord_isrs_eq_ok_iff, ← hset, ← htake]
  refine and_congr_right fun _ => ?_
  constructor
  · intro h
    cases h with
    | long hword h =>
      rw [ofText_word_check] at hword
      cases hword
      exact h
    | separator hword | short hword | value hword =>
      rw [ofText_word_check] at hword
      contradiction
  · exact .long ofText_word_check

/-- A step with the flag besides follows a step without it, unless this step sets the flag. -/
theorem WithCheck.step (hs : WithCheck s s') (h : takeWord .isrs s word = .ok t)
    (hcheck : t.check = false) :
    ∃ t', takeWord .isrs s' word = .ok t' ∧ WithCheck t t' := by
  rcases hs with ⟨u, hu, rfl⟩
  rcases takeWord_isrs_eq_ok_iff.1 h with ⟨hoperands, htakes⟩
  obtain ⟨v, hv, htakes', hoperands'⟩ :
      ∃ v, (v = t ∨ t.settle = .ok v) ∧ Takes u word v ∧ u.operandsOnly = false := by
    rcases hu with rfl | hsettle
    · exact ⟨t, .inl rfl, htakes, hoperands⟩
    · rcases htakes.of_settle hsettle with ⟨v, hv, htakes'⟩
      exact ⟨v, hv, htakes', (Side.settle_spec hsettle).2.2.trans hoperands⟩
  have hunset : v.check = false := by
    rcases hv with rfl | hsettle
    · exact hcheck
    · exact (Side.settle_spec hsettle).2.1.trans hcheck
  rcases htakes'.withCheck with hset | hwith
  · rw [hunset] at hset
    contradiction
  · exact ⟨v.withCheck, takeWord_isrs_eq_ok_iff.2 ⟨hoperands', hwith⟩, v, hv, rfl⟩

theorem Side.withCheck_eq_self_iff : s.withCheck = s ↔ s.check = true := by
  cases s
  simp [Side.withCheck, eq_comm]

/-- A flag that is set stays set. -/
theorem check_of_takeWord (h : takeWord .isrs s word = .ok t) (hcheck : s.check = true) :
    t.check = true := by
  rcases takeWord_isrs_eq_ok_iff.1 h with ⟨hoperands, htakes⟩
  rcases htakes.withCheck with hset | hwith
  · exact hset
  · rw [Side.withCheck_eq_self_iff.2 hcheck] at hwith
    have hagain := takeWord_isrs_eq_ok_iff.2 ⟨hoperands, hwith⟩
    rw [h, Except.ok.injEq, eq_comm] at hagain
    exact Side.withCheck_eq_self_iff.1 hagain

theorem takeWords_cons_eq_ok_iff {command : CommandName} :
    takeWords command s (word :: words) = .ok t ↔
      ∃ u, takeWord command s word = .ok u ∧ takeWords command u words = .ok t := by
  rw [takeWords]
  cases takeWord command s word <;> simp

theorem check_of_takeWords (h : takeWords .isrs s words = .ok t) (hcheck : s.check = true) :
    t.check = true := by
  induction words generalizing s with
  | nil =>
    cases h
    exact hcheck
  | cons word words ih =>
    rcases takeWords_cons_eq_ok_iff.1 h with ⟨u, hword, hwords⟩
    exact ih hwords (check_of_takeWord hword hcheck)

/-- Words are read alike with the flag besides and without it. -/
theorem WithCheck.run (hs : WithCheck s s') (h : takeWords .isrs s words = .ok t)
    (hcheck : t.check = false) :
    ∃ t', takeWords .isrs s' words = .ok t' ∧ WithCheck t t' := by
  induction words generalizing s s' with
  | nil =>
    cases h
    exact ⟨s', rfl, hs⟩
  | cons word words ih =>
    rcases takeWords_cons_eq_ok_iff.1 h with ⟨u, hword, hwords⟩
    have hunset : u.check = false := by
      rw [← Bool.not_eq_true]
      intro hset
      rw [check_of_takeWords hwords hset] at hcheck
      contradiction
    rcases hs.step hword hunset with ⟨u', hword', hu⟩
    rcases ih hu hwords with ⟨t', hwords', ht⟩
    exact ⟨t', takeWords_cons_eq_ok_iff.2 ⟨u', hword', hwords'⟩, ht⟩

/-- In the end nothing waits, and the two sides differ in the flag alone. -/
theorem WithCheck.close (hs : WithCheck s s') (h : s.close = .ok t) :
    s'.close = .ok t.withCheck := by
  rcases hs with ⟨u, hu, rfl⟩
  have hsettle : s.settle = u.settle := by
    rcases hu with rfl | hsettle
    · rfl
    · rw [hsettle, Side.settle_of_settle hsettle]
  unfold Side.close at h ⊢
  rw [hsettle] at h
  rw [Side.apart_withCheck.settle]
  cases hu' : u.settle with
  | error e =>
    rw [hu'] at h
    contradiction
  | ok v =>
    simp only [hu'] at h
    have hquiet : v.withCheck.quiet = v.quiet := rfl
    have hverbosity : v.withCheck.verbosity = v.verbosity := rfl
    simp only [Except.map, hquiet, hverbosity]
    split_ifs at h ⊢
    cases h
    rfl

end

/-! ## Whole command lines -/

section

variable {s s' t before : Side} {word : Text} {words front back : List Text}
  {command : CommandName} {source inclusion : Option Text} {options checking : Options}

theorem takeWords_append :
    takeWords command s (front ++ back) = .ok t ↔
      ∃ u, takeWords command s front = .ok u ∧ takeWords command u back = .ok t := by
  induction front generalizing s with
  | nil => simp [takeWords]
  | cons word front ih =>
    simp only [List.cons_append, takeWords_cons_eq_ok_iff, ih]
    grind

/-- Closing a side keeps the check flag. -/
theorem check_of_close (h : s.close = .ok t) : t.check = s.check := by
  unfold Side.close at h
  cases hsettle : s.settle with
  | error e =>
    rw [hsettle] at h
    contradiction
  | ok u =>
    simp only [hsettle] at h
    split_ifs at h
    cases h
    exact (Side.settle_spec hsettle).2.1

/-- The side behind the command and the command itself are judged before the side ahead of it. -/
theorem readCommand_eq_ok_iff :
    readCommand before command words = .ok options ↔
      ∃ s behind settings ahead, takeWords command {} words = .ok s ∧ s.close = .ok behind ∧
        commandOf command behind = .ok settings ∧ before.close = .ok ahead ∧
        options = combine ahead behind settings := by
  unfold readCommand
  constructor
  · intro h
    split at h
    · contradiction
    · next s hwords =>
      split at h
      · contradiction
      · next behind hbehind =>
        split at h
        · contradiction
        · next settings hsettings =>
          split at h
          · contradiction
          · next ahead hahead =>
            cases h
            exact ⟨s, behind, settings, ahead, hwords, hbehind, hsettings, hahead, rfl⟩
  · rintro ⟨s, behind, settings, ahead, hwords, hbehind, hsettings, hahead, rfl⟩
    simp only [hwords, hbehind, hsettings, hahead]

/-- Only the command of the tables leads to settings for them. -/
theorem eq_isrs_of_readCommand {check : Bool} (h : readCommand before command words = .ok options)
    (hcommand : options.command = .isrs source inclusion check) : command = .isrs := by
  rcases readCommand_eq_ok_iff.1 h with ⟨s, behind, settings, ahead, _, _, hsettings, _, rfl⟩
  cases hcommand
  unfold commandOf at hsettings
  split at hsettings
  · rfl
  · split at hsettings <;> cases hsettings
  · split at hsettings <;> cases hsettings

/-- Behind the command the flag only adds the check, wherever it is taken. -/
theorem readCommand_insert_check (h : readCommand before .isrs (front ++ back) = .ok options)
    (hcommand : options.command = .isrs source inclusion false)
    (hfront : takeWords .isrs {} front = .ok s)
    (hword : takeWord .isrs s Flag.check.word = .ok s') :
    readCommand before .isrs (front ++ Flag.check.word :: back) = .ok options.checked := by
  rcases readCommand_eq_ok_iff.1 h with
    ⟨t, behind, _, ahead, hwords, hbehind, ⟨⟩, hahead, rfl⟩
  have hback : takeWords .isrs s back = .ok t := by
    rcases takeWords_append.1 hwords with ⟨u, hu, hback⟩
    rw [hfront] at hu
    cases hu
    exact hback
  have hcheck : t.check = false := by
    rw [← check_of_close hbehind]
    exact (Command.isrs.inj hcommand).2.2
  have hwith : WithCheck s s' := by
    rcases (takeWord_check_iff.1 hword).2 with ⟨u, hsettle, _, hs'⟩
    exact ⟨u, .inr hsettle, hs'⟩
  rcases hwith.run hback hcheck with ⟨t', hback', ht⟩
  have hwords' : takeWords .isrs {} (front ++ Flag.check.word :: back) = .ok t' :=
    takeWords_append.2 ⟨s, hfront, takeWords_cons_eq_ok_iff.2 ⟨s', hword, hback'⟩⟩
  exact readCommand_eq_ok_iff.2
    ⟨t', behind.withCheck, _, ahead, hwords', ht.close hbehind, rfl, hahead, rfl⟩

/-- A command line is read on behind a word, which is taken in before the command or names it. -/
theorem readWords_cons_eq_ok_iff :
    readWords before (word :: words) = .ok options ↔
      (∃ s, before.take? none word = some (.ok s) ∧ readWords s words = .ok options) ∨
        ∃ command, before.take? none word = none ∧ CommandName.ofText? word = some command ∧
          before.operandsOnly = false ∧ readCommand before command words = .ok options := by
  rw [readWords]
  cases before.take? none word with
  | some outcome => cases outcome <;> simp
  | none =>
    cases CommandName.ofText? word with
    | none =>
      simp only
      split_ifs <;> simp
    | some command =>
      simp only
      split_ifs with hoperands <;> simp [hoperands]

/-- The flag is not known before the command. -/
theorem readWords_check_ne_ok (before : Side) (words : List Text) (options : Options) :
    readWords before (Flag.check.word :: words) ≠ .ok options := by
  intro h
  rcases readWords_cons_eq_ok_iff.1 h with ⟨s, htake, _⟩ | ⟨command, _, hcommand, _⟩
  · have hunknown : before.takeLong none Flag.check.longName none = .error .unknownArgument := rfl
    unfold Side.take? at htake
    split_ifs at htake
    simp only [ofText_word_check, hunknown] at htake
    cases htake
  · have hnone : CommandName.ofText? Flag.check.word = none := by decide
    rw [hnone] at hcommand
    contradiction

theorem readWords_insert_check (h : readWords before (front ++ back) = .ok options)
    (hcommand : options.command = .isrs source inclusion false)
    (hchecking : readWords before (front ++ Flag.check.word :: back) = .ok checking) :
    checking = options.checked := by
  induction front generalizing before with
  | nil => exact absurd hchecking (readWords_check_ne_ok before back checking)
  | cons word front ih =>
    rw [List.cons_append] at h hchecking
    rcases readWords_cons_eq_ok_iff.1 h with ⟨s, htake, hs⟩ | ⟨command, htake, hname, hoperands, hs⟩
    · rcases readWords_cons_eq_ok_iff.1 hchecking with ⟨s', htake', hs'⟩ | ⟨_, htake', _⟩
      · rw [htake] at htake'
        cases htake'
        exact ih hs hs'
      · rw [htake] at htake'
        contradiction
    · rcases readWords_cons_eq_ok_iff.1 hchecking with
        ⟨s', htake', _⟩ | ⟨command', _, hname', _, hs'⟩
      · rw [htake] at htake'
        contradiction
      · rw [hname] at hname'
        cases hname'
        cases eq_isrs_of_readCommand hs hcommand
        rcases readCommand_eq_ok_iff.1 hs' with ⟨t, _, _, _, hwords, _⟩
        rcases takeWords_append.1 hwords with ⟨u, hfront, hback⟩
        rcases takeWords_cons_eq_ok_iff.1 hback with ⟨u', hword, _⟩
        rw [readCommand_insert_check hs hcommand hfront hword] at hs'
        cases hs'
        rfl

/-- A command line with the flag put in, if it is accepted at all, asks for the same run, only to
check. -/
theorem read_insert_check (h : read (front ++ back) = .ok options)
    (hcommand : options.command = .isrs source inclusion false)
    (hchecking : read (front ++ Flag.check.word :: back) = .ok checking) :
    checking = options.checked :=
  readWords_insert_check h hcommand hchecking

theorem exists_readWords_insert_check (h : readWords before words = .ok options)
    (hcommand : options.command = .isrs source inclusion false) :
    ∃ front back, words = front ++ back ∧
      readWords before (front ++ Flag.check.word :: back) = .ok options.checked := by
  induction words generalizing before with
  | nil => contradiction
  | cons word words ih =>
    rcases readWords_cons_eq_ok_iff.1 h with ⟨s, htake, hs⟩ | ⟨command, htake, hname, hoperands, hs⟩
    · rcases ih hs with ⟨front, back, rfl, hread⟩
      exact ⟨word :: front, back, rfl, readWords_cons_eq_ok_iff.2 (.inl ⟨s, htake, hread⟩)⟩
    · cases eq_isrs_of_readCommand hs hcommand
      -- Right behind the command nothing waits, so that the flag is taken.
      have hflag : takeWord .isrs {} Flag.check.word = .ok (Side.withCheck {}) :=
        takeWord_check_iff.2 ⟨rfl, {}, rfl, rfl, rfl⟩
      have hread : readCommand before .isrs ([] ++ Flag.check.word :: words) =
          .ok options.checked := readCommand_insert_check hs hcommand rfl hflag
      exact ⟨[word], words, rfl,
        readWords_cons_eq_ok_iff.2 (.inr ⟨_, htake, hname, hoperands, hread⟩)⟩

/-- There is always a place for the flag. -/
theorem exists_read_insert_check (h : read words = .ok options)
    (hcommand : options.command = .isrs source inclusion false) :
    ∃ front back, words = front ++ back ∧
      read (front ++ Flag.check.word :: back) = .ok options.checked :=
  exists_readWords_insert_check h hcommand

end

end KernelTools.CommandLine
