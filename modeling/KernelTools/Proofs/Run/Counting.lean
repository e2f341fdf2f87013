import KernelTools.Proofs.CommandLine.Writing
import KernelTools.Proofs.Run.Independence
import KernelTools.Proofs.Size.Printing

/-!
# What a run that counts sizes prints

Sizes are read one after the other, and every count is printed before the next size is read.  The
first size that has no count ends the run: the counts ahead of it stay printed, and nothing behind it
is read.  What is printed can be given back as sizes, and then it is printed once more.

Main results:

- Theorem {lit}`runSizes_append`: sizes that are counted leave their lines and records in front of
  whatever comes next.
- Theorems {lit}`runSizes_of_counted` and {lit}`runSizes_of_failsFirst`: the two ways in which
  counting ends.
- Theorem {lit}`counted_up_to_first_failure`: what a run prints, logs and fails with, and that its
  lines are printed again when they are given back.
-/

namespace KernelTools

open CommandLine (Options Word)

variable {fs : FileSystem} {options : Options} {size : Text} {sizes before : List Text}
  {count k : Nat} {counts : List Nat} {error : Size.Error}

/-! ## Sizes with counts -/

/-- A size is read as a count. -/
def Size.HasCount (size : Text) (count : Nat) : Prop :=
  Size.parse size = .ok count

instance (size : Text) (count : Nat) : Decidable (Size.HasCount size count) :=
  inferInstanceAs (Decidable (Size.parse size = .ok count))

/-- The sizes ahead of a place have counts, and the one at the place has none. -/
structure FailsFirst (sizes : List Text) (k : Nat) (counts : List Nat) (size : Text)
    (error : Size.Error) : Prop where
  counted : List.Forall₂ Size.HasCount (sizes.take k) counts
  size_eq : sizes[k]? = some size
  parse_eq : Size.parse size = .error error

/-- Either all sizes have counts, or there is a first that has none. -/
theorem exists_counts_or_failsFirst (sizes : List Text) :
    (∃ counts, List.Forall₂ Size.HasCount sizes counts) ∨
      ∃ k counts size error, FailsFirst sizes k counts size error := by
  induction sizes with
  | nil => exact .inl ⟨[], .nil⟩
  | cons size sizes ih =>
    cases hparse : Size.parse size with
    | error error => exact .inr ⟨0, [], size, error, .nil, rfl, hparse⟩
    | ok count =>
      rcases ih with ⟨counts, hcounts⟩ | ⟨k, counts, failing, error, hcounts, hsize, herror⟩
      · exact .inl ⟨count :: counts, .cons hparse hcounts⟩
      · exact .inr ⟨k + 1, count :: counts, failing, error, .cons hparse hcounts, hsize, herror⟩

/-- The size at the place of the failure divides the others. -/
theorem FailsFirst.sizes_eq (h : FailsFirst sizes k counts size error) :
    sizes = sizes.take k ++ size :: sizes.drop (k + 1) := by
  rcases List.getElem?_eq_some_iff.1 h.size_eq with ⟨hk, hget⟩
  rw [← hget, List.cons_getElem_drop_succ, List.take_append_drop]

/-- The sizes that are read are those ahead of the failure and the one that fails. -/
theorem FailsFirst.take_succ (h : FailsFirst sizes k counts size error) :
    sizes.take (k + 1) = sizes.take k ++ [size] := by
  rw [List.take_add_one, h.size_eq, Option.toList_some]

/-! ## One size after the other -/

theorem runSizes_cons_of_hasCount (h : Size.HasCount size count) (fs : FileSystem)
    (sizes : List Text) :
    runSizes fs (size :: sizes) =
      { runSizes fs sizes with
        lines := Text.decimal count :: (runSizes fs sizes).lines
        records := Size.records size ++ (runSizes fs sizes).records } := by
  rw [Size.HasCount] at h
  rw [runSizes, h]

theorem runSizes_cons_of_error (h : Size.parse size = .error error) (fs : FileSystem)
    (sizes : List Text) :
    runSizes fs (size :: sizes) = ⟨[], Size.records size, some (.size size error), fs⟩ := by
  rw [runSizes, h]

/-- Sizes that are counted leave their lines and records in front of whatever comes next. -/
theorem runSizes_append (h : List.Forall₂ Size.HasCount before counts) (fs : FileSystem)
    (sizes : List Text) :
    runSizes fs (before ++ sizes) =
      { runSizes fs sizes with
        lines := counts.map Text.decimal ++ (runSizes fs sizes).lines
        records := before.flatMap Size.records ++ (runSizes fs sizes).records } := by
  induction h with
  | nil => rfl
  | cons hcount _ ih =>
    rw [List.cons_append, runSizes_cons_of_hasCount hcount, ih, List.map_cons, List.flatMap_cons,
      List.cons_append, List.append_assoc]

theorem runSizes_of_counted (h : List.Forall₂ Size.HasCount sizes counts) (fs : FileSystem) :
    runSizes fs sizes = ⟨counts.map Text.decimal, sizes.flatMap Size.records, none, fs⟩ := by
  have hrun := runSizes_append h fs []
  rwa [List.append_nil, runSizes, List.append_nil, List.append_nil] at hrun

/-- Nothing is left of the sizes behind the first that has no count. -/
theorem runSizes_of_failsFirst (h : FailsFirst sizes k counts size error) (fs : FileSystem) :
    runSizes fs sizes =
      ⟨counts.map Text.decimal, (sizes.take (k + 1)).flatMap Size.records,
        some (.size size error), fs⟩ := by
  have hrun := runSizes_append h.counted fs (size :: sizes.drop (k + 1))
  rw [← h.sizes_eq, runSizes_cons_of_error h.parse_eq, List.append_nil] at hrun
  rw [hrun, h.take_succ, List.flatMap_append, List.flatMap_singleton]

/-- A failure is the first among other sizes as well, as long as they agree up to it. -/
theorem FailsFirst.of_take_eq {sizes' : List Text} (h : FailsFirst sizes k counts size error)
    (htake : sizes'.take (k + 1) = sizes.take (k + 1)) : FailsFirst sizes' k counts size error where
  counted := by
    have hahead := congrArg (List.take k) htake
    rw [List.take_take, List.take_take, Nat.min_eq_left (Nat.le_succ k)] at hahead
    rw [hahead]
    exact h.counted
  size_eq := by
    rw [← List.getElem?_take_of_lt (Nat.lt_succ_self k), htake,
      List.getElem?_take_of_lt (Nat.lt_succ_self k)]
    exact h.size_eq
  parse_eq := h.parse_eq

/-! ## Lines that are given back -/

/-- Counts that were read are read once more from their numerals. -/
theorem hasCount_decimals (h : List.Forall₂ Size.HasCount sizes counts) :
    List.Forall₂ Size.HasCount (counts.map Text.decimal) counts := by
  induction h with
  | nil => exact .nil
  | cons hcount _ ih => exact .cons (Size.parse_decimal_of_parse hcount) ih

/-- Whatever sizes come to, the lines are the counts of some of them. -/
theorem exists_lines_runSizes (fs : FileSystem) (sizes : List Text) :
    ∃ counted counts, List.Forall₂ Size.HasCount counted counts ∧
      (runSizes fs sizes).lines = counts.map Text.decimal := by
  rcases exists_counts_or_failsFirst sizes with ⟨counts, h⟩ | ⟨k, counts, size, error, h⟩
  · exact ⟨sizes, counts, h, by rw [runSizes_of_counted h]⟩
  · exact ⟨sizes.take k, counts, h.counted, by rw [runSizes_of_failsFirst h]⟩

/-- A text without dashes is neither a flag nor the separator. -/
theorem ofText_of_not_mem {word : Text} (h : '-' ∉ word) : Word.ofText word = .plain := by
  unfold Word.ofText
  split
  · simp at h
  · simp at h
  · simp at h
  · rfl

theorem ofText_decimal (count : Nat) : Word.ofText (Text.decimal count) = .plain := by
  apply ofText_of_not_mem
  intro hmem
  exact absurd (Text.isDigit_of_mem_decimal hmem) (by decide)

/-! ## Runs that count sizes -/

/-- An outcome in which all sizes are counted. -/
structure Outcome.CountsAll (o : Outcome) (sizes : List Text) (counts : List Nat) : Prop where
  outputText_eq : o.outputText = Text.ofLines (counts.map Text.decimal)
  exitCode_eq : o.exitCode = 0
  records_eq : o.records = sizes.flatMap Size.records

/-- An outcome in which sizes are counted up to a place, and the size there fails. -/
structure Outcome.CountsUpTo (o : Outcome) (sizes : List Text) (k : Nat) (counts : List Nat)
    (size : Text) (error : Size.Error) : Prop where
  outputText_eq : o.outputText = Text.ofLines (counts.map Text.decimal)
  exitCode_eq : o.exitCode = 1
  chain_eq : o.failure.map Failure.chain =
    some [.message ("failed parsing `".toList ++ size ++ "`".toList), .message error.message]
  records_eq : o.records = (sizes.take (k + 1)).flatMap Size.records

theorem run_of_size (hsizes : options.command = .size sizes) (fs : FileSystem) :
    run fs options = runSizes fs sizes := by
  rw [run, hsizes]

theorem exists_decimal_of_mem_lines {line : Text} (hsizes : options.command = .size sizes)
    (hline : line ∈ (run fs options).lines) : ∃ count, line = Text.decimal count := by
  rcases exists_lines_runSizes fs sizes with ⟨counted, counts, -, hlines⟩
  rw [run_of_size hsizes, hlines] at hline
  rcases List.mem_map.1 hline with ⟨count, -, rfl⟩
  exact ⟨count, rfl⟩

/-- What a run prints is cut into its lines. -/
theorem lines_outputText_of_size (hsizes : options.command = .size sizes) (fs : FileSystem) :
    Text.lines (run fs options).outputText = (run fs options).lines := by
  apply Text.lines_ofLines
  intro line hline
  rcases exists_decimal_of_mem_lines hsizes hline with ⟨count, rfl⟩
  exact Text.newline_not_mem_decimal count

/-- The lines that a run prints are printed again when they are given back. -/
theorem lines_run_again {again : Options} (hsizes : options.command = .size sizes)
    (hagain : again.command = .size (run fs options).lines) (fs' : FileSystem) :
    (run fs' again).failure = none ∧ (run fs' again).lines = (run fs options).lines := by
  rcases exists_lines_runSizes fs sizes with ⟨counted, counts, hcounts, hlines⟩
  rw [run_of_size hsizes, hlines] at hagain ⊢
  rw [run_of_size hagain, runSizes_of_counted (hasCount_decimals hcounts)]
  exact ⟨rfl, rfl⟩

/-- Sizes are counted up to the first that has no count.  If all have one, the run prints the counts
in their order and succeeds; otherwise it prints those ahead of the failure, says which size failed
and why, and comes to the same whatever stands behind that size.  It logs what reading the sizes up
to there logs, and those who ask twice or more see all of it.  The lines that were printed can be
given as sizes as they are, and then the run succeeds and prints the same. -/
theorem counted_up_to_first_failure (fs : FileSystem) (hsizes : options.command = .size sizes) :
    ((∃ counts, List.Forall₂ Size.HasCount sizes counts) ∨
        ∃ k counts size error, FailsFirst sizes k counts size error) ∧
      (∀ counts, List.Forall₂ Size.HasCount sizes counts →
        (run fs options).CountsAll sizes counts) ∧
      (∀ k counts size error, FailsFirst sizes k counts size error →
        (run fs options).CountsUpTo sizes k counts size error ∧
          ∀ options' sizes', options'.command = .size sizes' →
            sizes'.take (k + 1) = sizes.take (k + 1) → run fs options' = run fs options) ∧
      (options.quiet = false → 2 ≤ options.verbosity →
        shownRecords options (run fs options) = (run fs options).records) ∧
      (∀ fs' again, again.command = .size (Text.lines (run fs options).outputText) →
        (run fs' again).exitCode = 0 ∧
          (run fs' again).outputText = (run fs options).outputText) ∧
      (Text.lines (run fs options).outputText ≠ [] →
        CommandLine.read ("size".toList :: Text.lines (run fs options).outputText) =
          .ok ⟨0, false, none, .size (Text.lines (run fs options).outputText)⟩) := by
  refine ⟨exists_counts_or_failsFirst sizes, ?_, ?_, ?_, ?_, ?_⟩
  · intro counts hcounts
    rw [run_of_size hsizes, runSizes_of_counted hcounts]
    exact ⟨rfl, rfl, rfl⟩
  · intro k counts size error hfails
    constructor
    · rw [run_of_size hsizes, runSizes_of_failsFirst hfails]
      exact ⟨rfl, rfl, rfl, rfl⟩
    · intro options' sizes' hsizes' htake
      rw [run_of_size hsizes, run_of_size hsizes', runSizes_of_failsFirst hfails,
        runSizes_of_failsFirst (hfails.of_take_eq htake), htake]
  · intro hquiet hverbosity
    exact shownRecords_of_loudest hverbosity hquiet _
  · intro fs' again hagain
    rw [lines_outputText_of_size hsizes] at hagain
    rcases lines_run_again hsizes hagain fs' with ⟨hnone, hsame⟩
    rw [Outcome.exitCode, hnone, Outcome.outputText, Outcome.outputText, hsame]
    exact ⟨rfl, rfl⟩
  · rw [lines_outputText_of_size hsizes]
    intro hne
    apply CommandLine.read_of_plain_sizes hne
    intro line hline
    rcases exists_decimal_of_mem_lines hsizes hline with ⟨count, rfl⟩
    exact ofText_decimal count

/-- The largest count is printed and read once more; a count that is larger by one ends the run. -/
theorem counted_up_to_first_failure_of_overflow :
    let fs := FileSystem.fresh
    let sizes : List Text :=
      ["1.44M", "18446744073709551615", "17179869184g", "64k"].map String.toList
    let printed : List Text := ["1509949", "18446744073709551615"].map String.toList
    ∃ options again, CommandLine.read ("size".toList :: "-vv".toList :: sizes) = .ok options ∧
      CommandLine.read ("size".toList :: printed) = .ok again ∧
      (run fs options).outputText = Text.ofLines printed ∧ (run fs options).exitCode = 1 ∧
      shownRecords options (run fs options) = (sizes.take 3).flatMap Size.records ∧
      (run fs again).exitCode = 0 ∧ (run fs again).outputText = Text.ofLines printed := by
  intro fs sizes printed
  let options : Options := ⟨2, false, none, .size sizes⟩
  have hfails : FailsFirst sizes 2 [1509949, 18446744073709551615] "17179869184g".toList
      (.overflow "17179869184g".toList) :=
    ⟨.cons (by decide +kernel) (.cons (by decide +kernel) .nil), rfl, by decide +kernel⟩
  rcases counted_up_to_first_failure fs (rfl : options.command = .size sizes) with
    ⟨-, -, hstops, hshown, hagain, hread⟩
  rcases hstops _ _ _ _ hfails with ⟨hupTo, -⟩
  have houtput : (run fs options).outputText = Text.ofLines printed := hupTo.outputText_eq
  have hlines : Text.lines (run fs options).outputText = printed := by
    rw [houtput]
    exact Text.lines_ofLines (by decide)
  rw [hlines] at hagain hread
  rcases hagain fs ⟨0, false, none, .size printed⟩ rfl with ⟨hcode, hsame⟩
  exact ⟨options, _, rfl, hread (by decide), houtput, hupTo.exitCode_eq,
    (hshown rfl (Nat.le_refl 2)).trans hupTo.records_eq, hcode, hsame.trans houtput⟩

end KernelTools
