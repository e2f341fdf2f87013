import KernelTools.Interrupt.Tables
import KernelTools.Proofs.FileSystem.Straying

/-!
# What checking finds

Checking reads two files, the source first, and judges each by what its reading comes to.  The
relation {lit}`Judged` has one rule for each verdict.  A file that is not there is one verdict among
others; any other trouble with reading is none, and ends the check.

Main results:

- Theorem {lit}`compare_eq_iff`: comparing one file comes to the verdict on it.
- Theorem {lit}`check_eq_ok_iff` and theorem {lit}`check_eq_error_iff`: a check comes to the verdicts on
  both files, or to the first trouble with reading.
-/

namespace KernelTools.Interrupt

variable {fs : FileSystem} {path sourcePath includePath : Text} {expected : Bytes}

/-- The verdict on the file at a path, which should hold certain contents; a file that cannot be read
although something is there gets none. -/
inductive Judged (fs : FileSystem) (path : Text) (expected : Bytes) :
    Except TablesError FileState → Prop
  | upToDate (hread : fs.read path = .ok expected) : Judged fs path expected (.ok .upToDate)
  | stale {contents : Bytes} (hread : fs.read path = .ok contents) (hne : contents ≠ expected) :
    Judged fs path expected (.ok .stale)
  | missing (hread : fs.read path = .error .notFound) : Judged fs path expected (.ok .missing)
  | unreadable {e : IoError} (hread : fs.read path = .error e) (hne : e ≠ .notFound) :
    Judged fs path expected (.error (.cannotRead path e))

theorem judged_compare (fs : FileSystem) (path : Text) (expected : Bytes) :
    Judged fs path expected (compare fs path expected) := by
  unfold compare
  split
  · next contents hread =>
    split_ifs with heq
    · exact .upToDate (heq ▸ hread)
    · exact .stale hread heq
  · next hread => exact .missing hread
  · next e hne hread => exact .unreadable hread hne

/-- Comparing a file comes to the verdict on it. -/
theorem compare_eq_iff {verdict : Except TablesError FileState} :
    compare fs path expected = verdict ↔ Judged fs path expected verdict := by
  constructor
  · rintro rfl
    exact judged_compare fs path expected
  · intro h
    cases h with
    | upToDate hread => simp [compare, hread]
    | stale hread hne => simp [compare, hread, hne]
    | missing hread => simp [compare, hread]
    | unreadable hread hne => simp [compare, hread]

/-- A check that ends comes to the verdicts on both files. -/
theorem check_eq_ok_iff {freshness : Freshness} :
    check fs sourcePath includePath = .ok freshness ↔
      Judged fs sourcePath Artifact.cSource.bytes (.ok freshness.source) ∧
        Judged fs includePath Artifact.asmInclude.bytes (.ok freshness.inclusion) := by
  rw [← compare_eq_iff, ← compare_eq_iff, check]
  cases compare fs sourcePath Artifact.cSource.bytes with
  | error e => simp
  | ok source =>
    cases compare fs includePath Artifact.asmInclude.bytes with
    | error e => simp
    | ok inclusion =>
      cases freshness
      simp

/-- A check fails at the source, or else at the include. -/
theorem check_eq_error_iff {e : TablesError} :
    check fs sourcePath includePath = .error e ↔
      Judged fs sourcePath Artifact.cSource.bytes (.error e) ∨
        (∃ state, Judged fs sourcePath Artifact.cSource.bytes (.ok state)) ∧
          Judged fs includePath Artifact.asmInclude.bytes (.error e) := by
  simp only [← compare_eq_iff]
  rw [check]
  cases compare fs sourcePath Artifact.cSource.bytes with
  | error e' => simp
  | ok source =>
    cases compare fs includePath Artifact.asmInclude.bytes with
    | error e' => simp
    | ok inclusion => simp

end KernelTools.Interrupt
