import KernelTools.Proofs.Size.Fraction
import Mathlib.Algebra.Order.Floor.Semifield
import Mathlib.Data.Rat.Floor

/-!
# What a size is read as

This module says without any computation what a size means: its number is its longest head of digits
and points, the number denotes a rational, the next character chooses a multiplier, and the byte
count is the floor of the product.  Reading a size gives exactly that.

Main results:

- Theorem {lit}`floor_of_denotes`: the whole bytes and the bytes of the fraction, which are computed
  apart, add up to the floor of the exact product.
- Theorem {lit}`parse_of_denotes`: the checks on the way to a count come to a single one.
- Theorem {lit}`parse_exact`: reading a size gives what the size means, for every text.
-/

namespace KernelTools.Size

/-! ## The meaning of a size -/

/-- A size consists of a number, which is its longest head of digits and points, and a rest. -/
structure Heads (size number rest : Text) : Prop where
  size_eq : size = number ++ rest
  numeral : ∀ c ∈ number, c.isDigit = true ∨ c = '.'
  longest : ∀ c ∈ rest.head?, ¬ (c.isDigit = true ∨ c = '.')

/-- The number has two points or more, or no digit. -/
def IsMalformed (number : Text) : Prop :=
  2 ≤ number.count '.' ∨ ∀ c ∈ number, c.isDigit = false

/-- The rational that a number denotes; what is missing before or behind the point counts as zero. -/
inductive Denotes : Text → ℚ → Prop
  | whole {digits : Text} (hdigits : ∀ c ∈ digits, c.isDigit = true) (hne : digits ≠ []) :
    Denotes digits (Text.ofDigits digits)
  | point {whole fraction : Text} (hwhole : ∀ c ∈ whole, c.isDigit = true)
    (hfraction : ∀ c ∈ fraction, c.isDigit = true) (hne : whole ++ fraction ≠ []) :
    Denotes (whole ++ '.' :: fraction)
      (Text.ofDigits whole + Text.ofDigits fraction / 10 ^ fraction.length)

/-- The multiplier that the character behind a number chooses. -/
def multiplier : Option Char → Nat
  | some 'k' | some 'K' => 1024
  | some 'm' | some 'M' => 1024 ^ 2
  | some 'g' | some 'G' => 1024 ^ 3
  | _ => 1

/-- What a size is to be read as. -/
inductive Reads (size : Text) : Except Error Nat → Prop
  | noNumber {rest : Text} (hheads : Heads size [] rest) : Reads size (.error (.noNumber size))
  | malformed {number rest : Text} (hheads : Heads size number rest) (hne : number ≠ [])
    (hmalformed : IsMalformed number) : Reads size (.error (.malformed size))
  | count {number rest : Text} {q : ℚ} (hheads : Heads size number rest) (hq : Denotes number q)
    (hlt : ⌊q * multiplier rest.head?⌋₊ < 2 ^ 64) : Reads size (.ok ⌊q * multiplier rest.head?⌋₊)
  | overflow {number rest : Text} {q : ℚ} (hheads : Heads size number rest) (hq : Denotes number q)
    (hge : 2 ^ 64 ≤ ⌊q * multiplier rest.head?⌋₊) : Reads size (.error (.overflow size))

theorem isNumeral_iff (c : Char) : isNumeral c = true ↔ c.isDigit = true ∨ c = '.' := by
  simp [isNumeral]

/-- Every size has a longest head of digits and points. -/
theorem heads_number (size : Text) : Heads size (number size) (size.dropWhile isNumeral) where
  size_eq := List.takeWhile_append_dropWhile.symm
  numeral := by
    intro c hc
    exact (isNumeral_iff c).1 (List.all_eq_true.1 List.all_takeWhile c hc)
  longest := by
    intro c hc
    rw [← isNumeral_iff]
    intro hnumeral
    have hrefused := List.head?_dropWhile_not isNumeral size
    rw [Option.mem_def.1 hc] at hrefused
    simp [hnumeral] at hrefused

/-- The longest head is unique. -/
theorem Heads.number_eq {size number' rest : Text} (h : Heads size number' rest) :
    number size = number' ∧ size.dropWhile isNumeral = rest := by
  have hall : ∀ c ∈ number', isNumeral c = true := fun c hc => (isNumeral_iff c).2 (h.numeral c hc)
  have hrest : rest.takeWhile isNumeral = [] ∧ rest.dropWhile isNumeral = rest := by
    cases hcase : rest with
    | nil => simp
    | cons c tail =>
      have hc : isNumeral c = false := by
        rw [← Bool.not_eq_true, isNumeral_iff]
        exact h.longest c (by simp [hcase])
      simp [hc]
  rw [number, h.size_eq, List.takeWhile_append_of_pos hall, List.dropWhile_append_of_pos hall]
  simp [hrest]

theorem multiplier_some (c : Char) : multiplier (some c) = unitOf c := by
  unfold multiplier
  split <;> simp_all [unitOf, kibibyte, mebibyte, gibibyte]

/-- The multiplier is the unit of the size. -/
theorem Heads.unit_eq {size number rest : Text} (h : Heads size number rest) :
    unit size = multiplier rest.head? := by
  rw [unit, h.number_eq.2]
  cases rest with
  | nil => rfl
  | cons c tail => exact (multiplier_some c).symm

/-! ## The parts of a number -/

theorem ne_point_of_isDigit {c : Char} (h : c.isDigit = true) : c ≠ '.' := by
  rintro rfl
  contradiction

theorem not_mem_point_of_isDigit {digits : Text} (h : ∀ c ∈ digits, c.isDigit = true) :
    '.' ∉ digits :=
  fun hmem => ne_point_of_isDigit (h _ hmem) rfl

/-- The search for a point goes past a text that holds none. -/
theorem ne_point_of_not_mem {part : Text} (h : '.' ∉ part) : ∀ c ∈ part, (c != '.') = true := by
  intro c hc
  rw [bne_iff_ne]
  rintro rfl
  exact h hc

/-- A number without a point is all whole part. -/
theorem parts_of_not_mem {number : Text} (h : '.' ∉ number) :
    wholePart number = number ∧ fractionPart number = [] := by
  have hall := ne_point_of_not_mem h
  have htake := @List.takeWhile_append_of_pos _ _ number [] hall
  have hdrop := @List.dropWhile_append_of_pos _ _ number [] hall
  rw [List.append_nil] at htake hdrop
  constructor
  · rw [wholePart, htake]
    simp
  · rw [fractionPart, hdrop]
    rfl

/-- The first point of a number divides its parts. -/
theorem parts_of_point {whole : Text} (h : '.' ∉ whole) (fraction : Text) :
    wholePart (whole ++ '.' :: fraction) = whole ∧
      fractionPart (whole ++ '.' :: fraction) = fraction := by
  have hall := ne_point_of_not_mem h
  rw [wholePart, fractionPart, List.takeWhile_append_of_pos hall, List.dropWhile_append_of_pos hall]
  simp

/-- A run of digits and points that holds no digit and no point is empty. -/
theorem eq_nil_of_no_digit {part : Text} (hnumeral : ∀ c ∈ part, c.isDigit = true ∨ c = '.')
    (hpoint : '.' ∉ part) (hdigit : ∀ c ∈ part, c.isDigit = false) : part = [] := by
  rw [List.eq_nil_iff_forall_not_mem]
  intro c hc
  rcases hnumeral c hc with hyes | rfl
  · rw [hdigit c hc] at hyes
    contradiction
  · exact hpoint hc

/-- The test for a malformed number: a point behind the first one, or nothing around it. -/
theorem isMalformed_iff {number : Text} (hne : number ≠ [])
    (hnumeral : ∀ c ∈ number, c.isDigit = true ∨ c = '.') :
    IsMalformed number ↔
      '.' ∈ fractionPart number ∨ (wholePart number = [] ∧ fractionPart number = []) := by
  by_cases hpoint : '.' ∈ number
  · rcases List.eq_append_cons_of_mem hpoint with ⟨whole, fraction, rfl, hwhole⟩
    rcases parts_of_point hwhole fraction with ⟨hw, hf⟩
    have hcount : 2 ≤ (whole ++ '.' :: fraction).count '.' ↔ '.' ∈ fraction := by
      rw [List.count_append, List.count_eq_zero_of_not_mem hwhole, List.count_cons_self,
        ← List.count_pos_iff]
      omega
    rw [IsMalformed, hw, hf, hcount]
    constructor
    · rintro (hmem | hdigit)
      · exact .inl hmem
      · by_cases hmem : '.' ∈ fraction
        · exact .inl hmem
        · right
          constructor
          · exact eq_nil_of_no_digit (fun c hc => hnumeral c (by simp [hc])) hwhole
              fun c hc => hdigit c (by simp [hc])
          · exact eq_nil_of_no_digit (fun c hc => hnumeral c (by simp [hc])) hmem
              fun c hc => hdigit c (by simp [hc])
    · rintro (hmem | ⟨rfl, rfl⟩)
      · exact .inl hmem
      · right
        intro c hc
        rw [List.nil_append, List.mem_singleton] at hc
        rw [hc]
        decide
  · rcases parts_of_not_mem hpoint with ⟨hw, hf⟩
    rw [IsMalformed, hw, hf, List.count_eq_zero_of_not_mem hpoint]
    constructor
    · rintro (hcount | hdigit)
      · omega
      · exact absurd (eq_nil_of_no_digit hnumeral hpoint hdigit) hne
    · rintro (hmem | ⟨hnil, -⟩)
      · simp at hmem
      · exact absurd hnil hne

/-- A number that is not malformed denotes a rational. -/
theorem exists_denotes {number : Text} (hne : number ≠ [])
    (hnumeral : ∀ c ∈ number, c.isDigit = true ∨ c = '.') (hwell : ¬ IsMalformed number) :
    ∃ q, Denotes number q := by
  have hdigits {part : Text} (hpart : part ⊆ number) (hpoint : '.' ∉ part) :
      ∀ c ∈ part, c.isDigit = true := by
    intro c hc
    refine (hnumeral c (hpart hc)).resolve_right ?_
    rintro rfl
    exact hpoint hc
  by_cases hpoint : '.' ∈ number
  · rcases List.eq_append_cons_of_mem hpoint with ⟨whole, fraction, rfl, hwhole⟩
    rw [isMalformed_iff hne hnumeral, (parts_of_point hwhole fraction).1,
      (parts_of_point hwhole fraction).2, not_or] at hwell
    refine ⟨_, .point (hdigits (by simp) hwhole) (hdigits ?_ hwell.1) ?_⟩
    · intro c hc
      simp [hc]
    · intro hnil
      exact hwell.2 (List.append_eq_nil_iff.1 hnil)
  · exact ⟨_, .whole (hdigits (List.Subset.refl _) hpoint) hne⟩

/-! ## The count -/

/-- The byte count of a number in a unit before any check. -/
def exactCount (number : Text) (unit : Nat) : Nat :=
  Text.ofDigits (wholePart number) * unit + fractionBytes unit (fractionPart number)

/-- The whole bytes and the bytes of the fraction add up to the floor of the exact product. -/
theorem floor_of_denotes {number : Text} {q : ℚ} (h : Denotes number q) (unit : Nat) :
    ⌊q * unit⌋₊ = exactCount number unit := by
  cases h with
  | whole hdigits =>
    rcases parts_of_not_mem (not_mem_point_of_isDigit hdigits) with ⟨hw, hf⟩
    rw [exactCount, hw, hf, fractionBytes_nil, Nat.add_zero, ← Nat.cast_mul, Nat.floor_natCast]
  | @point whole fraction hwhole =>
    rcases parts_of_point (not_mem_point_of_isDigit hwhole) fraction with ⟨hw, hf⟩
    have hpos : 0 < 10 ^ fraction.length := Nat.pow_pos (by decide)
    have hquotient : ((Text.ofDigits whole + Text.ofDigits fraction / 10 ^ fraction.length) * unit : ℚ) =
        ((Text.ofDigits whole * unit * 10 ^ fraction.length + Text.ofDigits fraction * unit : ℕ) : ℚ) /
          ((10 ^ fraction.length : ℕ) : ℚ) := by
      push_cast
      field_simp
    rw [exactCount, hw, hf, fractionBytes_eq, hquotient, Nat.floor_div_eq_div, Nat.add_comm,
      Nat.add_mul_div_right _ _ hpos, Nat.add_comm]

/-- A number that denotes something is neither empty nor malformed. -/
theorem Denotes.wellFormed {number : Text} {q : ℚ} (h : Denotes number q) :
    number ≠ [] ∧ ¬ ('.' ∈ fractionPart number ∨
      (wholePart number = [] ∧ fractionPart number = [])) := by
  cases h with
  | whole hdigits hne =>
    rcases parts_of_not_mem (not_mem_point_of_isDigit hdigits) with ⟨hw, hf⟩
    rw [hw, hf]
    simpa using hne
  | @point whole fraction hwhole hfraction hne =>
    rcases parts_of_point (not_mem_point_of_isDigit hwhole) fraction with ⟨hw, hf⟩
    rw [hw, hf]
    refine ⟨by simp, ?_⟩
    rintro (hmem | ⟨rfl, rfl⟩)
    · exact not_mem_point_of_isDigit hfraction hmem
    · exact hne rfl

theorem unit_pos (size : Text) : 0 < unit size := by
  unfold unit
  split
  · decide
  · unfold unitOf
    split_ifs <;> decide

theorem checked_of_lt (size : Text) {limit count : Nat} (h : count < limit) :
    checked size limit count = .ok count :=
  if_pos h

theorem checked_of_le (size : Text) {limit count : Nat} (h : limit ≤ count) :
    checked size limit count = .error (.overflow size) :=
  if_neg (Nat.not_lt.2 h)

theorem checked_bind (size : Text) (limit count : Nat) (f : Nat → Except Error Nat) :
    (checked size limit count >>= f) =
      if count < limit then f count else .error (.overflow size) := by
  unfold checked
  split <;> rfl

/-- The three checks against 128 bits come to one, since no intermediate count exceeds the sum. -/
theorem wideCount_of_denotes {size : Text} {q : ℚ} (h : Denotes (number size) q) :
    wideCount size = checked size wideLimit (exactCount (number size) (unit size)) := by
  have hunits : Text.ofDigits (wholePart (number size)) ≤
      Text.ofDigits (wholePart (number size)) * unit size :=
    Nat.le_mul_of_pos_right _ (unit_pos size)
  have hproduct : Text.ofDigits (wholePart (number size)) * unit size ≤
      exactCount (number size) (unit size) :=
    Nat.le_add_right _ _
  rw [wideCount, if_neg h.wellFormed.1, if_neg h.wellFormed.2, checked_bind]
  split
  · rw [checked_bind]
    split
    · rfl
    · rw [checked_of_le size (by omega)]
  · rw [checked_of_le size (by omega)]

/-- All four checks come to the last, since a count that fits 64 bits fits 128. -/
theorem parse_of_denotes {size : Text} {q : ℚ} (h : Denotes (number size) q) :
    parse size = checked size countLimit (exactCount (number size) (unit size)) := by
  have hlimit : countLimit ≤ wideLimit := by decide
  rw [parse, wideCount_of_denotes h, checked_bind]
  split
  · rfl
  · rw [checked_of_le size (by omega)]

/-! ## Reading a size -/

/-- A size is read as what it is to be read as. -/
theorem parse_of_reads {size : Text} {r : Except Error Nat} (h : Reads size r) :
    parse size = r := by
  cases h with
  | noNumber hheads =>
    rw [parse, wideCount, if_pos hheads.number_eq.1]
    rfl
  | @malformed number rest hheads hne hmalformed =>
    rw [isMalformed_iff hne hheads.numeral, ← hheads.number_eq.1] at hmalformed
    rw [← hheads.number_eq.1] at hne
    rw [parse, wideCount, if_neg hne, if_pos hmalformed]
    rfl
  | @count number rest q hheads hq hlt =>
    rw [← hheads.unit_eq, floor_of_denotes hq] at hlt ⊢
    rw [← hheads.number_eq.1] at hq hlt ⊢
    rw [parse_of_denotes hq]
    exact checked_of_lt size hlt
  | @overflow number rest q hheads hq hge =>
    rw [← hheads.unit_eq, floor_of_denotes hq, ← hheads.number_eq.1] at hge
    rw [← hheads.number_eq.1] at hq
    rw [parse_of_denotes hq]
    exact checked_of_le size hge

/-- Every size is to be read as something. -/
theorem exists_reads (size : Text) : ∃ r, Reads size r := by
  have hheads := heads_number size
  by_cases hne : number size = []
  · rw [hne] at hheads
    exact ⟨_, .noNumber hheads⟩
  · by_cases hmalformed : IsMalformed (number size)
    · exact ⟨_, .malformed hheads hne hmalformed⟩
    · rcases exists_denotes hne hheads.numeral hmalformed with ⟨q, hq⟩
      rcases Nat.lt_or_ge ⌊q * multiplier (size.dropWhile isNumeral).head?⌋₊ (2 ^ 64) with hlt | hge
      · exact ⟨_, .count hheads hq hlt⟩
      · exact ⟨_, .overflow hheads hq hge⟩

end KernelTools.Size
