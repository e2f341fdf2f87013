import KernelTools.Proofs.Size.Reading

/-!
# The carry of a fraction

The bytes of a fraction are folded from its last digit, and each step hands a carry to the next.  A
carry stays below the unit, so that a step never computes with ten units or more.  That is little
enough for the words of a machine: the same fold over octets, with digits in 8 bits and everything
else in 128, loses nothing in any of its operations.

Main results:

- Theorem {lit}`fractionBytes_lt`: every carry stays below the unit.
- Theorem {lit}`toNat_wordFraction`: the fold over machine words comes to the exact one.
- Theorem {lit}`fraction_fold_exact`: what the fold computes, on the way and in the end, and that
  reading a size folds nothing but digits.
-/

namespace KernelTools.Size

section

variable {unit carry : Nat} {digits : Text} {d : Char}

/-! ## Carries -/

theorem digitValue_lt_ten (hd : d.isDigit = true) : Text.digitValue d < 10 := by
  have hrange := Char.isDigit_iff_toNat.1 hd
  simp only [Text.digitValue, Char.reduceToNat] at hrange ⊢
  omega

/-- A digit of a unit and a carry below the unit make up less than ten units. -/
theorem digit_mul_add_carry_lt (hd : d.isDigit = true) (hcarry : carry < unit) :
    Text.digitValue d * unit + carry < 10 * unit := by
  have hvalue := digitValue_lt_ten hd
  have hdigit : Text.digitValue d * unit ≤ 9 * unit := Nat.mul_le_mul_right unit (by omega)
  omega

/-- Every carry stays below the unit. -/
theorem fractionBytes_lt (hunit : 0 < unit) (hdigits : ∀ c ∈ digits, c.isDigit = true) :
    fractionBytes unit digits < unit := by
  induction digits with
  | nil => exact hunit
  | cons d digits ih =>
    have hcarry := ih fun c hc => hdigits c (List.mem_cons_of_mem d hc)
    rw [fractionBytes_cons]
    apply Nat.div_lt_of_lt_mul
    exact digit_mul_add_carry_lt (hdigits d List.mem_cons_self) hcarry

/-- A fraction in units, rounded down, is what its digits are folded to. -/
theorem fractionBytes_eq_floor (unit : Nat) (digits : Text) :
    fractionBytes unit digits = ⌊(Text.ofDigits digits / 10 ^ digits.length * unit : ℚ)⌋₊ := by
  have hquotient : (Text.ofDigits digits / 10 ^ digits.length * unit : ℚ) =
      ((Text.ofDigits digits * unit : ℕ) : ℚ) / ((10 ^ digits.length : ℕ) : ℚ) := by
    push_cast
    ring
  rw [fractionBytes_eq, hquotient, Nat.floor_div_eq_div]

/-! ## Machine words -/

/-- The value of an octet that writes a digit: the difference to zero is taken in 8 bits and then
widened. -/
def wordDigit (octet : UInt8) : BitVec 128 :=
  (octet.toBitVec - 48#8).setWidth 128

/-- The bytes of a fraction as machine words compute them, where every operation wraps around. -/
def wordFraction (unit : BitVec 128) (octets : Bytes) : BitVec 128 :=
  octets.foldr (fun octet carry => (wordDigit octet * unit + carry) / 10#128) 0#128

/-- No operation of a step leaves its word. -/
structure StepFits (unit carry : BitVec 128) (octet : UInt8) : Prop where
  digit : octet.toBitVec.usubOverflow 48#8 = false
  product : (wordDigit octet).umulOverflow unit = false
  sum : (wordDigit octet * unit).uaddOverflow carry = false

theorem wordFraction_cons (unit : BitVec 128) (octet : UInt8) (octets : Bytes) :
    wordFraction unit (octet :: octets) =
      (wordDigit octet * unit + wordFraction unit octets) / 10#128 :=
  rfl

/-- A digit is written in one octet. -/
theorem utf8_cons_of_isDigit (hd : d.isDigit = true) (t : Text) :
    Text.utf8 (d :: t) = d.toUInt8 :: Text.utf8 t := by
  have hsize : d.utf8Size = 1 := by
    have hrange := Char.isDigit_iff_toNat.1 hd
    have hval : d.val.toNat = d.toNat := rfl
    rw [Char.utf8Size_eq_one_iff, UInt32.le_iff_toNat_le]
    simp only [Char.reduceToNat, UInt32.reduceToNat] at hrange ⊢
    omega
  rw [Text.utf8, List.flatMap_cons, String.utf8EncodeChar_eq_singleton hsize]
  rfl

/-- A run of digits is written in as many octets. -/
theorem utf8_eq_map (hdigits : ∀ c ∈ digits, c.isDigit = true) :
    Text.utf8 digits = digits.map Char.toUInt8 := by
  induction digits with
  | nil => rfl
  | cons d digits ih =>
    rw [utf8_cons_of_isDigit (hdigits d List.mem_cons_self), List.map_cons,
      ih fun c hc => hdigits c (List.mem_cons_of_mem d hc)]

theorem toNat_toUInt8_of_isDigit (hd : d.isDigit = true) : d.toUInt8.toNat = d.toNat := by
  have hrange := Char.isDigit_iff_toNat.1 hd
  have hmod : d.toUInt8.toNat = d.toNat % 256 := rfl
  simp only [Char.reduceToNat] at hrange
  omega

theorem octet_range (hd : d.isDigit = true) : 48 ≤ d.toUInt8 ∧ d.toUInt8 ≤ 57 := by
  have hrange := Char.isDigit_iff_toNat.1 hd
  rw [UInt8.le_iff_toNat_le, UInt8.le_iff_toNat_le, toNat_toUInt8_of_isDigit hd]
  exact hrange

/-- The octet of a digit is no less than that of zero, so the difference is the value of the digit. -/
theorem toNat_wordDigit (hd : d.isDigit = true) :
    (wordDigit d.toUInt8).toNat = Text.digitValue d := by
  have hrange := Char.isDigit_iff_toNat.1 hd
  have hoctet : d.toUInt8.toBitVec.toNat = d.toNat := toNat_toUInt8_of_isDigit hd
  simp only [Char.reduceToNat] at hrange
  simp only [wordDigit, Text.digitValue, Char.reduceToNat, BitVec.toNat_setWidth, BitVec.toNat_sub,
    BitVec.toNat_ofNat, hoctet]
  omega

section

variable (hle : unit ≤ 2 ^ 30)

include hle

theorem toNat_ofNat_unit : (BitVec.ofNat 128 unit).toNat = unit := by
  rw [BitVec.toNat_ofNat]
  omega

/-- A digit in units is below ten units, and so it is the product of its word with the unit. -/
theorem toNat_wordDigit_mul (hd : d.isDigit = true) :
    (wordDigit d.toUInt8 * BitVec.ofNat 128 unit).toNat = Text.digitValue d * unit := by
  have hvalue := digitValue_lt_ten hd
  have hproduct : Text.digitValue d * unit ≤ 9 * unit := Nat.mul_le_mul_right unit (by omega)
  rw [BitVec.toNat_mul, toNat_wordDigit hd, toNat_ofNat_unit hle]
  omega

/-- The fold over machine words comes to the exact one. -/
theorem toNat_wordFraction (hunit : 0 < unit) (hdigits : ∀ c ∈ digits, c.isDigit = true) :
    (wordFraction (BitVec.ofNat 128 unit) (Text.utf8 digits)).toNat = fractionBytes unit digits := by
  induction digits with
  | nil => rfl
  | cons d digits ih =>
    have hd := hdigits d List.mem_cons_self
    have hrest : ∀ c ∈ digits, c.isDigit = true := fun c hc => hdigits c (List.mem_cons_of_mem d hc)
    have hsum := digit_mul_add_carry_lt hd (fractionBytes_lt hunit hrest)
    rw [utf8_cons_of_isDigit hd, wordFraction_cons, fractionBytes_cons, BitVec.toNat_udiv,
      BitVec.toNat_add, toNat_wordDigit_mul hle hd, ih hrest, Nat.mod_eq_of_lt (by omega)]
    rfl

/-- A step that is handed an exact carry stays within its words. -/
theorem stepFits {word : BitVec 128} (hd : d.isDigit = true) (hword : word.toNat < unit) :
    StepFits (BitVec.ofNat 128 unit) word d.toUInt8 := by
  have hrange := Char.isDigit_iff_toNat.1 hd
  have hoctet : d.toUInt8.toBitVec.toNat = d.toNat := toNat_toUInt8_of_isDigit hd
  have hsum := digit_mul_add_carry_lt hd hword
  have hproduct := toNat_wordDigit_mul hle hd
  simp only [Char.reduceToNat] at hrange
  constructor
  · rw [BitVec.usubOverflow, hoctet, decide_eq_false_iff_not, BitVec.toNat_ofNat]
    omega
  · rw [BitVec.umulOverflow, toNat_wordDigit hd, toNat_ofNat_unit hle, decide_eq_false_iff_not]
    omega
  · rw [BitVec.uaddOverflow, hproduct, decide_eq_false_iff_not]
    omega

end

/-! ## The fold as a whole -/

/-- What the fold of a run of digits computes: in the end the fraction in units, rounded down; on the
way carries below the unit and sums below ten units, without any loss in words of a machine. -/
structure FoldsWithin (unit : Nat) (digits : Text) : Prop where
  eq_floor : fractionBytes unit digits = ⌊(Text.ofDigits digits / 10 ^ digits.length * unit : ℚ)⌋₊
  carry_lt : ∀ behind, behind <:+ digits → fractionBytes unit behind < unit
  step_lt : ∀ d behind, d :: behind <:+ digits →
    Text.digitValue d * unit + fractionBytes unit behind < 10 * unit
  word_eq : ∀ behind, behind <:+ digits →
    (wordFraction (BitVec.ofNat 128 unit) (Text.utf8 behind)).toNat = fractionBytes unit behind
  step_fits : ∀ octet behind, octet :: behind <:+ Text.utf8 digits →
    StepFits (BitVec.ofNat 128 unit) (wordFraction (BitVec.ofNat 128 unit) behind) octet

/-- An octet of a run of digits is a digit of it, and the octets behind it are those of the digits
behind. -/
theorem exists_suffix_of_utf8_suffix {octet : UInt8} {octets : Bytes}
    (hdigits : ∀ c ∈ digits, c.isDigit = true) (h : octet :: octets <:+ Text.utf8 digits) :
    ∃ d behind, d :: behind <:+ digits ∧ d.toUInt8 = octet ∧ Text.utf8 behind = octets := by
  rw [utf8_eq_map hdigits, List.suffix_map_iff] at h
  rcases h with ⟨_ | ⟨d, behind⟩, hsuffix, heq⟩
  · cases heq
  · rw [List.map_cons, List.cons.injEq] at heq
    have hbehind : ∀ c ∈ behind, c.isDigit = true :=
      fun c hc => hdigits c (hsuffix.subset (List.mem_cons_of_mem d hc))
    exact ⟨d, behind, hsuffix, heq.1.symm, by rw [utf8_eq_map hbehind, heq.2]⟩

theorem foldsWithin (hunit : 1 ≤ unit) (hle : unit ≤ 2 ^ 30)
    (hdigits : ∀ c ∈ digits, c.isDigit = true) : FoldsWithin unit digits := by
  have hbehind : ∀ behind, behind <:+ digits → ∀ c ∈ behind, c.isDigit = true :=
    fun behind hsuffix c hc => hdigits c (hsuffix.subset hc)
  constructor
  · exact fractionBytes_eq_floor unit digits
  · intro behind hsuffix
    exact fractionBytes_lt hunit (hbehind behind hsuffix)
  · intro d behind hsuffix
    apply digit_mul_add_carry_lt
    · exact hbehind _ hsuffix d List.mem_cons_self
    · exact fractionBytes_lt hunit (hbehind behind ((List.suffix_cons d behind).trans hsuffix))
  · intro behind hsuffix
    exact toNat_wordFraction hle hunit (hbehind behind hsuffix)
  · intro octet octets hsuffix
    rcases exists_suffix_of_utf8_suffix hdigits hsuffix with ⟨d, behind, hd, rfl, rfl⟩
    have hrest := hbehind behind ((List.suffix_cons d behind).trans hd)
    apply stepFits hle (hbehind _ hd d List.mem_cons_self)
    rw [toNat_wordFraction hle hunit hrest]
    exact fractionBytes_lt hunit hrest

end

/-! ## Fractions of sizes -/

/-- No unit is larger than a gibibyte. -/
theorem unit_le (size : Text) : unit size ≤ 2 ^ 30 := by
  unfold unit
  split
  · decide
  · unfold unitOf
    split_ifs <;> decide

theorem Denotes.isDigit_fractionPart {number : Text} {q : ℚ} (h : Denotes number q) :
    ∀ c ∈ fractionPart number, c.isDigit = true := by
  cases h with
  | whole hdigits =>
    rw [(parts_of_not_mem (not_mem_point_of_isDigit hdigits)).2]
    simp
  | point hwhole hfraction =>
    rwa [(parts_of_point (not_mem_point_of_isDigit hwhole) _).2]

/-- The fraction of a size holds nothing but digits, unless the size is refused for its number. -/
theorem isDigit_fractionPart {size : Text} (hnumber : parse size ≠ .error (.noNumber size))
    (hwell : parse size ≠ .error (.malformed size)) :
    ∀ c ∈ fractionPart (number size), c.isDigit = true := by
  rcases exists_reads size with ⟨r, hr⟩
  have hparse := parse_of_reads hr
  cases hr with
  | noNumber => exact absurd hparse hnumber
  | malformed => exact absurd hparse hwell
  | count hheads hq =>
    rw [hheads.number_eq.1]
    exact hq.isDigit_fractionPart
  | overflow hheads hq =>
    rw [hheads.number_eq.1]
    exact hq.isDigit_fractionPart

/-- Digits in any unit up to a gibibyte are folded exactly and without loss.  Reading a size folds
its fraction only when the size is not refused for its number, and then every octet of the fraction
is a digit. -/
theorem fraction_fold_exact :
    (∀ (unit : Nat) (digits : Text), 1 ≤ unit → unit ≤ 2 ^ 30 →
      (∀ c ∈ digits, c.isDigit = true) → FoldsWithin unit digits) ∧
    ∀ size : Text, parse size ≠ .error (.noNumber size) → parse size ≠ .error (.malformed size) →
      (∀ octet ∈ Text.utf8 (fractionPart (number size)), 48 ≤ octet ∧ octet ≤ 57) ∧
        FoldsWithin (unit size) (fractionPart (number size)) := by
  constructor
  · intro unit digits hunit hle hdigits
    exact foldsWithin hunit hle hdigits
  · intro size hnumber hwell
    have hdigits := isDigit_fractionPart hnumber hwell
    refine ⟨?_, foldsWithin (unit_pos size) (unit_le size) hdigits⟩
    rw [utf8_eq_map hdigits]
    intro octet hoctet
    rcases List.mem_map.1 hoctet with ⟨c, hc, rfl⟩
    exact octet_range (hdigits c hc)

/-- Nines stay below one, however many there are, also when they are folded in the largest unit. -/
theorem fraction_fold_exact_of_nines :
    let nines := "9999999999999999999999999999".toList
    let size := "0.9999999999999999999999999999k".toList
    FoldsWithin (2 ^ 30) nines ∧ parse size = .ok 1023 ∧
      (∀ octet ∈ Text.utf8 (fractionPart (number size)), 48 ≤ octet ∧ octet ≤ 57) ∧
      FoldsWithin (unit size) (fractionPart (number size)) := by
  intro nines size
  have hparse : parse size = .ok 1023 := by decide
  have hnines : ∀ c ∈ nines, c.isDigit = true := List.all_eq_true.1 rfl
  have hnumber : parse size ≠ .error (.noNumber size) := by simp [hparse]
  have hwell : parse size ≠ .error (.malformed size) := by simp [hparse]
  rcases fraction_fold_exact with ⟨hfold, hsize⟩
  exact ⟨hfold _ _ (by decide) (by decide) hnines, hparse, hsize size hnumber hwell⟩

end KernelTools.Size
