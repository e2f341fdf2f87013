import KernelTools.Size
import Mathlib.Tactic.Ring

/-!
# Digits and the fold of a fraction

A run of decimal digits is a number by Horner's rule, and the bytes of a fraction are folded from its
last digit with a division at each step.

Main results:

- Theorem {lit}`Text.ofDigits_cons`: the first digit of a run counts for a power of ten.
- Theorem {lit}`Size.fractionBytes_eq`: the divisions of the fold add up to a single one, so that the
  fold loses nothing before the end.
-/

namespace KernelTools

/-! ## Runs of digits -/

namespace Text

/-- Digits read behind a number shift it to the left. -/
theorem foldl_digits (n : Nat) (digits : Text) :
    digits.foldl (fun n d => n * 10 + digitValue d) n = n * 10 ^ digits.length + ofDigits digits := by
  induction digits generalizing n with
  | nil => simp [ofDigits]
  | cons d digits ih =>
    rw [ofDigits, List.foldl_cons, List.foldl_cons, ih, ih (0 * 10 + digitValue d),
      List.length_cons, Nat.pow_succ]
    ring

@[simp]
theorem ofDigits_nil : ofDigits [] = 0 :=
  rfl

/-- The first digit of a run counts for a power of ten. -/
theorem ofDigits_cons (d : Char) (digits : Text) :
    ofDigits (d :: digits) = digitValue d * 10 ^ digits.length + ofDigits digits := by
  rw [ofDigits, List.foldl_cons, foldl_digits, Nat.zero_mul, Nat.zero_add]

end Text

/-! ## The bytes of a fraction -/

namespace Size

@[simp]
theorem fractionBytes_nil (unit : Nat) : fractionBytes unit [] = 0 :=
  rfl

theorem fractionBytes_cons (unit : Nat) (d : Char) (digits : Text) :
    fractionBytes unit (d :: digits) =
      (Text.digitValue d * unit + fractionBytes unit digits) / 10 :=
  rfl

/-- The divisions of the fold add up to a single one by the power of ten that the digits take. -/
theorem fractionBytes_eq (unit : Nat) (digits : Text) :
    fractionBytes unit digits = Text.ofDigits digits * unit / 10 ^ digits.length := by
  induction digits with
  | nil => simp
  | cons d digits ih =>
    have hpos : 0 < 10 ^ digits.length := Nat.pow_pos (by decide)
    have hshift : Text.digitValue d * unit + Text.ofDigits digits * unit / 10 ^ digits.length =
        Text.ofDigits (d :: digits) * unit / 10 ^ digits.length := by
      rw [Text.ofDigits_cons, Nat.add_comm, ← Nat.add_mul_div_right _ _ hpos]
      congr 1
      ring
    rw [fractionBytes_cons, ih, hshift, Nat.div_div_eq_div_mul, List.length_cons, Nat.pow_succ]

end Size

end KernelTools
