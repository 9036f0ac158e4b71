import Mathlib.Data.String.Basic
import Mathlib.Tactic.Ring

/-!
# Decimal numerals of a fixed width

Numerals of one width compare as texts like the numbers that they write (`digitsOf_lt_iff`), also
with texts behind them (`digitsOf_append_lt_iff`). A number prints as the numeral of its own width
(`toDigits_eq_digitsOf`).
-/

namespace Bridgeport.Foundation

open List

/-- The last digits of a number, in the given width. -/
def digitsOf : ℕ → ℕ → List Char
  | 0, _ => []
  | width + 1, n => digitsOf width (n / 10) ++ [Nat.digitChar (n % 10)]

@[simp] theorem length_digitsOf (width n : ℕ) : (digitsOf width n).length = width := by
  induction width generalizing n with
  | zero => rfl
  | succ width ih => simp [digitsOf, ih]

variable {width n : ℕ}

theorem toDigits_eq_digitsOf (hlow : 10 ^ width ≤ n) (hhigh : n < 10 ^ (width + 1)) :
    Nat.toDigits 10 n = digitsOf (width + 1) n := by
  induction width generalizing n with
  | zero =>
    rw [Nat.toDigits_of_lt_base (by omega), digitsOf, digitsOf, Nat.mod_eq_of_lt (by omega)]
    rfl
  | succ width ih =>
    have hpow : (10 : ℕ) ^ (width + 1) = 10 * 10 ^ width := by ring
    have hpow' : (10 : ℕ) ^ (width + 1 + 1) = 10 * 10 ^ (width + 1) := by ring
    have hten : 10 ≤ n := by
      have hpositive : 0 < 10 ^ width := Nat.pow_pos (by omega)
      omega
    rw [Nat.toDigits_of_base_le (by omega) hten, ih (by omega) (by omega)]
    rfl

/-! ### Comparison -/

section

variable {α : Type*} [LinearOrder α]

/-- Texts that begin with pieces of one length. -/
theorem append_lt_append_iff {first second : List α} (hlength : first.length = second.length)
    (left right : List α) :
    first ++ left < second ++ right ↔ first < second ∨ first = second ∧ left < right := by
  induction first generalizing second with
  | nil =>
    obtain rfl := eq_nil_of_length_eq_zero hlength.symm
    simp
  | cons head first ih =>
    cases second with
    | nil => exact absurd hlength (by simp)
    | cons other second =>
      have hrest : first.length = second.length := by simpa using hlength
      rw [cons_append, cons_append, cons_lt_cons_iff, cons_lt_cons_iff, ih hrest, List.cons.injEq]
      tauto

end

variable {m : ℕ}

theorem digitChar_lt_iff (hm : m < 10) (hn : n < 10) :
    Nat.digitChar m < Nat.digitChar n ↔ m < n := by
  rw [Char.lt_def, UInt32.lt_iff_toNat_lt]
  show (Nat.digitChar m).toNat < (Nat.digitChar n).toNat ↔ m < n
  rw [Nat.toNat_digitChar_of_lt_ten hm, Nat.toNat_digitChar_of_lt_ten hn]
  omega

section

variable (hm : m < 10 ^ width) (hn : n < 10 ^ width)
include hm hn

theorem digitsOf_lt_iff : digitsOf width m < digitsOf width n ↔ m < n := by
  induction width generalizing m n with
  | zero =>
    have hsame : m = n := by omega
    simp [hsame]
  | succ width ih =>
    have hpow : (10 : ℕ) ^ (width + 1) = 10 * 10 ^ width := by ring
    have hlt : ∀ {a b : ℕ}, a < 10 ^ width → b < 10 ^ width →
        (digitsOf width a = digitsOf width b ↔ a = b) := by
      intro a b ha hb
      refine ⟨fun hdigits ↦ ?_, fun hsame ↦ hsame ▸ rfl⟩
      rcases Nat.lt_trichotomy a b with hless | hsame | hgreater
      · exact absurd hdigits (ne_of_lt ((ih ha hb).mpr hless))
      · exact hsame
      · exact absurd hdigits (ne_of_gt ((ih hb ha).mpr hgreater))
    have hmten : m / 10 < 10 ^ width := by omega
    have hnten : n / 10 < 10 ^ width := by omega
    rw [digitsOf, digitsOf, append_lt_append_iff (by simp), ih hmten hnten, hlt hmten hnten,
      cons_lt_cons_iff, digitChar_lt_iff (by omega) (by omega)]
    simp only [not_lt_nil, and_false, or_false]
    omega

theorem digitsOf_inj : digitsOf width m = digitsOf width n ↔ m = n := by
  refine ⟨fun hdigits ↦ ?_, fun hsame ↦ hsame ▸ rfl⟩
  rcases Nat.lt_trichotomy m n with hless | hsame | hgreater
  · exact absurd hdigits (ne_of_lt ((digitsOf_lt_iff hm hn).mpr hless))
  · exact hsame
  · exact absurd hdigits (ne_of_gt ((digitsOf_lt_iff hn hm).mpr hgreater))

/-- Numerals with texts behind them. -/
theorem digitsOf_append_lt_iff (left right : List Char) :
    digitsOf width m ++ left < digitsOf width n ++ right ↔ m < n ∨ m = n ∧ left < right := by
  rw [append_lt_append_iff (by simp), digitsOf_lt_iff hm hn, digitsOf_inj hm hn]

end

end Bridgeport.Foundation
