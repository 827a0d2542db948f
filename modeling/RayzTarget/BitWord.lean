import Mathlib.Algebra.BigOperators.Group.List.Basic
import Mathlib.Algebra.BigOperators.Intervals
import Mathlib.Algebra.BigOperators.Ring.Finset
import Mathlib.Data.Nat.ModEq
import Mathlib.Tactic.Ring

/-! Numbers read most significant bit first, and the fixed-width register that
shifts them in. Bits beyond the register's width fall off its top. -/
namespace BitWord

def msbValue (bs : List Bool) : ℕ := bs.foldl (fun acc b => 2 * acc + b.toNat) 0

@[simp] theorem msbValue_nil : msbValue [] = 0 := rfl

theorem msbValue_snoc (bs : List Bool) (b : Bool) :
    msbValue (bs ++ [b]) = 2 * msbValue bs + b.toNat := by
  simp [msbValue]

/-- Bit `i` from the front weighs `2 ^ (length - 1 - i)`. -/
theorem msbValue_ofFn {n : ℕ} (f : ℕ → Bool) :
    msbValue ((List.range n).map f) =
      ∑ i ∈ Finset.range n, if f i then 2 ^ (n - 1 - i) else 0 := by
  induction n with
  | zero => simp
  | succ n ih =>
    rw [List.range_succ, List.map_append, List.map_singleton, msbValue_snoc, ih,
      Finset.sum_range_succ, Finset.mul_sum]
    congr 1
    · refine Finset.sum_congr rfl fun i hi => ?_
      have hlt := Finset.mem_range.mp hi
      rw [show n + 1 - 1 - i = n - 1 - i + 1 by omega, pow_succ]
      split <;> ring
    · cases f n <;> simp

/-- `r <<= 1; if (b) r |= 1;` on a 16-bit register -/
def shiftIn (r : UInt16) (b : Bool) : UInt16 :=
  let r := r <<< 1
  if b then r ||| 1 else r

theorem shiftIn_toNat (r : UInt16) (b : Bool) :
    (shiftIn r b).toNat = (2 * r.toNat + b.toNat) % 2 ^ 16 := by
  have hs : (r <<< 1).toNat = 2 * r.toNat % 2 ^ 16 := by
    simp [UInt16.toNat_shiftLeft, Nat.shiftLeft_eq, Nat.mul_comm]
  cases b with
  | false => simpa [shiftIn] using hs
  | true =>
    have heven : 2 * r.toNat % 2 ^ 16 = 2 * (r.toNat % 2 ^ 15) := by omega
    have hor : 2 * (r.toNat % 2 ^ 15) ||| 1 = 2 * (r.toNat % 2 ^ 15) + 1 := by
      have := Nat.two_pow_add_eq_or_of_lt (i := 1) (b := 1) (by omega) (r.toNat % 2 ^ 15)
      rw [pow_one] at this
      exact this.symm
    simp only [shiftIn, if_true, UInt16.toNat_or, hs, heven]
    change 2 * (r.toNat % 2 ^ 15) ||| 1 = _
    rw [hor, Bool.toNat_true]
    omega

/-- One more bit shifted into a register that holds a prefix modulo its width. -/
theorem shiftIn_msbValue {r : UInt16} {bs : List Bool} (h : r.toNat = msbValue bs % 2 ^ 16)
    (b : Bool) : (shiftIn r b).toNat = msbValue (bs ++ [b]) % 2 ^ 16 := by
  rw [shiftIn_toNat, msbValue_snoc, h]
  omega

end BitWord
