import Mathlib.Algebra.Group.Nat.Defs
import Mathlib.Data.List.Basic
import Mathlib.Order.Lattice

/-! Event times on an unbounded clock, and the clock read through a 32-bit counter.
Differences of readings are the elapsed time modulo the counter's period. Times that stay
`D` apart have a bounded number in every interval. -/
namespace WrappedClock

variable {a b : ℕ}

theorem elapsed (h : a ≤ b) : (UInt32.ofNat b - UInt32.ofNat a).toNat = (b - a) % 2 ^ 32 := by
  rw [UInt32.toNat_sub, UInt32.toNat_ofNat', UInt32.toNat_ofNat']
  omega

/-- The counter never runs ahead of the clock. -/
theorem elapsed_le (h : a ≤ b) : (UInt32.ofNat b - UInt32.ofNat a).toNat ≤ b - a := by
  rw [elapsed h]
  exact Nat.mod_le _ _

def Spaced (D : ℕ) (ts : List ℕ) : Prop := ts.Pairwise fun a b => a + D ≤ b

variable {D : ℕ} {ts : List ℕ}

theorem spaced_nil : Spaced D [] := List.Pairwise.nil

theorem Spaced.snoc {t : ℕ} (h : Spaced D ts) (ht : ∀ p ∈ ts, p + D ≤ t) :
    Spaced D (ts ++ [t]) := by
  refine List.pairwise_append.mpr ⟨h, List.pairwise_singleton _ _, ?_⟩
  intro p hp b hb
  rw [List.mem_singleton.mp hb]
  exact ht p hp

/-- Spaced times between `x` and `y` take up their number times the spacing, less the last one. -/
theorem Spaced.length_mul_le (h : Spaced D ts) {x y : ℕ} (hne : ts ≠ [])
    (hin : ∀ t ∈ ts, x ≤ t ∧ t ≤ y) : x + ts.length * D ≤ y + D := by
  induction ts generalizing x with
  | nil => exact absurd rfl hne
  | cons t ts ih =>
    obtain ⟨hhead, htail⟩ := List.pairwise_cons.mp h
    obtain ⟨hx, hy⟩ := hin t List.mem_cons_self
    rw [List.length_cons, Nat.add_mul, Nat.one_mul]
    rcases eq_or_ne ts [] with rfl | hts
    · simp only [List.length_nil]
      omega
    · have := ih htail hts fun t' ht' =>
        ⟨hhead t' ht', (hin t' (List.mem_cons_of_mem t ht')).2⟩
      omega

theorem Spaced.count_le (h : Spaced D ts) (hD : 0 < D) (x T : ℕ) :
    (ts.filter fun t => x ≤ t ∧ t ≤ x + T).length ≤ T / D + 1 := by
  have hin : ∀ t ∈ ts.filter fun t => x ≤ t ∧ t ≤ x + T, x ≤ t ∧ t ≤ x + T := fun t ht =>
    of_decide_eq_true (List.mem_filter.mp ht).2
  have hspaced : Spaced D (ts.filter fun t => x ≤ t ∧ t ≤ x + T) := h.sublist List.filter_sublist
  generalize ts.filter (fun t => x ≤ t ∧ t ≤ x + T) = us at hin hspaced
  rcases eq_or_ne us [] with rfl | hne
  · exact Nat.zero_le _
  · have hlen := hspaced.length_mul_le hne hin
    have hpos := List.length_pos_iff.mpr hne
    obtain ⟨n, hn⟩ := Nat.exists_eq_add_of_le' hpos
    rw [hn, Nat.add_mul, Nat.one_mul] at hlen
    rw [hn, Nat.add_le_add_iff_right, Nat.le_div_iff_mul_le hD]
    omega

end WrappedClock
