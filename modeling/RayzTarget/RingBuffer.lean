import RayzTarget.CheckedBuffer
import Mathlib.Data.Nat.ModEq

/-! A ring of `n` cells against the list of everything ever written to it.
The ring keeps the last `n` entries; entry `j` lives in cell `j % n` while it is kept.
Fill phase and wrapped phase need no separate treatment. -/
namespace RingBuffer

variable {α : Type*} {n : ℕ} [NeZero n]

def slot (j : ℕ) : Fin n := Fin.ofNat n j

def Holds (buf : Fin n → α) (hist : List α) : Prop :=
  ∀ j (hj : j < hist.length), hist.length ≤ j + n → buf (slot j) = hist[j]

theorem slot_val (j : ℕ) : (slot j : Fin n).val = j % n := rfl

/-- Two entries less than a revolution apart never share a cell. -/
theorem slot_ne {j k : ℕ} (hjk : j < k) (hkj : k < j + n) : (slot j : Fin n) ≠ slot k := by
  intro h
  have hm : j ≡ k [MOD n] := congrArg Fin.val h
  obtain ⟨c, hc⟩ := (Nat.modEq_iff_dvd' hjk.le).mp hm
  rcases Nat.eq_zero_or_pos c with rfl | hpos
  · omega
  · have := Nat.le_mul_of_pos_right n hpos
    omega

theorem slot_add_mod (j i : ℕ) : (slot (j % n + i) : Fin n) = slot (j + i) :=
  Fin.ext (by simp [slot_val])

theorem read_mod {φ : Type*} (oob : φ) (buf : Fin n → α) (j : ℕ) :
    CheckedBuffer.read oob buf (j % n) = .ok (buf (slot j)) :=
  CheckedBuffer.read_of_lt oob buf (Nat.mod_lt j (Nat.pos_of_neZero n))

theorem write_mod {φ : Type*} (oob : φ) (buf : Fin n → α) (j : ℕ) (x : α) :
    CheckedBuffer.write oob buf (j % n) x = .ok (Function.update buf (slot j) x) :=
  CheckedBuffer.write_of_lt oob buf (Nat.mod_lt j (Nat.pos_of_neZero n)) x

theorem holds_nil (buf : Fin n → α) : Holds buf [] := by
  intro j hj
  simp at hj

/-- Writing the next entry into its cell overwrites only the entry that is dropped. -/
theorem Holds.push {buf : Fin n → α} {hist : List α} (h : Holds buf hist) (x : α) :
    Holds (Function.update buf (slot hist.length) x) (hist ++ [x]) := by
  intro j hj hk
  simp only [List.length_append, List.length_singleton] at hj hk
  rcases Nat.lt_or_eq_of_le (Nat.le_of_lt_succ hj) with hlt | rfl
  · rw [Function.update_of_ne (slot_ne hlt (by omega)), List.getElem_append_left hlt]
    exact h j hlt (by omega)
  · simp

/-- Reading a full ring from the next write position on visits the last `n` entries in order. -/
theorem Holds.oldest_first {buf : Fin n → α} {hist : List α} (h : Holds buf hist)
    (full : n ≤ hist.length) {i : ℕ} (hi : i < n) :
    buf (slot (hist.length + i)) = hist[hist.length - n + i] := by
  rw [← h (hist.length - n + i) (by omega) (by omega)]
  congr 1
  apply Fin.ext
  rw [slot_val, slot_val, show hist.length + i = hist.length - n + i + n by omega,
    Nat.add_mod_right]

/-- After a whole number of revolutions the cells read in index order are the last `n` entries. -/
theorem Holds.ofFn_eq {buf : Fin n → α} {hist : List α} {k : ℕ} (h : Holds buf hist)
    (hk : hist.length = (k + 1) * n) : List.ofFn buf = (hist.drop (k * n)).take n := by
  have hlen : hist.length - k * n = n := by rw [hk, Nat.add_mul, Nat.one_mul]; omega
  apply List.ext_getElem
  · simp [hlen]
  · intro i hi hi'
    simp only [List.length_ofFn] at hi
    rw [List.getElem_ofFn, List.getElem_take, List.getElem_drop,
      ← h (k * n + i) (by omega) (by omega)]
    congr 1
    apply Fin.ext
    rw [slot_val, Nat.mul_comm, Nat.mul_add_mod, Nat.mod_eq_of_lt hi]

end RingBuffer
