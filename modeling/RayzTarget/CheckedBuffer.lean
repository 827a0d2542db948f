import Mathlib.Data.Fintype.Basic
import Mathlib.Algebra.BigOperators.Fin

/-! Fixed-size buffers whose accesses are bounds-checked, and counted loops over them.
An access outside the buffer is an error of the caller's choosing, never a default value,
so that a result `.ok` says every index used on the way was in range. -/
namespace CheckedBuffer

variable {α β φ : Type*} {n : ℕ}

def read (oob : φ) (buf : Fin n → α) (i : ℕ) : Except φ α :=
  if h : i < n then .ok (buf ⟨i, h⟩) else .error oob

def write (oob : φ) (buf : Fin n → α) (i : ℕ) (x : α) : Except φ (Fin n → α) :=
  if h : i < n then .ok (Function.update buf ⟨i, h⟩ x) else .error oob

/-- `for (i = 0; i < n; i++) body`: the bodies run in index order and stop at the first error. -/
def countedLoop (body : ℕ → β → Except φ β) : ℕ → β → Except φ β
  | 0, b => .ok b
  | n + 1, b => do
    let b ← countedLoop body n b
    body n b

theorem read_of_lt (oob : φ) (buf : Fin n → α) {i : ℕ} (h : i < n) :
    read oob buf i = .ok (buf ⟨i, h⟩) := dif_pos h

theorem write_of_lt (oob : φ) (buf : Fin n → α) {i : ℕ} (h : i < n) (x : α) :
    write oob buf i x = .ok (Function.update buf ⟨i, h⟩ x) := dif_pos h

/-- The rule of the counted loop: an invariant indexed by the counter, whose
preservation also shows that no body fails. -/
theorem countedLoop_rule (body : ℕ → β → Except φ β) (I : ℕ → β → Prop) (n : ℕ) (b : β)
    (start : I 0 b)
    (step : ∀ i b, i < n → I i b → ∃ b', body i b = .ok b' ∧ I (i + 1) b') :
    ∃ b', countedLoop body n b = .ok b' ∧ I n b' := by
  induction n with
  | zero => exact ⟨b, rfl, start⟩
  | succ n ih =>
    obtain ⟨c, hc, hi⟩ := ih fun i b h => step i b (h.trans n.lt_succ_self)
    obtain ⟨d, hd, hj⟩ := step n c n.lt_succ_self hi
    exact ⟨d, by simpa [countedLoop, hc, bind, Except.bind] using hd, hj⟩

def fill (oob : φ) (buf : Fin n → α) (x : α) : Except φ (Fin n → α) :=
  countedLoop (fun i buf => write oob buf i x) n buf

theorem fill_eq (oob : φ) (buf : Fin n → α) (x : α) : fill oob buf x = .ok fun _ => x := by
  obtain ⟨b, hb, hx⟩ := countedLoop_rule (fun i buf => write oob buf i x)
    (fun i b => ∀ j : Fin n, j.val < i → b j = x) n buf (by simp) (by
      intro i b hi ih
      refine ⟨_, write_of_lt oob b hi x, fun j hj => ?_⟩
      by_cases hji : j = ⟨i, hi⟩
      · simp [hji]
      · have : j.val ≠ i := fun h => hji (Fin.ext h)
        rw [Function.update_of_ne hji]
        exact ih j (by omega))
  rw [fill, hb, show b = fun _ => x from funext fun j => hx j j.isLt]

def sum [Add α] (oob : φ) (buf : Fin n → α) (start : α) : Except φ α :=
  countedLoop (fun i acc => do
    let x ← read oob buf i
    return acc + x) n start

theorem sum_eq [AddCommMonoid α] (oob : φ) (buf : Fin n → α) (start : α) :
    sum oob buf start = .ok (start + (List.ofFn buf).sum) := by
  obtain ⟨b, hb, hs⟩ := countedLoop_rule
    (fun i acc => do
      let x ← read oob buf i
      return acc + x)
    (fun i acc => acc = start + ((List.ofFn buf).take i).sum) n start (by simp) (by
      intro i acc hi ih
      refine ⟨acc + buf ⟨i, hi⟩, by simp [read_of_lt oob buf hi, bind, Except.bind, pure,
        Except.pure], ?_⟩
      rw [ih, List.sum_take_succ _ i (by simpa using hi), List.getElem_ofFn, add_assoc])
  have hlen : (List.ofFn buf).take n = List.ofFn buf := List.take_of_length_le (by simp)
  rw [sum, hb, hs, hlen]

end CheckedBuffer
