import Mathlib.Data.List.Basic
import Mathlib.Algebra.Order.Field.Rat
import Mathlib.Algebra.BigOperators.Group.List.Basic

/-! A sample stream cut into consecutive blocks of `S`, an unfinished tail left out.
Block `j` (from zero) is final as soon as it is complete; appending changes no earlier block. -/
namespace SampleBlocks

variable {α : Type*} {S : ℕ}

def block (S : ℕ) (v : List α) (j : ℕ) : List α := (v.drop (j * S)).take S

def blockCount (S : ℕ) (v : List α) : ℕ := v.length / S

def blocks (S : ℕ) (v : List α) : List (List α) :=
  (List.range (blockCount S v)).map (block S v)

@[simp] theorem blocks_length (v : List α) : (blocks S v).length = blockCount S v := by
  simp [blocks]

@[simp] theorem blocks_getElem (v : List α) {j : ℕ} (hj : j < (blocks S v).length) :
    (blocks S v)[j] = block S v j := by simp [blocks]

@[simp] theorem blockCount_nil : blockCount S ([] : List α) = 0 := by simp [blockCount]

theorem block_end_le {v : List α} {j : ℕ} (h : j < blockCount S v) :
    (j + 1) * S ≤ v.length :=
  (Nat.mul_le_mul_right S h).trans (Nat.div_mul_le_self _ _)

theorem block_append {v : List α} {j : ℕ} (h : j < blockCount S v) (w : List α) :
    block S (v ++ w) j = block S v j := by
  have hend := block_end_le h
  rw [Nat.add_mul, Nat.one_mul] at hend
  unfold block
  rw [List.drop_append_of_le_length (by omega),
    List.take_append_of_le_length (by rw [List.length_drop]; omega)]

theorem blockCount_mono (v w : List α) :
    blockCount S v ≤ blockCount S (v ++ w) := by
  unfold blockCount
  rw [List.length_append]
  exact Nat.div_le_div_right (Nat.le_add_right _ _)

/-- A sample that does not fill its block completes none. -/
theorem blockCount_snoc_within {v : List α} (x : α)
    (h : v.length % S + 1 < S) : blockCount S (v ++ [x]) = blockCount S v := by
  have hv := Nat.div_add_mod v.length S
  unfold blockCount
  rw [List.length_append, List.length_singleton, Nat.div_eq_of_lt_le]
  · rw [Nat.mul_comm]; omega
  · rw [Nat.add_mul, Nat.one_mul, Nat.mul_comm]; omega

/-- The sample that fills a block completes exactly one. -/
theorem length_snoc_boundary {v : List α} (x : α) (h : v.length % S + 1 = S) :
    (v ++ [x]).length = (blockCount S v + 1) * S := by
  have hv := Nat.div_add_mod v.length S
  unfold blockCount
  rw [List.length_append, List.length_singleton, Nat.add_mul, Nat.one_mul, Nat.mul_comm]
  omega

theorem blockCount_snoc_boundary (hS : 0 < S) {v : List α} (x : α)
    (h : v.length % S + 1 = S) : blockCount S (v ++ [x]) = blockCount S v + 1 := by
  rw [blockCount, length_snoc_boundary x h, Nat.mul_div_cancel _ hS]

theorem blocks_snoc_within {v : List α} (x : α) (h : v.length % S + 1 < S) :
    blocks S (v ++ [x]) = blocks S v := by
  unfold blocks
  rw [blockCount_snoc_within x h]
  refine List.map_congr_left fun j hj => ?_
  exact block_append (List.mem_range.mp hj) [x]

theorem blocks_snoc_boundary (hS : 0 < S) {v : List α} (x : α) (h : v.length % S + 1 = S) :
    blocks S (v ++ [x]) = blocks S v ++ [block S (v ++ [x]) (blockCount S v)] := by
  unfold blocks
  rw [blockCount_snoc_boundary hS x h, List.range_succ, List.map_append, List.map_singleton]
  congr 1
  refine List.map_congr_left fun j hj => ?_
  exact block_append (List.mem_range.mp hj) [x]

/-- The complete blocks in order are the stream up to its unfinished tail. -/
theorem blocks_flatten (v : List α) : (blocks S v).flatten = v.take (blockCount S v * S) := by
  have aux : ∀ k, ((List.range k).map (block S v)).flatten = v.take (k * S) := by
    intro k
    induction k with
    | zero => simp
    | succ k ih =>
      rw [List.range_succ, List.map_append, List.flatten_append, ih, Nat.add_mul, Nat.one_mul,
        List.take_add]
      simp [block]
  exact aux _

/-- The length modulo `S` advances by one and returns to zero at a boundary. -/
theorem length_mod_within {v : List α} (x : α) (h : v.length % S + 1 < S) :
    (v ++ [x]).length % S = v.length % S + 1 := by
  rw [List.length_append, List.length_singleton, Nat.add_mod, Nat.mod_eq_of_lt (a := 1) (by omega),
    Nat.mod_eq_of_lt h]

theorem length_mod_boundary {v : List α} (x : α) (h : v.length % S + 1 = S) :
    (v ++ [x]).length % S = 0 := by
  rw [length_snoc_boundary x h, Nat.mul_mod_left]

/-- Two-level streams: the stream of `xs`, each entry held for `S` samples. -/
def held (S : ℕ) (xs : List α) : List α := xs.flatMap (List.replicate S)

@[simp] theorem held_length (xs : List α) : (held S xs).length = xs.length * S := by
  simp [held, List.length_flatMap]

theorem blockCount_held (hS : 0 < S) (xs : List α) {tail : List α} (ht : tail.length < S) :
    blockCount S (held S xs ++ tail) = xs.length := by
  rw [blockCount, List.length_append, held_length, Nat.mul_comm, Nat.mul_add_div hS,
    Nat.div_eq_of_lt ht, Nat.add_zero]

theorem held_append (xs ys : List α) : held S (xs ++ ys) = held S xs ++ held S ys := by
  simp [held]

theorem held_cons (x : α) (xs : List α) :
    held S (x :: xs) = List.replicate S x ++ held S xs := by
  simp [held]

theorem block_held (xs tail : List α) {j : ℕ} (hj : j < xs.length) :
    block S (held S xs ++ tail) j = List.replicate S xs[j] := by
  have hsplit : xs = xs.take j ++ xs[j] :: xs.drop (j + 1) := by simp
  have hlen : (held S (xs.take j)).length = j * S := by
    rw [held_length, List.length_take, Nat.min_eq_left hj.le]
  conv_lhs => rw [hsplit]
  rw [held_append, held_cons, List.append_assoc, List.append_assoc, block, ← hlen, List.drop_left]
  exact List.take_left' (List.length_replicate ..)

def mean (xs : List ℚ) : ℚ := xs.sum / xs.length

theorem mean_replicate (hS : 0 < S) (x : ℚ) : mean (List.replicate S x) = x := by
  have hne : (S : ℚ) ≠ 0 := by exact_mod_cast hS.ne'
  simp [mean, hne]

end SampleBlocks
