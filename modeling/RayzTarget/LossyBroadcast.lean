import Mathlib.Algebra.BigOperators.Group.Finset.Piecewise
import Mathlib.Algebra.Order.BigOperators.Group.Finset
import Mathlib.Data.Finset.Card
import Mathlib.Data.List.Perm.Subperm

/-! A broadcast medium that may lose, delay and reorder. Each broadcast puts one copy in
flight to every party but its sender; a copy leaves by being taken or lost, in any order.
What every medium of this kind conserves is stated against the list of all broadcasts. -/
namespace LossyBroadcast

variable {ι π : Type*} [DecidableEq ι] (src : π → ι)

def broadcast (flight : ι → List π) (p : π) : ι → List π :=
  fun r => if r = src p then flight r else flight r ++ [p]

def remove (flight : ι → List π) (r : ι) (i : ℕ) : ι → List π :=
  Function.update flight r ((flight r).eraseIdx i)

/-- What each party has taken and what is in flight to it comes from the broadcasts of the
others, every copy at most once. -/
def Conserved (aired : List π) (taken flight : ι → List π) : Prop :=
  ∀ r, (taken r ++ flight r).Subperm (aired.filter fun p => src p ≠ r)

variable {src} {aired : List π} {taken flight : ι → List π}

theorem conserved_start : Conserved src [] (fun _ => []) fun _ => [] :=
  fun _ => List.Subperm.refl _

theorem Conserved.broadcast (h : Conserved src aired taken flight) (p : π) :
    Conserved src (aired ++ [p]) taken (broadcast src flight p) := by
  intro r
  rw [List.filter_append]
  by_cases hr : r = src p
  · simpa [LossyBroadcast.broadcast, hr] using h (src p)
  · have hp : src p ≠ r := Ne.symm hr
    simp only [LossyBroadcast.broadcast, if_neg hr, List.filter_singleton, hp, ne_eq,
      not_false_eq_true, decide_true, cond_true, ← List.append_assoc]
    exact (List.subperm_append_right [p]).mpr (h r)

theorem Conserved.broadcasts (h : Conserved src aired taken flight) (ps : List π) :
    Conserved src (aired ++ ps) taken (ps.foldl (LossyBroadcast.broadcast src) flight) := by
  induction ps generalizing aired flight with
  | nil => simpa using h
  | cons p ps ih => simpa using ih (h.broadcast p)

theorem Conserved.lose (h : Conserved src aired taken flight) (r : ι) (i : ℕ) :
    Conserved src aired taken (remove flight r i) := by
  intro r'
  by_cases hr : r' = r
  · subst hr
    have fewer : (taken r' ++ (flight r').eraseIdx i).Sublist (taken r' ++ flight r') :=
      (List.Sublist.refl _).append (List.eraseIdx_sublist _ i)
    simpa [remove] using fewer.subperm.trans (h r')
  · simpa [remove, hr] using h r'

theorem Conserved.take (h : Conserved src aired taken flight) {r : ι} {i : ℕ} {p : π}
    (hp : (flight r)[i]? = some p) :
    Conserved src aired (Function.update taken r (taken r ++ [p])) (remove flight r i) := by
  intro r'
  by_cases hr : r' = r
  · subst hr
    obtain ⟨hi, rfl⟩ := List.getElem?_eq_some_iff.mp hp
    have moved := (List.getElem_cons_eraseIdx_perm hi).append_left (taken r')
    simpa [remove] using moved.subperm.trans (h r')
  · simpa [remove, hr] using h r'

/-- A taken copy was broadcast by another party. -/
theorem Conserved.mem_taken (h : Conserved src aired taken flight) {r : ι} {p : π}
    (hp : p ∈ taken r) : p ∈ aired ∧ src p ≠ r := by
  have mem := (h r).subset (List.mem_append_left _ hp)
  simpa using mem

/-- Where broadcasts can be told apart by `key`, no party takes one twice. -/
theorem Conserved.taken_nodup (h : Conserved src aired taken flight) {κ : Type*} {key : π → κ}
    (distinct : (aired.map key).Nodup) (r : ι) : ((taken r).map key).Nodup := by
  obtain ⟨l, hl, hsub⟩ := h r
  have all : (l.map key).Nodup :=
    (hsub.map key).nodup ((List.filter_sublist.map key).nodup distinct)
  have both : ((taken r ++ flight r).map key).Nodup := (hl.map key).nodup_iff.mp all
  rw [List.map_append] at both
  exact (List.nodup_append.mp both).1

/-- The broadcasts of the others, sender by sender. -/
theorem countP_others [Fintype ι] (q : π → Bool) (r : ι) (l : List π) :
    (l.filter fun p => src p ≠ r).countP q =
      ∑ s ∈ Finset.univ.erase r, (l.filter fun p => src p = s).countP q := by
  induction l with
  | nil => simp
  | cons p l ih =>
    have own : ∀ s, ((p :: l).filter fun p => src p = s).countP q =
        (if src p = s then (if q p then 1 else 0) else 0) +
          (l.filter fun p => src p = s).countP q := by
      intro s
      by_cases hs : src p = s <;> by_cases hq : q p = true <;> simp [hs, hq, Nat.add_comm]
    simp only [own, Finset.sum_add_distrib, Finset.sum_ite_eq, Finset.mem_erase, Finset.mem_univ,
      and_true, ← ih]
    by_cases hr : src p = r <;> by_cases hq : q p = true <;> simp [hr, hq, Nat.add_comm]

/-- Conservation as a count: copies taken and in flight do not exceed the broadcasts. -/
theorem Conserved.countP_le [Fintype ι] (h : Conserved src aired taken flight) (q : π → Bool)
    (r : ι) : (taken r).countP q + (flight r).countP q ≤
      ∑ s ∈ Finset.univ.erase r, (aired.filter fun p => src p = s).countP q := by
  rw [← countP_others, ← List.countP_append]
  exact (h r).countP_le q

omit [DecidableEq ι] in
/-- Under distinct addresses no item is addressed to two parties. -/
theorem sum_countP_le [Fintype ι] {α κ : Type*} [DecidableEq κ] {address : ι → κ}
    (distinct : Function.Injective address) (target : α → κ) (l : List α) :
    ∑ r, l.countP (fun x => target x == address r) ≤ l.length := by
  induction l with
  | nil => simp
  | cons x l ih =>
    have one : ∑ r, (if target x = address r then 1 else 0) ≤ 1 := by
      rw [← Finset.card_filter]
      refine Finset.card_le_one.mpr fun r hr t ht => distinct ?_
      exact ((Finset.mem_filter.mp hr).2.symm).trans (Finset.mem_filter.mp ht).2
    simp only [List.countP_cons, beq_iff_eq, Finset.sum_add_distrib, List.length_cons]
    exact Nat.add_le_add ih one

end LossyBroadcast
