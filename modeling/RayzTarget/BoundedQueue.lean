import Mathlib.Data.List.Basic

/-! Bounded first-in first-out queues whose sender does not wait: an item that finds the
queue full is lost. The bound is part of the type. -/
namespace BoundedQueue

variable {α : Type*} {capacity : ℕ}

structure Queue (α : Type*) (capacity : ℕ) where
  items : List α
  bounded : items.length ≤ capacity

def Queue.empty : Queue α capacity := ⟨[], Nat.zero_le _⟩

def Queue.send (q : Queue α capacity) (x : α) : Queue α capacity :=
  if h : q.items.length < capacity then ⟨q.items ++ [x], by simpa using Nat.succ_le_of_lt h⟩ else q

def Queue.receive (q : Queue α capacity) : Queue α capacity :=
  ⟨q.items.tail, Nat.le_trans (by simp) q.bounded⟩

/-- What a send adds to the queue, and what it loses. -/
def Queue.accepted (q : Queue α capacity) (x : α) : List α :=
  if q.items.length < capacity then [x] else []

def Queue.lost (q : Queue α capacity) (x : α) : List α :=
  if q.items.length < capacity then [] else [x]

@[simp] theorem Queue.empty_items : (Queue.empty : Queue α capacity).items = [] := rfl

@[simp] theorem Queue.receive_items (q : Queue α capacity) :
    q.receive.items = q.items.tail := rfl

@[simp] theorem Queue.send_items (q : Queue α capacity) (x : α) :
    (q.send x).items = q.items ++ q.accepted x := by
  unfold Queue.send Queue.accepted
  split <;> simp

theorem Queue.accepted_sublist (q : Queue α capacity) (x : α) :
    (q.accepted x).Sublist [x] := by
  unfold Queue.accepted
  split
  · exact List.Sublist.refl _
  · exact List.nil_sublist _

theorem Queue.accepted_length_add_lost (q : Queue α capacity) (x : α) :
    1 = (q.accepted x).length + (q.lost x).length := by
  unfold Queue.accepted Queue.lost
  split <;> rfl

theorem Queue.lost_of_lt {q : Queue α capacity} (h : q.items.length < capacity) (x : α) :
    q.lost x = [] := if_pos h

theorem Queue.accepted_of_lost {q : Queue α capacity} {x : α} (h : q.lost x = []) :
    q.accepted x = [x] := by
  unfold Queue.accepted Queue.lost at *
  split at h
  · rename_i hlt
    exact if_pos hlt
  · cases h

/-- A receive takes the oldest item. -/
theorem Queue.items_eq (q : Queue α capacity) :
    q.items = q.items.head?.toList ++ q.receive.items := by
  rw [Queue.receive_items]
  cases q.items <;> rfl

end BoundedQueue
