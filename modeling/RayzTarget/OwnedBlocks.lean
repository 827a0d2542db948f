import Mathlib.Algebra.BigOperators.Group.Finset.Basic
import Mathlib.Algebra.Order.Group.Multiset
import Mathlib.Tactic.Abel

/-! # Blocks and the pointers that own them

Blocks that are allocated and released by hand, and the pointers a program keeps to them. A
program runs on a store of both; it returns, fails with an error of its own, or is stopped by a
fault of memory. What matters of a store is its account: what every pointer is worth, and which
blocks no pointer leads to any more. -/
namespace OwnedBlocks

variable {σ β ρ ε α γ : Type}

/-- Blocks by their addresses, pointers by their slots, and the other variables. An address is
given out once, so a pointer to a released block is seen to dangle, and no two slots share one. -/
structure Store (σ β ρ : Type) where
  cells : ℕ → Option β
  next : ℕ
  slots : σ → Option ℕ
  vars : ρ
  fresh : ∀ p, next ≤ p → cells p = none
  given : ∀ s p, slots s = some p → p < next
  apart : ∀ s t p, slots s = some p → slots t = some p → s = t

inductive Status (β : Type) where
  | null
  | holds (v : β)
  | dangling
  deriving DecidableEq

def Status.held : Status β → Multiset β
  | .holds v => {v}
  | _ => 0

@[simp] theorem Status.held_null : (Status.null : Status β).held = 0 := rfl

@[simp] theorem Status.held_dangling : (Status.dangling : Status β).held = 0 := rfl

@[simp] theorem Status.held_holds (v : β) : (Status.holds v).held = {v} := rfl

def content : Option β → Multiset β
  | some v => {v}
  | none => 0

namespace Store

def empty (vars : ρ) : Store σ β ρ where
  cells := fun _ => none
  next := 0
  slots := fun _ => none
  vars := vars
  fresh := fun _ _ => rfl
  given := fun _ _ h => nomatch h
  apart := fun _ _ _ h => nomatch h

def status (st : Store σ β ρ) (s : σ) : Status β :=
  match st.slots s with
  | none => .null
  | some p => (st.cells p).elim .dangling .holds

def live (st : Store σ β ρ) : Multiset β :=
  ∑ p ∈ Finset.range st.next, content (st.cells p)

theorem status_holds {st : Store σ β ρ} {s : σ} {p : ℕ} {v : β} (hp : st.slots s = some p)
    (hv : st.cells p = some v) : st.status s = .holds v := by
  simp [status, hp, hv]

variable [DecidableEq σ] (st : Store σ β ρ) (s t : σ) (v : β)

def acquire : Store σ β ρ where
  cells := Function.update st.cells st.next (some v)
  next := st.next + 1
  slots := Function.update st.slots s (some st.next)
  vars := st.vars
  fresh := by
    intro p hp
    rw [Function.update_of_ne (by omega)]
    exact st.fresh p (by omega)
  given := by
    intro t p ht
    by_cases h : t = s
    · subst h
      rw [Function.update_self] at ht
      cases ht
      omega
    · rw [Function.update_of_ne h] at ht
      have := st.given t p ht
      omega
  apart := by
    intro t u p ht hu
    have hold : ∀ {t}, t ≠ s → Function.update st.slots s (some st.next) t ≠ some st.next := by
      intro t h heq
      rw [Function.update_of_ne h] at heq
      exact Nat.lt_irrefl _ (st.given t _ heq)
    by_cases h : t = s <;> by_cases h' : u = s
    · rw [h, h']
    · rw [h, Function.update_self] at ht
      exact absurd (hu.trans ht.symm) (hold h')
    · rw [h', Function.update_self] at hu
      exact absurd (ht.trans hu.symm) (hold h)
    · rw [Function.update_of_ne h] at ht
      rw [Function.update_of_ne h'] at hu
      exact st.apart t u p ht hu

def clear : Store σ β ρ where
  cells := st.cells
  next := st.next
  slots := Function.update st.slots s none
  vars := st.vars
  fresh := st.fresh
  given := by
    intro t p ht
    by_cases h : t = s
    · rw [h, Function.update_self] at ht
      cases ht
    · rw [Function.update_of_ne h] at ht
      exact st.given t p ht
  apart := by
    intro t u p ht hu
    by_cases h : t = s
    · rw [h, Function.update_self] at ht
      cases ht
    by_cases h' : u = s
    · rw [h', Function.update_self] at hu
      cases hu
    rw [Function.update_of_ne h] at ht
    rw [Function.update_of_ne h'] at hu
    exact st.apart t u p ht hu

/-- The block at `p` is released. Pointers to it stay as they are. -/
def release (p : ℕ) : Store σ β ρ where
  cells := Function.update st.cells p none
  next := st.next
  slots := st.slots
  vars := st.vars
  fresh := by
    intro q hq
    by_cases h : q = p
    · rw [h, Function.update_self]
    · rw [Function.update_of_ne h]
      exact st.fresh q hq
  given := st.given
  apart := st.apart

def move : Store σ β ρ where
  cells := st.cells
  next := st.next
  slots := Function.update (Function.update st.slots s none) t (st.slots s)
  vars := st.vars
  fresh := st.fresh
  given := by
    intro u p hu
    simp only [Function.update_apply] at hu
    split at hu
    · exact st.given s p hu
    · split at hu
      · cases hu
      · exact st.given u p hu
  apart := by
    intro u w p hu hw
    simp only [Function.update_apply] at hu hw
    split at hu <;> split at hw
    · rename_i h h'
      rw [h, h']
    · split at hw
      · cases hw
      · exact absurd (st.apart w s p hw hu) ‹_›
    · split at hu
      · cases hu
      · exact absurd (st.apart u s p hu hw) ‹_›
    · split at hu
      · cases hu
      · split at hw
        · cases hw
        · exact st.apart u w p hu hw

def setVars (f : ρ → ρ) : Store σ β ρ := { st with vars := f st.vars }

end Store

/-! ## The account of a store -/

/-- What the pointers are worth, what no pointer leads to any more, and the other variables. -/
@[ext]
structure Account (σ β ρ : Type) where
  status : σ → Status β
  lost : Multiset β
  vars : ρ

def Account.setVars (A : Account σ β ρ) (f : ρ → ρ) : Account σ β ρ := { A with vars := f A.vars }

namespace Account

variable [DecidableEq σ] (A : Account σ β ρ) (s t : σ) (x : Status β)

/-- The pointer in `s` is worth `x` now, and its block was not lost. -/
def set : Account σ β ρ := { A with status := Function.update A.status s x }

def assign : Account σ β ρ := { A.set s x with lost := A.lost + (A.status s).held }

@[simp] theorem set_status : (A.set s x).status t = if t = s then x else A.status t :=
  Function.update_apply ..

@[simp] theorem set_lost : (A.set s x).lost = A.lost := rfl

@[simp] theorem set_vars : (A.set s x).vars = A.vars := rfl

@[simp] theorem assign_status : (A.assign s x).status t = if t = s then x else A.status t :=
  Function.update_apply ..

@[simp] theorem assign_lost : (A.assign s x).lost = A.lost + (A.status s).held := rfl

@[simp] theorem assign_vars : (A.assign s x).vars = A.vars := rfl

variable {A s}

/-- What holds no block can be overwritten without a loss. -/
theorem assign_eq_set (h : (A.status s).held = 0) : A.assign s x = A.set s x := by
  rw [assign, h, add_zero]
  rfl

@[simp] theorem set_set (y : Status β) : (A.set s y).set s x = A.set s x := by
  simp only [set, Function.update_idem]

theorem set_self (h : A.status s = x) : A.set s x = A := by
  rw [set, ← h, Function.update_eq_self]

end Account

section

variable (A : Account σ β ρ) (f : ρ → ρ)

@[simp] theorem Account.setVars_status : (A.setVars f).status = A.status := rfl

@[simp] theorem Account.setVars_lost : (A.setVars f).lost = A.lost := rfl

@[simp] theorem Account.setVars_vars : (A.setVars f).vars = f A.vars := rfl

end

section

variable [Fintype σ]

/-- Every block is held by a pointer or lost. -/
structure Shows (st : Store σ β ρ) (A : Account σ β ρ) : Prop where
  status : st.status = A.status
  vars : st.vars = A.vars
  live : st.live = A.lost + ∑ s, (A.status s).held

theorem sum_update {ι δ μ : Type} [AddCommMonoid μ] [DecidableEq ι] {S : Finset ι} (h : δ → μ)
    (f : ι → δ) {i : ι} (hi : i ∈ S) (x : δ) :
    ∑ j ∈ S, h (Function.update f i x j) + h (f i) = ∑ j ∈ S, h (f j) + h x := by
  have hrest : ∑ j ∈ S.erase i, h (Function.update f i x j) = ∑ j ∈ S.erase i, h (f j) := by
    refine Finset.sum_congr rfl ?_
    intro j hj
    rw [Function.update_of_ne (Finset.ne_of_mem_erase hj)]
  rw [← Finset.add_sum_erase S _ hi, ← Finset.add_sum_erase S (fun j => h (f j)) hi, hrest,
    Function.update_self]
  abel

variable [DecidableEq σ] {st : Store σ β ρ} {A : Account σ β ρ}

/-- Overwriting a pointer loses its block. -/
theorem held_assign (s : σ) (x : Status β) :
    (A.assign s x).lost + ∑ t, ((A.assign s x).status t).held =
      A.lost + ∑ t, (A.status t).held + x.held := by
  have := sum_update Status.held A.status (Finset.mem_univ s) x
  calc A.lost + (A.status s).held + ∑ t, (Function.update A.status s x t).held
      = A.lost + (∑ t, (Function.update A.status s x t).held + (A.status s).held) := by abel
    _ = A.lost + ∑ t, (A.status t).held + x.held := by rw [this]; abel

theorem Shows.acquire (h : Shows st A) (s : σ) (v : β) :
    Shows (st.acquire s v) (A.assign s (.holds v)) := by
  constructor
  · funext t
    rw [Account.assign_status, ← h.status]
    by_cases ht : t = s
    · simp [Store.status, Store.acquire, ht]
    · cases hp : st.slots t with
      | none => simp [Store.status, Store.acquire, ht, hp]
      | some p =>
        have := st.given t p hp
        simp [Store.status, Store.acquire, ht, hp, Function.update_of_ne (Nat.ne_of_lt this)]
  · exact h.vars
  · rw [held_assign, ← h.live]
    simp only [Store.live, Store.acquire, Finset.sum_range_succ, Function.update_self]
    congr 1
    refine Finset.sum_congr rfl ?_
    intro p hp
    rw [Function.update_of_ne (Nat.ne_of_lt (Finset.mem_range.mp hp))]

theorem Shows.clear (h : Shows st A) (s : σ) : Shows (st.clear s) (A.assign s .null) := by
  constructor
  · funext t
    rw [Account.assign_status, ← h.status]
    by_cases ht : t = s
    · simp [Store.status, Store.clear, ht]
    · simp [Store.status, Store.clear, ht]
  · exact h.vars
  · rw [held_assign, ← h.live]
    exact (add_zero _).symm

theorem Shows.release (h : Shows st A) {s : σ} {p : ℕ} {v : β} (hp : st.slots s = some p)
    (hv : st.cells p = some v) : Shows (st.release p) (A.set s .dangling) := by
  have hs : A.status s = .holds v := by rw [← h.status, Store.status_holds hp hv]
  constructor
  · funext t
    rw [Account.set_status, ← h.status]
    by_cases ht : t = s
    · simp [Store.status, Store.release, ht, hp]
    · cases hq : st.slots t with
      | none => simp [Store.status, Store.release, ht, hq]
      | some q =>
        have hne : q ≠ p := by
          rintro rfl
          exact ht (st.apart t s q hq hp)
        simp [Store.status, Store.release, ht, hq, Function.update_of_ne hne]
  · exact h.vars
  · have hcells := sum_update content st.cells (Finset.mem_range.mpr (st.given s p hp)) none
    have hheld := sum_update Status.held A.status (Finset.mem_univ s) .dangling
    simp only [hv, hs, content, Status.held, add_zero] at hcells hheld
    apply add_right_cancel (b := {v})
    calc (st.release p).live + {v} = st.live := hcells
      _ = A.lost + ∑ t, (A.status t).held := h.live
      _ = A.lost + ∑ t, ((A.set s .dangling).status t).held + {v} := by
        rw [add_assoc]
        exact congrArg (A.lost + ·) hheld.symm

theorem Shows.move (h : Shows st A) {s t : σ} (hst : s ≠ t) :
    Shows (st.move s t) ((A.set s .null).assign t (A.status s)) := by
  constructor
  · funext u
    rw [Account.assign_status, Account.set_status, ← h.status]
    by_cases ht : u = t
    · simp [Store.status, Store.move, ht]
    · by_cases hs : u = s
      · simp [Store.status, Store.move, hs, hst]
      · simp [Store.status, Store.move, ht, hs]
  · exact h.vars
  · have hheld := sum_update Status.held A.status (Finset.mem_univ s) .null
    rw [Status.held_null, add_zero] at hheld
    rw [held_assign, Account.set_lost, add_assoc]
    exact h.live.trans (congrArg (A.lost + ·) hheld.symm)

end

/-! ## Programs -/

inductive Stop (ε : Type) where
  | fault
  | failed (e : ε)
  deriving DecidableEq

abbrev Prog (σ β ρ ε : Type) := EStateM (Stop ε) (Store σ β ρ)

/-- Of what is null nothing is released, of what dangles it must not be. -/
def release (s : σ) : Prog σ β ρ ε Unit := fun st =>
  match st.slots s with
  | none => .ok () st
  | some p => if (st.cells p).isSome then .ok () (st.release p) else .error .fault st

def isNull (s : σ) : Prog σ β ρ ε Bool := fun st => .ok (st.slots s).isNone st

/-- What the pointer is to, if it is not null. -/
def read (s : σ) : Prog σ β ρ ε (Option β) := fun st =>
  match st.slots s with
  | none => .ok none st
  | some p => if (st.cells p).isSome then .ok (st.cells p) st else .error .fault st

def setVars (f : ρ → ρ) : Prog σ β ρ ε Unit := modify fun st => st.setVars f

def getVars : Prog σ β ρ ε ρ := fun st => .ok st.vars st

/-- `m`, and `handler` if it fails. A fault is final. -/
def recover (m handler : Prog σ β ρ ε α) : Prog σ β ρ ε α := fun st =>
  match m st with
  | .error (.failed _) st' => handler st'
  | r => r

section

variable [DecidableEq σ]

def acquire (s : σ) (v : β) : Prog σ β ρ ε Unit := modify fun st => st.acquire s v

def clear (s : σ) : Prog σ β ρ ε Unit := modify fun st => st.clear s

def move (s t : σ) : Prog σ β ρ ε Unit := modify fun st => st.move s t

def withLocal (s : σ) (m : Prog σ β ρ ε α) : Prog σ β ρ ε α := fun st =>
  match m (st.clear s) with
  | .ok a st' => .ok a (st'.clear s)
  | .error (.failed e) st' => .error (.failed e) (st'.clear s)
  | .error .fault st' => .error .fault st'

end

/-! ## What is certain before a program -/

section

variable [Fintype σ]

/-- Run on a store with this account, `m` returns as `Q` says or stops as `E` says. -/
def wp (m : Prog σ β ρ ε α) (Q : α → Account σ β ρ → Prop) (E : Stop ε → Account σ β ρ → Prop)
    (A : Account σ β ρ) : Prop :=
  ∀ st, Shows st A → match m st with
    | .ok a st' => ∃ B, Shows st' B ∧ Q a B
    | .error e st' => ∃ B, Shows st' B ∧ E e B

variable {m : Prog σ β ρ ε α} {f : α → Prog σ β ρ ε γ} {Q : α → Account σ β ρ → Prop}
  {R : γ → Account σ β ρ → Prop} {E : Stop ε → Account σ β ρ → Prop} {A : Account σ β ρ}

theorem wp_pure {a : α} (h : Q a A) : wp (pure a) Q E A := fun _ hst => ⟨A, hst, h⟩

theorem wp_throw {e : Stop ε} (h : E e A) : wp (throw e) Q E A := fun _ hst => ⟨A, hst, h⟩

theorem wp_bind (h : wp m (fun a => wp (f a) R E) E A) : wp (m >>= f) R E A := by
  intro st hst
  have hm := h st hst
  cases hr : m st with
  | ok a st' =>
    rw [hr] at hm
    obtain ⟨B, hB, hf⟩ := hm
    have hrest := hf st' hB
    simp only [bind, EStateM.bind, hr]
    exact hrest
  | error e st' =>
    rw [hr] at hm
    simp only [bind, EStateM.bind, hr]
    exact hm

theorem wp_mono {Q' : α → Account σ β ρ → Prop} {E' : Stop ε → Account σ β ρ → Prop}
    (h : wp m Q E A) (hQ : ∀ a B, Q a B → Q' a B) (hE : ∀ e B, E e B → E' e B) :
    wp m Q' E' A := by
  intro st hst
  have hm := h st hst
  cases hr : m st with
  | ok a st' =>
    rw [hr] at hm
    obtain ⟨B, hB, hq⟩ := hm
    exact ⟨B, hB, hQ a B hq⟩
  | error e st' =>
    rw [hr] at hm
    obtain ⟨B, hB, he⟩ := hm
    exact ⟨B, hB, hE e B he⟩

/-- A loop: `I` holds of what has been gone through. -/
theorem wp_forM {l : List γ} {f : γ → Prog σ β ρ ε PUnit} (I : List γ → Account σ β ρ → Prop)
    (hstep : ∀ pre x post B, l = pre ++ x :: post → I pre B →
      wp (f x) (fun _ => I (pre ++ [x])) E B) (hstart : I [] A) :
    wp (l.forM f) (fun _ => I l) E A := by
  have all : ∀ post pre B, l = pre ++ post → I pre B → wp (post.forM f) (fun _ => I l) E B := by
    intro post
    induction post with
    | nil =>
      intro pre B hl hB
      rw [hl, List.append_nil]
      exact wp_pure hB
    | cons x post ih =>
      intro pre B hl hB
      change wp (f x >>= fun _ => post.forM f) _ _ _
      apply wp_bind
      apply wp_mono (hstep pre x post B hl hB)
      · intro _ C hC
        exact ih (pre ++ [x]) C (by simp [hl]) hC
      · intro e C he
        exact he
  exact all l [] A rfl hstart

theorem wp_setVars {g : ρ → ρ} {Q : Unit → Account σ β ρ → Prop} (h : Q () (A.setVars g)) :
    wp (setVars g) Q E A :=
  fun _ hst => ⟨A.setVars g, ⟨hst.status, congrArg g hst.vars, hst.live⟩, h⟩

theorem wp_getVars {Q : ρ → Account σ β ρ → Prop} (h : Q A.vars A) : wp getVars Q E A :=
  fun _ hst => ⟨A, hst, hst.vars ▸ h⟩

theorem wp_recover {handler : Prog σ β ρ ε α}
    (h : wp m Q (fun e B => match e with
      | .fault => E .fault B
      | .failed _ => wp handler Q E B) A) :
    wp (recover m handler) Q E A := by
  intro st hst
  have hm := h st hst
  unfold recover
  cases hr : m st with
  | ok a st' =>
    rw [hr] at hm
    exact hm
  | error e st' =>
    rw [hr] at hm
    obtain ⟨B, hB, he⟩ := hm
    cases e with
    | fault => exact ⟨B, hB, he⟩
    | failed e => exact he st' hB

/-- Why a pointer is worth what it is. -/
theorem Shows.slot {st : Store σ β ρ} (h : Shows st A) (s : σ) :
    (st.slots s = none ∧ A.status s = .null) ∨
      ∃ p, st.slots s = some p ∧ ((∃ v, st.cells p = some v ∧ A.status s = .holds v) ∨
        st.cells p = none ∧ A.status s = .dangling) := by
  rw [← h.status, Store.status]
  cases hp : st.slots s with
  | none => exact .inl ⟨rfl, rfl⟩
  | some p =>
    refine .inr ⟨p, rfl, ?_⟩
    cases hv : st.cells p with
    | none => exact .inr ⟨rfl, by simp [hv]⟩
    | some v => exact .inl ⟨v, rfl, by simp [hv]⟩

theorem wp_isNull {s : σ} {Q : Bool → Account σ β ρ → Prop}
    (hnull : A.status s = .null → Q true A) (hnot : A.status s ≠ .null → Q false A) :
    wp (isNull s) Q E A := by
  intro st hst
  rcases hst.slot s with ⟨hp, hs⟩ | ⟨p, hp, ⟨v, -, hs⟩ | ⟨-, hs⟩⟩
  · simp only [isNull, hp]
    exact ⟨A, hst, hnull hs⟩
  · simp only [isNull, hp]
    exact ⟨A, hst, hnot (by simp [hs])⟩
  · simp only [isNull, hp]
    exact ⟨A, hst, hnot (by simp [hs])⟩

theorem wp_read {s : σ} {Q : Option β → Account σ β ρ → Prop}
    (hnull : A.status s = .null → Q none A) (hholds : ∀ v, A.status s = .holds v → Q (some v) A)
    (hdangling : A.status s = .dangling → E .fault A) : wp (read s) Q E A := by
  intro st hst
  rcases hst.slot s with ⟨hp, hs⟩ | ⟨p, hp, ⟨v, hv, hs⟩ | ⟨hv, hs⟩⟩
  · simp only [read, hp]
    exact ⟨A, hst, hnull hs⟩
  · simp only [read, hp, hv]
    exact ⟨A, hst, hholds v hs⟩
  · simp only [read, hp, hv]
    exact ⟨A, hst, hdangling hs⟩

variable [DecidableEq σ] {s t : σ} {P : Unit → Account σ β ρ → Prop}

theorem wp_acquire {v : β} (h : P () (A.assign s (.holds v))) : wp (acquire s v) P E A :=
  fun _ hst => ⟨_, hst.acquire s v, h⟩

theorem wp_clear (h : P () (A.assign s .null)) : wp (clear s) P E A :=
  fun _ hst => ⟨_, hst.clear s, h⟩

theorem wp_move (hne : s ≠ t) (h : P () ((A.set s .null).assign t (A.status s))) :
    wp (move s t) P E A := fun _ hst => ⟨_, hst.move hne, h⟩

theorem wp_release (hnull : A.status s = .null → P () A)
    (hholds : ∀ v, A.status s = .holds v → P () (A.set s .dangling))
    (hdangling : A.status s = .dangling → E .fault A) : wp (release s) P E A := by
  intro st hst
  rcases hst.slot s with ⟨hp, hs⟩ | ⟨p, hp, ⟨v, hv, hs⟩ | ⟨hv, hs⟩⟩
  · simp only [release, hp]
    exact ⟨A, hst, hnull hs⟩
  · simp only [release, hp, hv]
    exact ⟨_, hst.release hp hv, hholds v hs⟩
  · simp only [release, hp, hv]
    exact ⟨A, hst, hdangling hs⟩

theorem wp_withLocal (h : wp m (fun a B => Q a (B.assign s .null)) (fun e B => match e with
      | .fault => E .fault B
      | .failed e => E (.failed e) (B.assign s .null)) (A.assign s .null)) :
    wp (withLocal s m) Q E A := by
  intro st hst
  have hm := h _ (hst.clear s)
  unfold withLocal
  cases hr : m (st.clear s) with
  | ok a st' =>
    rw [hr] at hm
    obtain ⟨B, hB, hq⟩ := hm
    exact ⟨_, hB.clear s, hq⟩
  | error e st' =>
    rw [hr] at hm
    obtain ⟨B, hB, he⟩ := hm
    cases e with
    | fault => exact ⟨B, hB, he⟩
    | failed e => exact ⟨_, hB.clear s, he⟩

end

/-! ## What a program keeps -/

section

variable [Fintype σ]

/-- Unless it is stopped by a fault, `m` keeps `P`. -/
def Keeps (P : Account σ β ρ → Prop) (m : Prog σ β ρ ε α) : Prop :=
  ∀ A, P A → wp m (fun _ B => P B) (fun e B => e = .fault ∨ P B) A

namespace Keeps

variable {P : Account σ β ρ → Prop} {m : Prog σ β ρ ε α} {f : α → Prog σ β ρ ε γ} {s t : σ}

theorem pure (a : α) : Keeps P (Pure.pure a : Prog σ β ρ ε α) := fun _ h => wp_pure h

theorem throw (e : Stop ε) : Keeps P (MonadExcept.throw e : Prog σ β ρ ε α) :=
  fun _ h => wp_throw (.inr h)

theorem bind (hm : Keeps P m) (hf : ∀ a, Keeps P (f a)) : Keeps P (m >>= f) := by
  intro A hA
  apply wp_bind
  apply wp_mono (hm A hA)
  · intro a B hB
    exact hf a B hB
  · intro e B he
    exact he

theorem isNull : Keeps P (isNull s : Prog σ β ρ ε Bool) :=
  fun _ h => wp_isNull (fun _ => h) fun _ => h

theorem read : Keeps P (read s : Prog σ β ρ ε (Option β)) :=
  fun _ h => wp_read (fun _ => h) (fun _ _ => h) fun _ => .inl rfl

theorem getVars : Keeps P (getVars : Prog σ β ρ ε ρ) := fun _ h => wp_getVars h

theorem setVars {g : ρ → ρ} (hP : ∀ A, P A → P (A.setVars g)) :
    Keeps P (setVars g : Prog σ β ρ ε Unit) := fun A h => wp_setVars (hP A h)

variable [DecidableEq σ]

/-- Nothing that dangles is released without a fault. -/
theorem release (hP : ∀ A v, P A → A.status s = .holds v → P (A.set s .dangling)) :
    Keeps P (release s : Prog σ β ρ ε Unit) :=
  fun A h => wp_release (fun _ => h) (fun v hs => hP A v h hs) fun _ => .inl rfl

theorem acquire (hP : ∀ A x, P A → P (A.assign s x)) (v : β) :
    Keeps P (acquire s v : Prog σ β ρ ε Unit) := fun A h => wp_acquire (hP A _ h)

theorem clear (hP : ∀ A x, P A → P (A.assign s x)) : Keeps P (clear s : Prog σ β ρ ε Unit) :=
  fun A h => wp_clear (hP A _ h)

theorem move (hne : s ≠ t) (hP : ∀ A x y, P A → P ((A.set s x).assign t y)) :
    Keeps P (move s t : Prog σ β ρ ε Unit) := fun A h => wp_move hne (hP A _ _ h)

theorem withLocal (hP : ∀ A x, P A → P (A.assign s x)) (hm : Keeps P m) :
    Keeps P (withLocal s m) := by
  intro A hA
  apply wp_withLocal
  apply wp_mono (hm _ (hP A _ hA))
  · intro a B hB
    exact hP B _ hB
  · intro e B he
    cases e with
    | fault => exact .inl rfl
    | failed e => exact .inr (hP B _ (he.resolve_left nofun))

end Keeps

end

end OwnedBlocks
