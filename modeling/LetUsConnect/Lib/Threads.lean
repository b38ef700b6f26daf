import Mathlib.Algebra.BigOperators.Group.Finset.Piecewise
import Mathlib.Algebra.Order.BigOperators.Group.Finset
import Mathlib.Data.Fintype.Basic

/-!
# Families of threads

Facts about threads that are indexed by a type and move one at a time: a lock
that records the one thread inside, and quantities summed over the places the
threads are at, such as the number of items they hold there.
-/

namespace Threads

universe u v w

/-! ## Mutual exclusion -/

section Exclusion

variable {Thread : Type u} {lock lockAfter : Option Thread} {inside insideAfter : Thread → Bool}
  {thread : Thread}

/-- The lock names exactly the threads inside the section it guards. -/
def Exclusive (lock : Option Thread) (inside : Thread → Bool) : Prop :=
  ∀ thread, inside thread ↔ lock = some thread

/-- What one step of a thread may do to the lock. -/
inductive LockMove (thread : Thread) :
    (lock : Option Thread) → (before : Bool) → (after : Bool) → Option Thread → Prop where
  | stay (lock : Option Thread) (inside : Bool) : LockMove thread lock inside inside lock
  | acquire : LockMove thread none false true (some thread)
  | release (lock : Option Thread) : LockMove thread lock true false none

theorem Exclusive.holder (exclusive : Exclusive lock inside) (isInside : inside thread) :
    lock = some thread := (exclusive thread).mp isInside

theorem Exclusive.outside (exclusive : Exclusive lock inside) (free : lock = none)
    (thread : Thread) : inside thread = false := by
  apply Bool.eq_false_iff.mpr
  intro isInside
  have held := exclusive.holder isInside
  rw [free] at held
  cases held

theorem Exclusive.move (exclusive : Exclusive lock inside)
    (moved : LockMove thread lock (inside thread) (insideAfter thread) lockAfter)
    (others : ∀ other, other ≠ thread → insideAfter other = inside other) :
    Exclusive lockAfter insideAfter := by
  intro other
  by_cases same : other = thread
  · subst same
    have current := exclusive other
    generalize inside other = before at moved current
    generalize insideAfter other = after at moved
    cases moved with
    | stay => exact current
    | acquire => simp
    | release => simp
  · rw [others other same]
    have current := exclusive other
    have mover := exclusive thread
    generalize inside thread = before at moved mover
    generalize insideAfter thread = after at moved
    cases moved with
    | stay => exact current
    | acquire =>
        rw [current]
        simp [Ne.symm same]
    | release =>
        have held := mover.mp rfl
        rw [current, held]
        simp [Ne.symm same]

end Exclusion

/-! ## Sums over the places -/

section Total

variable {Thread : Type u} {Place : Type v} [Fintype Thread]

/-- The sum of a weight over the places of all threads. -/
def total (weight : Place → ℕ) (places : Thread → Place) : ℕ :=
  ∑ thread, weight (places thread)

theorem le_total (weight : Place → ℕ) (places : Thread → Place) (thread : Thread) :
    weight (places thread) ≤ total weight places := by
  apply Finset.single_le_sum (f := fun thread => weight (places thread))
  · intro _ _
    exact Nat.zero_le _
  · exact Finset.mem_univ thread

theorem total_eq_zero {weight : Place → ℕ} {places : Thread → Place}
    (none_ : ∀ thread, weight (places thread) = 0) : total weight places = 0 :=
  Finset.sum_eq_zero fun thread _ => none_ thread

theorem total_le_card {weight : Place → ℕ} {places : Thread → Place}
    (most : ∀ thread, weight (places thread) ≤ 1) : total weight places ≤ Fintype.card Thread := by
  calc total weight places ≤ ∑ _thread : Thread, 1 := Finset.sum_le_sum fun thread _ => most thread
    _ = Fintype.card Thread := by simp

theorem total_le_card_mul {weight : Place → ℕ} {places : Thread → Place} {bound : ℕ}
    (most : ∀ thread, weight (places thread) ≤ bound) :
    total weight places ≤ Fintype.card Thread * bound := by
  calc total weight places ≤ ∑ _thread : Thread, bound :=
        Finset.sum_le_sum fun thread _ => most thread
    _ = Fintype.card Thread * bound := Finset.sum_const_nat fun _ _ => rfl

theorem total_add (first second : Place → ℕ) (places : Thread → Place) :
    total (fun place => first place + second place) places =
      total first places + total second places :=
  Finset.sum_add_distrib

variable [DecidableEq Thread]

/-- The total after one thread moved. -/
theorem total_update (weight : Place → ℕ) (places : Thread → Place) (thread : Thread)
    (place : Place) :
    total weight (Function.update places thread place) + weight (places thread) =
      total weight places + weight place := by
  have split := Finset.add_sum_erase Finset.univ (fun thread => weight (places thread))
    (Finset.mem_univ thread)
  have splitAfter := Finset.add_sum_erase Finset.univ
    (fun other => weight (Function.update places thread place other)) (Finset.mem_univ thread)
  have rest :
      ∑ other ∈ Finset.univ.erase thread, weight (Function.update places thread place other) =
      ∑ other ∈ Finset.univ.erase thread, weight (places other) := by
    apply Finset.sum_congr rfl
    intro other member
    rw [Function.update_of_ne (Finset.ne_of_mem_erase member)]
  rw [Function.update_self, rest] at splitAfter
  simp only [total]
  omega

end Total

/-! ## What the threads hold -/

section Holdings

variable {Thread : Type u} {Place : Type v} {Item : Type w}

/-- How many of the items meant a thread holds at a place. -/
def heldCount (held : Place → Option Item) (isMeant : Item → Bool) (place : Place) : ℕ :=
  (held place).toList.countP isMeant

variable [Fintype Thread]

/-- The items that the threads hold at their places. -/
noncomputable def holdings (held : Place → Option Item) (places : Thread → Place) : List Item :=
  Finset.univ.toList.filterMap fun thread => held (places thread)

theorem countP_holdings (held : Place → Option Item) (isMeant : Item → Bool)
    (places : Thread → Place) :
    (holdings held places).countP isMeant = total (heldCount held isMeant) places := by
  rw [holdings, total, ← Finset.sum_map_toList]
  induction (Finset.univ : Finset Thread).toList with
  | nil => rfl
  | cons thread threads ih =>
      rw [List.map_cons, List.sum_cons, ← ih, heldCount]
      cases holds : held (places thread) <;> simp [holds, List.countP_cons, add_comm]

end Holdings

end Threads
