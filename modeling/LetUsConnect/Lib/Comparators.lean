import Mathlib.Data.Int.Order.Basic
import Mathlib.Data.List.Basic
import Mathlib.Data.Set.Basic

/-!
# Comparators

Functions that compare two values and report the result as the sign of an
integer, as `strcmp` does. `Preorders` says that the signs are those of a total
preorder, `StrictlyOrders` that they are those of a total order and that the
only results are 1, -1 and 0. Both are relative to a set, so that a comparator
need not make sense on values it is never applied to.
-/

namespace Comparators

universe u

variable {Value : Type u} {compare : Value → Value → ℤ} {values smaller : Set Value}
  {one two three : Value}

/-- On these values the sign of the comparator is a total preorder. -/
structure Preorders (compare : Value → Value → ℤ) (values : Set Value) : Prop where
  flip : ∀ one ∈ values, ∀ two ∈ values, 0 < compare one two ↔ compare two one < 0
  trans : ∀ one ∈ values, ∀ two ∈ values, ∀ three ∈ values,
    compare one two ≤ 0 → compare two three ≤ 0 → compare one three ≤ 0

/-- The comparator returns nothing but 1, -1 and 0 on these values. -/
def ThreeWay (compare : Value → Value → ℤ) (values : Set Value) : Prop :=
  ∀ one ∈ values, ∀ two ∈ values,
    compare one two = 1 ∨ compare one two = -1 ∨ compare one two = 0

/-- On these values the comparator is a strict total order with the results 1, -1 and 0. -/
structure StrictlyOrders (compare : Value → Value → ℤ) (values : Set Value) : Prop
    extends Preorders compare values where
  threeWay : ThreeWay compare values
  equal : ∀ one ∈ values, ∀ two ∈ values, compare one two = 0 → one = two

namespace Preorders

variable (orders : Preorders compare values)

include orders

theorem mono (within : smaller ⊆ values) : Preorders compare smaller where
  flip := fun one oneIn two twoIn => orders.flip one (within oneIn) two (within twoIn)
  trans := fun one oneIn two twoIn three threeIn =>
    orders.trans one (within oneIn) two (within twoIn) three (within threeIn)

theorem self_eq_zero (oneIn : one ∈ values) : compare one one = 0 := by
  have flipped := orders.flip one oneIn one oneIn
  omega

theorem le_zero_iff (oneIn : one ∈ values) (twoIn : two ∈ values) :
    compare one two ≤ 0 ↔ 0 ≤ compare two one := by
  have flipped := orders.flip one oneIn two twoIn
  omega

theorem lt_of_lt_of_le (oneIn : one ∈ values) (twoIn : two ∈ values) (threeIn : three ∈ values)
    (less : compare one two < 0) (atMost : compare two three ≤ 0) : compare one three < 0 := by
  by_contra notLess
  have back : compare three one ≤ 0 := (orders.le_zero_iff threeIn oneIn).mpr (by omega)
  have closing := orders.trans two twoIn three threeIn one oneIn atMost back
  have flipped := orders.flip two twoIn one oneIn
  omega

theorem lt_of_le_of_lt (oneIn : one ∈ values) (twoIn : two ∈ values) (threeIn : three ∈ values)
    (atMost : compare one two ≤ 0) (less : compare two three < 0) : compare one three < 0 := by
  by_contra notLess
  have back : compare three one ≤ 0 := (orders.le_zero_iff threeIn oneIn).mpr (by omega)
  have closing := orders.trans three threeIn one oneIn two twoIn back atMost
  have flipped := orders.flip three threeIn two twoIn
  omega

theorem gt_trans (oneIn : one ∈ values) (twoIn : two ∈ values) (threeIn : three ∈ values)
    (greater : 0 < compare one two) (further : 0 < compare two three) :
    0 < compare one three := by
  rw [orders.flip _ oneIn _ twoIn] at greater
  rw [orders.flip _ twoIn _ threeIn] at further
  rw [orders.flip _ oneIn _ threeIn]
  exact orders.lt_of_lt_of_le threeIn twoIn oneIn further (Int.le_of_lt greater)

/-- In a sorted list what comes after a value that is greater than a bound is greater too. -/
theorem greater_of_sorted {list : List Value} (within : ∀ value ∈ list, value ∈ values)
    (sorted : list.Pairwise fun one two => compare one two ≤ 0) {bound : Value}
    (boundIn : bound ∈ values) {first later : ℕ} (inside : later < list.length)
    (order : first ≤ later) (greater : 0 < compare list[first] bound) :
    0 < compare list[later] bound := by
  rcases Nat.eq_or_lt_of_le order with rfl | earlier
  · exact greater
  · have firstIn := within _ (List.getElem_mem (Nat.lt_of_lt_of_le earlier inside.le))
    have laterIn := within _ (List.getElem_mem inside)
    rw [orders.flip _ firstIn _ boundIn] at greater
    rw [orders.flip _ laterIn _ boundIn]
    exact orders.lt_of_lt_of_le boundIn firstIn laterIn greater
      (List.pairwise_iff_getElem.mp sorted _ _ _ _ earlier)

/-- And what comes before a value that is less than a bound is less too. -/
theorem less_of_sorted {list : List Value} (within : ∀ value ∈ list, value ∈ values)
    (sorted : list.Pairwise fun one two => compare one two ≤ 0) {bound : Value}
    (boundIn : bound ∈ values) {first later : ℕ} (inside : later < list.length)
    (order : first ≤ later) (less : compare list[later] bound < 0) :
    compare list[first] bound < 0 := by
  rcases Nat.eq_or_lt_of_le order with rfl | earlier
  · exact less
  · have firstIn := within _ (List.getElem_mem (Nat.lt_of_lt_of_le earlier inside.le))
    have laterIn := within _ (List.getElem_mem inside)
    exact orders.lt_of_le_of_lt firstIn laterIn boundIn
      (List.pairwise_iff_getElem.mp sorted _ _ _ _ earlier) less

end Preorders

theorem ThreeWay.mono (threeWay : ThreeWay compare values) (within : smaller ⊆ values) :
    ThreeWay compare smaller :=
  fun one oneIn two twoIn => threeWay one (within oneIn) two (within twoIn)

theorem StrictlyOrders.mono (orders : StrictlyOrders compare values) (within : smaller ⊆ values) :
    StrictlyOrders compare smaller where
  toPreorders := orders.toPreorders.mono within
  threeWay := orders.threeWay.mono within
  equal := fun one oneIn two twoIn => orders.equal one (within oneIn) two (within twoIn)

end Comparators
