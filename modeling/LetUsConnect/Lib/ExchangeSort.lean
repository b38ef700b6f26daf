import LetUsConnect.Lib.Comparators
import Mathlib.Data.List.Perm.Basic

/-!
# Exchange sort

A pass compares one place with every later one and exchanges the two values when
they are out of order. Afterwards the place holds a least value. Sorting is one
pass for every place.
-/

namespace ExchangeSort

open Comparators

universe u

variable {Value : Type u} (compare : Value → Value → ℤ)

/-- The value a pass leaves in its place, and the values of the later places. -/
def pass : Value → List Value → Value × List Value
  | value, [] => (value, [])
  | value, later :: rest =>
      if 0 < compare value later then
        ((pass later rest).1, value :: (pass later rest).2)
      else ((pass value rest).1, later :: (pass value rest).2)

theorem pass_perm (value : Value) (rest : List Value) :
    ((pass compare value rest).1 :: (pass compare value rest).2).Perm (value :: rest) := by
  induction rest generalizing value with
  | nil => exact .refl _
  | cons later rest ih =>
      rw [pass]
      split_ifs
      · exact (List.Perm.swap _ _ _).trans ((ih later).cons value)
      · exact (List.Perm.swap _ _ _).trans (((ih value).cons later).trans (List.Perm.swap _ _ _))

theorem length_pass (value : Value) (rest : List Value) :
    (pass compare value rest).2.length = rest.length := by
  have same := (pass_perm compare value rest).length_eq
  rwa [List.length_cons, List.length_cons, Nat.add_right_cancel_iff] at same

/-- One pass for every place. -/
def sort : List Value → List Value
  | [] => []
  | value :: rest => (pass compare value rest).1 :: sort (pass compare value rest).2
termination_by values => values.length
decreasing_by
  rw [length_pass]
  exact Nat.lt_succ_self _

theorem sort_perm (values : List Value) : (sort compare values).Perm values := by
  induction values using sort.induct compare with
  | case1 => rw [sort]
  | case2 value rest ih =>
      rw [sort]
      exact (ih.cons _).trans (pass_perm compare value rest)

variable {compare} {values : Set Value}

/-- The value left in place is no greater than the one before it or a later one. -/
theorem pass_least (orders : Preorders compare values) {value : Value} {rest : List Value}
    (within : ∀ other ∈ value :: rest, other ∈ values) :
    compare (pass compare value rest).1 value ≤ 0 ∧
      ∀ other ∈ rest, compare (pass compare value rest).1 other ≤ 0 := by
  induction rest generalizing value with
  | nil =>
      have valueIn := within value List.mem_cons_self
      exact ⟨(orders.self_eq_zero valueIn).le, by simp⟩
  | cons later rest ih =>
      have valueIn := within value List.mem_cons_self
      have laterIn := within later (List.mem_cons_of_mem _ List.mem_cons_self)
      have restIn : ∀ other ∈ rest, other ∈ values := by
        intro other member
        exact within other (List.mem_cons_of_mem _ (List.mem_cons_of_mem _ member))
      rw [pass]
      split_ifs with greater
      · have tailIn : ∀ other ∈ later :: rest, other ∈ values := by
          intro other member
          exact within other (List.mem_cons_of_mem _ member)
        rcases ih tailIn with ⟨first, others⟩
        have leastIn := tailIn _ ((pass_perm compare later rest).subset List.mem_cons_self)
        have less := (orders.flip value valueIn later laterIn).mp greater
        refine ⟨orders.trans _ leastIn _ laterIn _ valueIn first less.le, ?_⟩
        intro other member
        rcases List.mem_cons.mp member with rfl | inRest
        · exact first
        · exact others other inRest
      · have tailIn : ∀ other ∈ value :: rest, other ∈ values := by
          intro other member
          rcases List.mem_cons.mp member with rfl | inRest
          · exact valueIn
          · exact restIn other inRest
        rcases ih tailIn with ⟨first, others⟩
        have leastIn := tailIn _ ((pass_perm compare value rest).subset List.mem_cons_self)
        refine ⟨first, ?_⟩
        intro other member
        rcases List.mem_cons.mp member with rfl | inRest
        · exact orders.trans _ leastIn _ valueIn _ laterIn first (not_lt.mp greater)
        · exact others other inRest

theorem sort_sorted (orders : Preorders compare values) {list : List Value}
    (within : ∀ value ∈ list, value ∈ values) :
    (sort compare list).Pairwise fun one two => compare one two ≤ 0 := by
  induction list using sort.induct compare with
  | case1 =>
      rw [sort]
      exact List.Pairwise.nil
  | case2 value rest ih =>
      have permuted := pass_perm compare value rest
      have least := pass_least orders within
      have valueIn := within value List.mem_cons_self
      have leastIn := within _ (permuted.subset List.mem_cons_self)
      have othersIn : ∀ other ∈ (pass compare value rest).2, other ∈ values := by
        intro other member
        exact within other (permuted.subset (List.mem_cons_of_mem _ member))
      rw [sort]
      refine List.Pairwise.cons ?_ (ih othersIn)
      intro other member
      have inPass := (sort_perm compare _).subset member
      have inList := permuted.subset (List.mem_cons_of_mem _ inPass)
      rcases List.mem_cons.mp inList with rfl | inRest
      · exact least.1
      · exact least.2 other inRest

end ExchangeSort
