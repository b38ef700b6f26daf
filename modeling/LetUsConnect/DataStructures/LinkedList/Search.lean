import LetUsConnect.DataStructures.LinkedList.Pointers
import LetUsConnect.Lib.Comparators

/-!
# Binary search

`binary_search_ll`, with the positions it retrieves and the sums it forms in `int`.

The upper bound is never retrieved again. The lower bound is the last position
whose data is less than the query, or 0, which need not have been looked at; the
position may therefore be the lower bound, but then the next step either ends the
search or moves the position past it.
-/

namespace LetUsConnect

open Comparators

/-- The sum of two numbers in `int`; it is undefined if it does not fit. -/
def addInt (one two : ℤ) : Option ℤ :=
  if -2 ^ 31 ≤ one + two ∧ one + two < 2 ^ 31 then some (one + two) else none

theorem addInt_natCast {one two : ℕ} (fits : one + two < 2 ^ 31) :
    addInt one two = some ((one + two : ℕ) : ℤ) := by
  rw [addInt, if_pos (by omega), Nat.cast_add]

theorem half_natCast (sum : ℕ) : (sum : ℤ).tdiv 2 = ((sum / 2 : ℕ) : ℤ) :=
  (Int.ofNat_tdiv sum 2).symm

variable {Block Data : Type}

namespace PointerList

/-- Adds the position to those a search retrieves. -/
def visit (position : ℤ) (outcome : ℤ × List ℤ) : ℤ × List ℤ := (outcome.1, position :: outcome.2)

/--
The loop of `binary_search_ll`, with the result and the retrieved positions. `fuel`
bounds its rounds.
-/
def binarySearchLoop (list : PointerList Block Data) (query : Option Block)
    (compare : Option Block → Option Block → ℤ) : ℕ → ℤ → ℤ → ℤ → Option (ℤ × List ℤ)
  | 0, _, _, _ => none
  | fuel + 1, position, minChecked, maxChecked =>
      if minChecked < maxChecked then
        (list.retrieveLl position).bind fun data =>
          if compare data query = 1 then
            (addInt minChecked position).bind fun sum =>
              if position ≠ sum.tdiv 2 then
                (list.binarySearchLoop query compare fuel (sum.tdiv 2) minChecked position).map
                  (visit position)
              else some (0, [position])
          else if compare data query = -1 then
            (addInt maxChecked position).bind fun sum =>
              if position ≠ sum.tdiv 2 then
                (list.binarySearchLoop query compare fuel (sum.tdiv 2) position maxChecked).map
                  (visit position)
              else some (0, [position])
          else some (1, [position])
      else some (0, [])

/-- `binary_search_ll`. -/
def binarySearchLl (fuel : ℕ) (list : PointerList Block Data) (query : Option Block)
    (compare : Option Block → Option Block → ℤ) : Option (ℤ × List ℤ) :=
  list.binarySearchLoop query compare fuel (list.length.tdiv 2) 0 list.length

end PointerList

/-- The data pointers of a list. -/
def dataPointers (nodes : List (ListNode Block Data)) : List (Option Block) :=
  nodes.map fun node => some node.data.block

variable {list : PointerList Block Data} {nodes : List (ListNode Block Data)}
  {query : Option Block} {compare : Option Block → Option Block → ℤ}

/-- The result is 1 for a query that is found and 0 otherwise, and only nodes are retrieved. -/
structure Searched (nodes : List (ListNode Block Data)) (query : Option Block)
    (compare : Option Block → Option Block → ℤ) (outcome : ℤ × List ℤ) : Prop where
  result : outcome.1 = 0 ∨ outcome.1 = 1
  found : outcome.1 = 1 ↔ ∃ pointer ∈ dataPointers nodes, compare pointer query = 0
  positions : ∀ position ∈ outcome.2, 0 ≤ position ∧ position < nodes.length

/-- What a list must be for a search in it to make sense. -/
structure Searchable (nodes : List (ListNode Block Data)) (query : Option Block)
    (compare : Option Block → Option Block → ℤ) : Prop where
  preorders : Preorders compare { pointer | pointer = query ∨ pointer ∈ dataPointers nodes }
  threeWay : ThreeWay compare { pointer | pointer = query ∨ pointer ∈ dataPointers nodes }
  sorted : (dataPointers nodes).Pairwise fun one two => compare one two ≤ 0

/-- Beyond the bounds there is nothing that the query could be equal to. -/
structure Narrowed (nodes : List (ListNode Block Data)) (query : Option Block)
    (compare : Option Block → Option Block → ℤ) (position minChecked maxChecked : ℕ) : Prop where
  minLe : minChecked ≤ position
  ltMax : position < maxChecked
  maxLe : maxChecked ≤ (dataPointers nodes).length
  below : ∀ index (inside : index < (dataPointers nodes).length), index < minChecked →
    compare (dataPointers nodes)[index] query < 0
  above : ∀ index (inside : index < (dataPointers nodes).length), maxChecked ≤ index →
    0 < compare (dataPointers nodes)[index] query

theorem PointerList.Holds.retrieveLl_dataPointers (holds : list.Holds nodes) {index : ℕ}
    (inside : index < (dataPointers nodes).length) :
    list.retrieveLl index = some (dataPointers nodes)[index] := by
  have within : index < nodes.length := by rwa [dataPointers, List.length_map] at inside
  rw [holds.retrieveLl_eq within]
  simp [dataPointers]

namespace Searchable

variable {position : ℕ}

/-- What comes after data that is greater than the query is greater too. -/
theorem above_of_greater (searchable : Searchable nodes query compare)
    (within : position < (dataPointers nodes).length)
    (greater : compare (dataPointers nodes)[position] query = 1) :
    ∀ index (inside : index < (dataPointers nodes).length), position ≤ index →
      0 < compare (dataPointers nodes)[index] query := by
  intro index inside after
  exact searchable.preorders.greater_of_sorted (fun _ member => .inr member) searchable.sorted
    (.inl rfl) inside after (by omega)

/-- What comes before data that is less than the query is less too. -/
theorem below_of_less (searchable : Searchable nodes query compare)
    (within : position < (dataPointers nodes).length)
    (less : compare (dataPointers nodes)[position] query = -1) :
    ∀ index (inside : index < (dataPointers nodes).length), index ≤ position →
      compare (dataPointers nodes)[index] query < 0 := by
  intro index inside before
  exact searchable.preorders.less_of_sorted (fun _ member => .inr member) searchable.sorted
    (.inl rfl) within before (by omega)

end Searchable

namespace Narrowed

variable {position minChecked maxChecked : ℕ}

theorem inside (narrowed : Narrowed nodes query compare position minChecked maxChecked) :
    position < (dataPointers nodes).length :=
  Nat.lt_of_lt_of_le narrowed.ltMax narrowed.maxLe

/-- The upper bound comes down to the position, which moves towards the lower bound. -/
theorem moveDown (narrowed : Narrowed nodes query compare position minChecked maxChecked)
    (searchable : Searchable nodes query compare)
    (within : position < (dataPointers nodes).length)
    (greater : compare (dataPointers nodes)[position] query = 1)
    (moves : position ≠ (minChecked + position) / 2) :
    Narrowed nodes query compare ((minChecked + position) / 2) minChecked position where
  minLe := by
    have minLe := narrowed.minLe
    omega
  ltMax := by
    have minLe := narrowed.minLe
    omega
  maxLe := narrowed.inside.le
  below := narrowed.below
  above := searchable.above_of_greater within greater

/-- The lower bound comes up to the position, which moves towards the upper bound. -/
theorem moveUp (narrowed : Narrowed nodes query compare position minChecked maxChecked)
    (searchable : Searchable nodes query compare)
    (within : position < (dataPointers nodes).length)
    (less : compare (dataPointers nodes)[position] query = -1) :
    Narrowed nodes query compare ((maxChecked + position) / 2) position maxChecked where
  minLe := by
    have ltMax := narrowed.ltMax
    omega
  ltMax := by
    have ltMax := narrowed.ltMax
    omega
  maxLe := narrowed.maxLe
  below := by
    intro index inside before
    exact searchable.below_of_less within less index inside before.le
  above := narrowed.above

end Narrowed

/-- A search that gives up has excluded every index. -/
theorem not_found_of_split {bound : ℕ}
    (below : ∀ index (inside : index < (dataPointers nodes).length), index < bound →
      compare (dataPointers nodes)[index] query < 0)
    (above : ∀ index (inside : index < (dataPointers nodes).length), bound ≤ index →
      0 < compare (dataPointers nodes)[index] query) :
    ¬∃ pointer ∈ dataPointers nodes, compare pointer query = 0 := by
  rintro ⟨pointer, member, same⟩
  rcases List.getElem_of_mem member with ⟨index, inside, rfl⟩
  rcases Nat.lt_or_ge index bound with before | after
  · have less := below index inside before
    omega
  · have greater := above index inside after
    omega

theorem Searched.visit {position : ℕ} {outcome : ℤ × List ℤ}
    (searched : Searched nodes query compare outcome) (within : position < nodes.length) :
    Searched nodes query compare (PointerList.visit position outcome) where
  result := searched.result
  found := searched.found
  positions := by
    intro visited member
    rcases List.mem_cons.mp member with rfl | later
    · omega
    · exact searched.positions visited later

theorem searched_singleton {position : ℕ} {result : ℤ} (within : position < nodes.length)
    (isResult : result = 0 ∨ result = 1)
    (found : result = 1 ↔ ∃ pointer ∈ dataPointers nodes, compare pointer query = 0) :
    Searched nodes query compare (result, [(position : ℤ)]) where
  result := isResult
  found := found
  positions := by
    intro visited member
    rw [List.mem_singleton.mp member]
    omega

/--
The distance of the bounds decreases in every round but one: when the position is
the lower bound and moves up. Then it is not the lower bound in the next round.
-/
theorem PointerList.Holds.binarySearchLoop (holds : list.Holds nodes)
    (searchable : Searchable nodes query compare) (short : nodes.length < 2 ^ 30) (fuel : ℕ)
    {position minChecked maxChecked : ℕ}
    (narrowed : Narrowed nodes query compare position minChecked maxChecked)
    (enough : 2 * (maxChecked - minChecked) + (if position = minChecked then 1 else 0) ≤ fuel) :
    ∃ outcome, list.binarySearchLoop query compare fuel position minChecked maxChecked =
      some outcome ∧ Searched nodes query compare outcome := by
  have isLength : (dataPointers nodes).length = nodes.length := List.length_map _
  induction fuel generalizing position minChecked maxChecked with
  | zero =>
      have minLe := narrowed.minLe
      have ltMax := narrowed.ltMax
      omega
  | succ fuel ih =>
      have inside := narrowed.inside
      have minLe := narrowed.minLe
      have ltMax := narrowed.ltMax
      have maxLe := narrowed.maxLe
      have within : position < nodes.length := isLength ▸ inside
      have isData := searchable.threeWay _ (.inr (List.getElem_mem inside)) query (.inl rfl)
      rw [PointerList.binarySearchLoop, if_pos (by omega), holds.retrieveLl_dataPointers inside,
        Option.bind_some]
      rcases isData with greater | less | same
      · rw [if_pos greater, addInt_natCast (by omega), Option.bind_some, half_natCast]
        by_cases moves : position ≠ (minChecked + position) / 2
        · have further := narrowed.moveDown searchable inside greater moves
          rcases ih further (by split_ifs at enough ⊢ <;> omega) with ⟨outcome, looped, searched⟩
          refine ⟨PointerList.visit position outcome, ?_, searched.visit within⟩
          rw [if_pos (by omega), looped, Option.map_some]
        · -- the position is the lower bound
          refine ⟨(0, [(position : ℤ)]), if_neg (by omega), ?_⟩
          apply searched_singleton within (.inl rfl)
          have below := narrowed.below
          rw [show minChecked = position by omega] at below
          exact iff_of_false (by simp)
            (not_found_of_split below (searchable.above_of_greater inside greater))
      · rw [if_neg (by omega), if_pos less, addInt_natCast (by omega), Option.bind_some,
          half_natCast]
        have further := narrowed.moveUp searchable inside less
        by_cases moves : position ≠ (maxChecked + position) / 2
        · rcases ih further (by split_ifs at enough ⊢ <;> omega) with ⟨outcome, looped, searched⟩
          refine ⟨PointerList.visit position outcome, ?_, searched.visit within⟩
          rw [if_pos (by omega), looped, Option.map_some]
        · -- the position is the last one before the upper bound
          refine ⟨(0, [(position : ℤ)]), if_neg (by omega), ?_⟩
          apply searched_singleton within (.inl rfl)
          have above := narrowed.above
          rw [show maxChecked = position + 1 by omega] at above
          have below : ∀ index (within : index < (dataPointers nodes).length),
              index < position + 1 → compare (dataPointers nodes)[index] query < 0 := by
            intro index within before
            exact searchable.below_of_less inside less index within (Nat.le_of_lt_succ before)
          exact iff_of_false (by simp) (not_found_of_split below above)
      · rw [if_neg (by omega), if_neg (by omega)]
        refine ⟨(1, [(position : ℤ)]), rfl, ?_⟩
        apply searched_singleton within (.inr rfl)
        exact iff_of_true rfl ⟨_, List.getElem_mem inside, same⟩

/--
In a sorted list of fewer than `2 ^ 30` nodes every search ends within that many
rounds, retrieves only nodes, and finds the query exactly if it is there.
-/
theorem PointerList.Holds.binarySearchLl_searched (holds : list.Holds nodes)
    (searchable : Searchable nodes query compare) (short : nodes.length < 2 ^ 30) {fuel : ℕ}
    (enough : 2 * nodes.length + 1 ≤ fuel) :
    ∃ outcome, list.binarySearchLl fuel query compare = some outcome ∧
      Searched nodes query compare outcome := by
  have isLength : (dataPointers nodes).length = nodes.length := List.length_map _
  rw [PointerList.binarySearchLl, holds.length, half_natCast]
  rcases Nat.eq_zero_or_pos nodes.length with empty | positive
  · rw [List.length_eq_zero_iff] at empty
    subst empty
    cases fuel with
    | zero => omega
    | succ fuel =>
        refine ⟨(0, []), by simp [PointerList.binarySearchLoop], ?_⟩
        exact ⟨.inl rfl, by simp [dataPointers], by simp⟩
  · have start : Narrowed nodes query compare (nodes.length / 2) 0 nodes.length :=
      { minLe := Nat.zero_le _
        ltMax := by omega
        maxLe := isLength.ge
        below := by
          intro index _ before
          omega
        above := by
          intro index inside after
          omega }
    apply holds.binarySearchLoop searchable short fuel start
    split_ifs <;> omega

/-- Two nodes, with their data behind them. -/
def twoNodes : PointerList ℕ Unit where
  memory block :=
    match block with
    | 0 => some (.node ⟨some 1, some 2, none⟩)
    | 1 => some (.data ())
    | 2 => some (.node ⟨some 3, none, none⟩)
    | 3 => some (.data ())
    | _ => none
  head := some 0
  length := 2

theorem twoNodes_holds :
    twoNodes.Holds [⟨0, ⟨1, .data ()⟩⟩, ⟨2, ⟨3, .data ()⟩⟩] where
  chain := ⟨rfl, rfl, rfl⟩
  length := rfl
  stored := by
    intro node member
    rcases List.mem_pair.mp member with rfl | rfl
    · exact ⟨⟨_, _, rfl⟩, rfl⟩
    · exact ⟨⟨_, _, rfl⟩, rfl⟩
  distinct := by decide

/-- Compares two pointers by the numbers of their blocks. -/
def compareBlocks (one two : Option ℕ) : ℤ :=
  if one.getD 0 < two.getD 0 then -1 else if two.getD 0 < one.getD 0 then 1 else 0

theorem preorders_compareBlocks (values : Set (Option ℕ)) : Preorders compareBlocks values where
  flip := by
    intro one _ two _
    simp only [compareBlocks]
    split_ifs <;> omega
  trans := by
    intro one _ two _ three _
    simp only [compareBlocks]
    split_ifs <;> omega

theorem threeWay_compareBlocks (values : Set (Option ℕ)) : ThreeWay compareBlocks values := by
  intro one _ two _
  simp only [compareBlocks]
  split_ifs <;> simp

/-- The second of the two nodes is found. -/
theorem twoNodes_searched :
    ∃ outcome, PointerList.binarySearchLl 5 twoNodes (some 3) compareBlocks = some outcome ∧
      Searched [⟨0, ⟨1, .data ()⟩⟩, ⟨2, ⟨3, Cell.data ()⟩⟩] (some 3) compareBlocks outcome := by
  apply twoNodes_holds.binarySearchLl_searched _ (by decide) (by decide)
  exact ⟨preorders_compareBlocks _, threeWay_compareBlocks _, by decide⟩

example : PointerList.binarySearchLl 5 twoNodes (some 3) compareBlocks = some (1, [1]) := by decide

end LetUsConnect
