import Mathlib.Algebra.Group.Basic
import Mathlib.Data.Int.Order.Basic

/-!
# The binary search tree

`DataStructures/Trees/BinarySearchTree.c` over arbitrary data. A node pointer is
the sequence of child pointers followed from the head, so that storing through
a cursor (`cursor->next = ...`) replaces one child of one node.

The comparator takes the data of a node and the data looked for; as with the
`void` pointers of the source, the two may be of different types. `iterateBst`
moves to `next` when the comparator returns 1 and to `previous` when it returns
-1.
-/

namespace LetUsConnect

universe u v w

/-- `struct Node` with everything reachable from it; `null` is the null pointer. -/
inductive Tree (Data : Type u) where
  | null
  | node (data : Data) (next previous : Tree Data)

/-- The child pointers of `struct Node`. -/
inductive Side where
  | next
  | previous
  deriving DecidableEq

/-- A pointer to a node, given by the child pointers that lead to it from the head. -/
abbrev Cursor := List Side

namespace Tree

variable {Data : Type u} {Query : Type v}

/-- `cursor->data`. -/
def dataAt : Tree Data → Cursor → Option Data
  | .null, _ => none
  | .node data _ _, [] => some data
  | .node _ next _, .next :: cursor => next.dataAt cursor
  | .node _ _ previous, .previous :: cursor => previous.dataAt cursor

/-- `cursor->next = child` or `cursor->previous = child`. -/
def setChild : Tree Data → Cursor → Side → Tree Data → Tree Data
  | .null, _, _, _ => .null
  | .node data _ previous, [], .next, child => .node data child previous
  | .node data next _, [], .previous, child => .node data next child
  | .node data next previous, .next :: cursor, side, child =>
      .node data (next.setChild cursor side child) previous
  | .node data next previous, .previous :: cursor, side, child =>
      .node data next (previous.setChild cursor side child)

/--
The cursor and the direction `iterate_bst` ends with. The recursive call gives
no cursor exactly when the child pointer is `NULL`.
-/
def iterateBst (compare : Data → Query → ℤ) (query : Query) : Tree Data → Option (Cursor × ℤ)
  | .null => none
  | .node data next previous =>
      if compare data query = 1 then
        match next.iterateBst compare query with
        | some (cursor, direction) => some (.next :: cursor, direction)
        | none => some ([], 1)
      else if compare data query = -1 then
        match previous.iterateBst compare query with
        | some (cursor, direction) => some (.previous :: cursor, direction)
        | none => some ([], -1)
      else some ([], 0)

def searchBst (compare : Data → Query → ℤ) (tree : Tree Data) (query : Query) : Option Data :=
  match tree.iterateBst compare query with
  | none => none
  | some (cursor, direction) => if direction = 0 then tree.dataAt cursor else none

def insertBst (compare : Data → Data → ℤ) (tree : Tree Data) (data : Data) : Tree Data :=
  match tree.iterateBst compare data with
  | none => .node data .null .null
  | some (cursor, direction) =>
      if direction = 1 then tree.setChild cursor .next (.node data .null .null)
      else if direction = -1 then tree.setChild cursor .previous (.node data .null .null)
      else tree

theorem iterateBst_eq_none_iff (compare : Data → Query → ℤ) (query : Query) (tree : Tree Data) :
    tree.iterateBst compare query = none ↔ tree = .null := by
  cases tree with
  | null => simp [iterateBst]
  | node data next previous =>
      simp only [iterateBst, reduceCtorEq, iff_false]
      split_ifs
      · cases next.iterateBst compare query <;> simp
      · cases previous.iterateBst compare query <;> simp
      · simp

@[simp]
theorem searchBst_null (compare : Data → Query → ℤ) (query : Query) :
    (null : Tree Data).searchBst compare query = none := rfl

@[simp]
theorem insertBst_null (compare : Data → Data → ℤ) (data : Data) :
    (null : Tree Data).insertBst compare data = .node data .null .null := rfl

theorem searchBst_node (compare : Data → Query → ℤ) (query : Query) (data : Data)
    (next previous : Tree Data) :
    (node data next previous).searchBst compare query =
      if compare data query = 1 then next.searchBst compare query
      else if compare data query = -1 then previous.searchBst compare query
      else some data := by
  simp only [searchBst, iterateBst]
  split_ifs with above below
  · cases next.iterateBst compare query <;> simp [dataAt]
  · cases previous.iterateBst compare query <;> simp [dataAt]
  · simp [dataAt]

theorem insertBst_node (compare : Data → Data → ℤ) (new data : Data)
    (next previous : Tree Data) :
    (node data next previous).insertBst compare new =
      if compare data new = 1 then .node data (next.insertBst compare new) previous
      else if compare data new = -1 then .node data next (previous.insertBst compare new)
      else .node data next previous := by
  simp only [insertBst, iterateBst]
  split_ifs with above below
  · cases found : next.iterateBst compare new with
    | none =>
        rw [iterateBst_eq_none_iff] at found
        simp [setChild]
    | some position => simp only [setChild]; split_ifs <;> rfl
  · cases found : previous.iterateBst compare new with
    | none =>
        rw [iterateBst_eq_none_iff] at found
        simp [setChild]
    | some position => simp only [setChild]; split_ifs <;> rfl
  · rfl

/-- A search sees nothing but the results of its comparisons. -/
theorem searchBst_congr {Other : Type w} {compare : Data → Query → ℤ} {query : Query}
    {compareOther : Data → Other → ℤ} {other : Other}
    (agree : ∀ data, compare data query = compareOther data other) (tree : Tree Data) :
    tree.searchBst compare query = tree.searchBst compareOther other := by
  induction tree with
  | null => rfl
  | node data next previous ihNext ihPrevious =>
      rw [searchBst_node, searchBst_node, ihNext, ihPrevious, agree]

/--
What a search finds after an insertion: the data found before it, or else the
inserted data when the search is for it. Data that the query matches has to be
placed where the query looks.
-/
theorem searchBst_insertBst {compareData : Data → Data → ℤ} {compare : Data → Query → ℤ}
    {new : Data} {query : Query}
    (values : compare new query = 1 ∨ compare new query = -1 ∨ compare new query = 0)
    (placed : compare new query = 0 → ∀ data, compareData data new = compare data query)
    (tree : Tree Data) :
    (tree.insertBst compareData new).searchBst compare query =
      (tree.searchBst compare query).or (if compare new query = 0 then some new else none) := by
  induction tree with
  | null =>
      rw [insertBst_null, searchBst_node]
      rcases values with greater | less | equal
      · simp [greater]
      · simp [less]
      · simp [equal]
  | node data next previous ihNext ihPrevious =>
      rw [insertBst_node, searchBst_node]
      by_cases matched : compare new query = 0
      · rw [placed matched data]
        split_ifs with above below <;> simp_all [searchBst_node]
      · split_ifs with above below <;> simp_all [searchBst_node]

/-! ## Where the cursor ends -/

/--
The positions `iterate_bst` can end at: a node that compares equal, or one
without the child on the side of the direction.
-/
inductive EndsAt : Tree Data → Cursor → ℤ → Prop where
  | here (data : Data) (next previous : Tree Data) : EndsAt (.node data next previous) [] 0
  | noNext (data : Data) (previous : Tree Data) : EndsAt (.node data .null previous) [] 1
  | noPrevious (data : Data) (next : Tree Data) : EndsAt (.node data next .null) [] (-1)
  | next (data : Data) {next previous : Tree Data} {cursor : Cursor} {direction : ℤ}
      (further : EndsAt next cursor direction) :
      EndsAt (.node data next previous) (.next :: cursor) direction
  | previous (data : Data) {next previous : Tree Data} {cursor : Cursor} {direction : ℤ}
      (further : EndsAt previous cursor direction) :
      EndsAt (.node data next previous) (.previous :: cursor) direction

theorem endsAt_of_iterateBst {compare : Data → Query → ℤ} {query : Query} {tree : Tree Data}
    {cursor : Cursor} {direction : ℤ}
    (found : tree.iterateBst compare query = some (cursor, direction)) :
    tree.EndsAt cursor direction := by
  induction tree generalizing cursor with
  | null => simp [iterateBst] at found
  | node data next previous ihNext ihPrevious =>
      rw [iterateBst] at found
      split_ifs at found with above below
      · cases further : next.iterateBst compare query with
        | none =>
            simp only [further, Option.some.injEq, Prod.mk.injEq] at found
            rw [iterateBst_eq_none_iff] at further
            rw [← found.1, ← found.2, further]
            exact .noNext data previous
        | some position =>
            simp only [further, Option.some.injEq, Prod.mk.injEq] at found
            rw [← found.1]
            exact .next data (ihNext (by rw [further, ← found.2]))
      · cases further : previous.iterateBst compare query with
        | none =>
            simp only [further, Option.some.injEq, Prod.mk.injEq] at found
            rw [iterateBst_eq_none_iff] at further
            rw [← found.1, ← found.2, further]
            exact .noPrevious data next
        | some position =>
            simp only [further, Option.some.injEq, Prod.mk.injEq] at found
            rw [← found.1]
            exact .previous data (ihPrevious (by rw [further, ← found.2]))
      · simp only [Option.some.injEq, Prod.mk.injEq] at found
        rw [← found.1, ← found.2]
        exact .here data next previous

theorem EndsAt.direction {tree : Tree Data} {cursor : Cursor} {direction : ℤ}
    (ends : tree.EndsAt cursor direction) :
    direction = 1 ∨ direction = -1 ∨ direction = 0 := by
  induction ends with
  | here => simp
  | noNext => simp
  | noPrevious => simp
  | next _ _ ih => exact ih
  | previous _ _ ih => exact ih

/-- The cursor is never `NULL`. -/
theorem EndsAt.isSome_dataAt {tree : Tree Data} {cursor : Cursor} {direction : ℤ}
    (ends : tree.EndsAt cursor direction) : (tree.dataAt cursor).isSome := by
  induction ends with
  | here => rfl
  | noNext => rfl
  | noPrevious => rfl
  | next _ _ ih => exact ih
  | previous _ _ ih => exact ih

/-- A search finds something exactly when the cursor ends in direction 0. -/
theorem isSome_searchBst_iff {compare : Data → Query → ℤ} {query : Query} {tree : Tree Data}
    {cursor : Cursor} {direction : ℤ}
    (found : tree.iterateBst compare query = some (cursor, direction)) :
    (tree.searchBst compare query).isSome ↔ direction = 0 := by
  rw [searchBst, found]
  dsimp only
  split_ifs with equal
  · simp [equal, (endsAt_of_iterateBst found).isSome_dataAt]
  · simp [equal]

/-! ## The data of all nodes -/

section Nodes

variable {Other : Type w} (view : Data → Other)

/-- The tree with every node's data replaced by a view of it. -/
def map : Tree Data → Tree Other
  | .null => .null
  | .node data next previous => .node (view data) next.map previous.map

theorem iterateBst_map {OtherQuery : Type v} {compareView : Other → OtherQuery → ℤ}
    {viewed : OtherQuery} {compare : Data → Query → ℤ} {query : Query}
    (agree : ∀ data, compareView (view data) viewed = compare data query) (tree : Tree Data) :
    (tree.map view).iterateBst compareView viewed = tree.iterateBst compare query := by
  induction tree with
  | null => rfl
  | node data next previous ihNext ihPrevious =>
      simp only [map, iterateBst, ihNext, ihPrevious, agree]

theorem dataAt_map (tree : Tree Data) (cursor : Cursor) :
    (tree.map view).dataAt cursor = (tree.dataAt cursor).map view := by
  induction tree generalizing cursor with
  | null => rfl
  | node data next previous ihNext ihPrevious =>
      rcases cursor with _ | ⟨side, cursor⟩
      · rfl
      · cases side with
        | next => exact ihNext cursor
        | previous => exact ihPrevious cursor

theorem setChild_map (tree : Tree Data) (cursor : Cursor) (side : Side) (child : Tree Data) :
    (tree.setChild cursor side child).map view =
      (tree.map view).setChild cursor side (child.map view) := by
  induction tree generalizing cursor with
  | null => rfl
  | node data next previous ihNext ihPrevious =>
      rcases cursor with _ | ⟨first, cursor⟩
      · cases side <;> rfl
      · cases first with
        | next => simp only [setChild, map, ihNext]
        | previous => simp only [setChild, map, ihPrevious]

theorem searchBst_map {OtherQuery : Type v} {compareView : Other → OtherQuery → ℤ}
    {viewed : OtherQuery} {compare : Data → Query → ℤ} {query : Query}
    (agree : ∀ data, compareView (view data) viewed = compare data query) (tree : Tree Data) :
    (tree.map view).searchBst compareView viewed = (tree.searchBst compare query).map view := by
  rw [searchBst, searchBst, iterateBst_map view agree]
  split
  · rfl
  · split_ifs
    · rw [dataAt_map]
    · rfl

end Nodes

section Total

variable {Weight : Type w} [AddCommMonoid Weight] (weight : Data → Weight)

/-- The sum of a weight over the nodes. -/
def total : Tree Data → Weight
  | .null => 0
  | .node data next previous => weight data + next.total + previous.total

/-- A node stored behind the cursor, on the side of the direction, adds its weight. -/
theorem EndsAt.total_setChild {tree : Tree Data} {cursor : Cursor} {direction : ℤ}
    (ends : tree.EndsAt cursor direction) {side : Side}
    (sides : (direction = 1 ∧ side = .next) ∨ (direction = -1 ∧ side = .previous))
    (new : Data) :
    (tree.setChild cursor side (.node new .null .null)).total weight =
      tree.total weight + weight new := by
  induction ends with
  | here => simp at sides
  | noNext data previous =>
      have isNext : side = .next := by simpa using sides
      simp [isNext, setChild, total, add_right_comm]
  | noPrevious data next =>
      have isPrevious : side = .previous := by simpa using sides
      simp [isPrevious, setChild, total]
  | next data further ih =>
      rw [setChild, total, total, ih sides, ← add_assoc, add_right_comm _ (weight new)]
  | previous data further ih =>
      rw [setChild, total, total, ih sides, ← add_assoc]

end Total

end Tree

end LetUsConnect
