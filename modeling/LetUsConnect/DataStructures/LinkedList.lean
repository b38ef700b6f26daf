import LetUsConnect.Lib.Blocks
import Mathlib.Algebra.BigOperators.Group.List.Basic
import Mathlib.Data.Int.Cast.Basic
import Mathlib.Tactic.Ring

/-!
# The linked list

`DataStructures/Lists/LinkedList.c` and `DataStructures/Common/Node.c`. A list
is the chain of its nodes together with the stored length, which is what every
traversal and the loop of the destructor look at. Each node carries the blocks
`malloc` returned for it, so that the operations say which blocks they allocate
and free.

Removing a node shortens the list, and the destructor compares its counter with
the length as it is then. It therefore stops when half of the nodes are gone.
-/

namespace LetUsConnect

open Blocks
open scoped Pointwise

/-- A block and what was copied into it. -/
structure Held (Block Content : Type) where
  block : Block
  content : Content

/-- A `struct Node` on the heap, without its links. -/
structure HeapNode (Block Data : Type) where
  node : Block
  data : Held Block Data

/--
`struct LinkedList`: the chain that starts at `head`, and the stored length, which
is an integer, since only 2^31 nodes would exceed the `int`.
-/
structure LinkedList (Block Data : Type) where
  head : List (HeapNode Block Data)
  length : ℤ

/-- `linked_list_constructor`. -/
def linkedListConstructor {Block Data : Type} : LinkedList Block Data := ⟨[], 0⟩

section Operations

variable {Block Data : Type} [DecidableEq Block] (allocator : Allocator Block)

/-- `node_constructor`, as far as the data pointer goes; both links are `NULL`. -/
def nodeConstructor (data : Data) : Program Block (Held Block Data) := do
  let block ← allocator.malloc
  return ⟨block, data⟩

def nodeDestructor (node : HeapNode Block Data) : Program Block PUnit := do
  free node.data.block
  free node.node

/-- The common body of `create_node_ll` and `create_node_bst`. -/
def createNode (data : Data) : Program Block (HeapNode Block Data) := do
  let newNode ← allocator.malloc
  let data ← nodeConstructor allocator data
  return ⟨newNode, data⟩

def createNodeLl (data : Data) : Program Block (HeapNode Block Data) := createNode allocator data

def destroyNodeLl (node : HeapNode Block Data) : Program Block PUnit := nodeDestructor node

namespace LinkedList

/-- The position of the node `iterate_ll` returns, `none` for `NULL`. -/
def iterateLl (list : LinkedList Block Data) (index : ℤ) : Option ℕ :=
  if index < 0 ∨ list.length ≤ index then none else some index.toNat

/-- `insert_ll`; following a pointer past the end of the chain is undefined. -/
def insertLl (list : LinkedList Block Data) (index : ℤ) (data : Data) :
    Program Block (LinkedList Block Data) := do
  let nodeToInsert ← createNodeLl allocator data
  if index = 0 then
    return ⟨nodeToInsert :: list.head, list.length + 1⟩
  else
    match list.iterateLl (index - 1) with
    | none => failure
    | some cursor =>
        if cursor < list.head.length then
          return ⟨list.head.insertIdx (cursor + 1) nodeToInsert, list.length + 1⟩
        else failure

/-- `remove_node_ll`; removing the head of an empty chain only changes the length. -/
def removeNodeLl (list : LinkedList Block Data) (index : ℤ) :
    Program Block (LinkedList Block Data) := do
  if index = 0 then
    match list.head with
    | [] => return ⟨[], list.length - 1⟩
    | nodeToRemove :: next =>
        destroyNodeLl nodeToRemove
        return ⟨next, list.length - 1⟩
  else
    match list.iterateLl (index - 1) with
    | none => failure
    | some cursor =>
        match list.head[cursor + 1]? with
        | none => failure
        | some nodeToRemove =>
            destroyNodeLl nodeToRemove
            return ⟨list.head.eraseIdx (cursor + 1), list.length - 1⟩

/-- The loop of `linked_list_destructor` from counter `i` on; `fuel` bounds its rounds. -/
def destructorLoop : ℕ → ℤ → LinkedList Block Data → Program Block (LinkedList Block Data)
  | 0, i, list => if i < list.length then failure else return list
  | fuel + 1, i, list =>
      if i < list.length then do
        let list ← list.removeNodeLl 0
        destructorLoop fuel (i + 1) list
      else return list

/-- `linked_list_destructor`, whose loop cannot take more rounds than the list is long. -/
def linkedListDestructor (list : LinkedList Block Data) : Program Block (LinkedList Block Data) :=
  destructorLoop list.length.toNat 0 list

end LinkedList

end Operations

/-! ## What a list holds -/

variable {Block Data : Type}

/-- The two blocks of a node. -/
def HeapNode.holding (node : HeapNode Block Data) : Holding Block :=
  owns node.data.block + owns node.node

theorem HeapNode.holding_subset_lost (node : HeapNode Block Data) : node.holding ⊆ lost 2 :=
  Holding.subset_lost_add (owns_subset_lost _) (owns_subset_lost _)

namespace LinkedList

/-- The stored length is the number of nodes. -/
def Sized (list : LinkedList Block Data) : Prop := list.length = list.head.length

def holding (list : LinkedList Block Data) : Holding Block :=
  (list.head.map HeapNode.holding).sum

/-- The data of the nodes, in the order of the chain. -/
def toList (list : LinkedList Block Data) : List Data := list.head.map fun node => node.data.content

theorem sized_constructor : (linkedListConstructor : LinkedList Block Data).Sized := rfl

@[simp]
theorem holding_constructor : (linkedListConstructor : LinkedList Block Data).holding = 0 := rfl

theorem holding_cons (node : HeapNode Block Data) (next : List (HeapNode Block Data))
    (length : ℤ) :
    (⟨node :: next, length⟩ : LinkedList Block Data).holding =
      node.holding + (⟨next, length⟩ : LinkedList Block Data).holding := by
  simp [holding]

theorem holding_subset_lost (list : LinkedList Block Data) :
    list.holding ⊆ lost (2 * list.head.length) := by
  rcases list with ⟨head, length⟩
  induction head with
  | nil => simp [holding]
  | cons node next ih =>
      rw [holding_cons, List.length_cons, Nat.mul_succ, Nat.add_comm]
      exact Holding.subset_lost_add node.holding_subset_lost ih

theorem holding_insertIdx (list : LinkedList Block Data) {index : ℕ} (node : HeapNode Block Data)
    (within : index ≤ list.head.length) (length : ℤ) :
    (⟨list.head.insertIdx index node, length⟩ : LinkedList Block Data).holding =
      node.holding + list.holding := by
  have moved := (List.perm_insertIdx node list.head within).map HeapNode.holding
  rw [holding, moved.sum_eq, List.map_cons, List.sum_cons, holding]

end LinkedList

/-! ## Specifications -/

section Specifications

variable [DecidableEq Block] (allocator : Allocator Block)

theorem nodeConstructor_spec (data : Data) :
    Triple 0 (nodeConstructor allocator data) (fun held => held.content = data)
      (fun held => owns held.block) := by
  apply (Triple.malloc allocator).bind
  intro block _
  exact Triple.pure rfl subset_rfl

theorem nodeDestructor_spec (node : HeapNode Block Data) :
    Triple node.holding (nodeDestructor node) (fun _ => True) (fun _ => 0) := by
  apply (Triple.free node.data.block).seq rfl
  intro _ _
  rw [zero_add]
  exact Triple.free node.node

theorem createNode_spec (data : Data) :
    Triple 0 (createNode allocator data) (fun node => node.data.content = data)
      HeapNode.holding := by
  apply (Triple.malloc allocator).bind
  intro newNode _
  apply (nodeConstructor_spec allocator data).seq (zero_add _).symm
  intro held same
  exact Triple.pure same subset_rfl

namespace LinkedList

/-- An insertion at a valid position keeps the chain and adds one node. -/
theorem insertLl_spec (list : LinkedList Block Data) (sized : list.Sized) {index : ℕ}
    (within : index ≤ list.head.length) (data : Data) :
    Triple list.holding (list.insertLl allocator index data)
      (fun after => after.Sized ∧ after.toList = list.toList.insertIdx index data) holding := by
  have length_eq : list.length = list.head.length := sized
  apply (createNode_spec allocator data).seq (zero_add _).symm
  intro node same
  rcases index with _ | index
  · rw [if_pos Nat.cast_zero]
    apply Triple.pure
    · exact ⟨by simp [Sized, length_eq], by simp [toList, same]⟩
    · rw [holding_cons]
      exact subset_rfl
  · have position : list.iterateLl ((index + 1 : ℕ) - 1) = some index := by
      rw [iterateLl, if_neg (by omega)]
      simp
    rw [if_neg (by omega), position]
    dsimp only
    rw [if_pos (by omega)]
    apply Triple.pure
    · constructor
      · rw [Sized, List.length_insertIdx, if_pos within, length_eq]
        push_cast
        ring
      · rw [toList, toList, List.map_insertIdx, same]
    · rw [holding_insertIdx list node within]

/-- Removing the head frees its blocks. -/
theorem removeNodeLl_zero_spec (node : HeapNode Block Data) (next : List (HeapNode Block Data))
    (length : ℤ) :
    Triple (⟨node :: next, length⟩ : LinkedList Block Data).holding
      ((⟨node :: next, length⟩ : LinkedList Block Data).removeNodeLl 0)
      (fun after => after = ⟨next, length - 1⟩) holding := by
  rw [holding_cons]
  apply (nodeDestructor_spec node).seq rfl
  intro _ _
  rw [zero_add]
  exact Triple.pure rfl subset_rfl

/-- From counter `i` on, half of the `n - i` rounds that the length promises take place. -/
theorem destructorLoop_spec (fuel i : ℕ) (list : LinkedList Block Data) (sized : list.Sized)
    (enough : list.head.length ≤ fuel + i) :
    Triple list.holding (destructorLoop fuel i list)
      (fun after => after.Sized ∧
        after.head.length = list.head.length - (list.head.length - i + 1) / 2) holding := by
  induction fuel generalizing i list with
  | zero =>
      have length_eq : list.length = list.head.length := sized
      rw [destructorLoop, if_neg (by omega)]
      apply Triple.pure _ subset_rfl
      exact ⟨sized, by omega⟩
  | succ fuel ih =>
      rw [destructorLoop]
      by_cases inside : (i : ℤ) < list.length
      · rw [if_pos inside]
        rcases list with ⟨_ | ⟨node, next⟩, length⟩
        · have length_eq : length = 0 := sized
          dsimp only at inside
          omega
        · have length_eq : length = next.length + 1 := sized
          dsimp only at inside
          have enoughNext : next.length + 1 ≤ fuel + 1 + i := enough
          apply (removeNodeLl_zero_spec node next length).bind
          rintro after rfl
          have sizedNext : (⟨next, length - 1⟩ : LinkedList Block Data).Sized := by
            simp [Sized, length_eq]
          have rest := ih (i + 1) ⟨next, length - 1⟩ sizedNext (by dsimp only; omega)
          rw [Nat.cast_add, Nat.cast_one] at rest
          apply rest.weaken subset_rfl
          · rintro last ⟨lastSized, lastLength⟩
            refine ⟨lastSized, ?_⟩
            simp only [List.length_cons] at lastLength ⊢
            omega
          · exact fun _ _ => subset_rfl
      · have length_eq : list.length = list.head.length := sized
        rw [if_neg inside]
        apply Triple.pure _ subset_rfl
        exact ⟨sized, by omega⟩

/-- The destructor leaves half of the nodes, rounded down, where they are. -/
theorem linkedListDestructor_spec (list : LinkedList Block Data) (sized : list.Sized) :
    Triple list.holding list.linkedListDestructor
      (fun after => after.Sized ∧ after.head.length = list.head.length / 2) holding := by
  have length_eq : list.length = list.head.length := sized
  apply (destructorLoop_spec list.length.toNat 0 list sized (by omega)).weaken subset_rfl
  · rintro after ⟨afterSized, afterLength⟩
    exact ⟨afterSized, by omega⟩
  · exact fun _ _ => subset_rfl

/-- Of the blocks of `n` nodes the destructor loses those of `n / 2`. -/
theorem linkedListDestructor_loses (list : LinkedList Block Data) (sized : list.Sized) :
    Triple list.holding list.linkedListDestructor (fun _ => True)
      (fun _ => lost (2 * (list.head.length / 2))) := by
  apply (linkedListDestructor_spec list sized).weaken subset_rfl
  · exact fun _ _ => trivial
  · intro after destroyed
    rw [← destroyed.2]
    exact after.holding_subset_lost

end LinkedList

end Specifications

end LetUsConnect
