import LetUsConnect.DataStructures.Dictionary
import LetUsConnect.DataStructures.LinkedList

/-!
# The blocks of a dictionary

`DataStructures/Dictionary` once more, with the blocks its functions allocate
and free. `toDictionary` forgets the blocks; the operations then are those of
`Dictionary`.

Three places lose blocks. An entry whose key the tree refuses is not freed, the
entry that `search_dict` builds to compare with is not freed, and the destructor
of the key list stops halfway.
-/

namespace LetUsConnect

open Blocks CString
open scoped Pointwise

/-- `struct Entry` with the blocks behind its two pointers. -/
structure HeapEntry (Block Value : Type) where
  key : Held Block Bytes
  value : Held Block Value

/-- The entry without its blocks. -/
def HeapEntry.toEntry {Block Value : Type} (entry : HeapEntry Block Value) : Entry Value :=
  ⟨entry.key.content, entry.value.content⟩

/-- A tree node of a dictionary: its data is a copy of a `struct Entry`. -/
abbrev EntryNode (Block : Type) := HeapNode Block (HeapEntry Block Bytes)

/-- The entry of a node without its blocks. -/
def EntryNode.toEntry {Block : Type} (node : EntryNode Block) : Entry Bytes :=
  node.data.content.toEntry

/-- `struct Dictionary`, ordered by `compare_string_keys`. -/
structure HeapDictionary (Block : Type) where
  binarySearchTree : Tree (EntryNode Block)
  keys : LinkedList Block Bytes

/-- `dictionary_constructor(compare_string_keys)`. -/
def heapDictionaryConstructor {Block : Type} : HeapDictionary Block :=
  ⟨.null, linkedListConstructor⟩

section Operations

variable {Block Value : Type} [DecidableEq Block] (allocator : Allocator Block)

def entryConstructor (key : Bytes) (value : Value) : Program Block (HeapEntry Block Value) := do
  let keyBlock ← allocator.malloc
  let valueBlock ← allocator.malloc
  return ⟨⟨keyBlock, key⟩, ⟨valueBlock, value⟩⟩

/-- `entry_destructor`; the block of the entry itself is freed last. -/
def entryDestructor (entry : Held Block (HeapEntry Block Value)) : Program Block PUnit := do
  free entry.content.key.block
  free entry.content.value.block
  free entry.block

/-- `compare_string_keys` of the entry in a node and another one. -/
def compareHeapKeys (node : EntryNode Block) (entry : HeapEntry Block Value) : ℤ :=
  compareStringKeys node.toEntry entry.toEntry

def createNodeBst (entry : HeapEntry Block Bytes) : Program Block (EntryNode Block) :=
  createNode allocator entry

/-- `insert_bst`, which allocates a node only once it has found a place for it. -/
def heapInsertBst (tree : Tree (EntryNode Block)) (entry : HeapEntry Block Bytes) :
    Program Block (Tree (EntryNode Block)) :=
  match tree.iterateBst compareHeapKeys entry with
  | none => do
      let node ← createNodeBst allocator entry
      return .node node .null .null
  | some (cursor, direction) =>
      if direction = 1 then do
        let node ← createNodeBst allocator entry
        return tree.setChild cursor .next (.node node .null .null)
      else if direction = -1 then do
        let node ← createNodeBst allocator entry
        return tree.setChild cursor .previous (.node node .null .null)
      else return tree

/-- `recursive_dictionary_destroy`, called on the children that are not `NULL`. -/
def recursiveDictionaryDestroy : Tree (EntryNode Block) → Program Block PUnit
  | .null => return ⟨⟩
  | .node node next previous => do
      recursiveDictionaryDestroy previous
      recursiveDictionaryDestroy next
      entryDestructor node.data
      free node.node

namespace HeapDictionary

def insertDict (dictionary : HeapDictionary Block) (key value : Bytes) :
    Program Block (HeapDictionary Block) := do
  let entry ← entryConstructor allocator key value
  let tree ← heapInsertBst allocator dictionary.binarySearchTree entry
  let keys ← dictionary.keys.insertLl allocator dictionary.keys.length key
  return ⟨tree, keys⟩

/-- `search_dict`; a key may be `NULL`. The entry it compares with is a local variable. -/
def searchDict (dictionary : HeapDictionary Block) (key : Option Bytes) :
    Program Block (Option Bytes) :=
  match key with
  | none => return none
  | some key =>
      match dictionary.binarySearchTree with
      | .null => return none
      | tree => do
          let searchable ← entryConstructor allocator key (0 : ℤ)
          return (tree.searchBst compareHeapKeys searchable).map fun node =>
            node.data.content.value.content

def dictionaryDestructor (dictionary : HeapDictionary Block) : Program Block PUnit := do
  let _ ← dictionary.keys.linkedListDestructor
  recursiveDictionaryDestroy dictionary.binarySearchTree

end HeapDictionary

end Operations

/-! ## What a dictionary holds -/

variable {Block Value : Type}

/-- The blocks of the key and of the value. -/
def HeapEntry.holding (entry : HeapEntry Block Value) : Holding Block :=
  owns entry.key.block + owns entry.value.block

theorem HeapEntry.holding_subset_lost (entry : HeapEntry Block Value) :
    entry.holding ⊆ lost 2 :=
  Holding.subset_lost_add (owns_subset_lost _) (owns_subset_lost _)

/-- The blocks of a tree node and of the entry in it. -/
def EntryNode.entryHolding (node : EntryNode Block) : Holding Block :=
  node.holding + node.data.content.holding

namespace HeapDictionary

/-- The dictionary without its blocks. -/
def toDictionary (dictionary : HeapDictionary Block) : Dictionary Bytes :=
  ⟨dictionary.binarySearchTree.map EntryNode.toEntry, dictionary.keys.toList⟩

/-- The blocks of the tree and of the key list, and those lost to refused entries. -/
def holding (dictionary : HeapDictionary Block) : Holding Block :=
  dictionary.binarySearchTree.total EntryNode.entryHolding + dictionary.keys.holding +
    lost (2 * dictionary.toDictionary.refused)

/-- The dictionary stands for one without blocks that was filled by insertions. -/
structure Refines (dictionary : HeapDictionary Block) (abstract : Dictionary Bytes) : Prop where
  same : dictionary.toDictionary = abstract
  sized : dictionary.keys.Sized
  listed : abstract.KeysListed

theorem refines_constructor :
    (heapDictionaryConstructor : HeapDictionary Block).Refines dictionaryConstructor where
  same := rfl
  sized := LinkedList.sized_constructor
  listed := Dictionary.keysListed_constructor

theorem holding_constructor : (heapDictionaryConstructor : HeapDictionary Block).holding = 0 := by
  have abstract : (heapDictionaryConstructor : HeapDictionary Block).toDictionary =
      dictionaryConstructor := rfl
  rw [holding, abstract, Dictionary.refused_constructor, Nat.mul_zero, lost_zero, add_zero,
    heapDictionaryConstructor, LinkedList.holding_constructor, add_zero, Tree.total]

end HeapDictionary

/-! ## Specifications -/

section Specifications

variable [DecidableEq Block] (allocator : Allocator Block)

theorem entryConstructor_spec (key : Bytes) (value : Value) :
    Triple 0 (entryConstructor allocator key value) (fun entry => entry.toEntry = ⟨key, value⟩)
      HeapEntry.holding := by
  apply (Triple.malloc allocator).bind
  intro keyBlock _
  apply (Triple.malloc allocator).seq (zero_add _).symm
  intro valueBlock _
  rw [add_comm]
  exact Triple.pure rfl subset_rfl

theorem entryDestructor_spec (entry : Held Block (HeapEntry Block Value)) :
    Triple (entry.content.holding + owns entry.block) (entryDestructor entry) (fun _ => True)
      (fun _ => 0) := by
  apply (Triple.free entry.content.key.block).seq (add_assoc _ _ _)
  intro _ _
  rw [zero_add]
  apply (Triple.free entry.content.value.block).seq rfl
  intro _ _
  rw [zero_add]
  exact Triple.free entry.block

/-- A new node holds its own blocks and those of the entry copied into it. -/
theorem createNodeBst_spec (entry : HeapEntry Block Bytes) :
    Triple entry.holding (createNodeBst allocator entry) (fun node => node.data.content = entry)
      EntryNode.entryHolding := by
  apply (createNode_spec allocator entry).last (zero_add _).symm
  · exact fun _ same => same
  · intro node same
    rw [EntryNode.entryHolding, same]

/-- A node for the entry, stored where the cursor ends, adds what the entry holds. -/
theorem setChild_createNodeBst_spec {tree : Tree (EntryNode Block)} {cursor : Cursor}
    {direction : ℤ} {side : Side} (ends : tree.EndsAt cursor direction)
    (sides : (direction = 1 ∧ side = .next) ∨ (direction = -1 ∧ side = .previous))
    (entry : HeapEntry Block Bytes) :
    Triple (tree.total EntryNode.entryHolding + entry.holding)
      (do
        let node ← createNodeBst allocator entry
        return tree.setChild cursor side (.node node .null .null))
      (fun after => after.map EntryNode.toEntry =
        (tree.map EntryNode.toEntry).setChild cursor side (.node entry.toEntry .null .null))
      (fun after => after.total EntryNode.entryHolding) := by
  apply (createNodeBst_spec allocator entry).seq (add_comm _ _)
  intro node same
  apply Triple.pure
  · rw [Tree.setChild_map, Tree.map, EntryNode.toEntry, same]
    rfl
  · rw [ends.total_setChild _ sides, add_comm]

/-- An insertion is that of the tree without blocks; a refused entry is lost. -/
theorem heapInsertBst_spec (tree : Tree (EntryNode Block)) (entry : HeapEntry Block Bytes) :
    Triple (tree.total EntryNode.entryHolding + entry.holding)
      (heapInsertBst allocator tree entry)
      (fun after => after.map EntryNode.toEntry =
        (tree.map EntryNode.toEntry).insertBst compareStringKeys entry.toEntry)
      (fun after => after.total EntryNode.entryHolding +
        lost (if ((tree.map EntryNode.toEntry).searchBst compareStringKeys entry.toEntry).isSome
          then 2 else 0)) := by
  have agree : ∀ node : EntryNode Block,
      compareStringKeys node.toEntry entry.toEntry = compareHeapKeys node entry := fun _ => rfl
  have iterated := Tree.iterateBst_map EntryNode.toEntry agree tree
  rw [heapInsertBst, Tree.insertBst, iterated]
  cases found : tree.iterateBst compareHeapKeys entry with
  | none =>
      have isNull := (Tree.iterateBst_eq_none_iff _ _ _).mp found
      subst isNull
      apply (createNodeBst_spec allocator entry).seq (add_comm _ _)
      intro node same
      apply Triple.pure
      · simp [Tree.map, EntryNode.toEntry, same]
      · simp [Tree.total, Tree.map]
  | some position =>
      obtain ⟨cursor, direction⟩ := position
      have ends := Tree.endsAt_of_iterateBst found
      have present := Tree.isSome_searchBst_iff (iterated.trans found)
      simp only [present]
      rcases ends.direction with rfl | rfl | rfl
      · simpa using setChild_createNodeBst_spec allocator ends (.inl ⟨rfl, rfl⟩) entry
      · simpa using setChild_createNodeBst_spec allocator ends (.inr ⟨rfl, rfl⟩) entry
      · exact Triple.pure rfl (Set.add_subset_add subset_rfl entry.holding_subset_lost)

theorem recursiveDictionaryDestroy_spec (tree : Tree (EntryNode Block)) :
    Triple (tree.total EntryNode.entryHolding) (recursiveDictionaryDestroy tree) (fun _ => True)
      (fun _ => 0) := by
  induction tree with
  | null => exact Triple.pure trivial subset_rfl
  | node node next previous ihNext ihPrevious =>
      apply ihPrevious.seq (add_comm _ _)
      intro _ _
      rw [zero_add]
      apply ihNext.seq (add_comm _ _)
      intro _ _
      rw [zero_add]
      have parts : node.entryHolding =
          node.data.content.holding + owns node.data.block + owns node.node := by
        rw [EntryNode.entryHolding, HeapNode.holding, add_comm, add_assoc]
      apply (entryDestructor_spec node.data).seq parts
      intro _ _
      rw [zero_add]
      exact Triple.free node.node

namespace HeapDictionary

theorem insertDict_spec {dictionary : HeapDictionary Block} {abstract : Dictionary Bytes}
    (refines : dictionary.Refines abstract) (key value : Bytes) :
    Triple dictionary.holding (dictionary.insertDict allocator key value)
      (fun after => after.Refines (abstract.insertDict key value)) holding := by
  obtain ⟨rfl, sized, listed⟩ := refines
  have length_eq : dictionary.keys.length = dictionary.keys.head.length := sized
  apply (entryConstructor_spec allocator key value).seq (zero_add _).symm
  intro entry entry_eq
  apply (heapInsertBst_spec allocator dictionary.binarySearchTree entry).seq
  · rw [holding, add_assoc _ dictionary.keys.holding, ← add_assoc, add_comm entry.holding]
  · intro tree tree_eq
    have inserted := dictionary.keys.insertLl_spec allocator sized le_rfl key
    rw [length_eq]
    apply inserted.seq
    · rw [← add_assoc, add_right_comm, add_comm _ dictionary.keys.holding, add_assoc]
    · rintro keys ⟨keysSized, keys_eq⟩
      have same : toDictionary ⟨tree, keys⟩ = dictionary.toDictionary.insertDict key value := by
        have length_toList : dictionary.keys.head.length = dictionary.keys.toList.length := by
          rw [LinkedList.toList, List.length_map]
        rw [toDictionary, tree_eq, entry_eq, keys_eq, length_toList, List.insertIdx_length_self]
        rfl
      have present := listed.isSome_searchBst entry.toEntry
      rw [entry_eq] at present
      apply Triple.pure
      · exact ⟨same, keysSized, listed.insertDict key value⟩
      · rw [holding, same, Dictionary.refused_insertDict, ← add_assoc,
          add_comm keys.holding]
        apply Set.add_subset_add subset_rfl
        apply (lost_add_subset _ _).trans
        have counted : (if (dictionary.toDictionary.binarySearchTree.searchBst
              compareStringKeys (⟨key, value⟩ : Entry Bytes)).isSome then 2 else 0) +
            2 * dictionary.toDictionary.refused =
            2 * (dictionary.toDictionary.refused +
              if key ∈ dictionary.toDictionary.keys then 1 else 0) := by
          simp only [present]
          split_ifs <;> omega
        rw [entry_eq]
        exact (congrArg lost counted).subset

/-- A search finds what it finds without blocks; its entry is lost when there is a tree. -/
theorem searchDict_spec {dictionary : HeapDictionary Block} {abstract : Dictionary Bytes}
    (refines : dictionary.Refines abstract) (key : Option Bytes) :
    Triple 0 (dictionary.searchDict allocator key)
      (fun value => value = key.bind abstract.searchDict)
      (fun _ => lost (if key = none ∨ abstract.keys = [] then 0 else 2)) := by
  obtain ⟨rfl, sized, listed⟩ := refines
  have headless := listed.headless
  rcases key with _ | key
  · rw [if_pos (.inl rfl), lost_zero]
    exact Triple.pure rfl subset_rfl
  · rcases dictionary with ⟨_ | ⟨node, next, previous⟩, keys⟩
    · rw [if_pos (.inr (headless.mp rfl)), lost_zero]
      exact Triple.pure rfl subset_rfl
    · have filled : (toDictionary ⟨.node node next previous, keys⟩).keys ≠ [] := by
        intro empty
        cases headless.mpr empty
      rw [if_neg (by simp [filled])]
      apply (entryConstructor_spec allocator key (0 : ℤ)).bind
      intro searchable searchable_eq
      refine Triple.pure ?_ searchable.holding_subset_lost
      have agree : ∀ node : EntryNode Block, compareStringKeys node.toEntry searchable.toEntry =
          compareHeapKeys node searchable := fun _ => rfl
      have searched := Tree.searchBst_map EntryNode.toEntry agree (.node node next previous)
      rw [searchable_eq] at searched
      rw [Option.bind_some, Dictionary.searchDict_eq, toDictionary, searched, Option.map_map]
      rfl

theorem dictionaryDestructor_spec {dictionary : HeapDictionary Block}
    {abstract : Dictionary Bytes} (refines : dictionary.Refines abstract) :
    Triple dictionary.holding dictionary.dictionaryDestructor (fun _ => True)
      (fun _ => lost abstract.unreleased) := by
  obtain ⟨rfl, sized, listed⟩ := refines
  have length_eq : dictionary.keys.head.length = dictionary.toDictionary.keys.length := by
    rw [toDictionary, LinkedList.toList, List.length_map]
  apply (dictionary.keys.linkedListDestructor_loses sized).seq
  · rw [holding, add_assoc, add_left_comm]
  · intro _ _
    rw [add_left_comm]
    apply (recursiveDictionaryDestroy_spec dictionary.binarySearchTree).last rfl
    · exact fun _ _ => trivial
    · intro _ _
      rw [zero_add, Dictionary.unreleased, length_eq]
      exact lost_add_subset _ _

end HeapDictionary

end Specifications

end LetUsConnect
