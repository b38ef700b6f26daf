import LetUsConnect.DataStructures.HeapDictionary
import LetUsConnect.DataStructures.TreeOrder

/-!
# The key list and the tree

`insert_dict` puts every key at the end of the key list, whether or not the tree
takes the entry. The list therefore tells the keys of the tree only as long as
the tree refuses none. The operations are those of `HeapDictionary` with any
comparator of keys in place of `compare_string_keys`.
-/

namespace LetUsConnect

open Blocks Comparators CString
open scoped Pointwise

section Operations

variable {Block : Type} [DecidableEq Block] (allocator : Allocator Block)
  (compare : Bytes → Bytes → ℤ)

/-- The comparator of the tree, which is given the entry of a node and another one. -/
def compareNodeKey (node : EntryNode Block) (entry : HeapEntry Block Bytes) : ℤ :=
  compare node.data.content.key.content entry.key.content

/-- `insert_bst` on entries, with this comparator. -/
def insertBstBy (tree : Tree (EntryNode Block)) (entry : HeapEntry Block Bytes) :
    Program Block (Tree (EntryNode Block)) :=
  match tree.iterateBst (compareNodeKey compare) entry with
  | none => do
      let node ← createNodeBst allocator entry
      return .node node .null .null
  | some (cursor, direction) =>
      if direction = 1 then do
        let node ← createNodeBst allocator entry
        return tree.setChild cursor .next (.node node .null .null)
      else if direction = -1 then do
        let node ← createNodeBst allocator entry
        return tree.setChild cursor .previous (.node node .null .null)
      else return tree

namespace HeapDictionary

/-- `insert_dict` on a dictionary with this comparator. -/
def insertDictBy (dictionary : HeapDictionary Block) (key value : Bytes) :
    Program Block (HeapDictionary Block) := do
  let entry ← entryConstructor allocator key value
  let tree ← insertBstBy allocator compare dictionary.binarySearchTree entry
  let keys ← dictionary.keys.insertLl allocator dictionary.keys.length key
  return ⟨tree, keys⟩

/-- `dictionary_constructor(compare)` and these calls of `insert_dict`, in order. -/
def ofInsertDict (inserts : List (Bytes × Bytes)) : Program Block (HeapDictionary Block) :=
  inserts.foldlM
    (fun dictionary insert => dictionary.insertDictBy allocator compare insert.1 insert.2)
    heapDictionaryConstructor

omit [DecidableEq Block] in
theorem compareNodeKey_strcmp :
    (compareNodeKey strcmp : EntryNode Block → HeapEntry Block Bytes → ℤ) = compareHeapKeys := by
  funext node entry
  exact (compareStringKeys_eq_strcmp node.toEntry entry.toEntry).symm

/-- With the order of texts this is the dictionary of the server. -/
theorem insertDictBy_strcmp (dictionary : HeapDictionary Block) (key value : Bytes) :
    dictionary.insertDictBy allocator strcmp key value =
      dictionary.insertDict allocator key value := by
  have sameTree : ∀ entry : HeapEntry Block Bytes,
      insertBstBy allocator strcmp dictionary.binarySearchTree entry =
        heapInsertBst allocator dictionary.binarySearchTree entry := by
    intro entry
    rw [insertBstBy, compareNodeKey_strcmp]
    rfl
  simp only [insertDictBy, insertDict, sameTree]

end HeapDictionary

end Operations

/-! ## The keys of the two structures -/

section Mirror

variable {Block : Type} {compare : Bytes → Bytes → ℤ} {inserted : List Bytes}

/-- The key stored in a node of the tree. -/
def EntryNode.key (node : EntryNode Block) : Bytes := node.data.content.key.content

namespace HeapDictionary

/-- The keys of the nodes of the tree. -/
def treeKeys (dictionary : HeapDictionary Block) : List Bytes :=
  dictionary.binarySearchTree.inorder.map EntryNode.key

/-- The key list holds the keys of the tree once each, by their first insertion, and no others. -/
structure KeysMirrored (dictionary : HeapDictionary Block) (inserted : List Bytes) : Prop where
  once : ∀ key ∈ dictionary.treeKeys, dictionary.keys.toList.count key = 1
  inOrder : dictionary.keys.toList.Pairwise
    fun one two => inserted.idxOf one < inserted.idxOf two
  length : dictionary.keys.length = dictionary.binarySearchTree.inorder.length

/-- What a dictionary looks like after insertions of these keys. -/
structure Filled (compare : Bytes → Bytes → ℤ) (inserted : List Bytes)
    (dictionary : HeapDictionary Block) : Prop where
  tree : dictionary.binarySearchTree.map EntryNode.key = Tree.ofInsertBst compare inserted
  keys : dictionary.keys.toList = inserted
  sized : dictionary.keys.Sized

theorem Filled.treeKeys_eq {dictionary : HeapDictionary Block}
    (filled : dictionary.Filled compare inserted) :
    dictionary.treeKeys = (Tree.ofInsertBst compare inserted).inorder := by
  rw [treeKeys, ← Tree.inorder_map, filled.tree]

theorem Filled.mirrors_iff {dictionary : HeapDictionary Block}
    (filled : dictionary.Filled compare inserted)
    (orders : Preorders compare {key | key ∈ inserted})
    (threeWay : ThreeWay compare {key | key ∈ inserted}) :
    dictionary.KeysMirrored inserted ↔ inserted.Pairwise fun one two => compare one two ≠ 0 := by
  have nodes : dictionary.binarySearchTree.inorder.length =
      (Tree.ofInsertBst compare inserted).inorder.length := by
    rw [← filled.treeKeys_eq, treeKeys, List.length_map]
  have listed : dictionary.keys.length = inserted.length := by
    rw [filled.sized, ← filled.keys, LinkedList.toList, List.length_map]
  have complete := Tree.length_inorder_ofInsertBst_iff orders threeWay
  constructor
  · intro mirrored
    have sameLength := mirrored.length
    rw [listed, nodes] at sameLength
    exact complete.mp (by omega)
  · intro distinct
    have nodup : inserted.Nodup := by
      apply distinct.imp_of_mem
      rintro one two oneIn _ differs rfl
      exact differs (orders.self_eq_zero oneIn)
    exact
      { once := by
          intro key member
          rw [filled.treeKeys_eq] at member
          rw [filled.keys]
          exact List.count_eq_one_of_mem nodup (Tree.subset_inserted member)
        inOrder := by
          rw [filled.keys, List.pairwise_iff_getElem]
          intro first second firstIn secondIn before
          rw [nodup.idxOf_getElem, nodup.idxOf_getElem]
          exact before
        length := by rw [listed, nodes, complete.mpr distinct] }

end HeapDictionary

end Mirror

/-! ## Every sequence of insertions -/

section Specifications

variable {Block : Type} [DecidableEq Block] (allocator : Allocator Block)
  {compare : Bytes → Bytes → ℤ} {inserted : List Bytes}

/-- On the keys an insertion is that of the tree without blocks. -/
theorem insertBstBy_spec (tree : Tree (EntryNode Block)) (entry : HeapEntry Block Bytes) :
    Triple 0 (insertBstBy allocator compare tree entry)
      (fun after => after.map EntryNode.key =
        (tree.map EntryNode.key).insertBst compare entry.key.content)
      (fun _ => Set.univ) := by
  have agree : ∀ node : EntryNode Block,
      compare node.key entry.key.content = compareNodeKey compare node entry := fun _ => rfl
  have stored : ∀ cursor side, Triple 0
      (do
        let node ← createNodeBst allocator entry
        return tree.setChild cursor side (.node node .null .null))
      (fun after => after.map EntryNode.key =
        (tree.map EntryNode.key).setChild cursor side (.node entry.key.content .null .null))
      (fun _ => Set.univ) := by
    intro cursor side
    apply (createNode_spec allocator entry).bind
    intro node same
    refine Triple.pure ?_ (Set.subset_univ _)
    rw [Tree.setChild_map, Tree.map, EntryNode.key, same]
    rfl
  rw [insertBstBy, Tree.insertBst, Tree.iterateBst_map EntryNode.key agree tree]
  cases tree.iterateBst (compareNodeKey compare) entry with
  | none =>
      apply (createNode_spec allocator entry).bind
      intro node same
      refine Triple.pure ?_ (Set.subset_univ _)
      simp [Tree.map, EntryNode.key, same]
  | some position =>
      dsimp only
      split_ifs
      · exact stored _ _
      · exact stored _ _
      · exact Triple.pure rfl (Set.subset_univ _)

namespace HeapDictionary

theorem insertDictBy_spec {dictionary : HeapDictionary Block}
    (filled : dictionary.Filled compare inserted) (key value : Bytes) :
    Triple (dictionary.keys.holding + Set.univ)
      (dictionary.insertDictBy allocator compare key value)
      (fun after => after.Filled compare (inserted ++ [key]))
      (fun after => after.keys.holding + Set.univ) := by
  have length_eq : dictionary.keys.length = dictionary.keys.head.length := filled.sized
  apply (entryConstructor_spec allocator key value).seq (zero_add _).symm
  intro entry entry_eq
  have entryKey : entry.key.content = key := congrArg Entry.key entry_eq
  apply (insertBstBy_spec allocator dictionary.binarySearchTree entry).seq (zero_add _).symm
  intro tree tree_eq
  rw [length_eq]
  apply (dictionary.keys.insertLl_spec allocator filled.sized le_rfl key).seq
  · rw [add_left_comm entry.holding, add_left_comm]
  · rintro keys ⟨keysSized, keys_eq⟩
    have length_toList : dictionary.keys.head.length = dictionary.keys.toList.length := by
      rw [LinkedList.toList, List.length_map]
    rw [length_toList, List.insertIdx_length_self, filled.keys] at keys_eq
    rw [filled.tree, entryKey] at tree_eq
    apply Triple.pure
    · refine ⟨?_, keys_eq, keysSized⟩
      rw [tree_eq, Tree.ofInsertBst, Tree.ofInsertBst, List.foldl_append]
      rfl
    · exact Set.add_subset_add subset_rfl (Set.subset_univ _)

omit [DecidableEq Block] in
theorem filled_constructor :
    (heapDictionaryConstructor : HeapDictionary Block).Filled compare [] where
  tree := rfl
  keys := rfl
  sized := LinkedList.sized_constructor

theorem exists_ofInsertDict (compare : Bytes → Bytes → ℤ) (inserts : List (Bytes × Bytes))
    (live : Finset Block) :
    ∃ dictionary liveAfter,
      ofInsertDict allocator compare inserts live = some (dictionary, liveAfter) ∧
        dictionary.Filled compare (inserts.map Prod.fst) := by
  have step : ∀ (dictionary : HeapDictionary Block) (inserted : List Bytes)
      (insert : Bytes × Bytes), dictionary.Filled compare inserted →
      Triple (dictionary.keys.holding + Set.univ)
        (dictionary.insertDictBy allocator compare insert.1 insert.2)
        (fun after => after.Filled compare (inserted ++ [insert.1]))
        (fun after => after.keys.holding + Set.univ) :=
    fun _ _ insert filled => insertDictBy_spec allocator filled insert.1 insert.2
  have keys : inserts.foldl (fun inserted insert => inserted ++ [insert.1]) [] =
      inserts.map Prod.fst := by
    rw [List.foldl_append_eq_append, List.nil_append, ← List.flatMap_def,
      ← List.map_eq_flatMap]
  rcases Triple.foldlM step inserts filled_constructor live live.val 0
      ⟨0, rfl, live.val, trivial, zero_add _⟩ (add_zero _).symm with
    ⟨dictionary, liveAfter, -, ran, filled, -, -⟩
  exact ⟨dictionary, liveAfter, ran, keys ▸ filled⟩

/--
After any insertions the key list mirrors the tree if and only if no two of the
keys compare as equal.
-/
theorem keysMirrored_iff {inserts : List (Bytes × Bytes)}
    (orders : Preorders compare {key | key ∈ inserts.map Prod.fst})
    (threeWay : ThreeWay compare {key | key ∈ inserts.map Prod.fst}) (live : Finset Block) :
    ∃ dictionary liveAfter,
      ofInsertDict allocator compare inserts live = some (dictionary, liveAfter) ∧
        (dictionary.KeysMirrored (inserts.map Prod.fst) ↔
          (inserts.map Prod.fst).Pairwise fun one two => compare one two ≠ 0) := by
  rcases exists_ofInsertDict allocator compare inserts live with
    ⟨dictionary, liveAfter, ran, filled⟩
  exact ⟨dictionary, liveAfter, ran, filled.mirrors_iff orders threeWay⟩

end HeapDictionary

end Specifications

/-- Two keys in the order of texts. -/
theorem twoKeys_keysMirrored :
    ∃ dictionary liveAfter,
      HeapDictionary.ofInsertDict Allocator.counting strcmp
          [(bytes "b", bytes "1"), (bytes "a", bytes "2")] ∅ = some (dictionary, liveAfter) ∧
        (dictionary.KeysMirrored [bytes "b", bytes "a"] ↔
          [bytes "b", bytes "a"].Pairwise fun one two => strcmp one two ≠ 0) :=
  HeapDictionary.keysMirrored_iff Allocator.counting
    (strictlyOrders_strcmp _).toPreorders (strictlyOrders_strcmp _).threeWay ∅

/-- A key that is inserted twice is listed twice. -/
theorem repeatedKey_listedTwice :
    ¬∀ inserts : List (Bytes × Bytes), ∃ dictionary liveAfter,
      HeapDictionary.ofInsertDict Allocator.counting strcmp inserts ∅ =
          some (dictionary, liveAfter) ∧ dictionary.KeysMirrored (inserts.map Prod.fst) := by
  intro always
  rcases always [(bytes "a", bytes "1"), (bytes "a", bytes "2")] with
    ⟨dictionary, liveAfter, ran, mirrored⟩
  rcases HeapDictionary.exists_ofInsertDict Allocator.counting strcmp
      [(bytes "a", bytes "1"), (bytes "a", bytes "2")] ∅ with
    ⟨other, otherAfter, otherRan, filled⟩
  have same : dictionary = other := by
    rw [ran, Option.some.injEq, Prod.mk.injEq] at otherRan
    exact otherRan.1
  subst same
  have distinct := (filled.mirrors_iff (strictlyOrders_strcmp _).toPreorders
    (strictlyOrders_strcmp _).threeWay).mp mirrored
  exact absurd distinct (by decide)

end LetUsConnect
