import LetUsConnect.DataStructures.LinkedList.Pointers
import LetUsConnect.DataStructures.TreeOrder
import LetUsConnect.Lib.Transition
import Mathlib.Data.Multiset.Basic

/-!
# The binary search tree in memory

The functions of `DataStructures/Trees/BinarySearchTree.c` once more, now with every
pointer they follow and store, in the memory of `LinkedList/Pointers`. They call
themselves, at most `fuel` deep.

`Representation.Holds` says which nodes a tree consists of, in the terms of
`BinarySearchTree`. Under it every operation is defined and does to the nodes what it
does there; only the search in the empty tree and its destruction follow `NULL`.
-/

namespace LetUsConnect

open Transition

/-- A comparator of the data of a node with what is looked for. It may follow pointers. -/
abbrev PointerComparator (Block Data Query : Type) :=
  Memory Block Data → Option Block → Query → Option ℤ

/-- The child pointer on a side of a node is replaced. -/
def StructNode.setSide {Block : Type} (node : StructNode Block) (link : Option Block) :
    Side → StructNode Block
  | .next => { node with next := link }
  | .previous => { node with previous := link }

namespace Memory

variable {Block Data Query : Type}

/-- `iterate_bst`. -/
def iterateBst (compare : PointerComparator Block Data Query) (memory : Memory Block Data)
    (query : Query) : ℕ → Option Block → Option (Option Block × ℤ)
  | 0, _ => none
  | fuel + 1, cursor =>
      (memory.nodeAt cursor).bind fun node =>
        (compare memory node.data query).bind fun order =>
          if order = 1 then
            match node.next with
            | some next => memory.iterateBst compare query fuel (some next)
            | none => some (cursor, 1)
          else if order = -1 then
            match node.previous with
            | some previous => memory.iterateBst compare query fuel (some previous)
            | none => some (cursor, -1)
          else some (cursor, 0)

/-- `if (child) destroy(child)`. -/
def onChild (destroy : Memory Block Data → Option Block → Option (Memory Block Data))
    (memory : Memory Block Data) : Option Block → Option (Memory Block Data)
  | none => some memory
  | some child => destroy memory (some child)

/--
The recursion of `recursive_tree_destruction` and `recursive_dictionary_destroy`, which
differ in what they do with a node once nothing is left below it.
-/
def destroyBelow (destroyNode : Memory Block Data → Option Block → Option (Memory Block Data)) :
    ℕ → Memory Block Data → Option Block → Option (Memory Block Data)
  | 0, _, _ => none
  | fuel + 1, memory, cursor =>
      (memory.nodeAt cursor).bind fun node =>
        (onChild (destroyBelow destroyNode fuel) memory node.previous).bind fun memory =>
          (memory.nodeAt cursor).bind fun node =>
            (onChild (destroyBelow destroyNode fuel) memory node.next).bind fun memory =>
              destroyNode memory cursor

variable [DecidableEq Block]

/-- `pointer->next = link` or `pointer->previous = link`. -/
def setSide (memory : Memory Block Data) (pointer link : Option Block) (side : Side) :
    Option (Memory Block Data) :=
  pointer.bind fun block =>
    (memory.nodeAt (some block)).map fun node =>
      Function.update memory block (some (.node (node.setSide link side)))

/-- `create_node_bst`. -/
def createNodeBst (memory : Memory Block Data) (newNode newData : Block)
    (content : Cell Block Data) : Memory Block Data :=
  memory.createNodeLl newNode newData content

/-- `destroy_node_bst`. -/
def destroyNodeBst (memory : Memory Block Data) (nodeToDestroy : Option Block) :
    Option (Memory Block Data) :=
  memory.destroyNodeLl nodeToDestroy

def recursiveTreeDestruction (fuel : ℕ) (memory : Memory Block Data) (node : Option Block) :
    Option (Memory Block Data) :=
  destroyBelow destroyNodeBst fuel memory node

end Memory

/-- `struct BinarySearchTree` and the memory it points into. -/
structure PointerTree (Block Data : Type) where
  memory : Memory Block Data
  head : Option Block

namespace PointerTree

variable {Block Data Query : Type}

/-- `binary_search_tree_constructor`. -/
def constructor (memory : Memory Block Data) : PointerTree Block Data := ⟨memory, none⟩

def searchBst (compare : PointerComparator Block Data Query) (fuel : ℕ)
    (tree : PointerTree Block Data) (query : Query) : Option (Option Block) :=
  (tree.memory.iterateBst compare query fuel tree.head).bind fun (cursor, direction) =>
    if direction = 0 then (tree.memory.nodeAt cursor).map StructNode.data else some none

variable [DecidableEq Block]

/--
`insert_bst`, with the blocks `malloc` returned and what is copied into the second. The
comparator sees the data before it is copied.
-/
def insertBst (compare : PointerComparator Block Data Query) (fuel : ℕ)
    (tree : PointerTree Block Data) (query : Query) (newNode newData : Block)
    (content : Cell Block Data) : Option (PointerTree Block Data) :=
  let created := tree.memory.createNodeBst newNode newData content
  match tree.head with
  | none => some ⟨created, some newNode⟩
  | some head =>
      (tree.memory.iterateBst compare query fuel (some head)).bind fun (cursor, direction) =>
        if direction = 1 then
          (created.setSide cursor (some newNode) .next).map fun memory => ⟨memory, tree.head⟩
        else if direction = -1 then
          (created.setSide cursor (some newNode) .previous).map fun memory => ⟨memory, tree.head⟩
        else some tree

/-- `binary_search_tree_destructor`. -/
def destructor (fuel : ℕ) (tree : PointerTree Block Data) : Option (Memory Block Data) :=
  tree.memory.recursiveTreeDestruction fuel tree.head

end PointerTree

/-! ## The nodes of a tree -/

/-- How an item is kept behind the data pointer of a node. -/
structure Representation (Block Data Item : Type) where
  /-- The blocks it takes, the one the pointer leads to among them. -/
  blocks : Held Block Item → List Block
  Stored : Memory Block Data → Held Block Item → Prop
  block_mem : ∀ item, item.block ∈ blocks item
  congr : ∀ {memory other item}, Stored memory item →
    (∀ block ∈ blocks item, other block = memory block) → Stored other item
  allocated : ∀ {memory item}, Stored memory item → ∀ block ∈ blocks item, memory block ≠ none

/-- The depth of the recursion through a tree. -/
def Tree.height {Data : Type} : Tree Data → ℕ
  | .null => 0
  | .node _ next previous => max next.height previous.height + 1

namespace Representation

variable {Block Data Item Query Sought : Type} (kept : Representation Block Data Item)

/-- The block of a node and those of its item. -/
def nodeBlocks (node : HeapNode Block Item) : List Block := node.node :: kept.blocks node.data

def treeBlocks : Tree (HeapNode Block Item) → List Block
  | .null => []
  | .node node next previous => kept.nodeBlocks node ++ (treeBlocks next ++ treeBlocks previous)

/-- From a pointer on these nodes are found, with their items behind them. -/
def Lays (memory : Memory Block Data) : Option Block → Tree (HeapNode Block Item) → Prop
  | start, .null => start = none
  | start, .node node next previous =>
      start = some node.node ∧ kept.Stored memory node.data ∧
        ∃ nextLink previousLink,
          memory node.node = some (.node ⟨some node.data.block, nextLink, previousLink⟩) ∧
            Lays memory nextLink next ∧ Lays memory previousLink previous

/-- The tree consists of these nodes; all their blocks are different. -/
structure Holds (tree : PointerTree Block Data) (nodes : Tree (HeapNode Block Item)) : Prop where
  lays : kept.Lays tree.memory tree.head nodes
  distinct : (kept.treeBlocks nodes).Nodup

section Frame

variable {kept} {memory other : Memory Block Data} {start : Option Block}
  {node : HeapNode Block Item} {nodes next previous : Tree (HeapNode Block Item)}

theorem mem_treeBlocks_node {block : Block} :
    block ∈ kept.treeBlocks (.node node next previous) ↔
      block ∈ kept.nodeBlocks node ∨ block ∈ kept.treeBlocks next ∨
        block ∈ kept.treeBlocks previous := by
  simp only [treeBlocks, List.mem_append]

theorem node_mem_nodeBlocks : node.node ∈ kept.nodeBlocks node := List.mem_cons_self

theorem Lays.congr (lays : kept.Lays memory start nodes)
    (same : ∀ block ∈ kept.treeBlocks nodes, other block = memory block) :
    kept.Lays other start nodes := by
  induction nodes generalizing start with
  | null => exact lays
  | node node next previous ihNext ihPrevious =>
      rcases lays with ⟨isStart, stored, nextLink, previousLink, isNode, below, beside⟩
      simp only [mem_treeBlocks_node] at same
      have inNode : ∀ block ∈ kept.nodeBlocks node, other block = memory block :=
        fun block member => same block (.inl member)
      refine ⟨isStart, ?_, nextLink, previousLink, ?_, ?_, ?_⟩
      · exact kept.congr stored fun block member => inNode block (List.mem_cons_of_mem _ member)
      · rw [inNode _ node_mem_nodeBlocks, isNode]
      · exact ihNext below fun block member => same block (.inr (.inl member))
      · exact ihPrevious beside fun block member => same block (.inr (.inr member))

theorem Lays.allocated (lays : kept.Lays memory start nodes) {block : Block}
    (member : block ∈ kept.treeBlocks nodes) : memory block ≠ none := by
  induction nodes generalizing start with
  | null => cases member
  | node node next previous ihNext ihPrevious =>
      rcases lays with ⟨-, stored, nextLink, previousLink, isNode, below, beside⟩
      rcases mem_treeBlocks_node.mp member with here | inNext | inPrevious
      · rcases List.mem_cons.mp here with rfl | inItem
        · rw [isNode]
          simp
        · exact kept.allocated stored block inItem
      · exact ihNext below inNext
      · exact ihPrevious beside inPrevious

/-- The blocks of a node and those of the two trees below it are apart. -/
theorem nodup_treeBlocks_node :
    (kept.treeBlocks (.node node next previous)).Nodup ↔
      ((kept.nodeBlocks node).Nodup ∧ (kept.treeBlocks next).Nodup ∧
          (kept.treeBlocks previous).Nodup) ∧
        (∀ block ∈ kept.nodeBlocks node,
          block ∉ kept.treeBlocks next ∧ block ∉ kept.treeBlocks previous) ∧
        ∀ block ∈ kept.treeBlocks next, block ∉ kept.treeBlocks previous := by
  simp only [treeBlocks, List.nodup_append', List.disjoint_left, List.mem_append, not_or]
  tauto

theorem mem_treeBlocks_of_dataAt {path : Cursor} (found : nodes.dataAt path = some node)
    {block : Block} (member : block ∈ kept.nodeBlocks node) : block ∈ kept.treeBlocks nodes := by
  induction nodes generalizing path with
  | null => cases found
  | node here next previous ihNext ihPrevious =>
      rw [mem_treeBlocks_node]
      rcases path with _ | ⟨side, path⟩
      · cases found
        exact .inl member
      · cases side with
        | next => exact .inr (.inl (ihNext found))
        | previous => exact .inr (.inr (ihPrevious found))

/-- A node that a path leads to is in the memory. -/
theorem Lays.nodeAt_of_dataAt (lays : kept.Lays memory start nodes) {path : Cursor}
    (found : nodes.dataAt path = some node) :
    ∃ link back, memory node.node = some (.node ⟨some node.data.block, link, back⟩) := by
  induction nodes generalizing start path with
  | null => cases found
  | node here next previous ihNext ihPrevious =>
      rcases lays with ⟨-, -, nextLink, previousLink, isNode, below, beside⟩
      rcases path with _ | ⟨side, path⟩
      · cases found
        exact ⟨nextLink, previousLink, isNode⟩
      · cases side with
        | next => exact ihNext below found
        | previous => exact ihPrevious beside found

theorem Lays.stored_of_mem (lays : kept.Lays memory start nodes) (member : node ∈ nodes.inorder) :
    kept.Stored memory node.data := by
  induction nodes generalizing start with
  | null => simp [Tree.inorder] at member
  | node here next previous ihNext ihPrevious =>
      rcases lays with ⟨-, stored, nextLink, previousLink, -, below, beside⟩
      simp only [Tree.inorder, List.mem_append, List.mem_cons] at member
      rcases member with inPrevious | rfl | inNext
      · exact ihPrevious beside inPrevious
      · exact stored
      · exact ihNext below inNext

end Frame

/-! ## Finding a node -/

section Finding

variable {kept} {memory : Memory Block Data} {start : Option Block}
  {nodes : Tree (HeapNode Block Item)} {compare : PointerComparator Block Data Query}
  {query : Query} {order : HeapNode Block Item → Sought → ℤ} {sought : Sought}

/-- On the nodes of the tree the comparator orders what they stand for. -/
def Agrees (memory : Memory Block Data) (nodes : Tree (HeapNode Block Item))
    (compare : PointerComparator Block Data Query) (query : Query)
    (order : HeapNode Block Item → Sought → ℤ) (sought : Sought) : Prop :=
  ∀ node ∈ nodes.inorder, compare memory (some node.data.block) query = some (order node sought)

theorem Agrees.below {node : HeapNode Block Item} {next previous : Tree (HeapNode Block Item)}
    (agrees : Agrees memory (.node node next previous) compare query order sought) :
    compare memory (some node.data.block) query = some (order node sought) ∧
      Agrees memory next compare query order sought ∧
      Agrees memory previous compare query order sought := by
  simp only [Agrees, Tree.inorder, List.mem_append, List.mem_cons] at agrees ⊢
  exact ⟨agrees node (.inr (.inl rfl)), fun other member => agrees other (.inr (.inr member)),
    fun other member => agrees other (.inl member)⟩

/-- The cursor ends on the node that `Tree.iterateBst` finds. -/
theorem Lays.iterateBst (lays : kept.Lays memory start nodes) (nonempty : nodes ≠ .null)
    (agrees : Agrees memory nodes compare query order sought) {fuel : ℕ}
    (deep : nodes.height ≤ fuel) :
    ∃ path direction node, nodes.iterateBst order sought = some (path, direction) ∧
      nodes.dataAt path = some node ∧
      memory.iterateBst compare query fuel start = some (some node.node, direction) := by
  induction nodes generalizing start fuel with
  | null => exact absurd rfl nonempty
  | node node next previous ihNext ihPrevious =>
      cases fuel with
      | zero => simp [Tree.height] at deep
      | succ fuel =>
          rcases lays with ⟨rfl, -, nextLink, previousLink, isNode, below, beside⟩
          rw [Tree.height, Nat.add_le_add_iff_right, max_le_iff] at deep
          rcases agrees.below with ⟨agreesHere, agreesNext, agreesPrevious⟩
          rw [Memory.iterateBst, Memory.nodeAt_of_eq isNode, Option.bind_some]
          dsimp only
          rw [agreesHere, Option.bind_some, Tree.iterateBst]
          split_ifs
          · cases next with
            | null =>
                cases below
                exact ⟨[], 1, node, rfl, rfl, rfl⟩
            | node other farther nearer =>
                rcases ihNext below (by simp) agreesNext deep.1 with
                  ⟨path, direction, found, ends, isFound, reached⟩
                refine ⟨.next :: path, direction, found, ?_, isFound, ?_⟩
                · rw [ends]
                · rw [below.1] at reached ⊢
                  exact reached
          · cases previous with
            | null =>
                cases beside
                exact ⟨[], -1, node, rfl, rfl, rfl⟩
            | node other farther nearer =>
                rcases ihPrevious beside (by simp) agreesPrevious deep.2 with
                  ⟨path, direction, found, ends, isFound, reached⟩
                refine ⟨.previous :: path, direction, found, ?_, isFound, ?_⟩
                · rw [ends]
                · rw [beside.1] at reached ⊢
                  exact reached
          · exact ⟨[], 0, node, rfl, rfl, rfl⟩

variable {tree : PointerTree Block Data}

/-- In a tree with nodes the search gives the data pointer of the node found, or `NULL`. -/
theorem Holds.searchBst (holds : kept.Holds tree nodes) (nonempty : nodes ≠ .null)
    (agrees : Agrees tree.memory nodes compare query order sought) {fuel : ℕ}
    (deep : nodes.height ≤ fuel) :
    tree.searchBst compare fuel query =
      some ((nodes.searchBst order sought).map fun node => node.data.block) := by
  rcases holds.lays.iterateBst nonempty agrees deep with
    ⟨path, direction, node, ends, found, reached⟩
  rw [PointerTree.searchBst, reached, Option.bind_some, Tree.searchBst, ends]
  dsimp only
  split_ifs
  · rcases holds.lays.nodeAt_of_dataAt found with ⟨link, back, isNode⟩
    rw [Memory.nodeAt_of_eq isNode, found]
    rfl
  · rfl

/-- The search in the empty tree follows `NULL`. -/
theorem Holds.searchBst_null (holds : kept.Holds tree .null) (fuel : ℕ) :
    tree.searchBst compare fuel query = none := by
  have isNull : tree.head = none := holds.lays
  rw [PointerTree.searchBst, isNull]
  cases fuel <;> rfl

end Finding

/-! ## Insertion -/

section Insertion

variable {kept} {memory other : Memory Block Data} {start : Option Block}
  {nodes : Tree (HeapNode Block Item)} {node new : HeapNode Block Item}

section Changed

variable {changed : Block}

theorem Lays.congr_of_ne (lays : kept.Lays memory start nodes)
    (same : ∀ block ∈ kept.treeBlocks nodes, block ≠ changed → other block = memory block)
    (apart : changed ∉ kept.treeBlocks nodes) : kept.Lays other start nodes := by
  apply lays.congr
  intro block member
  exact same block member (ne_of_mem_of_not_mem member apart)

theorem stored_of_ne {item : Held Block Item} (stored : kept.Stored memory item)
    (same : ∀ block ∈ kept.blocks item, block ≠ changed → other block = memory block)
    (apart : changed ∉ kept.blocks item) : kept.Stored other item := by
  apply kept.congr stored
  intro block member
  exact same block member (ne_of_mem_of_not_mem member apart)

end Changed

/-- A new node behind a cursor that lacks a child on that side. -/
theorem Lays.setChild (lays : kept.Lays memory start nodes)
    (distinct : (kept.treeBlocks nodes).Nodup) {path : Cursor} {direction : ℤ}
    (ends : nodes.EndsAt path direction) {side : Side}
    (sides : (direction = 1 ∧ side = .next) ∨ (direction = -1 ∧ side = .previous))
    (found : nodes.dataAt path = some node)
    (same : ∀ block ∈ kept.treeBlocks nodes, block ≠ node.node → other block = memory block)
    (linked : ∀ inMemory, memory node.node = some (.node inMemory) →
      other node.node = some (.node (inMemory.setSide (some new.node) side)))
    (leaf : kept.Lays other (some new.node) (.node new .null .null)) :
    kept.Lays other start (nodes.setChild path side (.node new .null .null)) := by
  induction ends generalizing start with
  | here => simp at sides
  | noNext here previous =>
      cases found
      obtain rfl : side = .next := by simpa using sides
      rcases lays with ⟨isStart, stored, nextLink, previousLink, isNode, -, beside⟩
      rcases nodup_treeBlocks_node.mp distinct with ⟨⟨distinctNode, -, -⟩, apart, -⟩
      simp only [mem_treeBlocks_node] at same
      refine ⟨isStart, ?_, some new.node, previousLink, linked _ isNode, leaf, ?_⟩
      · exact stored_of_ne stored
          (fun block member => same block (.inl (List.mem_cons_of_mem _ member)))
          (List.nodup_cons.mp distinctNode).1
      · exact beside.congr_of_ne (fun block member => same block (.inr (.inr member)))
          (apart _ node_mem_nodeBlocks).2
  | noPrevious here next =>
      cases found
      obtain rfl : side = .previous := by simpa using sides
      rcases lays with ⟨isStart, stored, nextLink, previousLink, isNode, below, -⟩
      rcases nodup_treeBlocks_node.mp distinct with ⟨⟨distinctNode, -, -⟩, apart, -⟩
      simp only [mem_treeBlocks_node] at same
      refine ⟨isStart, ?_, nextLink, some new.node, linked _ isNode, ?_, leaf⟩
      · exact stored_of_ne stored
          (fun block member => same block (.inl (List.mem_cons_of_mem _ member)))
          (List.nodup_cons.mp distinctNode).1
      · exact below.congr_of_ne (fun block member => same block (.inr (.inl member)))
          (apart _ node_mem_nodeBlocks).1
  | @next here next previous path direction further ih =>
      rcases lays with ⟨isStart, stored, nextLink, previousLink, isNode, below, beside⟩
      rcases nodup_treeBlocks_node.mp distinct with ⟨⟨-, distinctNext, -⟩, apart, disjoint⟩
      have foundNext : next.dataAt path = some node := found
      have inNext : _ ∈ kept.treeBlocks _ :=
        mem_treeBlocks_of_dataAt foundNext node_mem_nodeBlocks
      have notHere : node.node ∉ kept.nodeBlocks here := fun member => (apart _ member).1 inNext
      simp only [mem_treeBlocks_node] at same
      refine ⟨isStart, ?_, nextLink, previousLink, ?_, ?_, ?_⟩
      · exact stored_of_ne stored
          (fun block member => same block (.inl (List.mem_cons_of_mem _ member)))
          (fun member => notHere (List.mem_cons_of_mem _ member))
      · rw [same _ (.inl node_mem_nodeBlocks) (ne_of_mem_of_not_mem node_mem_nodeBlocks notHere),
          isNode]
      · exact ih below distinctNext sides found fun block member => same block (.inr (.inl member))
      · exact beside.congr_of_ne (fun block member => same block (.inr (.inr member)))
          (disjoint _ inNext)
  | @previous here next previous path direction further ih =>
      rcases lays with ⟨isStart, stored, nextLink, previousLink, isNode, below, beside⟩
      rcases nodup_treeBlocks_node.mp distinct with ⟨⟨-, -, distinctPrevious⟩, apart, disjoint⟩
      have foundPrevious : previous.dataAt path = some node := found
      have inPrevious : _ ∈ kept.treeBlocks _ :=
        mem_treeBlocks_of_dataAt foundPrevious node_mem_nodeBlocks
      have notHere : node.node ∉ kept.nodeBlocks here :=
        fun member => (apart _ member).2 inPrevious
      simp only [mem_treeBlocks_node] at same
      refine ⟨isStart, ?_, nextLink, previousLink, ?_, ?_, ?_⟩
      · exact stored_of_ne stored
          (fun block member => same block (.inl (List.mem_cons_of_mem _ member)))
          (fun member => notHere (List.mem_cons_of_mem _ member))
      · rw [same _ (.inl node_mem_nodeBlocks) (ne_of_mem_of_not_mem node_mem_nodeBlocks notHere),
          isNode]
      · exact below.congr_of_ne (fun block member => same block (.inr (.inl member)))
          (fun member => disjoint _ member inPrevious)
      · exact ih beside distinctPrevious sides found
          fun block member => same block (.inr (.inr member))

/-- The blocks of the new node are added. -/
theorem treeBlocks_setChild {path : Cursor} {direction : ℤ} (ends : nodes.EndsAt path direction)
    {side : Side}
    (sides : (direction = 1 ∧ side = .next) ∨ (direction = -1 ∧ side = .previous)) :
    (kept.treeBlocks (nodes.setChild path side (.node new .null .null))).Perm
      (kept.nodeBlocks new ++ kept.treeBlocks nodes) := by
  have asTotal : ∀ tree : Tree (HeapNode Block Item), (kept.treeBlocks tree : Multiset Block) =
      tree.total fun node => (kept.nodeBlocks node : Multiset Block) := by
    intro tree
    induction tree with
    | null => rfl
    | node here next previous ihNext ihPrevious =>
        rw [treeBlocks, Tree.total, ← ihNext, ← ihPrevious, Multiset.coe_add, Multiset.coe_add,
          List.append_assoc]
  rw [← Multiset.coe_eq_coe, asTotal, ends.total_setChild _ sides, ← asTotal, Multiset.coe_add,
    Multiset.coe_eq_coe]
  exact List.perm_append_comm

variable [DecidableEq Block]

theorem setSide_eq {block : Block} {found : StructNode Block}
    (inMemory : memory block = some (.node found)) (link : Option Block) (side : Side) :
    memory.setSide (some block) link side =
      some (Function.update memory block (some (.node (found.setSide link side)))) := by
  rw [Memory.setSide, Option.bind_some, Memory.nodeAt_of_eq inMemory]
  rfl

/-- What a call of `insert_bst` with a new node does to a tree. -/
structure Inserted (tree : PointerTree Block Data) (nodes : Tree (HeapNode Block Item))
    (order : HeapNode Block Item → HeapNode Block Item → ℤ) (new : HeapNode Block Item)
    (after : PointerTree Block Data) : Prop where
  holds : kept.Holds after (nodes.insertBst order new)
  /-- The node is refused if its item is found, and otherwise the tree takes its blocks. -/
  taken : ((nodes.searchBst order new).isSome ∧ after = tree ∧
      nodes.insertBst order new = nodes) ∨
    (nodes.searchBst order new = none ∧
      (kept.treeBlocks (nodes.insertBst order new)).Perm
        (kept.nodeBlocks new ++ kept.treeBlocks nodes))
  frame : ∀ block, block ∉ kept.treeBlocks nodes → block ≠ new.node → block ≠ new.data.block →
    after.memory block = tree.memory block

/-- The node is linked to the cursor that the search for it ends on. -/
theorem Holds.linked {tree : PointerTree Block Data} (holds : kept.Holds tree nodes)
    {order : HeapNode Block Item → HeapNode Block Item → ℤ} {content : Cell Block Data}
    (stored : kept.Stored (tree.memory.createNodeBst new.node new.data.block content) new.data)
    (distinct : (kept.nodeBlocks new).Nodup)
    (apart : ∀ block ∈ kept.nodeBlocks new, block ∉ kept.treeBlocks nodes)
    {path : Cursor} {direction : ℤ} (ends : nodes.iterateBst order new = some (path, direction))
    {side : Side} (sides : (direction = 1 ∧ side = .next) ∨ (direction = -1 ∧ side = .previous))
    (found : nodes.dataAt path = some node) :
    ∃ memory, (tree.memory.createNodeBst new.node new.data.block content).setSide
        (some node.node) (some new.node) side = some memory ∧
      kept.Inserted tree nodes order new ⟨memory, tree.head⟩ := by
  have endsAt := Tree.endsAt_of_iterateBst ends
  have inserted : nodes.insertBst order new = nodes.setChild path side (.node new .null .null) := by
    rw [Tree.insertBst, ends]
    rcases sides with ⟨rfl, rfl⟩ | ⟨rfl, rfl⟩ <;> rfl
  have missing : nodes.searchBst order new = none := by
    rw [Tree.searchBst, ends]
    rcases sides with ⟨rfl, rfl⟩ | ⟨rfl, rfl⟩ <;> rfl
  have cursorIn : node.node ∈ kept.treeBlocks nodes :=
    mem_treeBlocks_of_dataAt found node_mem_nodeBlocks
  have created : ∀ block, block ≠ new.node → block ≠ new.data.block →
      tree.memory.createNodeBst new.node new.data.block content block = tree.memory block :=
    fun block notNode notData => PointerList.createNodeLl_of_ne notNode notData
  have apartNew : ∀ block ∈ kept.treeBlocks nodes, block ≠ new.node ∧ block ≠ new.data.block := by
    intro block member
    constructor
    · rintro rfl
      exact apart _ node_mem_nodeBlocks member
    · rintro rfl
      exact apart _ (List.mem_cons_of_mem _ (kept.block_mem new.data)) member
  have notNew : ∀ block ∈ kept.nodeBlocks new, block ≠ node.node := by
    rintro block member rfl
    exact apart _ member cursorIn
  rcases holds.lays.nodeAt_of_dataAt found with ⟨link, back, isNode⟩
  have isCursor := (created _ (apartNew _ cursorIn).1 (apartNew _ cursorIn).2).trans isNode
  refine ⟨_, setSide_eq isCursor (some new.node) side, ⟨?_, ?_⟩, .inr ⟨missing, ?_⟩, ?_⟩
  · rw [inserted]
    apply holds.lays.setChild holds.distinct endsAt sides found
    · intro block member notCursor
      dsimp only
      rw [Function.update_of_ne notCursor,
        created block (apartNew _ member).1 (apartNew _ member).2]
    · intro inMemory isInMemory
      dsimp only
      rw [Function.update_self]
      cases isNode.symm.trans isInMemory
      rfl
    · refine ⟨rfl, ?_, none, none, ?_, rfl, rfl⟩
      · apply kept.congr stored
        intro block member
        dsimp only
        rw [Function.update_of_ne (notNew _ (List.mem_cons_of_mem _ member))]
      · dsimp only
        rw [Function.update_of_ne (notNew _ node_mem_nodeBlocks)]
        exact PointerList.createNodeLl_node
  · rw [inserted, (treeBlocks_setChild endsAt sides).nodup_iff]
    exact distinct.append holds.distinct apart
  · rw [inserted]
    exact treeBlocks_setChild endsAt sides
  · intro block outside notNode notData
    dsimp only
    rw [Function.update_of_ne (ne_of_mem_of_not_mem cursorIn outside).symm,
      created block notNode notData]

/-- A call of `insert_bst` with a new node is defined and does what `Tree.insertBst` does. -/
theorem Holds.insertBst {tree : PointerTree Block Data} (holds : kept.Holds tree nodes)
    {compare : PointerComparator Block Data Query} {query : Query}
    {order : HeapNode Block Item → HeapNode Block Item → ℤ}
    (agrees : Agrees tree.memory nodes compare query order new) {content : Cell Block Data}
    (stored : kept.Stored (tree.memory.createNodeBst new.node new.data.block content) new.data)
    (distinct : (kept.nodeBlocks new).Nodup)
    (apart : ∀ block ∈ kept.nodeBlocks new, block ∉ kept.treeBlocks nodes) {fuel : ℕ}
    (deep : nodes.height ≤ fuel) :
    ∃ after, tree.insertBst compare fuel query new.node new.data.block content = some after ∧
      kept.Inserted tree nodes order new after := by
  by_cases empty : nodes = .null
  · subst empty
    have isNull : tree.head = none := holds.lays
    refine ⟨⟨tree.memory.createNodeBst new.node new.data.block content, some new.node⟩, ?_, ?_⟩
    · rw [PointerTree.insertBst, isNull]
    · exact
        { holds := by
            refine ⟨⟨rfl, stored, none, none, PointerList.createNodeLl_node, rfl, rfl⟩, ?_⟩
            simpa [treeBlocks] using distinct
          taken := .inr ⟨rfl, by simp [treeBlocks]⟩
          frame := fun block _ notNode notData => PointerList.createNodeLl_of_ne notNode notData }
  · rcases holds.lays.iterateBst empty agrees deep with
      ⟨path, direction, node, ends, found, reached⟩
    obtain ⟨head, isHead⟩ : ∃ head, tree.head = some head := by
      cases nodes with
      | null => exact absurd rfl empty
      | node here next previous => exact ⟨_, holds.lays.1⟩
    rw [isHead] at reached
    rw [PointerTree.insertBst, isHead]
    dsimp only
    rw [reached, Option.bind_some]
    dsimp only
    rcases (Tree.endsAt_of_iterateBst ends).direction with rfl | rfl | rfl
    · rcases holds.linked stored distinct apart ends (.inl ⟨rfl, rfl⟩) found with
        ⟨memory, linked, inserted⟩
      rw [if_pos rfl, linked, ← isHead]
      exact ⟨_, rfl, inserted⟩
    · rcases holds.linked stored distinct apart ends (.inr ⟨rfl, rfl⟩) found with
        ⟨memory, linked, inserted⟩
      rw [if_neg (by decide), if_pos rfl, linked, ← isHead]
      exact ⟨_, rfl, inserted⟩
    · have same : nodes.insertBst order new = nodes := by
        rw [Tree.insertBst, ends]
        rfl
      rw [if_neg (by decide), if_neg (by decide)]
      refine ⟨tree, rfl, ⟨?_, .inl ⟨?_, rfl, same⟩, fun _ _ _ _ => rfl⟩⟩
      · rwa [same]
      · rw [Tree.isSome_searchBst_iff ends]

end Insertion

end Representation

/-! ## Destruction -/

section Destruction

variable {Block Data Item : Type} [DecidableEq Block]

/-- The memory once these blocks are freed. -/
def Memory.without (memory : Memory Block Data) (blocks : List Block) : Memory Block Data :=
  fun block => if block ∈ blocks then none else memory block

namespace Memory

variable {memory : Memory Block Data} {blocks others : List Block}

theorem without_nil : memory.without [] = memory := by
  funext block
  simp [without]

theorem without_without : (memory.without blocks).without others =
    memory.without (blocks ++ others) := by
  funext block
  simp only [without, List.mem_append]
  split_ifs <;> simp_all

theorem without_perm (perm : blocks.Perm others) :
    memory.without blocks = memory.without others := by
  funext block
  simp only [without, perm.mem_iff]

theorem without_of_notMem {block : Block} (outside : block ∉ blocks) :
    memory.without blocks block = memory block := if_neg outside

/-- Without the blocks that were free before, nothing is there that was not there before. -/
theorem without_append_eq {after : Memory Block Data} (free : ∀ block ∈ blocks, memory block = none)
    (frame : ∀ block, block ∉ blocks → block ∉ others → after block = memory block) :
    after.without (blocks ++ others) = memory.without others := by
  funext block
  simp only [without, List.mem_append]
  by_cases isNew : block ∈ blocks
  · simp [isNew, free block isNew]
  · by_cases isOld : block ∈ others
    · simp [isOld]
    · simp [isNew, isOld, frame block isNew isOld]

theorem without_update {block : Block} (outside : block ∉ blocks)
    (cell : Option (Cell Block Data)) :
    Memory.without (Function.update memory block cell) blocks =
      Function.update (memory.without blocks) block cell := by
  funext other
  by_cases same : other = block
  · subst same
    simp [without, outside]
  · simp [without, Function.update_of_ne same]

theorem free_eq {block : Block} (allocated : memory block ≠ none) :
    memory.free (some block) = some (memory.without [block]) := by
  rcases Option.ne_none_iff_exists'.mp allocated with ⟨cell, isCell⟩
  rw [free, isCell, Option.map_some]
  congr 1
  funext other
  simp only [without, List.mem_singleton, Function.update_apply]

end Memory

namespace Representation

variable {kept : Representation Block Data Item} {memory : Memory Block Data}
  {start : Option Block} {nodes : Tree (HeapNode Block Item)}
  {destroyNode : Memory Block Data → Option Block → Option (Memory Block Data)}

/-- A destructor of nodes frees the blocks of a node and no others, wherever its links lead. -/
def DestroyedBy (kept : Representation Block Data Item)
    (destroyNode : Memory Block Data → Option Block → Option (Memory Block Data)) : Prop :=
  ∀ memory node link back, kept.Stored memory node.data →
    memory node.node = some (.node ⟨some node.data.block, link, back⟩) →
    (kept.nodeBlocks node).Nodup →
    destroyNode memory (some node.node) = some (memory.without (kept.nodeBlocks node))

/-- The destruction below a pointer frees the blocks of the tree there, which may be empty. -/
theorem Lays.onChild (lays : kept.Lays memory start nodes)
    {destroy : Memory Block Data → Option Block → Option (Memory Block Data)}
    (destroyed : nodes ≠ .null →
      destroy memory start = some (memory.without (kept.treeBlocks nodes))) :
    memory.onChild destroy start = some (memory.without (kept.treeBlocks nodes)) := by
  cases nodes with
  | null =>
      cases lays
      rw [show kept.treeBlocks .null = [] from rfl, Memory.without_nil]
      rfl
  | node node next previous =>
      rw [← destroyed (by simp), lays.1]
      rfl

/-- The destruction of a tree with nodes frees each of its blocks once and no others. -/
theorem Lays.destroyBelow (lays : kept.Lays memory start nodes) (nonempty : nodes ≠ .null)
    (distinct : (kept.treeBlocks nodes).Nodup) (destroyedBy : kept.DestroyedBy destroyNode)
    {fuel : ℕ} (deep : nodes.height ≤ fuel) :
    Memory.destroyBelow destroyNode fuel memory start =
      some (memory.without (kept.treeBlocks nodes)) := by
  induction nodes generalizing memory start fuel with
  | null => exact absurd rfl nonempty
  | node node next previous ihNext ihPrevious =>
      cases fuel with
      | zero => simp [Tree.height] at deep
      | succ fuel =>
          rcases lays with ⟨rfl, stored, nextLink, previousLink, isNode, below, beside⟩
          rcases nodup_treeBlocks_node.mp distinct with
            ⟨⟨distinctNode, distinctNext, distinctPrevious⟩, apart, disjoint⟩
          rw [Tree.height, Nat.add_le_add_iff_right, max_le_iff] at deep
          have first := beside.onChild fun some => ihPrevious beside some distinctPrevious deep.2
          have belowKept : kept.Lays (memory.without (kept.treeBlocks previous)) nextLink next :=
            below.congr fun block member => Memory.without_of_notMem (disjoint block member)
          have second := belowKept.onChild fun some =>
            ihNext belowKept some distinctNext deep.1
          rw [Memory.without_without] at second
          have outside : ∀ block ∈ kept.nodeBlocks node,
              block ∉ kept.treeBlocks previous ++ kept.treeBlocks next := by
            intro block member
            rw [List.mem_append, not_or]
            exact (apart block member).symm
          have isNodeFirst : memory.without (kept.treeBlocks previous) node.node =
              some (.node ⟨some node.data.block, nextLink, previousLink⟩) := by
            rw [Memory.without_of_notMem (apart _ node_mem_nodeBlocks).2, isNode]
          rw [Memory.destroyBelow, Memory.nodeAt_of_eq isNode, Option.bind_some]
          dsimp only
          rw [first, Option.bind_some, Memory.nodeAt_of_eq isNodeFirst, Option.bind_some]
          dsimp only
          rw [second, Option.bind_some, destroyedBy _ node nextLink previousLink,
            Memory.without_without]
          · congr 1
            apply Memory.without_perm
            rw [treeBlocks]
            exact List.perm_append_comm.trans (List.perm_append_comm.append_left _)
          · exact kept.congr stored fun block member =>
              Memory.without_of_notMem (outside block (List.mem_cons_of_mem _ member))
          · rw [Memory.without_of_notMem (outside _ node_mem_nodeBlocks), isNode]
          · exact distinctNode

variable {tree : PointerTree Block Data}

theorem Holds.destructor (holds : kept.Holds tree nodes) (nonempty : nodes ≠ .null)
    (destroyedBy : kept.DestroyedBy Memory.destroyNodeBst) {fuel : ℕ}
    (deep : nodes.height ≤ fuel) :
    tree.destructor fuel = some (tree.memory.without (kept.treeBlocks nodes)) :=
  holds.lays.destroyBelow nonempty holds.distinct destroyedBy deep

/-- The destruction of the empty tree follows `NULL`. -/
theorem Holds.destructor_null (holds : kept.Holds tree .null) (fuel : ℕ) :
    tree.destructor fuel = none := by
  have isNull : tree.head = none := holds.lays
  rw [PointerTree.destructor, isNull]
  cases fuel <;> rfl

end Representation

end Destruction

/-! ## The nodes and their contents -/

namespace Tree

variable {Data Other : Type} {compare : Data → Data → ℤ}

theorem insertBst_map {view : Data → Other} {compareView : Other → Other → ℤ} {new : Data}
    (agree : ∀ data, compareView (view data) (view new) = compare data new) (tree : Tree Data) :
    (tree.insertBst compare new).map view = (tree.map view).insertBst compareView (view new) := by
  induction tree with
  | null => rfl
  | node data next previous ihNext ihPrevious =>
      rw [insertBst_node, map, insertBst_node, agree]
      split_ifs
      · rw [map, ihNext]
      · rw [map, ihPrevious]
      · rfl

/-- An insertion makes the tree higher by one at most. -/
theorem height_insertBst_le (compare : Data → Data → ℤ) (tree : Tree Data) (new : Data) :
    (tree.insertBst compare new).height ≤ tree.height + 1 := by
  induction tree with
  | null => simp [height]
  | node data next previous ihNext ihPrevious =>
      rw [insertBst_node]
      split_ifs <;> simp only [height] <;> omega

theorem mem_inorder_of_searchBst {Query : Type} {compare : Data → Query → ℤ} {query : Query}
    {tree : Tree Data} {found : Data} (searched : tree.searchBst compare query = some found) :
    found ∈ tree.inorder := by
  induction tree with
  | null => cases searched
  | node data next previous ihNext ihPrevious =>
      rw [searchBst_node] at searched
      simp only [inorder, List.mem_append, List.mem_cons]
      split_ifs at searched
      · exact .inr (.inr (ihNext searched))
      · exact .inl (ihPrevious searched)
      · cases searched
        exact .inr (.inl rfl)

theorem insertBst_ne_null (compare : Data → Data → ℤ) (tree : Tree Data) (new : Data) :
    tree.insertBst compare new ≠ .null := by
  cases tree with
  | null => simp
  | node data next previous =>
      rw [insertBst_node]
      split_ifs <;> simp

end Tree

/-! ## A tree in the midst of a program -/

section Program

variable {Block Data : Type}

/-- Data without pointers. -/
def plain : Representation Block Data (Cell Block Data) where
  blocks item := [item.block]
  Stored memory item := memory item.block = some item.content
  block_mem _ := List.mem_singleton_self _
  congr stored same := by rw [same _ (List.mem_singleton_self _), stored]
  allocated stored block member := by
    rw [List.mem_singleton.mp member, stored]
    simp

/-- A comparator that looks at what the data pointer of the node leads to. -/
def compareContents (compare : Cell Block Data → Cell Block Data → ℤ) :
    PointerComparator Block Data (Cell Block Data) :=
  fun memory pointer query => (pointer.bind memory).map fun content => compare content query

/-- The order of nodes by what they hold. -/
def compareNodes (compare : Cell Block Data → Cell Block Data → ℤ) (one two : ListNode Block Data) :
    ℤ :=
  compare one.data.content two.data.content

/-- A call of `insert_bst`, or something the program does with a block that is not the tree's. -/
inductive TreeCall (Block Data : Type) where
  | insert (fuel : ℕ) (newNode newData : Block) (content : Cell Block Data)
  | elsewhere (block : Block) (cell : Option (Cell Block Data))

/-- A tree, with its nodes, what was inserted, and the memory as it would be without it. -/
structure TreeState (Block Data : Type) where
  tree : PointerTree Block Data
  nodes : Tree (ListNode Block Data)
  inserted : List (Cell Block Data)
  outside : Memory Block Data

variable [DecidableEq Block]

/-- The stack is deep enough for a call, and `malloc` returns blocks that are free. -/
def TreeCall.Valid (call : TreeCall Block Data) (state : TreeState Block Data) : Prop :=
  match call with
  | .insert fuel newNode newData _ =>
      state.nodes.height ≤ fuel ∧ state.tree.memory newNode = none ∧
        state.tree.memory newData = none ∧ newNode ≠ newData
  | .elsewhere block _ => block ∉ plain.treeBlocks state.nodes

instance (call : TreeCall Block Data) (state : TreeState Block Data) :
    Decidable (call.Valid state) :=
  match call with
  | .insert fuel newNode newData _ =>
      inferInstanceAs (Decidable (state.nodes.height ≤ fuel ∧ state.tree.memory newNode = none ∧
        state.tree.memory newData = none ∧ newNode ≠ newData))
  | .elsewhere block _ => inferInstanceAs (Decidable (block ∉ plain.treeBlocks state.nodes))

/-- What a call does, from the construction of the tree in any memory on. -/
def treeSystem (compare : Cell Block Data → Cell Block Data → ℤ) :
    System (TreeState Block Data) (TreeCall Block Data) where
  initial state := ∃ memory, state = ⟨PointerTree.constructor memory, .null, [], memory⟩
  step call state :=
    if call.Valid state then
      match call with
      | .insert fuel newNode newData content =>
          (state.tree.insertBst (compareContents compare) fuel content newNode newData
            content).map fun tree =>
              ⟨tree, state.nodes.insertBst (compareNodes compare) ⟨newNode, ⟨newData, content⟩⟩,
                state.inserted ++ [content], state.outside⟩
      | .elsewhere block cell =>
          some { state with
            tree := { state.tree with memory := Function.update state.tree.memory block cell }
            outside := Function.update state.outside block cell }
    else none

/-- What the tree in memory is, and what comes of its other functions. -/
structure TreeState.Represents (compare : Cell Block Data → Cell Block Data → ℤ)
    (state : TreeState Block Data) : Prop where
  holds : plain.Holds state.tree state.nodes
  contents : state.nodes.map (fun node => node.data.content) =
    Tree.ofInsertBst compare state.inserted
  height : state.nodes.height ≤ state.inserted.length
  /-- But for its blocks the memory is as it would be without the tree. -/
  outside : state.tree.memory.without (plain.treeBlocks state.nodes) = state.outside
  search : state.inserted ≠ [] → ∀ fuel query, state.inserted.length ≤ fuel →
    ∃ pointer, state.tree.searchBst (compareContents compare) fuel query = some pointer ∧
      pointer.bind state.tree.memory =
        (Tree.ofInsertBst compare state.inserted).searchBst compare query
  /-- Every block of the tree is freed once, and nothing else is. -/
  destructor : state.inserted ≠ [] → ∀ fuel, state.inserted.length ≤ fuel →
    state.tree.destructor fuel = some state.outside
  /-- Both follow `NULL` in the empty tree. -/
  empty : state.inserted = [] → ∀ fuel query,
    state.tree.searchBst (compareContents compare) fuel query = none ∧
      state.tree.destructor fuel = none

/-- The invariant of the calls. -/
structure TreeState.Related (compare : Cell Block Data → Cell Block Data → ℤ)
    (state : TreeState Block Data) : Prop where
  holds : plain.Holds state.tree state.nodes
  contents : state.nodes.map (fun node => node.data.content) =
    Tree.ofInsertBst compare state.inserted
  height : state.nodes.height ≤ state.inserted.length
  null_iff : state.nodes = .null ↔ state.inserted = []
  outside : state.tree.memory.without (plain.treeBlocks state.nodes) = state.outside

variable {compare : Cell Block Data → Cell Block Data → ℤ} {state : TreeState Block Data}

theorem destroyedBy_destroyNodeBst :
    (plain : Representation Block Data (Cell Block Data)).DestroyedBy Memory.destroyNodeBst := by
  intro memory node link back stored isNode distinct
  have stores : memory.Stores node := ⟨⟨link, back, isNode⟩, stored⟩
  have apart : node.node ≠ node.data.block := by
    simpa [Representation.nodeBlocks, plain] using distinct
  rcases PointerList.destroyNodeLl_spec stores apart with ⟨after, destroyed, contents⟩
  rw [Memory.destroyNodeBst, destroyed]
  congr 1
  funext block
  exact contents block

theorem TreeState.related_initial (memory : Memory Block Data) :
    TreeState.Related compare ⟨PointerTree.constructor memory, .null, [], memory⟩ where
  holds := ⟨rfl, List.nodup_nil⟩
  contents := rfl
  height := Nat.le_refl 0
  null_iff := by simp
  outside := Memory.without_nil

theorem TreeState.Related.agrees (related : state.Related compare) {Sought : Type}
    {order : ListNode Block Data → Sought → ℤ} {query : Cell Block Data} {sought : Sought}
    (same : ∀ node, compare node.data.content query = order node sought) :
    Representation.Agrees state.tree.memory state.nodes (compareContents compare) query order
      sought := by
  intro node member
  have isContent : state.tree.memory node.data.block = some node.data.content :=
    related.holds.lays.stored_of_mem member
  rw [compareContents, Option.bind_some, isContent, Option.map_some, same]

/-- A call whose blocks are free and whose stack is deep enough is defined. -/
theorem TreeState.Related.insert (related : state.Related compare) {fuel : ℕ}
    {newNode newData : Block} (content : Cell Block Data)
    (valid : (TreeCall.insert fuel newNode newData content).Valid state) :
    ∃ after, (treeSystem compare).step (.insert fuel newNode newData content) state = some after ∧
      after.inserted = state.inserted ++ [content] ∧ after.outside = state.outside ∧
      after.Related compare := by
  rcases valid with ⟨deep, freeNode, freeData, apart⟩
  have free : ∀ block ∈ plain.treeBlocks state.nodes, block ≠ newNode ∧ block ≠ newData := by
    intro block member
    have allocated := related.holds.lays.allocated member
    constructor
    · rintro rfl
      exact allocated freeNode
    · rintro rfl
      exact allocated freeData
  let new : ListNode Block Data := ⟨newNode, ⟨newData, content⟩⟩
  have agrees : Representation.Agrees state.tree.memory state.nodes (compareContents compare)
      content (compareNodes compare) new := related.agrees fun _ => rfl
  have isNew : ∀ block, block ∈ plain.nodeBlocks new ↔ block = newNode ∨ block = newData :=
    fun block => List.mem_pair
  have apartNew : ∀ block ∈ plain.nodeBlocks new, block ∉ plain.treeBlocks state.nodes := by
    intro block member inTree
    rcases (isNew block).mp member with rfl | rfl
    · exact (free _ inTree).1 rfl
    · exact (free _ inTree).2 rfl
  have distinct : (plain.nodeBlocks new).Nodup := by
    rw [show plain.nodeBlocks new = [newNode, newData] from rfl]
    simp [apart]
  rcases related.holds.insertBst agrees (PointerList.createNodeLl_data apart) distinct apartNew
    deep with ⟨after, inserted, result⟩
  refine ⟨⟨after, state.nodes.insertBst (compareNodes compare) new, state.inserted ++ [content],
    state.outside⟩, ?_, rfl, rfl, ?_⟩
  · dsimp only [treeSystem]
    rw [if_pos ⟨deep, freeNode, freeData, apart⟩, inserted]
    rfl
  · exact
      { holds := result.holds
        contents := by
          rw [Tree.insertBst_map (fun _ => rfl), related.contents, Tree.ofInsertBst,
            Tree.ofInsertBst, List.foldl_append]
          rfl
        height := by
          have higher := Tree.height_insertBst_le (compareNodes compare) state.nodes new
          have height := related.height
          simp only [List.length_append, List.length_singleton]
          omega
        null_iff := by simp [Tree.insertBst_ne_null]
        outside := by
          rcases result.taken with ⟨-, refused, same⟩ | ⟨-, blocks⟩
          · rw [refused, same]
            exact related.outside
          · rw [Memory.without_perm blocks, ← related.outside]
            apply Memory.without_append_eq
            · intro block member
              rcases (isNew block).mp member with rfl | rfl
              · exact freeNode
              · exact freeData
            · intro block notNew notOld
              rw [isNew, not_or] at notNew
              exact result.frame block notOld notNew.1 notNew.2 }

/-- What the program does elsewhere leaves the tree alone. -/
theorem TreeState.Related.elsewhere (related : state.Related compare) {block : Block}
    (cell : Option (Cell Block Data)) (apart : block ∉ plain.treeBlocks state.nodes) :
    TreeState.Related compare { state with
      tree := { state.tree with memory := Function.update state.tree.memory block cell }
      outside := Function.update state.outside block cell } :=
  { related with
    holds := by
      refine ⟨related.holds.lays.congr ?_, related.holds.distinct⟩
      intro other member
      exact Function.update_of_ne (ne_of_mem_of_not_mem member apart) _ _
    outside := by
      rw [← related.outside]
      exact Memory.without_update apart cell }

theorem TreeState.Related.represents (related : state.Related compare) :
    state.Represents compare where
  holds := related.holds
  contents := related.contents
  height := related.height
  outside := related.outside
  search := by
    intro some fuel query deep
    have nonempty : state.nodes ≠ .null := fun null => some (related.null_iff.mp null)
    have agrees : Representation.Agrees state.tree.memory state.nodes (compareContents compare)
        query (fun node query => compare node.data.content query) query :=
      related.agrees fun _ => rfl
    refine ⟨_, related.holds.searchBst nonempty agrees (related.height.trans deep), ?_⟩
    rw [← related.contents, Tree.searchBst_map _ (fun _ => rfl)]
    cases searched : state.nodes.searchBst (fun node query => compare node.data.content query)
        query with
    | none => rfl
    | some node =>
        exact related.holds.lays.stored_of_mem (Tree.mem_inorder_of_searchBst searched)
  destructor := by
    intro some fuel deep
    have nonempty : state.nodes ≠ .null := fun null => some (related.null_iff.mp null)
    rw [related.holds.destructor nonempty destroyedBy_destroyNodeBst
      (related.height.trans deep), related.outside]
  empty := by
    intro none fuel query
    have holds := related.holds
    rw [related.null_iff.mpr none] at holds
    exact ⟨holds.searchBst_null fuel, holds.destructor_null fuel⟩

theorem TreeState.related_of_reachable (reached : (treeSystem compare).Reachable state) :
    state.Related compare := by
  apply System.Reachable.invariant _ _ reached
  · rintro state ⟨memory, rfl⟩
    exact related_initial memory
  · intro state call after related taken
    by_cases valid : call.Valid state
    · cases call with
      | insert fuel newNode newData content =>
          rcases related.insert content valid with ⟨same, takenSame, -, -, afterRelated⟩
          have isSame : after = same := Option.some.inj (taken.symm.trans takenSame)
          exact isSame ▸ afterRelated
      | elsewhere block cell =>
          dsimp only [treeSystem] at taken
          rw [if_pos valid] at taken
          cases taken
          exact related.elsewhere cell valid
    · dsimp only [treeSystem] at taken
      rw [if_neg valid] at taken
      cases taken

/--
Whatever was inserted and whatever the program did elsewhere, the tree in memory is
that of the insertions, and the next insertion is defined.
-/
theorem pointerTree_refines_tree (reached : (treeSystem compare).Reachable state) :
    state.Represents compare ∧
      ∀ fuel newNode newData content,
        (TreeCall.insert fuel newNode newData content).Valid state →
          ∃ after, (treeSystem compare).step (.insert fuel newNode newData content) state =
              some after ∧
            after.inserted = state.inserted ++ [content] ∧ after.outside = state.outside ∧
              after.Represents compare := by
  have related := TreeState.related_of_reachable reached
  refine ⟨related.represents, ?_⟩
  intro fuel newNode newData content valid
  rcases related.insert content valid with ⟨after, taken, inserted, outside, afterRelated⟩
  exact ⟨after, taken, inserted, outside, afterRelated.represents⟩

/-- Numbers by their order; other data is all the same. -/
def compareNumberCells : Cell ℕ ℕ → Cell ℕ ℕ → ℤ
  | .data one, .data two => if two < one then 1 else if one < two then -1 else 0
  | _, _ => 0

/-- Three insertions, the last refused, and a block of the program beside them. -/
def insertThree : List (TreeCall ℕ ℕ) :=
  [.insert 0 0 1 (.data 5), .elsewhere 9 (some (.data 7)), .insert 1 2 3 (.data 8),
    .insert 2 4 5 (.data 5)]

theorem insertThree_refines :
    ∃ state, (treeSystem compareNumberCells).run insertThree
        ⟨PointerTree.constructor fun _ => none, .null, [], fun _ => none⟩ = some state ∧
      state.tree.destructor 3 = some state.outside ∧ state.outside 9 = some (.data 7) ∧
      state.Represents compareNumberCells := by
  have ends : ∃ state, (treeSystem compareNumberCells).run insertThree
        ⟨PointerTree.constructor fun _ => none, .null, [], fun _ => none⟩ = some state ∧
      state.inserted = [.data 5, .data 8, .data 5] ∧ state.outside 9 = some (.data 7) :=
    ⟨_, rfl, rfl, rfl⟩
  rcases ends with ⟨state, ran, inserted, beside⟩
  have represents := (pointerTree_refines_tree (.run (.start ⟨_, rfl⟩) ran)).1
  refine ⟨state, ran, represents.destructor ?_ 3 ?_, beside, represents⟩
  · rw [inserted]
    exact List.cons_ne_nil _ _
  · rw [inserted]
    rfl

end Program

end LetUsConnect
