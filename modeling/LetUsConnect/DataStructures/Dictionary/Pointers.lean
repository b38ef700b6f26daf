import LetUsConnect.DataStructures.BinarySearchTree.Pointers
import LetUsConnect.DataStructures.HeapDictionary
import LetUsConnect.DataStructures.LinkedList.Sequence

/-!
# The dictionary in memory

The functions of `DataStructures/Dictionary` with the tree, the list of the keys, the
entries and the texts they point to all in one memory. The tree and the list are those
of `BinarySearchTree/Pointers` and `LinkedList/Pointers`; an operation on one of them
leaves the blocks of the other alone.

The dictionary then is that of `Dictionary`, whatever the rest of the program does, and
its destructor leaves the blocks behind that `HeapDictionary` counts.
-/

namespace LetUsConnect

open CString Transition

/-- `struct Entry`. -/
structure StructEntry (Block : Type) where
  key : Block
  value : Block

/-- What the data blocks of a dictionary hold. -/
inductive EntryData (Block : Type) where
  | entry (entry : StructEntry Block)
  | text (text : Bytes)
  | int (value : ℤ)

namespace Memory

variable {Block : Type}

/-- The `struct Entry` a pointer leads to. -/
def entryAt (memory : Memory Block (EntryData Block)) (pointer : Option Block) :
    Option (StructEntry Block) :=
  match pointer.bind memory with
  | some (.data (.entry entry)) => some entry
  | _ => none

/-- The text a pointer leads to. -/
def textAt (memory : Memory Block (EntryData Block)) (pointer : Block) : Option Bytes :=
  match memory pointer with
  | some (.data (.text text)) => some text
  | _ => none

/-- `compare_string_keys` of the entry behind a pointer and one in a local variable. -/
def compareStringKeys : PointerComparator Block (EntryData Block) (StructEntry Block) :=
  fun memory pointer entryTwo =>
    (memory.entryAt pointer).bind fun entryOne =>
      (memory.textAt entryOne.key).bind fun keyOne =>
        (memory.textAt entryTwo.key).map fun keyTwo =>
          if 0 < strcmp keyOne keyTwo then 1 else if strcmp keyOne keyTwo < 0 then -1 else 0

variable [DecidableEq Block]

/-- `entry_constructor`, with the blocks `malloc` returned, which are those of the entry. -/
def entryConstructor (memory : Memory Block (EntryData Block)) (entry : StructEntry Block)
    (key value : EntryData Block) : Memory Block (EntryData Block) :=
  Function.update (Function.update memory entry.key (some (.data key))) entry.value
    (some (.data value))

def entryDestructor (memory : Memory Block (EntryData Block)) (entry : Option Block) :
    Option (Memory Block (EntryData Block)) :=
  (memory.entryAt entry).bind fun found =>
    (memory.free (some found.key)).bind fun memory =>
      (memory.entryAt entry).bind fun found =>
        (memory.free (some found.value)).bind fun memory => memory.free entry

/-- What `recursive_dictionary_destroy` does with a node. -/
def destroyEntryNode (memory : Memory Block (EntryData Block)) (cursor : Option Block) :
    Option (Memory Block (EntryData Block)) :=
  (memory.nodeAt cursor).bind fun node =>
    (memory.entryDestructor node.data).bind fun memory => memory.free cursor

def recursiveDictionaryDestroy (fuel : ℕ) (memory : Memory Block (EntryData Block))
    (cursor : Option Block) : Option (Memory Block (EntryData Block)) :=
  memory.destroyBelow destroyEntryNode fuel cursor

end Memory

/-- The blocks that `malloc` returns in a call of `insert_dict`. -/
structure InsertBlocks (Block : Type) where
  key : Block
  value : Block
  node : Block
  entry : Block
  keyNode : Block
  keyData : Block

namespace InsertBlocks

variable {Block : Type}

def toList (blocks : InsertBlocks Block) : List Block :=
  [blocks.key, blocks.value, blocks.node, blocks.entry, blocks.keyNode, blocks.keyData]

/-- The blocks of a call are different from each other. -/
structure Apart (new : InsertBlocks Block) : Prop where
  key : new.key ≠ new.value
  node : new.node ≠ new.entry ∧ new.node ≠ new.key ∧ new.node ≠ new.value
  entry : new.entry ≠ new.key ∧ new.entry ≠ new.value
  keyNode : new.keyNode ≠ new.keyData ∧ new.keyNode ≠ new.key ∧ new.keyNode ≠ new.value ∧
    new.keyNode ≠ new.node ∧ new.keyNode ≠ new.entry
  keyData : new.keyData ≠ new.key ∧ new.keyData ≠ new.value ∧ new.keyData ≠ new.node ∧
    new.keyData ≠ new.entry

theorem apart_of_nodup {new : InsertBlocks Block} (distinct : new.toList.Nodup) : new.Apart := by
  simp only [toList, List.nodup_cons, List.mem_cons, List.not_mem_nil, or_false,
    not_or, List.nodup_nil, and_true, not_false_eq_true] at distinct
  rcases distinct with ⟨⟨one, two, three, four, five⟩, ⟨six, seven, eight, nine⟩,
    ⟨ten, eleven, twelve⟩, ⟨thirteen, fourteen⟩, fifteen⟩
  exact ⟨one, ⟨ten, Ne.symm two, Ne.symm six⟩, ⟨Ne.symm three, Ne.symm seven⟩,
    ⟨fifteen, Ne.symm four, Ne.symm eight, Ne.symm eleven, Ne.symm thirteen⟩,
    ⟨Ne.symm five, Ne.symm nine, Ne.symm twelve, Ne.symm fourteen⟩⟩

/-- None of the blocks is among these. -/
structure OutOf (new : InsertBlocks Block) (blocks : List Block) : Prop where
  key : new.key ∉ blocks
  value : new.value ∉ blocks
  node : new.node ∉ blocks
  entry : new.entry ∉ blocks
  keyNode : new.keyNode ∉ blocks
  keyData : new.keyData ∉ blocks

theorem outOf_of_notMem {new : InsertBlocks Block} {blocks : List Block}
    (notMem : ∀ block ∈ new.toList, block ∉ blocks) : new.OutOf blocks := by
  simp only [toList, List.mem_cons, List.not_mem_nil, or_false, forall_eq_or_imp, forall_eq]
    at notMem
  rcases notMem with ⟨key, value, node, entry, keyNode, keyData⟩
  exact ⟨key, value, node, entry, keyNode, keyData⟩

theorem OutOf.mono {new : InsertBlocks Block} {blocks others : List Block}
    (outOf : new.OutOf blocks) (subset : others ⊆ blocks) : new.OutOf others :=
  ⟨fun member => outOf.key (subset member), fun member => outOf.value (subset member),
    fun member => outOf.node (subset member), fun member => outOf.entry (subset member),
    fun member => outOf.keyNode (subset member), fun member => outOf.keyData (subset member)⟩

end InsertBlocks

/-- `struct Dictionary`, ordered by `compare_string_keys`, and the memory it points into. -/
structure PointerDictionary (Block : Type) where
  memory : Memory Block (EntryData Block)
  /-- `binary_search_tree.head`. -/
  head : Option Block
  keysHead : Option Block
  keysLength : ℤ

namespace PointerDictionary

variable {Block : Type}

/-- `dictionary_constructor(compare_string_keys)`. -/
def constructor (memory : Memory Block (EntryData Block)) : PointerDictionary Block :=
  ⟨memory, none, none, 0⟩

def binarySearchTree (dictionary : PointerDictionary Block) : PointerTree Block (EntryData Block) :=
  ⟨dictionary.memory, dictionary.head⟩

def keys (dictionary : PointerDictionary Block) : PointerList Block (EntryData Block) :=
  ⟨dictionary.memory, dictionary.keysHead, dictionary.keysLength⟩

variable [DecidableEq Block]

def insertDict (fuel : ℕ) (dictionary : PointerDictionary Block) (blocks : InsertBlocks Block)
    (key value : Bytes) : Option (PointerDictionary Block) :=
  let entry : StructEntry Block := ⟨blocks.key, blocks.value⟩
  let memory := dictionary.memory.entryConstructor entry (.text key) (.text value)
  (PointerTree.insertBst Memory.compareStringKeys fuel ⟨memory, dictionary.head⟩ entry blocks.node
    blocks.entry (.data (.entry entry))).bind fun tree =>
      (PointerList.insertLl ⟨tree.memory, dictionary.keysHead, dictionary.keysLength⟩
        dictionary.keysLength blocks.keyNode blocks.keyData (.data (.text key))).map fun keys =>
          ⟨keys.memory, tree.head, keys.head, keys.length⟩

/-- `search_dict`, with the blocks for the entry it compares with. A key may be `NULL`. -/
def searchDict (fuel : ℕ) (dictionary : PointerDictionary Block) (searchable : StructEntry Block)
    (key : Option Bytes) : Option (PointerDictionary Block × Option Block) :=
  match key with
  | none => some (dictionary, none)
  | some key =>
      match dictionary.head with
      | none => some (dictionary, none)
      | some head =>
          let memory := dictionary.memory.entryConstructor searchable (.text key) (.int 0)
          (PointerTree.searchBst Memory.compareStringKeys fuel ⟨memory, some head⟩ searchable).bind
            fun result =>
              match result with
              | none => some ({ dictionary with memory }, none)
              | some entry =>
                  (memory.entryAt (some entry)).map fun found =>
                    ({ dictionary with memory }, some found.value)

def dictionaryDestructor (fuel : ℕ) (dictionary : PointerDictionary Block) :
    Option (Memory Block (EntryData Block)) :=
  dictionary.keys.linkedListDestructor.bind fun keys =>
    match dictionary.head with
    | none => some keys.memory
    | some head => keys.memory.recursiveDictionaryDestroy fuel (some head)

end PointerDictionary

/-! ## Entries in memory -/

section Entries

variable {Block : Type}

/-- An entry behind a data pointer, with the texts it points to. -/
def entryKept : Representation Block (EntryData Block) (HeapEntry Block Bytes) where
  blocks item := [item.block, item.content.key.block, item.content.value.block]
  Stored memory item :=
    memory item.block =
        some (.data (.entry ⟨item.content.key.block, item.content.value.block⟩)) ∧
      memory item.content.key.block = some (.data (.text item.content.key.content)) ∧
        memory item.content.value.block = some (.data (.text item.content.value.content))
  block_mem item := List.mem_cons_self
  congr stored same := by
    simp only [List.mem_cons, List.not_mem_nil, or_false, forall_eq_or_imp, forall_eq] at same
    rw [same.1, same.2.1, same.2.2]
    exact stored
  allocated stored block member := by
    simp only [List.mem_cons, List.not_mem_nil, or_false] at member
    rcases member with rfl | rfl | rfl
    · simp [stored.1]
    · simp [stored.2.1]
    · simp [stored.2.2]

variable {Value : Type} {memory : Memory Block (EntryData Block)} {start : Option Block}
  {nodes : Tree (EntryNode Block)}

theorem entryAt_of_eq {block : Block} {entry : StructEntry Block}
    (isEntry : memory block = some (.data (.entry entry))) :
    memory.entryAt (some block) = some entry := by
  rw [Memory.entryAt, Option.bind_some, isEntry]

theorem textAt_of_eq {block : Block} {text : Bytes}
    (isText : memory block = some (.data (.text text))) : memory.textAt block = some text := by
  rw [Memory.textAt, isText]

/-- The order of two entry nodes. -/
def compareEntryNodes (one two : EntryNode Block) : ℤ := compareHeapKeys one two.data.content

/-- Once the key looked for is in the memory, the comparator orders the keys. -/
theorem compareStringKeys_agrees (lays : entryKept.Lays memory start nodes)
    {searchable : StructEntry Block} {entry : HeapEntry Block Value}
    (isKey : memory searchable.key = some (.data (.text entry.key.content))) :
    Representation.Agrees memory nodes Memory.compareStringKeys searchable compareHeapKeys
      entry := by
  intro node member
  rcases lays.stored_of_mem member with ⟨isEntry, isNodeKey, -⟩
  rw [Memory.compareStringKeys, entryAt_of_eq isEntry, Option.bind_some]
  dsimp only
  rw [textAt_of_eq isNodeKey, Option.bind_some, textAt_of_eq isKey]
  rfl

variable [DecidableEq Block]

section Constructor

variable {entry : StructEntry Block} (key value : EntryData Block)

theorem entryConstructor_key (apart : entry.key ≠ entry.value) :
    memory.entryConstructor entry key value entry.key = some (.data key) := by
  rw [Memory.entryConstructor, Function.update_of_ne apart, Function.update_self]

theorem entryConstructor_value :
    memory.entryConstructor entry key value entry.value = some (.data value) := by
  rw [Memory.entryConstructor, Function.update_self]

theorem entryConstructor_of_ne {block : Block} (notKey : block ≠ entry.key)
    (notValue : block ≠ entry.value) :
    memory.entryConstructor entry key value block = memory block := by
  rw [Memory.entryConstructor, Function.update_of_ne notValue, Function.update_of_ne notKey]

end Constructor

/-- The destruction of an entry node frees its four blocks. -/
theorem destroyedBy_destroyEntryNode :
    (entryKept : Representation Block (EntryData Block) (HeapEntry Block Bytes)).DestroyedBy
      Memory.destroyEntryNode := by
  rintro memory ⟨node, ⟨place, ⟨⟨keyBlock, key⟩, ⟨valueBlock, value⟩⟩⟩⟩ link back
    ⟨isEntry, isKey, isValue⟩ isNode distinct
  have blocks : entryKept.nodeBlocks (⟨node, ⟨place, ⟨⟨keyBlock, key⟩, ⟨valueBlock, value⟩⟩⟩⟩ :
      EntryNode Block) = [node, place, keyBlock, valueBlock] := rfl
  rw [blocks] at distinct ⊢
  simp only [List.nodup_cons, List.mem_cons, List.not_mem_nil, or_false, not_or,
    List.nodup_nil, and_true, not_false_eq_true] at distinct
  dsimp only at isEntry isKey isValue isNode ⊢
  have entryLater : memory.without [keyBlock] place =
      some (.data (.entry ⟨keyBlock, valueBlock⟩)) :=
    (Memory.without_of_notMem (by simp [distinct])).trans isEntry
  have valueLater : memory.without [keyBlock] valueBlock ≠ none := by
    rw [Memory.without_of_notMem (by simp [Ne.symm distinct.2.2]), isValue]
    simp
  have placeLast : memory.without ([keyBlock] ++ [valueBlock]) place ≠ none := by
    rw [Memory.without_of_notMem (by simp [distinct]), isEntry]
    simp
  have nodeLast : memory.without ([keyBlock] ++ [valueBlock] ++ [place]) node ≠ none := by
    rw [Memory.without_of_notMem (by simp [distinct]), isNode]
    simp
  have entryFreed : memory.entryDestructor (some place) =
      some (memory.without ([keyBlock] ++ [valueBlock] ++ [place])) := by
    rw [Memory.entryDestructor, entryAt_of_eq isEntry, Option.bind_some]
    dsimp only
    rw [Memory.free_eq (by simp [isKey]), Option.bind_some, entryAt_of_eq entryLater,
      Option.bind_some]
    dsimp only
    rw [Memory.free_eq valueLater, Option.bind_some, Memory.without_without,
      Memory.free_eq placeLast, Memory.without_without]
  rw [Memory.destroyEntryNode, Memory.nodeAt_of_eq isNode, Option.bind_some]
  dsimp only
  rw [entryFreed, Option.bind_some, Memory.free_eq nodeLast, Memory.without_without]
  congr 1
  apply Memory.without_perm
  exact (List.reverse_perm [node, place, valueBlock, keyBlock]).trans
    (((List.Perm.swap keyBlock valueBlock []).cons place).cons node)

end Entries

/-! ## A dictionary in the midst of a program -/

/-- A call on the dictionary, or something the program does with a block that is not its. -/
inductive DictionaryCall (Block : Type) where
  | insert (fuel : ℕ) (blocks : InsertBlocks Block) (key value : Bytes)
  | search (fuel : ℕ) (searchable : StructEntry Block) (key : Option Bytes)
  | elsewhere (block : Block) (cell : Option (Cell Block (EntryData Block)))

/--
A dictionary, with the nodes of its tree and of its list, what was inserted, how many
searches built an entry, the blocks nothing points to any more, and the memory as it
would be without all these.
-/
structure DictionaryState (Block : Type) where
  dictionary : PointerDictionary Block
  nodes : Tree (EntryNode Block)
  keyNodes : List (ListNode Block (EntryData Block))
  inserted : List (Bytes × Bytes)
  searches : ℕ
  lost : List Block
  outside : Memory Block (EntryData Block)

namespace DictionaryState

variable {Block : Type}

/-- All the blocks the dictionary ever allocated. -/
def blocks (state : DictionaryState Block) : List Block :=
  entryKept.treeBlocks state.nodes ++ (state.keyNodes.flatMap HeapNode.blocks ++ state.lost)

/-- The blocks the destructor frees: half of the list of the keys, rounded up, and the tree. -/
def freedBlocks (state : DictionaryState Block) : List Block :=
  (state.keyNodes.take ((state.keyNodes.length + 1) / 2)).flatMap HeapNode.blocks ++
    entryKept.treeBlocks state.nodes

/-- The blocks it leaves behind: the rest of the list, and what was lost before. -/
def leftover (state : DictionaryState Block) : List Block :=
  (state.keyNodes.drop ((state.keyNodes.length + 1) / 2)).flatMap HeapNode.blocks ++ state.lost

variable {state : DictionaryState Block}

theorem treeBlocks_subset : entryKept.treeBlocks state.nodes ⊆ state.blocks :=
  List.subset_append_left _ _

theorem keyBlocks_subset : state.keyNodes.flatMap HeapNode.blocks ⊆ state.blocks :=
  fun _ member => List.mem_append_right _ (List.mem_append_left _ member)

theorem lost_subset : state.lost ⊆ state.blocks :=
  fun _ member => List.mem_append_right _ (List.mem_append_right _ member)

/-- The node that an insertion may add to the tree. -/
def newEntryNode (blocks : InsertBlocks Block) (key value : Bytes) : EntryNode Block :=
  ⟨blocks.node, ⟨blocks.entry, ⟨⟨blocks.key, key⟩, ⟨blocks.value, value⟩⟩⟩⟩

/-- The node that an insertion adds to the list. -/
def newKeyNode (blocks : InsertBlocks Block) (key : Bytes) : ListNode Block (EntryData Block) :=
  PointerList.newListNode blocks.keyNode blocks.keyData (.data (.text key))

/-- The blocks a refused entry leaves behind. -/
def refusedBlocks (state : DictionaryState Block) (blocks : InsertBlocks Block)
    (key value : Bytes) : List Block :=
  if (state.nodes.searchBst compareEntryNodes (newEntryNode blocks key value)).isSome then
    [blocks.key, blocks.value]
  else []

/-- The blocks a call of `insert_dict` allocates. -/
def usedBlocks (state : DictionaryState Block) (new : InsertBlocks Block) (key value : Bytes) :
    List Block :=
  if (state.nodes.searchBst compareEntryNodes (newEntryNode new key value)).isSome then
    [new.key, new.value, new.keyNode, new.keyData]
  else new.toList

theorem usedBlocks_sublist {new : InsertBlocks Block} {key value : Bytes} :
    (state.usedBlocks new key value).Sublist new.toList := by
  rw [usedBlocks]
  split_ifs
  · exact (((List.sublist_cons_self _ _).trans (List.sublist_cons_self _ _)).cons_cons
      new.value).cons_cons new.key
  · exact .refl _

/-- The state once a call of `insert_dict` made this of the dictionary. -/
def insertedInto (state : DictionaryState Block) (new : InsertBlocks Block) (key value : Bytes)
    (dictionary : PointerDictionary Block) : DictionaryState Block :=
  { state with
    dictionary
    nodes := state.nodes.insertBst compareEntryNodes (newEntryNode new key value)
    keyNodes := state.keyNodes ++ [newKeyNode new key]
    inserted := state.inserted ++ [(key, value)]
    lost := state.refusedBlocks new key value ++ state.lost }

/-- The state once a call of `search_dict` made this of the dictionary. -/
def searchedIn (state : DictionaryState Block) (searchable : StructEntry Block)
    (key : Option Bytes) (dictionary : PointerDictionary Block) : DictionaryState Block :=
  if key.isSome ∧ state.inserted ≠ [] then
    { state with
      dictionary
      searches := state.searches + 1
      lost := searchable.key :: searchable.value :: state.lost }
  else { state with dictionary }

end DictionaryState

section System

variable {Block : Type} [DecidableEq Block]

/-- The stack is deep enough for a call, and `malloc` returns different blocks that are free. -/
def DictionaryCall.Valid (call : DictionaryCall Block) (state : DictionaryState Block) : Prop :=
  match call with
  | .insert fuel blocks _ _ =>
      state.nodes.height ≤ fuel ∧
        (∀ block ∈ blocks.toList, state.dictionary.memory block = none) ∧ blocks.toList.Nodup
  | .search fuel searchable _ =>
      state.nodes.height ≤ fuel ∧ state.dictionary.memory searchable.key = none ∧
        state.dictionary.memory searchable.value = none ∧ searchable.key ≠ searchable.value
  | .elsewhere block _ => block ∉ state.blocks

instance (call : DictionaryCall Block) (state : DictionaryState Block) :
    Decidable (call.Valid state) :=
  match call with
  | .insert fuel blocks _ _ =>
      inferInstanceAs (Decidable (state.nodes.height ≤ fuel ∧
        (∀ block ∈ blocks.toList, state.dictionary.memory block = none) ∧ blocks.toList.Nodup))
  | .search fuel searchable _ =>
      inferInstanceAs (Decidable (state.nodes.height ≤ fuel ∧
        state.dictionary.memory searchable.key = none ∧
        state.dictionary.memory searchable.value = none ∧ searchable.key ≠ searchable.value))
  | .elsewhere block _ => inferInstanceAs (Decidable (block ∉ state.blocks))

/-- What a call does, from the construction of the dictionary in any memory on. -/
def dictionarySystem (Block : Type) [DecidableEq Block] :
    System (DictionaryState Block) (DictionaryCall Block) where
  initial state := ∃ memory,
    state = ⟨PointerDictionary.constructor memory, .null, [], [], 0, [], memory⟩
  step call state :=
    if call.Valid state then
      match call with
      | .insert fuel blocks key value =>
          (state.dictionary.insertDict fuel blocks key value).map
            (state.insertedInto blocks key value)
      | .search fuel searchable key =>
          (state.dictionary.searchDict fuel searchable key).map fun (dictionary, _) =>
            state.searchedIn searchable key dictionary
      | .elsewhere block cell =>
          some { state with
            dictionary := { state.dictionary with
              memory := Function.update state.dictionary.memory block cell }
            outside := Function.update state.outside block cell }
    else none

namespace DictionaryState

/-- What the dictionary in memory is, and what comes of its functions. -/
structure Represents (state : DictionaryState Block) : Prop where
  /-- But for its blocks the memory is as it would be without the dictionary. -/
  outside : state.dictionary.memory.without state.blocks = state.outside
  /-- The list leads to the inserted keys in turn. -/
  keys : ∀ index : ℤ, ∃ pointer, state.dictionary.keys.retrieveLl index = some pointer ∧
    pointer.bind state.dictionary.memory.textAt =
      if 0 ≤ index then (state.inserted.map Prod.fst)[index.toNat]? else none
  height : state.nodes.height ≤ state.inserted.length
  /-- A search leads to the value that was first inserted under the key. -/
  search : ∀ fuel searchable key, (DictionaryCall.search fuel searchable key).Valid state →
    ∃ after pointer, state.dictionary.searchDict fuel searchable key = some (after, pointer) ∧
      pointer.bind after.memory.textAt = key.bind (Dictionary.ofInserts state.inserted).searchDict
  /-- The destructor frees no block twice, and leaves behind what was lost and half of the list. -/
  destructor : ∀ fuel, state.nodes.height ≤ fuel →
    ∃ after, state.dictionary.dictionaryDestructor fuel = some after ∧
      after.without state.leftover = state.outside ∧ state.leftover.Nodup ∧
      (∀ block ∈ state.leftover, after block ≠ none) ∧
      state.leftover.length =
        (Dictionary.ofInserts state.inserted).unreleased + 2 * state.searches

/-- The invariant of the calls. -/
structure Related (state : DictionaryState Block) : Prop where
  tree : entryKept.Holds state.dictionary.binarySearchTree state.nodes
  keys : state.dictionary.keys.Holds state.keyNodes
  entries : state.nodes.map EntryNode.toEntry =
    (Dictionary.ofInserts state.inserted).binarySearchTree
  texts : state.keyNodes.map (fun node => node.data.content) =
    state.inserted.map fun insert => Cell.data (.text insert.1)
  height : state.nodes.height ≤ state.inserted.length
  distinct : state.blocks.Nodup
  allocated : ∀ block ∈ state.lost, state.dictionary.memory block ≠ none
  counted : state.lost.length =
    2 * (Dictionary.ofInserts state.inserted).refused + 2 * state.searches
  outside : state.dictionary.memory.without state.blocks = state.outside

variable {state : DictionaryState Block}

theorem related_initial (memory : Memory Block (EntryData Block)) :
    Related ⟨PointerDictionary.constructor memory, .null, [], [], 0, [], memory⟩ where
  tree := ⟨rfl, List.nodup_nil⟩
  keys := PointerList.holds_constructor memory
  entries := rfl
  texts := rfl
  height := Nat.le_refl 0
  distinct := List.nodup_nil
  allocated := by simp
  counted := rfl
  outside := Memory.without_nil

theorem Related.allocated_of_mem (related : state.Related) {block : Block}
    (member : block ∈ state.blocks) : state.dictionary.memory block ≠ none := by
  simp only [blocks, List.mem_append] at member
  rcases member with inTree | inKeys | isLost
  · exact related.tree.lays.allocated inTree
  · rcases List.mem_flatMap.mp inKeys with ⟨node, nodeIn, isBlock⟩
    exact (related.keys.stored node nodeIn).allocated isBlock
  · exact related.allocated block isLost

/-- The blocks that `malloc` returns are none of the dictionary's. -/
theorem Related.outOf (related : state.Related) {new : InsertBlocks Block}
    (free : ∀ block ∈ new.toList, state.dictionary.memory block = none) :
    new.OutOf state.blocks :=
  InsertBlocks.outOf_of_notMem fun block member inside =>
    related.allocated_of_mem inside (free block member)

/-- In a memory with the same in all its blocks the dictionary is as it was. -/
theorem Related.keep (related : state.Related) {memory : Memory Block (EntryData Block)}
    (same : ∀ block ∈ state.blocks, memory block = state.dictionary.memory block) :
    entryKept.Holds ⟨memory, state.dictionary.head⟩ state.nodes ∧
      PointerList.Holds ⟨memory, state.dictionary.keysHead, state.dictionary.keysLength⟩
        state.keyNodes := by
  simp only [blocks, List.mem_append] at same
  constructor
  · exact ⟨related.tree.lays.congr fun block member => same block (.inl member),
      related.tree.distinct⟩
  · apply related.keys.congr
    intro node nodeIn block isBlock
    exact same block (.inr (.inl (List.mem_flatMap.mpr ⟨node, nodeIn, isBlock⟩)))

section Insertion

variable {fuel : ℕ} {new : InsertBlocks Block} {key value : Bytes}

/-- The memory once the entry is constructed. -/
def constructed (state : DictionaryState Block) (new : InsertBlocks Block) (key value : Bytes) :
    Memory Block (EntryData Block) :=
  state.dictionary.memory.entryConstructor ⟨new.key, new.value⟩ (.text key) (.text value)

theorem constructed_key (apart : new.Apart) :
    state.constructed new key value new.key = some (.data (.text key)) :=
  entryConstructor_key (.text key) (.text value) apart.key

theorem constructed_value :
    state.constructed new key value new.value = some (.data (.text value)) :=
  entryConstructor_value (.text key) (.text value)

/-- The tree after a call of `insert_dict`. -/
theorem Related.insertTree (related : state.Related)
    (free : ∀ block ∈ new.toList, state.dictionary.memory block = none)
    (apart : new.Apart) (deep : state.nodes.height ≤ fuel) :
    ∃ tree, PointerTree.insertBst Memory.compareStringKeys fuel
        ⟨state.constructed new key value, state.dictionary.head⟩
        (⟨new.key, new.value⟩ : StructEntry Block) new.node new.entry
        (.data (.entry ⟨new.key, new.value⟩)) = some tree ∧
      entryKept.Inserted ⟨state.constructed new key value, state.dictionary.head⟩ state.nodes
        compareEntryNodes (newEntryNode new key value) tree := by
  have outOf := related.outOf free
  have holds := (@keep Block _ state related (state.constructed new key value) ?_).1
  · have isKey := @constructed_key _ _ state _ key value apart
    have isValue := @constructed_value _ _ state new key value
    have agrees : Representation.Agrees (state.constructed new key value) state.nodes
        Memory.compareStringKeys (⟨new.key, new.value⟩ : StructEntry Block) compareEntryNodes
        (newEntryNode new key value) := compareStringKeys_agrees holds.lays isKey
    have nodeBlocks : entryKept.nodeBlocks (newEntryNode new key value) =
        [new.node, new.entry, new.key, new.value] := rfl
    apply holds.insertBst agrees _ _ _ deep
    · refine ⟨PointerList.createNodeLl_data apart.node.1, ?_, ?_⟩
      · exact (PointerList.createNodeLl_of_ne apart.node.2.1.symm apart.entry.1.symm).trans isKey
      · exact (PointerList.createNodeLl_of_ne apart.node.2.2.symm apart.entry.2.symm).trans isValue
    · rw [nodeBlocks]
      simp [apart.node, apart.entry, apart.key]
    · have outOfTree := outOf.mono treeBlocks_subset
      rw [nodeBlocks]
      simp only [List.mem_cons, List.not_mem_nil, or_false, forall_eq_or_imp, forall_eq]
      exact ⟨outOfTree.node, outOfTree.entry, outOfTree.key, outOfTree.value⟩
  · intro block member
    exact entryConstructor_of_ne _ _ (ne_of_mem_of_not_mem member outOf.key)
      (ne_of_mem_of_not_mem member outOf.value)

section Keys

variable {tree : PointerTree Block (EntryData Block)}
  (inserted : entryKept.Inserted ⟨state.constructed new key value, state.dictionary.head⟩
    state.nodes compareEntryNodes (newEntryNode new key value) tree)

include inserted

theorem tree_frame {block : Block} (outside : block ∉ entryKept.treeBlocks state.nodes)
    (notKey : block ≠ new.key) (notValue : block ≠ new.value) (notNode : block ≠ new.node)
    (notEntry : block ≠ new.entry) : tree.memory block = state.dictionary.memory block :=
  (inserted.frame block outside notNode notEntry).trans
    (entryConstructor_of_ne (.text key) (.text value) notKey notValue)

/-- The list after a call of `insert_dict`. -/
theorem Related.insertKeys (related : state.Related)
    (free : ∀ block ∈ new.toList, state.dictionary.memory block = none) (apart : new.Apart) :
    ∃ keys, PointerList.insertLl
        ⟨tree.memory, state.dictionary.keysHead, state.dictionary.keysLength⟩
        state.dictionary.keysLength new.keyNode new.keyData (.data (.text key)) = some keys ∧
      keys.Holds (state.keyNodes ++ [newKeyNode new key]) ∧
      ∀ block, block ∉ state.keyNodes.flatMap HeapNode.blocks → block ≠ new.keyNode →
        block ≠ new.keyData → keys.memory block = tree.memory block := by
  have outOf := related.outOf free
  have outOfTree := outOf.mono treeBlocks_subset
  have outOfKeys := outOf.mono keyBlocks_subset
  have distinct := related.distinct
  simp only [blocks, List.nodup_append', List.disjoint_left, List.mem_append, not_or] at distinct
  have holds : PointerList.Holds
      ⟨tree.memory, state.dictionary.keysHead, state.dictionary.keysLength⟩ state.keyNodes := by
    apply related.keys.congr
    intro node nodeIn block isBlock
    have inKeys : block ∈ state.keyNodes.flatMap HeapNode.blocks :=
      List.mem_flatMap.mpr ⟨node, nodeIn, isBlock⟩
    exact tree_frame inserted (fun inTree => (distinct.2.2 inTree).1 inKeys)
      (ne_of_mem_of_not_mem inKeys outOfKeys.key) (ne_of_mem_of_not_mem inKeys outOfKeys.value)
      (ne_of_mem_of_not_mem inKeys outOfKeys.node) (ne_of_mem_of_not_mem inKeys outOfKeys.entry)
  have fresh : PointerList.Fresh
      ⟨tree.memory, state.dictionary.keysHead, state.dictionary.keysLength⟩ new.keyNode
      new.keyData := by
    refine ⟨?_, ?_, apart.keyNode.1⟩
    · rcases apart.keyNode with ⟨-, notKey, notValue, notNode, notEntry⟩
      exact (tree_frame inserted outOfTree.keyNode notKey notValue notNode notEntry).trans
        (free _ (by simp [InsertBlocks.toList]))
    · rcases apart.keyData with ⟨notKey, notValue, notNode, notEntry⟩
      exact (tree_frame inserted outOfTree.keyData notKey notValue notNode notEntry).trans
        (free _ (by simp [InsertBlocks.toList]))
  have length_eq : state.dictionary.keysLength = state.keyNodes.length := related.keys.length
  rcases holds.insertLl fresh le_rfl (.data (.text key)) with ⟨keys, added, afterHolds⟩
  rw [← length_eq] at added
  rw [List.insertIdx_length_self] at afterHolds
  refine ⟨keys, added, afterHolds, ?_⟩
  intro block notKeys notNode notData
  apply holds.insertLl_frame fresh added _ notNode notData
  rintro node nodeIn rfl
  exact notKeys (List.mem_flatMap.mpr ⟨node, nodeIn, PointerList.mem_blocks_node node⟩)

theorem blocks_insertedInto (dictionary : PointerDictionary Block) :
    (state.insertedInto new key value dictionary).blocks.Perm
      (state.usedBlocks new key value ++ state.blocks) := by
  have keyBlocks : (newKeyNode new key).blocks = [new.keyNode, new.keyData] := rfl
  simp only [blocks, insertedInto, List.flatMap_append, List.flatMap_singleton, keyBlocks,
    usedBlocks, refusedBlocks]
  rcases inserted.taken with ⟨found, -, same⟩ | ⟨missing, taken⟩
  · rw [same, if_pos found, if_pos found]
    refine List.perm_iff_count.mpr fun block => ?_
    simp only [List.count_append, List.count_cons, List.count_nil]
    omega
  · have entryBlocks : entryKept.nodeBlocks (newEntryNode new key value) =
        [new.node, new.entry, new.key, new.value] := rfl
    rw [missing, if_neg (by simp), if_neg (by simp)]
    refine (taken.append_right _).trans (List.perm_iff_count.mpr fun block => ?_)
    simp only [entryBlocks, InsertBlocks.toList, List.count_append, List.count_cons, List.count_nil]
    omega

/-- A call of `insert_dict` writes to the dictionary and to the blocks it allocates. -/
theorem usedBlocks_frame {block : Block} (notUsed : block ∉ state.usedBlocks new key value)
    (outside : block ∉ state.blocks) :
    (block ≠ new.keyNode ∧ block ≠ new.keyData) ∧
      tree.memory block = state.dictionary.memory block := by
  rw [usedBlocks] at notUsed
  rw [blocks, List.mem_append, not_or] at outside
  rcases inserted.taken with ⟨found, rfl, -⟩ | ⟨missing, -⟩
  · rw [if_pos found] at notUsed
    simp only [List.mem_cons, List.not_mem_nil, or_false, not_or] at notUsed
    exact ⟨notUsed.2.2, entryConstructor_of_ne _ _ notUsed.1 notUsed.2.1⟩
  · rw [missing, if_neg (by simp)] at notUsed
    simp only [InsertBlocks.toList, List.mem_cons, List.not_mem_nil, or_false, not_or] at notUsed
    rcases notUsed with ⟨notKey, notValue, notNode, notEntry, notKeys⟩
    exact ⟨notKeys, tree_frame inserted outside.1 notKey notValue notNode notEntry⟩

/-- What is lost stays allocated. -/
theorem Related.lost_allocated (related : state.Related)
    (free : ∀ block ∈ new.toList, state.dictionary.memory block = none) (apart : new.Apart)
    {memory : Memory Block (EntryData Block)}
    (frame : ∀ block, block ∉ state.keyNodes.flatMap HeapNode.blocks → block ≠ new.keyNode →
      block ≠ new.keyData → memory block = tree.memory block) :
    ∀ block ∈ state.refusedBlocks new key value ++ state.lost, memory block ≠ none := by
  have outOf := related.outOf free
  have outOfKeys := outOf.mono keyBlocks_subset
  intro block member
  rcases List.mem_append.mp member with isRefused | isLost
  · rw [refusedBlocks] at isRefused
    rcases inserted.taken with ⟨found, rfl, -⟩ | ⟨missing, -⟩
    · rw [if_pos found, List.mem_pair] at isRefused
      rcases isRefused with rfl | rfl
      · rw [frame _ outOfKeys.key apart.keyNode.2.1.symm apart.keyData.1.symm]
        dsimp only
        rw [constructed_key apart]
        simp
      · rw [frame _ outOfKeys.value apart.keyNode.2.2.1.symm apart.keyData.2.1.symm]
        dsimp only
        rw [constructed_value]
        simp
    · rw [missing, if_neg (by simp)] at isRefused
      cases isRefused
  · have distinct := related.distinct
    simp only [blocks, List.nodup_append', List.disjoint_left, List.mem_append, not_or]
      at distinct
    have inBlocks : block ∈ state.blocks := lost_subset isLost
    rw [frame block (fun inKeys => distinct.2.1.2.2 inKeys isLost)
        (ne_of_mem_of_not_mem inBlocks outOf.keyNode)
        (ne_of_mem_of_not_mem inBlocks outOf.keyData),
      tree_frame inserted (fun inTree => (distinct.2.2 inTree).2 isLost)
        (ne_of_mem_of_not_mem inBlocks outOf.key) (ne_of_mem_of_not_mem inBlocks outOf.value)
        (ne_of_mem_of_not_mem inBlocks outOf.node) (ne_of_mem_of_not_mem inBlocks outOf.entry)]
    exact related.allocated block isLost

end Keys

theorem keysListed_ofInserts (inserts : List (Bytes × Bytes)) :
    (Dictionary.ofInserts inserts).KeysListed := by
  induction inserts using List.reverseRecOn with
  | nil => exact Dictionary.keysListed_constructor
  | append_singleton inserts insert ih =>
      rw [Dictionary.ofInserts, List.foldl_append]
      exact ih.insertDict insert.1 insert.2

theorem ofInserts_append (inserts : List (Bytes × Bytes)) (key value : Bytes) :
    Dictionary.ofInserts (inserts ++ [(key, value)]) =
      (Dictionary.ofInserts inserts).insertDict key value := by
  rw [Dictionary.ofInserts, List.foldl_append]
  rfl

/-- The entry of an insertion is refused exactly if the key is there. -/
theorem Related.refused_iff (related : state.Related) :
    (state.nodes.searchBst compareEntryNodes (newEntryNode new key value)).isSome ↔
      key ∈ (Dictionary.ofInserts state.inserted).keys := by
  have agree : ∀ node : EntryNode Block,
      compareStringKeys node.toEntry (⟨key, value⟩ : Entry Bytes) =
        compareEntryNodes node (newEntryNode new key value) := fun _ => rfl
  have searched := Tree.searchBst_map EntryNode.toEntry agree state.nodes
  have listed := (keysListed_ofInserts state.inserted).isSome_searchBst (⟨key, value⟩ : Entry Bytes)
  rw [← related.entries, searched, Option.isSome_map] at listed
  exact listed

/-- A call of `insert_dict` is defined and keeps the invariant. -/
theorem Related.insert (related : state.Related)
    (free : ∀ block ∈ new.toList, state.dictionary.memory block = none)
    (distinct : new.toList.Nodup) (deep : state.nodes.height ≤ fuel) :
    ∃ dictionary, state.dictionary.insertDict fuel new key value = some dictionary ∧
      (state.insertedInto new key value dictionary).Related := by
  have apart := InsertBlocks.apart_of_nodup distinct
  rcases related.insertTree free apart deep with ⟨tree, insertedTree, inserted⟩
  rcases related.insertKeys inserted free apart with ⟨keys, insertedKeys, keysHolds, frame⟩
  have perm := @blocks_insertedInto _ _ _ _ _ _ _ inserted
    ⟨keys.memory, tree.head, keys.head, keys.length⟩
  have usedFree : ∀ block ∈ state.usedBlocks new key value, state.dictionary.memory block = none :=
    fun block member => free block (usedBlocks_sublist.subset member)
  refine ⟨⟨keys.memory, tree.head, keys.head, keys.length⟩, ?_, ?_⟩
  · rw [PointerDictionary.insertDict]
    rw [constructed] at insertedTree
    rw [insertedTree, Option.bind_some, insertedKeys]
    rfl
  · have nodup : (state.insertedInto new key value
        ⟨keys.memory, tree.head, keys.head, keys.length⟩).blocks.Nodup := by
      rw [perm.nodup_iff]
      refine (usedBlocks_sublist.nodup distinct).append related.distinct ?_
      exact fun block isUsed isOld => related.allocated_of_mem isOld (usedFree block isUsed)
    have parts := nodup
    simp only [blocks, insertedInto, List.nodup_append', List.disjoint_left, List.mem_append,
      not_or] at parts
    exact
      { tree := by
          refine ⟨inserted.holds.lays.congr ?_, inserted.holds.distinct⟩
          intro block member
          have outside := (parts.2.2 member).1
          simp only [List.flatMap_append, List.flatMap_singleton, newKeyNode,
            PointerList.newListNode, HeapNode.blocks, List.mem_append, List.mem_cons,
            List.not_mem_nil, or_false, not_or] at outside
          exact frame block outside.1 outside.2.1 outside.2.2
        keys := keysHolds
        entries := by
          have agree : ∀ node : EntryNode Block,
              compareStringKeys node.toEntry (newEntryNode new key value).toEntry =
                compareEntryNodes node (newEntryNode new key value) := fun _ => rfl
          simp only [insertedInto]
          rw [ofInserts_append, Dictionary.insertDict, ← related.entries,
            Tree.insertBst_map agree]
          rfl
        texts := by
          simp only [insertedInto, List.map_append, related.texts]
          rfl
        height := by
          have higher := Tree.height_insertBst_le compareEntryNodes state.nodes
            (newEntryNode new key value)
          have height := related.height
          simp only [insertedInto, List.length_append, List.length_singleton]
          omega
        distinct := nodup
        allocated := related.lost_allocated inserted free apart frame
        counted := by
          have refused := @Related.refused_iff _ _ _ new key value related
          simp only [insertedInto, List.length_append, related.counted]
          rw [ofInserts_append, Dictionary.refused_insertDict, refusedBlocks]
          by_cases present : key ∈ (Dictionary.ofInserts state.inserted).keys
          · rw [if_pos (refused.mpr present), if_pos present, List.length_cons,
              List.length_singleton]
            omega
          · rw [if_neg fun found => present (refused.mp found), if_neg present, List.length_nil]
            omega
        outside := by
          rw [Memory.without_perm perm]
          refine (Memory.without_append_eq usedFree ?_).trans related.outside
          intro block notUsed outside
          have unchanged := usedBlocks_frame inserted notUsed outside
          rw [blocks, List.mem_append, List.mem_append, not_or, not_or] at outside
          exact (frame block outside.2.1 unchanged.1.1 unchanged.1.2).trans unchanged.2 }

end Insertion

/-! ## The other calls -/

section Search

variable {fuel : ℕ} {searchable : StructEntry Block}

theorem Related.null_iff (related : state.Related) :
    state.nodes = .null ↔ state.inserted = [] := by
  have headless := (keysListed_ofInserts state.inserted).headless
  have keys : (Dictionary.ofInserts state.inserted).keys = state.inserted.map Prod.fst :=
    Dictionary.keys_foldl_insertDict state.inserted dictionaryConstructor
  rw [← related.entries, keys, List.map_eq_nil_iff] at headless
  rw [← headless]
  cases state.nodes with
  | null => simp [Tree.map]
  | node node next previous => simp [Tree.map]

/-- A search in a dictionary with entries leads to the value, if there is one. -/
theorem Related.searchFilled (related : state.Related) (deep : state.nodes.height ≤ fuel)
    (freeKey : state.dictionary.memory searchable.key = none)
    (freeValue : state.dictionary.memory searchable.value = none)
    (apart : searchable.key ≠ searchable.value) (key : Bytes) (filled : state.inserted ≠ []) :
    ∃ pointer, state.dictionary.searchDict fuel searchable (some key) =
        some ({ state.dictionary with
          memory := state.dictionary.memory.entryConstructor searchable (.text key) (.int 0) },
          pointer) ∧
      pointer.bind (Memory.textAt
          (state.dictionary.memory.entryConstructor searchable (.text key) (.int 0))) =
        (Dictionary.ofInserts state.inserted).searchDict key := by
  have nonempty : state.nodes ≠ .null := fun null => filled (related.null_iff.mp null)
  obtain ⟨head, isHead⟩ : ∃ head, state.dictionary.head = some head := by
    have lays := related.tree.lays
    cases isNodes : state.nodes with
    | null => exact absurd isNodes nonempty
    | node node next previous =>
        rw [isNodes] at lays
        exact ⟨node.node, lays.1⟩
  have same : ∀ block ∈ state.blocks, state.dictionary.memory.entryConstructor searchable
      (.text key) (.int 0) block = state.dictionary.memory block := by
    intro block member
    have allocated := related.allocated_of_mem member
    apply entryConstructor_of_ne
    · rintro rfl
      exact allocated freeKey
    · rintro rfl
      exact allocated freeValue
  have holds := (related.keep same).1
  have isKey : state.dictionary.memory.entryConstructor searchable (.text key) (.int 0)
      searchable.key = some (.data (.text key)) := entryConstructor_key _ _ apart
  have agrees : Representation.Agrees _ state.nodes Memory.compareStringKeys searchable
      compareHeapKeys (⟨⟨searchable.key, key⟩, ⟨searchable.value, 0⟩⟩ : HeapEntry Block ℤ) :=
    compareStringKeys_agrees holds.lays isKey
  have searched := holds.searchBst nonempty agrees deep
  have agree : ∀ node : EntryNode Block, compareStringKeys node.toEntry (⟨key, 0⟩ : Entry ℤ) =
      compareHeapKeys node (⟨⟨searchable.key, key⟩, ⟨searchable.value, 0⟩⟩ : HeapEntry Block ℤ) :=
    fun _ => rfl
  rw [isHead] at searched
  rw [PointerDictionary.searchDict]
  dsimp only
  rw [isHead]
  dsimp only
  rw [searched, Dictionary.searchDict_eq, ← related.entries,
    Tree.searchBst_map EntryNode.toEntry agree, Option.bind_some]
  cases found : state.nodes.searchBst compareHeapKeys
      (⟨⟨searchable.key, key⟩, ⟨searchable.value, 0⟩⟩ : HeapEntry Block ℤ) with
  | none => exact ⟨none, rfl, rfl⟩
  | some node =>
      have stored := holds.lays.stored_of_mem (Tree.mem_inorder_of_searchBst found)
      refine ⟨some node.data.content.value.block, ?_, ?_⟩
      · rw [Option.map_some]
        dsimp only
        rw [entryAt_of_eq stored.1]
        rfl
      · exact textAt_of_eq stored.2.2

/-- The entry of a search is lost. -/
theorem Related.searched (related : state.Related)
    (freeKey : state.dictionary.memory searchable.key = none)
    (freeValue : state.dictionary.memory searchable.value = none)
    (apart : searchable.key ≠ searchable.value) (key : Bytes) (filled : state.inserted ≠ []) :
    (state.searchedIn searchable (some key) { state.dictionary with
      memory := state.dictionary.memory.entryConstructor searchable (.text key)
        (.int 0) }).Related := by
  have notIn : searchable.key ∉ state.blocks ∧ searchable.value ∉ state.blocks :=
    ⟨fun inside => related.allocated_of_mem inside freeKey,
      fun inside => related.allocated_of_mem inside freeValue⟩
  have unchanged : ∀ block ∈ state.blocks, state.dictionary.memory.entryConstructor searchable
      (.text key) (.int 0) block = state.dictionary.memory block := fun block member =>
    entryConstructor_of_ne _ _ (ne_of_mem_of_not_mem member notIn.1)
      (ne_of_mem_of_not_mem member notIn.2)
  have holds := related.keep unchanged
  rw [searchedIn, if_pos ⟨rfl, filled⟩]
  have perm : (blocks { state with
      dictionary := { state.dictionary with
        memory := state.dictionary.memory.entryConstructor searchable (.text key) (.int 0) }
      searches := state.searches + 1
      lost := searchable.key :: searchable.value :: state.lost }).Perm
      ([searchable.key, searchable.value] ++ state.blocks) := by
    refine List.perm_iff_count.mpr fun block => ?_
    simp only [blocks, List.count_append, List.count_cons, List.count_nil]
    omega
  exact
    { tree := holds.1
      keys := holds.2
      entries := related.entries
      texts := related.texts
      height := related.height
      distinct := by
        rw [perm.nodup_iff]
        simp [apart, notIn, related.distinct]
      allocated := by
        intro block member
        dsimp only at member ⊢
        rcases List.mem_cons.mp member with rfl | member
        · rw [entryConstructor_key _ _ apart]
          simp
        · rcases List.mem_cons.mp member with rfl | member
          · rw [entryConstructor_value]
            simp
          · rw [unchanged block (by simp [blocks, member])]
            exact related.allocated block member
      counted := by
        simp only [List.length_cons, related.counted]
        omega
      outside := by
        rw [Memory.without_perm perm]
        refine (Memory.without_append_eq ?_ ?_).trans related.outside
        · intro block member
          rcases List.mem_pair.mp member with rfl | rfl
          · exact freeKey
          · exact freeValue
        · intro block notNew _
          simp only [List.mem_cons, List.not_mem_nil, or_false, not_or] at notNew
          exact entryConstructor_of_ne _ _ notNew.1 notNew.2 }

/-- A call of `search_dict` is defined, leads to the value and keeps the invariant. -/
theorem Related.search (related : state.Related) {key : Option Bytes}
    (valid : (DictionaryCall.search fuel searchable key).Valid state) :
    ∃ after pointer, state.dictionary.searchDict fuel searchable key = some (after, pointer) ∧
      pointer.bind after.memory.textAt =
        key.bind (Dictionary.ofInserts state.inserted).searchDict ∧
      (state.searchedIn searchable key after).Related := by
  rcases valid with ⟨deep, freeKey, freeValue, apart⟩
  cases key with
  | none => exact ⟨state.dictionary, none, rfl, rfl, related⟩
  | some key =>
      by_cases filled : state.inserted = []
      · have isNull : state.dictionary.head = none := by
          have lays := related.tree.lays
          rwa [related.null_iff.mpr filled] at lays
        refine ⟨state.dictionary, none, ?_, ?_, ?_⟩
        · rw [PointerDictionary.searchDict]
          dsimp only
          rw [isNull]
        · rw [filled]
          rfl
        · rwa [searchedIn, if_neg (by simp [filled])]
      · rcases related.searchFilled deep freeKey freeValue apart key filled with
          ⟨pointer, searched, found⟩
        exact ⟨_, pointer, searched, found,
          related.searched freeKey freeValue apart key filled⟩

end Search

/-- What the program does elsewhere leaves the dictionary alone. -/
theorem Related.elsewhere (related : state.Related) {block : Block}
    (cell : Option (Cell Block (EntryData Block))) (apart : block ∉ state.blocks) :
    Related { state with
      dictionary := { state.dictionary with
        memory := Function.update state.dictionary.memory block cell }
      outside := Function.update state.outside block cell } := by
  have unchanged : ∀ other ∈ state.blocks,
      Function.update state.dictionary.memory block cell other = state.dictionary.memory other :=
    fun other member => Function.update_of_ne (ne_of_mem_of_not_mem member apart) _ _
  have holds := related.keep unchanged
  exact
    { related with
      tree := holds.1
      keys := holds.2
      allocated := by
        intro other member
        dsimp only
        rw [unchanged other (by simp [blocks, member])]
        exact related.allocated other member
      outside := by
        rw [← related.outside]
        exact Memory.without_update apart cell }

/-! ## The destructor -/

/-- The destructor of the key list frees the blocks of its first half, rounded up. -/
theorem linkedListDestructor_without {Data : Type} {list : PointerList Block Data}
    {nodes : List (ListNode Block Data)} (holds : list.Holds nodes) :
    ∃ after, list.linkedListDestructor = some after ∧
      after.memory =
        list.memory.without ((nodes.take ((nodes.length + 1) / 2)).flatMap HeapNode.blocks) := by
  rcases holds.linkedListDestructor with ⟨after, destroyed, -, freed⟩
  refine ⟨after, destroyed, ?_⟩
  funext block
  rw [Memory.without]
  split_ifs with isFreed
  · exact (freed block).mpr (.inr (List.mem_flatMap.mp isFreed))
  · rcases PointerList.destructorLoop_frame destroyed block with isFree | same
    · rcases (freed block).mp isFree with wasFree | ⟨node, nodeIn, isBlock⟩
      · rw [isFree, wasFree]
      · exact absurd (List.mem_flatMap.mpr ⟨node, nodeIn, isBlock⟩) isFreed
    · exact same

theorem freedBlocks_leftover (state : DictionaryState Block) :
    (state.freedBlocks ++ state.leftover).Perm state.blocks := by
  have halves := congrArg (List.flatMap HeapNode.blocks)
    (List.take_append_drop ((state.keyNodes.length + 1) / 2) state.keyNodes)
  rw [List.flatMap_append] at halves
  refine List.perm_iff_count.mpr fun block => ?_
  have counts := congrArg (List.count block) halves
  simp only [freedBlocks, leftover, blocks, List.count_append] at counts ⊢
  omega

theorem Related.dictionaryDestructor (related : state.Related) {fuel : ℕ}
    (deep : state.nodes.height ≤ fuel) :
    state.dictionary.dictionaryDestructor fuel =
      some (state.dictionary.memory.without state.freedBlocks) := by
  rcases linkedListDestructor_without related.keys with ⟨after, destroyed, contents⟩
  have isMemory : state.dictionary.keys.memory = state.dictionary.memory := rfl
  rw [PointerDictionary.dictionaryDestructor, destroyed, Option.bind_some, contents, isMemory]
  have distinct := related.distinct
  simp only [blocks, List.nodup_append', List.disjoint_left, List.mem_append, not_or] at distinct
  have lays := related.tree.lays
  by_cases empty : state.nodes = .null
  · rw [empty] at lays
    have isNull : state.dictionary.head = none := lays
    have noBlocks : entryKept.treeBlocks state.nodes = [] := by
      rw [empty]
      rfl
    rw [isNull, freedBlocks, noBlocks, List.append_nil]
  · obtain ⟨head, isHead⟩ : ∃ head, state.dictionary.head = some head := by
      cases isNodes : state.nodes with
      | null => exact absurd isNodes empty
      | node node next previous =>
          rw [isNodes] at lays
          exact ⟨node.node, lays.1⟩
    have laysLater : entryKept.Lays (state.dictionary.memory.without
        ((state.keyNodes.take ((state.keyNodes.length + 1) / 2)).flatMap HeapNode.blocks))
        state.dictionary.head state.nodes := by
      apply lays.congr
      intro block inTree
      apply Memory.without_of_notMem
      intro inFreed
      rcases List.mem_flatMap.mp inFreed with ⟨node, nodeIn, isBlock⟩
      exact (distinct.2.2 inTree).1
        (List.mem_flatMap.mpr ⟨node, List.mem_of_mem_take nodeIn, isBlock⟩)
    have freed := laysLater.destroyBelow empty distinct.1 destroyedBy_destroyEntryNode deep
    rw [isHead] at freed ⊢
    dsimp only
    rw [Memory.recursiveDictionaryDestroy, freed, Memory.without_without]
    rfl

theorem Related.length_leftover (related : state.Related) :
    state.leftover.length =
      (Dictionary.ofInserts state.inserted).unreleased + 2 * state.searches := by
  have twoBlocks : ∀ nodes : List (ListNode Block (EntryData Block)),
      (nodes.flatMap HeapNode.blocks).length = 2 * nodes.length := by
    intro nodes
    induction nodes with
    | nil => rfl
    | cons node nodes ih =>
        rw [List.flatMap_cons, List.length_append, ih, List.length_cons]
        simp only [HeapNode.blocks, List.length_cons, List.length_nil]
        omega
  have keys : (Dictionary.ofInserts state.inserted).keys = state.inserted.map Prod.fst :=
    Dictionary.keys_foldl_insertDict state.inserted dictionaryConstructor
  have nodes := congrArg List.length related.texts
  rw [List.length_map, List.length_map] at nodes
  rw [leftover, List.length_append, twoBlocks, List.length_drop, related.counted,
    Dictionary.unreleased, keys, List.length_map, nodes]
  omega

theorem Related.represents (related : state.Related) : state.Represents where
  outside := related.outside
  height := related.height
  keys := by
    intro index
    have elements := congrArg (fun texts => texts[index.toNat]?) related.texts
    simp only [List.getElem?_map] at elements
    refine ⟨_, related.keys.retrieveLl_eq_getElem? index, ?_⟩
    split_ifs
    · rw [List.getElem?_map, List.getElem?_map]
      cases found : state.keyNodes[index.toNat]? with
      | none =>
          rw [found] at elements
          cases inserted : state.inserted[index.toNat]? with
          | none => rfl
          | some insert =>
              rw [inserted] at elements
              cases elements
      | some node =>
          rw [found] at elements
          cases inserted : state.inserted[index.toNat]? with
          | none =>
              rw [inserted] at elements
              cases elements
          | some insert =>
              rw [inserted, Option.map_some, Option.map_some, Option.some.injEq] at elements
              have isData := (related.keys.stored node (List.mem_of_getElem? found)).isData
              rw [elements] at isData
              exact textAt_of_eq isData
    · rfl
  search := by
    intro fuel searchable key valid
    rcases related.search valid with ⟨after, pointer, searched, found, -⟩
    exact ⟨after, pointer, searched, found⟩
  destructor := by
    intro fuel deep
    have perm := state.freedBlocks_leftover
    have distinct := perm.nodup_iff.mpr related.distinct
    rw [List.nodup_append'] at distinct
    refine ⟨_, related.dictionaryDestructor deep, ?_, distinct.2.1, ?_, related.length_leftover⟩
    · rw [Memory.without_without, Memory.without_perm perm, related.outside]
    · intro block isLeft
      rw [Memory.without_of_notMem fun isFreed => distinct.2.2 isFreed isLeft]
      exact related.allocated_of_mem (perm.mem_iff.mp (List.mem_append_right _ isLeft))

/-- Every valid call is defined and keeps the invariant. -/
theorem Related.step (related : state.Related) {call : DictionaryCall Block}
    (valid : call.Valid state) :
    ∃ after, (dictionarySystem Block).step call state = some after ∧ after.Related := by
  dsimp only [dictionarySystem]
  rw [if_pos valid]
  cases call with
  | insert fuel new key value =>
      rcases valid with ⟨deep, free, distinct⟩
      rcases @Related.insert _ _ _ _ _ key value related free distinct deep with
        ⟨dictionary, inserted, afterRelated⟩
      exact ⟨_, congrArg (Option.map _) inserted, afterRelated⟩
  | search fuel searchable key =>
      rcases related.search valid with ⟨after, pointer, searched, -, afterRelated⟩
      exact ⟨_, congrArg (Option.map _) searched, afterRelated⟩
  | elsewhere block cell => exact ⟨_, rfl, related.elsewhere cell valid⟩

theorem related_of_reachable (reached : (dictionarySystem Block).Reachable state) :
    state.Related := by
  apply System.Reachable.invariant _ _ reached
  · rintro state ⟨memory, rfl⟩
    exact related_initial memory
  · intro state call after related taken
    by_cases valid : call.Valid state
    · rcases related.step valid with ⟨same, takenSame, afterRelated⟩
      have isSame : after = same := Option.some.inj (taken.symm.trans takenSame)
      exact isSame ▸ afterRelated
    · dsimp only [dictionarySystem] at taken
      rw [if_neg valid] at taken
      cases taken

end DictionaryState

end System

end LetUsConnect
