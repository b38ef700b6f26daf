import LetUsConnect.DataStructures.LinkedList.Pointers
import LetUsConnect.Lib.CString
import LetUsConnect.Lib.Transition
import Mathlib.Data.Set.Card

/-!
# The linked list as a sequence

The system of this file calls the operations of a list one after the other, with
any positions that the stored length admits, and records beside it the sequence
of the elements. In every state the list represents that sequence: the stored
length counts the nodes, an `int` holds it below 2^31 nodes, no node is passed
twice, and an element is retrieved from its position.

The destructor is the exception. It takes half of the nodes out and leaves the rest.
-/

namespace LetUsConnect

open CString Chains Transition

variable {Block Data : Type}

/-- An element of a list: the data pointer with what it leads to. -/
abbrev Element (Block Data : Type) := Held Block (Cell Block Data)

/-- A call of an operation, with the blocks `malloc` returns and the data it copies. -/
inductive ListCall (Block Data : Type) where
  | insert (index : ℤ) (newNode newData : Block) (content : Cell Block Data)
  | remove (index : ℤ)
  | retrieve (index : ℤ)

namespace ListCall

/-- The positions an operation is called with, and what `malloc` promises. -/
def Valid (call : ListCall Block Data) (list : PointerList Block Data) : Prop :=
  match call with
  | .insert index newNode newData _ =>
      0 ≤ index ∧ index ≤ list.length ∧ list.Fresh newNode newData
  | .remove index => 0 ≤ index ∧ index < list.length
  | .retrieve _ => True

/-- What a call does to the sequence of the elements. -/
def onSequence (call : ListCall Block Data) (elements : List (Element Block Data)) :
    List (Element Block Data) :=
  match call with
  | .insert index _ newData content => elements.insertIdx index.toNat ⟨newData, content⟩
  | .remove index => elements.eraseIdx index.toNat
  | .retrieve _ => elements

variable [DecidableEq Block]

instance (list : PointerList Block Data) (newNode newData : Block) :
    Decidable (list.Fresh newNode newData) :=
  decidable_of_iff (list.memory newNode = none ∧ list.memory newData = none ∧ newNode ≠ newData)
    ⟨fun fresh => ⟨fresh.1, fresh.2.1, fresh.2.2⟩, fun fresh => ⟨fresh.1, fresh.2, fresh.3⟩⟩

instance (call : ListCall Block Data) (list : PointerList Block Data) :
    Decidable (call.Valid list) :=
  match call with
  | .insert index newNode newData _ =>
      inferInstanceAs (Decidable (0 ≤ index ∧ index ≤ list.length ∧ list.Fresh newNode newData))
  | .remove index => inferInstanceAs (Decidable (0 ≤ index ∧ index < list.length))
  | .retrieve _ => inferInstanceAs (Decidable True)

/-- What a call does to the list in memory. -/
def onList (call : ListCall Block Data) (list : PointerList Block Data) :
    Option (PointerList Block Data) :=
  match call with
  | .insert index newNode newData content => list.insertLl index newNode newData content
  | .remove index => list.removeNodeLl index
  | .retrieve index => (list.retrieveLl index).map fun _ => list

end ListCall

/-- A list, and beside it the sequence of its elements. -/
structure ListState (Block Data : Type) where
  list : PointerList Block Data
  elements : List (Element Block Data)

/-- The calls on one list, from its construction in any memory on. -/
def listSystem (Block Data : Type) [DecidableEq Block] :
    System (ListState Block Data) (ListCall Block Data) where
  initial state := ∃ memory, state = ⟨PointerList.constructor memory, []⟩
  step call state :=
    if call.Valid state.list then
      (call.onList state.list).map fun list => ⟨list, call.onSequence state.elements⟩
    else none

namespace PointerList

/-- The places of the nodes that are found from the head on. -/
def reachable (list : PointerList Block Data) : Set Block :=
  { block | Reaches list.memory.next list.head block }

/-- The list is this sequence. -/
structure Represents (list : PointerList Block Data) (elements : List (Element Block Data)) :
    Prop where
  length : list.length = list.reachable.ncard
  /-- The stored length is an `int`. -/
  inRange : elements.length < 2 ^ 31 → toInt list.length = list.length
  acyclic : ∀ block ∈ list.reachable, ∀ count,
    walk list.memory.next (count + 1) (some block) ≠ some block
  retrieve : ∀ index : ℤ, list.retrieveLl index =
    some (if 0 ≤ index then elements[index.toNat]?.map Held.block else none)
  contents : ∀ element ∈ elements, list.memory element.block = some element.content

variable {list : PointerList Block Data} {nodes : List (ListNode Block Data)}

theorem Holds.reachable_eq (holds : list.Holds nodes) :
    list.reachable = { block | block ∈ nodes.map HeapNode.node } := by
  ext block
  exact holds.chain.reaches_iff block

theorem Holds.ncard_reachable (holds : list.Holds nodes) :
    list.reachable.ncard = nodes.length := by
  classical
  have asFinset : list.reachable = ((nodes.map HeapNode.node).toFinset : Set Block) := by
    rw [holds.reachable_eq]
    ext block
    simp
  rw [asFinset, Set.ncard_coe_finset, List.toFinset_card_of_nodup holds.chain.nodup,
    List.length_map]

/-- The element at an index, or `NULL`. -/
theorem Holds.retrieveLl_eq_getElem? (holds : list.Holds nodes) (index : ℤ) :
    list.retrieveLl index =
      some (if 0 ≤ index then (nodes.map HeapNode.data)[index.toNat]?.map Held.block
        else none) := by
  by_cases inside : 0 ≤ index ∧ index < nodes.length
  · have within : index.toNat < nodes.length := by omega
    have found := holds.retrieveLl_eq within
    rw [Int.toNat_of_nonneg inside.1] at found
    rw [found, if_pos inside.1, List.getElem?_map, List.getElem?_eq_getElem within]
    rfl
  · have outside : index < 0 ∨ (nodes.length : ℤ) ≤ index := by omega
    rw [holds.retrieveLl_out outside]
    split_ifs with nonneg
    · have past : nodes.length ≤ index.toNat := by omega
      rw [List.getElem?_map, List.getElem?_eq_none past]
      rfl
    · rfl

/-- A list in memory represents the sequence of what its nodes hold. -/
theorem Holds.represents (holds : list.Holds nodes) :
    list.Represents (nodes.map HeapNode.data) where
  length := by rw [holds.ncard_reachable, holds.length]
  inRange := by
    rw [List.length_map, holds.length]
    exact toInt_natCast
  acyclic := by
    intro block found count
    exact holds.chain.acyclic ((holds.chain.reaches_iff block).mp found) count
  retrieve := holds.retrieveLl_eq_getElem?
  contents := by
    intro element member
    rcases List.mem_map.mp member with ⟨node, nodeIn, rfl⟩
    exact (holds.stored node nodeIn).isData

end PointerList

/-- The nodes of the list hold the elements. -/
def ListState.Related (state : ListState Block Data) : Prop :=
  ∃ nodes, state.list.Holds nodes ∧ state.elements = nodes.map HeapNode.data

theorem ListState.Related.represents {state : ListState Block Data} (related : state.Related) :
    state.list.Represents state.elements := by
  rcases related with ⟨nodes, holds, elements⟩
  rw [elements]
  exact holds.represents

section Runs

variable [DecidableEq Block] {state : ListState Block Data}

/-- A valid call is defined, and its result is related to the changed sequence. -/
theorem ListState.Related.step (related : state.Related) {call : ListCall Block Data}
    (valid : call.Valid state.list) :
    ∃ after, (listSystem Block Data).step call state = some after ∧
      after.elements = call.onSequence state.elements ∧ after.Related := by
  rcases related with ⟨nodes, holds, elements⟩
  have length_eq := holds.length
  dsimp only [listSystem]
  rw [if_pos valid]
  cases call with
  | insert index newNode newData content =>
      rcases valid with ⟨nonneg, within, fresh⟩
      rcases holds.insertLl fresh (show index.toNat ≤ nodes.length by omega) content with
        ⟨after, inserted, afterHolds⟩
      rw [Int.toNat_of_nonneg nonneg] at inserted
      refine ⟨⟨after, _⟩, by rw [ListCall.onList, inserted]; rfl, rfl, _, afterHolds, ?_⟩
      rw [List.map_insertIdx, ← elements]
      rfl
  | remove index =>
      rcases valid with ⟨nonneg, within⟩
      rcases holds.removeNodeLl (show index.toNat < nodes.length by omega) with
        ⟨after, removed, afterHolds, -⟩
      rw [Int.toNat_of_nonneg nonneg] at removed
      refine ⟨⟨after, _⟩, by rw [ListCall.onList, removed]; rfl, rfl, _, afterHolds, ?_⟩
      rw [← List.eraseIdx_map, ← elements]
  | retrieve index =>
      refine ⟨state, ?_, rfl, nodes, holds, elements⟩
      rw [ListCall.onList, holds.retrieveLl_eq_getElem?]
      rfl

theorem related_of_reachable (reached : (listSystem Block Data).Reachable state) :
    state.Related := by
  apply System.Reachable.invariant _ _ reached
  · rintro state ⟨memory, rfl⟩
    exact ⟨[], PointerList.holds_constructor memory, rfl⟩
  · intro state call after related taken
    by_cases valid : call.Valid state.list
    · rcases related.step valid with ⟨same, takenSame, -, afterRelated⟩
      have isSame : after = same := Option.some.inj (taken.symm.trans takenSame)
      exact isSame ▸ afterRelated
    · dsimp only [listSystem] at taken
      rw [if_neg valid] at taken
      cases taken

/-- After any calls the list is the sequence of its elements, and every valid call acts on it. -/
theorem list_refines_sequence (reached : (listSystem Block Data).Reachable state) :
    state.list.Represents state.elements ∧
      ∀ call : ListCall Block Data, call.Valid state.list →
        ∃ after, (listSystem Block Data).step call state = some after ∧
          after.elements = call.onSequence state.elements ∧
          after.list.Represents after.elements := by
  have related := related_of_reachable reached
  refine ⟨related.represents, ?_⟩
  intro call valid
  rcases related.step valid with ⟨after, taken, elements, afterRelated⟩
  exact ⟨after, taken, elements, afterRelated.represents⟩

/-- No call was made and nothing is allocated. -/
def unusedList : ListState ℕ Unit := ⟨PointerList.constructor fun _ => none, []⟩

/-- Two elements are inserted and the first one is removed. -/
def insertTwoRemoveFirst : List (ListCall ℕ Unit) :=
  [.insert 0 0 1 (.data ()), .insert 1 2 3 (.data ()), .remove 0]

theorem insertTwoRemoveFirst_refines :
    ∃ state, (listSystem ℕ Unit).run insertTwoRemoveFirst unusedList = some state ∧
      state.elements = [⟨3, .data ()⟩] ∧ state.list.Represents state.elements := by
  have ends : ∃ state, (listSystem ℕ Unit).run insertTwoRemoveFirst unusedList = some state ∧
      state.elements = [⟨3, .data ()⟩] := ⟨_, rfl, rfl⟩
  rcases ends with ⟨state, ran, elements⟩
  have reached : (listSystem ℕ Unit).Reachable state :=
    System.Reachable.run (.start ⟨_, rfl⟩) ran
  exact ⟨state, ran, elements, (list_refines_sequence reached).1⟩

end Runs

/-! ## The destructor -/

namespace PointerList

section Destructor

variable [DecidableEq Block]

/-- The loop of `linked_list_destructor` from counter `i` on; `fuel` bounds its rounds. -/
def destructorLoop : ℕ → ℤ → PointerList Block Data → Option (PointerList Block Data)
  | 0, i, list => if i < list.length then none else some list
  | fuel + 1, i, list =>
      if i < list.length then (list.removeNodeLl 0).bind (destructorLoop fuel (i + 1))
      else some list

/-- `linked_list_destructor`, whose loop cannot take more rounds than the list is long. -/
def linkedListDestructor (list : PointerList Block Data) : Option (PointerList Block Data) :=
  destructorLoop list.length.toNat 0 list

/--
Every node is destroyed with its data and the list is empty. Destroying a node
twice would be undefined.
-/
def DestroysEveryNode (list : PointerList Block Data) : Prop :=
  ∃ after, list.linkedListDestructor = some after ∧ after.head = none ∧ after.length = 0 ∧
    ∀ block ∈ list.reachable, after.memory block = none ∧
      ∀ node, list.memory.nodeAt (some block) = some node →
        ∀ data ∈ node.data, after.memory data = none

variable {list : PointerList Block Data} {nodes : List (ListNode Block Data)}

/-- From counter `i` on every round takes a node out and brings the bound closer by one. -/
theorem Holds.destructorLoop (holds : list.Holds nodes) (fuel i : ℕ)
    (enough : nodes.length ≤ fuel + i) :
    ∃ after, PointerList.destructorLoop fuel i list = some after ∧
      after.Holds (nodes.drop ((nodes.length - i + 1) / 2)) ∧
      ∀ block, after.memory block = none ↔ list.memory block = none ∨
        ∃ node ∈ nodes.take ((nodes.length - i + 1) / 2), block ∈ node.blocks := by
  induction fuel generalizing i list nodes with
  | zero =>
      have done : ¬(i : ℤ) < list.length := by
        rw [holds.length]
        omega
      have noRounds : (nodes.length - i + 1) / 2 = 0 := by omega
      refine ⟨list, by rw [PointerList.destructorLoop, if_neg done], ?_, ?_⟩
      · rwa [noRounds]
      · simp [noRounds]
  | succ fuel ih =>
      rw [PointerList.destructorLoop]
      by_cases inside : (i : ℤ) < list.length
      · rw [if_pos inside]
        rw [holds.length] at inside
        cases nodes with
        | nil =>
            rw [List.length_nil] at inside
            omega
        | cons node nodes =>
            rw [List.length_cons] at inside enough ⊢
            rcases holds.removeNodeLl_zero with ⟨middle, removed, middleHolds, freed⟩
            rcases ih middleHolds (i + 1) (by omega) with ⟨after, looped, afterHolds, freedLater⟩
            have rounds :
                (nodes.length + 1 - i + 1) / 2 = (nodes.length - (i + 1) + 1) / 2 + 1 := by
              omega
            rw [Nat.cast_add, Nat.cast_one] at looped
            refine ⟨after, by rw [removed, Option.bind_some, looped], ?_, ?_⟩
            · rwa [rounds, List.drop_succ_cons]
            · intro block
              rw [freedLater, freed, rounds, List.take_succ_cons]
              simp only [List.mem_cons, exists_eq_or_imp, or_assoc]
      · have noRounds : (nodes.length - i + 1) / 2 = 0 := by
          rw [holds.length] at inside
          omega
        refine ⟨list, by rw [if_neg inside], ?_, ?_⟩
        · rwa [noRounds]
        · simp [noRounds]

/-- The destructor takes the first half of the nodes, rounded up, out of the list. -/
theorem Holds.linkedListDestructor (holds : list.Holds nodes) :
    ∃ after, list.linkedListDestructor = some after ∧
      after.Holds (nodes.drop ((nodes.length + 1) / 2)) ∧
      ∀ block, after.memory block = none ↔ list.memory block = none ∨
        ∃ node ∈ nodes.take ((nodes.length + 1) / 2), block ∈ node.blocks := by
  have length_eq := holds.length
  exact holds.destructorLoop list.length.toNat 0 (by omega)

theorem free_frame {memory after : Memory Block Data} {pointer : Option Block}
    (freed : memory.free pointer = some after) (block : Block) :
    after block = none ∨ after block = memory block := by
  cases pointer with
  | none =>
      cases freed
      exact .inr rfl
  | some place =>
      rw [Memory.free, Option.map_eq_some_iff] at freed
      rcases freed with ⟨cell, -, rfl⟩
      by_cases same : block = place
      · exact .inl (by rw [same, Function.update_self])
      · exact .inr (Function.update_of_ne same _ _)

/-- The destructor writes to no block. -/
theorem destructorLoop_frame {fuel : ℕ} {i : ℤ} {after : PointerList Block Data}
    (looped : PointerList.destructorLoop fuel i list = some after) (block : Block) :
    after.memory block = none ∨ after.memory block = list.memory block := by
  induction fuel generalizing i list with
  | zero =>
      rw [PointerList.destructorLoop] at looped
      split_ifs at looped
      cases looped
      exact .inr rfl
  | succ fuel ih =>
      rw [PointerList.destructorLoop] at looped
      split_ifs at looped
      · rw [Option.bind_eq_some_iff] at looped
        rcases looped with ⟨middle, removed, looped⟩
        have removal : middle.memory block = none ∨ middle.memory block = list.memory block := by
          rw [PointerList.removeNodeLl, if_pos rfl] at removed
          split at removed
          · cases removed
            exact .inr rfl
          · simp only [Option.bind_eq_some_iff, Option.map_eq_some_iff] at removed
            rcases removed with ⟨found, -, memory, destroyed, rfl⟩
            rw [Memory.destroyNodeLl, Option.bind_eq_some_iff] at destroyed
            rcases destroyed with ⟨node, -, destroyed⟩
            rw [Option.bind_eq_some_iff] at destroyed
            rcases destroyed with ⟨between, freedData, freedNode⟩
            rcases free_frame freedNode block with freed | same
            · exact .inl freed
            · rcases free_frame freedData block with freed | again
              · exact .inl (same.trans freed)
              · exact .inr (same.trans again)
        rcases ih looped with freed | same
        · exact .inl freed
        · rcases removal with freed | again
          · exact .inl (same.trans freed)
          · exact .inr (same.trans again)
      · cases looped
        exact .inr rfl

/-- With at most one node nothing is left over. -/
theorem Holds.destroyed_iff_short (holds : list.Holds nodes) :
    list.DestroysEveryNode ↔ nodes.length ≤ 1 := by
  rcases holds.linkedListDestructor with ⟨after, destroyed, afterHolds, freed⟩
  constructor
  · rintro ⟨same, destroyedSame, -, lengthZero, -⟩
    have isSame : after = same := Option.some.inj (destroyed.symm.trans destroyedSame)
    have left := afterHolds.length
    rw [isSame, lengthZero, List.length_drop] at left
    omega
  · intro short
    have takesAll : nodes.take ((nodes.length + 1) / 2) = nodes := by
      apply List.take_of_length_le
      omega
    have dropsAll : nodes.drop ((nodes.length + 1) / 2) = [] := by
      apply List.drop_eq_nil_of_le
      omega
    rw [dropsAll] at afterHolds
    rw [takesAll] at freed
    refine ⟨after, destroyed, chain_nil_iff.mp afterHolds.chain, afterHolds.length, ?_⟩
    intro block found
    rw [holds.reachable_eq] at found
    rcases List.mem_map.mp found with ⟨node, member, rfl⟩
    rcases (holds.stored node member).nodeAt with ⟨previous, isNode⟩
    refine ⟨(freed _).mpr (.inr ⟨node, member, mem_blocks_node node⟩), ?_⟩
    intro other isOther data isData
    rw [isNode] at isOther
    cases isOther
    cases isData
    exact (freed _).mpr (.inr ⟨node, member, mem_blocks_data node⟩)

end Destructor

end PointerList

section Runs

variable [DecidableEq Block] {state : ListState Block Data}

/-- A list of `n` nodes is destroyed as a whole exactly if `n` is at most one. -/
theorem destroysEveryNode_iff (reached : (listSystem Block Data).Reachable state) :
    state.list.DestroysEveryNode ↔ state.elements.length ≤ 1 := by
  rcases related_of_reachable reached with ⟨nodes, holds, elements⟩
  rw [elements, List.length_map]
  exact holds.destroyed_iff_short

/-- A list with one inserted element. -/
theorem insertOne_destroyed :
    ∃ state, (listSystem ℕ Unit).run [.insert 0 0 1 (.data ())] unusedList = some state ∧
      state.list.DestroysEveryNode := by
  have ends : ∃ state, (listSystem ℕ Unit).run [.insert 0 0 1 (.data ())] unusedList = some state ∧
      state.elements.length ≤ 1 := ⟨_, rfl, le_rfl⟩
  rcases ends with ⟨state, ran, short⟩
  exact ⟨state, ran, (destroysEveryNode_iff (.run (.start ⟨_, rfl⟩) ran)).mpr short⟩

/-- Of two inserted elements one is left. -/
theorem insertTwo_notDestroyed :
    ∃ state, (listSystem ℕ Unit).run
        [.insert 0 0 1 (.data ()), .insert 1 2 3 (.data ())] unusedList = some state ∧
      state.list.linkedListDestructor.map PointerList.length = some 1 ∧
      ¬state.list.DestroysEveryNode := by
  have ends : ∃ state, (listSystem ℕ Unit).run
        [.insert 0 0 1 (.data ()), .insert 1 2 3 (.data ())] unusedList = some state ∧
      state.list.linkedListDestructor.map PointerList.length = some 1 := ⟨_, rfl, rfl⟩
  rcases ends with ⟨state, ran, left⟩
  refine ⟨state, ran, left, ?_⟩
  rintro ⟨after, destroyed, -, lengthZero, -⟩
  rw [destroyed, Option.map_some, lengthZero] at left
  cases left

end Runs

end LetUsConnect
