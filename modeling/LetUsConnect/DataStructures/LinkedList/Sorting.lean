import LetUsConnect.DataStructures.LinkedList.Search
import LetUsConnect.Lib.ExchangeSort

/-!
# Sorting

`bubble_sort_ll`, with the blocks its cursors follow. The outer cursor starts at
what `retrieve` returns for the first position. That is the data of the first node
and not the node, so a list with any nodes is not sorted: the data is followed as
if it were a node.

The loops as such are an exchange sort. Started at the head they would sort.
-/

namespace LetUsConnect

open Chains Comparators

variable {Block Data : Type}

/-- `pointer->data = data`. -/
def Memory.setData [DecidableEq Block] (memory : Memory Block Data) (pointer : Block)
    (data : Option Block) : Option (Memory Block Data) :=
  (memory.nodeAt (some pointer)).map fun node =>
    Function.update memory pointer (some (.node { node with data }))

/-- The data pointer of the node at a place. -/
def Memory.dataAt (memory : Memory Block Data) (place : Block) : Option (Option Block) :=
  (memory.nodeAt (some place)).map StructNode.data

/-- The data pointers of the nodes at these places. -/
def Memory.dataOf (memory : Memory Block Data) (places : List Block) : List (Option Block) :=
  places.map fun place => (memory.dataAt place).join

/-- The nodes at these places have these data pointers. -/
def Memory.HasData (memory : Memory Block Data) (places : List Block)
    (data : List (Option Block)) : Prop :=
  List.Forall₂ (fun place pointer => memory.dataAt place = some pointer) places data

namespace PointerList

variable [DecidableEq Block] (compare : Option Block → Option Block → ℤ)

/-- Swaps the data of two nodes that are out of order. -/
def exchange (memory : Memory Block Data) (i n : Block) : Option (Memory Block Data) :=
  (memory.nodeAt (some i)).bind fun iNode =>
    (memory.nodeAt (some n)).bind fun nNode =>
      if 0 < compare iNode.data nNode.data then
        (memory.setData n iNode.data).bind fun memory => memory.setData i nNode.data
      else some memory

/--
The inner loop of `bubble_sort_ll`, with the memory it leaves and the blocks that
are followed. `fuel` bounds its rounds.
-/
def sortInner (i : Block) : ℕ → Memory Block Data → Option Block →
    Option (Memory Block Data × List Block)
  | _, memory, none => some (memory, [])
  | 0, _, some _ => none
  | fuel + 1, memory, some n =>
      (exchange compare memory i n).bind fun memory =>
        (memory.nodeAt (some n)).bind fun node =>
          (sortInner i fuel memory node.next).map fun rest => (rest.1, i :: n :: rest.2)

/-- The outer loop. -/
def sortOuter : ℕ → Memory Block Data → Option Block → Option (Memory Block Data × List Block)
  | _, memory, none => some (memory, [])
  | 0, _, some _ => none
  | fuel + 1, memory, some i =>
      (memory.nodeAt (some i)).bind fun node =>
        (sortInner compare i fuel memory node.next).bind fun inner =>
          (inner.1.nodeAt (some i)).bind fun node =>
            (sortOuter fuel inner.1 node.next).map fun rest =>
              (rest.1, i :: inner.2 ++ rest.2)

/-- `bubble_sort_ll`. -/
def bubbleSortLl (fuel : ℕ) (list : PointerList Block Data) :
    Option (PointerList Block Data × List Block) :=
  (list.retrieveLl 0).bind fun i =>
    (sortOuter compare fuel list.memory i).map fun after =>
      ({ list with memory := after.1 }, after.2)

end PointerList

/-- The data of the same nodes is in order, and only these nodes were followed. -/
structure Sorts (compare : Option Block → Option Block → ℤ) (list : PointerList Block Data)
    (places : List Block) (outcome : PointerList Block Data × List Block) : Prop where
  chain : Chain outcome.1.memory.next outcome.1.head places
  length : outcome.1.length = list.length
  permuted : (outcome.1.memory.dataOf places).Perm (list.memory.dataOf places)
  ordered : (outcome.1.memory.dataOf places).Pairwise fun one two => compare one two ≤ 0
  followed : ∀ block ∈ outcome.2, block ∈ places

namespace PointerList

variable {compare : Option Block → Option Block → ℤ} {list : PointerList Block Data}
  {nodes : List (ListNode Block Data)} {memory : Memory Block Data}

/-! ## The data of the nodes -/

theorem dataAt_congr {other : Memory Block Data} {block : Block}
    (same : other block = memory block) : other.dataAt block = memory.dataAt block := by
  simp only [Memory.dataAt, Memory.nodeAt, same]

theorem hasData_congr {other : Memory Block Data} {places : List Block}
    {data : List (Option Block)} (hasData : memory.HasData places data)
    (same : ∀ place ∈ places, other place = memory place) : other.HasData places data := by
  induction hasData with
  | nil => exact .nil
  | cons found rest ih =>
      refine .cons ((dataAt_congr (same _ List.mem_cons_self)).trans found) (ih ?_)
      exact fun place member => same place (List.mem_cons_of_mem _ member)

theorem dataOf_eq {places : List Block} {data : List (Option Block)}
    (hasData : memory.HasData places data) : memory.dataOf places = data := by
  induction hasData with
  | nil => rfl
  | cons found rest ih =>
      rw [Memory.dataOf] at ih ⊢
      rw [List.map_cons, found, ih]
      rfl

/-- The node at a place, with its link. -/
theorem exists_nodeAt {place : Block} {pointer : Option Block}
    (found : memory.dataAt place = some pointer) :
    ∃ node, memory.nodeAt (some place) = some node ∧ node.next = memory.next place := by
  rcases Option.map_eq_some_iff.mp found with ⟨node, isNode, -⟩
  exact ⟨node, isNode, by rw [Memory.next, isNode, Option.bind_some]⟩

theorem Holds.hasData (holds : list.Holds nodes) :
    list.memory.HasData (nodes.map HeapNode.node) (dataPointers nodes) := by
  have stored := holds.stored
  clear holds
  induction nodes with
  | nil => exact .nil
  | cons node nodes ih =>
      refine .cons ?_ (ih fun later member => stored later (List.mem_cons_of_mem _ member))
      rcases (stored node List.mem_cons_self).nodeAt with ⟨previous, isNode⟩
      rw [Memory.dataAt, isNode]
      rfl

/-! ## The sort -/

variable [DecidableEq Block]

/-- The outer loop follows the block it starts with. -/
theorem mem_followed_of_sortOuter {fuel : ℕ} {memory : Memory Block Data} {i : Block}
    {outcome : Memory Block Data × List Block}
    (sorted : sortOuter compare fuel memory (some i) = some outcome) : i ∈ outcome.2 := by
  cases fuel with
  | zero => cases sorted
  | succ fuel =>
      simp only [sortOuter, Option.bind_eq_some_iff, Option.map_eq_some_iff] at sorted
      rcases sorted with ⟨node, -, inner, -, later, -, rest, -, rfl⟩
      simp

/-- A list is sorted exactly if there is nothing to sort. -/
theorem Holds.bubbleSortLl_sorts_iff (holds : list.Holds nodes)
    (compare : Option Block → Option Block → ℤ) :
    (∃ fuel outcome, list.bubbleSortLl compare fuel = some outcome ∧
      Sorts compare list (nodes.map HeapNode.node) outcome) ↔ nodes = [] := by
  constructor
  · rintro ⟨fuel, outcome, sorted, sorts⟩
    cases nodes with
    | nil => rfl
    | cons node rest =>
        have first := holds.retrieveLl_eq (show 0 < (node :: rest).length by simp)
        rw [Nat.cast_zero] at first
        rw [bubbleSortLl, first, Option.bind_some, Option.map_eq_some_iff] at sorted
        rcases sorted with ⟨after, looped, rfl⟩
        have isNode := sorts.followed _ (mem_followed_of_sortOuter looped)
        rcases List.mem_map.mp isNode with ⟨other, member, same⟩
        have split := (@nodup_blocks_append_cons_iff _ _ [] rest node).mp holds.distinct
        rcases List.mem_cons.mp member with rfl | inRest
        · exact absurd same split.1
        · exact absurd same (split.2.1 other inRest _ (mem_blocks_node other)).2
  · rintro rfl
    have nothing : list.retrieveLl 0 = some none := holds.retrieveLl_out (.inr le_rfl)
    refine ⟨0, (list, []), ?_, ?_⟩
    · rw [bubbleSortLl, nothing]
      rfl
    · exact ⟨holds.chain, rfl, .refl _, .nil, by simp⟩

/-- Nothing to sort. -/
theorem constructor_sorts :
    ∃ fuel outcome,
      (constructor fun _ => none : PointerList ℕ Unit).bubbleSortLl compareBlocks fuel =
        some outcome ∧ Sorts compareBlocks (constructor fun _ => none) [] outcome :=
  ((holds_constructor _).bubbleSortLl_sorts_iff compareBlocks).mpr rfl

/-- Two nodes are never sorted, although the comparator orders their data. -/
theorem twoNodes_notSorted :
    twoNodes.Holds [⟨0, ⟨1, .data ()⟩⟩, ⟨2, ⟨3, .data ()⟩⟩] ∧ Preorders compareBlocks Set.univ ∧
      ¬∃ fuel outcome, twoNodes.bubbleSortLl compareBlocks fuel = some outcome ∧
        Sorts compareBlocks twoNodes [0, 2] outcome := by
  refine ⟨twoNodes_holds, preorders_compareBlocks _, ?_⟩
  rintro ⟨fuel, outcome, sorted, -⟩
  cases fuel <;> cases sorted

/-! ## The loops from the head on -/

variable (compare)

theorem setData_spec {place : Block} {old : Option Block} (found : memory.dataAt place = some old)
    (data : Option Block) :
    ∃ after, memory.setData place data = some after ∧ after.dataAt place = some data ∧
      after.next = memory.next ∧ ∀ block, block ≠ place → after block = memory block := by
  rcases Option.map_eq_some_iff.mp found with ⟨node, isNode, -⟩
  refine ⟨_, by rw [Memory.setData, isNode, Option.map_some], ?_, ?_, ?_⟩
  · simp [Memory.dataAt, Memory.nodeAt]
  · funext block
    by_cases isPlace : block = place
    · subst isPlace
      rw [Memory.next_of_eq (Function.update_self _ _ _), Memory.next, isNode]
      rfl
    · exact Memory.next_congr (Function.update_of_ne isPlace _ _)
  · intro block notPlace
    exact Function.update_of_ne notPlace _ _

/-- The two nodes have their data in order, and nothing else changes. -/
theorem exchange_spec {i n : Block} {iData nData : Option Block}
    (iFound : memory.dataAt i = some iData) (nFound : memory.dataAt n = some nData)
    (apart : i ≠ n) :
    ∃ after, exchange compare memory i n = some after ∧
      after.dataAt i = some (if 0 < compare iData nData then nData else iData) ∧
      after.dataAt n = some (if 0 < compare iData nData then iData else nData) ∧
      after.next = memory.next ∧ ∀ block, block ≠ i → block ≠ n → after block = memory block := by
  rcases Option.map_eq_some_iff.mp iFound with ⟨iNode, isINode, rfl⟩
  rcases Option.map_eq_some_iff.mp nFound with ⟨nNode, isNNode, rfl⟩
  rw [exchange, isINode, Option.bind_some, isNNode, Option.bind_some]
  split_ifs with greater
  · rcases setData_spec nFound iNode.data with ⟨middle, setN, nMiddle, nextMiddle, sameMiddle⟩
    have iMiddle := (dataAt_congr (sameMiddle i apart)).trans iFound
    rcases setData_spec iMiddle nNode.data with ⟨after, setI, iAfter, nextAfter, sameAfter⟩
    refine ⟨after, by rw [setN, Option.bind_some, setI], iAfter, ?_, nextAfter.trans nextMiddle, ?_⟩
    · exact (dataAt_congr (sameAfter n apart.symm)).trans nMiddle
    · intro block notI notN
      exact (sameAfter block notI).trans (sameMiddle block notN)
  · exact ⟨memory, rfl, iFound, nFound, rfl, fun _ _ _ => rfl⟩

/-- The inner loop is one pass over the data of the later nodes. -/
theorem sortInner_spec {i : Block} {places : List Block} {start : Option Block} {fuel : ℕ}
    {iData : Option Block} {data : List (Option Block)}
    (chain : Chain memory.next start places) (iFound : memory.dataAt i = some iData)
    (hasData : memory.HasData places data) (apart : i ∉ places) (enough : places.length ≤ fuel) :
    ∃ after followed, sortInner compare i fuel memory start = some (after, followed) ∧
      after.dataAt i = some (ExchangeSort.pass compare iData data).1 ∧
      after.HasData places (ExchangeSort.pass compare iData data).2 ∧
      after.next = memory.next ∧
      (∀ block, block ≠ i → block ∉ places → after block = memory block) ∧
      ∀ block ∈ followed, block ∈ i :: places := by
  induction places generalizing start fuel iData data memory with
  | nil =>
      cases hasData
      refine ⟨memory, [], ?_, iFound, .nil, rfl, fun _ _ _ => rfl, by simp⟩
      rw [chain_nil_iff.mp chain]
      cases fuel <;> rfl
  | cons n rest ih =>
      cases fuel with
      | zero => simp at enough
      | succ fuel =>
          rcases List.forall₂_cons_left_iff.mp hasData with ⟨nData, later, nFound, hasLater, rfl⟩
          rw [List.mem_cons, not_or] at apart
          have notInRest : n ∉ rest := (List.nodup_cons.mp chain.nodup).1
          rcases exchange_spec compare iFound nFound apart.1 with
            ⟨middle, exchanged, iMiddle, nMiddle, sameNext, same⟩
          rcases exists_nodeAt nMiddle with ⟨node, isNode, isNext⟩
          have restChain : Chain middle.next node.next rest := by
            rw [isNext, sameNext]
            exact chain.2
          have restData : middle.HasData rest later := by
            apply hasData_congr hasLater
            intro place member
            apply same place
            · rintro rfl
              exact apart.2 member
            · rintro rfl
              exact notInRest member
          rcases ih restChain iMiddle restData apart.2 (Nat.le_of_succ_le_succ enough) with
            ⟨after, followed, looped, iAfter, restAfter, nextAfter, sameAfter, inside⟩
          have nAfter := (dataAt_congr (sameAfter n (Ne.symm apart.1) notInRest)).trans nMiddle
          refine ⟨after, i :: n :: followed, ?_, ?_, ?_, nextAfter.trans sameNext, ?_, ?_⟩
          · rw [chain.1, sortInner, exchanged, Option.bind_some, isNode, Option.bind_some, looped]
            rfl
          · rw [iAfter, ExchangeSort.pass]
            split_ifs <;> rfl
          · rw [ExchangeSort.pass]
            split_ifs at nAfter restAfter ⊢ <;> exact .cons nAfter restAfter
          · intro block notI notIn
            rw [List.mem_cons, not_or] at notIn
            exact (sameAfter block notI notIn.2).trans (same block notI notIn.1)
          · intro block member
            simp only [List.mem_cons] at member inside ⊢
            rcases member with rfl | rfl | isLater
            · exact .inl rfl
            · exact .inr (.inl rfl)
            · have found := inside block isLater
              tauto

/-- The outer loop sorts the data of the nodes. -/
theorem sortOuter_spec {places : List Block} {start : Option Block} {fuel : ℕ}
    {data : List (Option Block)} (chain : Chain memory.next start places)
    (hasData : memory.HasData places data) (enough : places.length ≤ fuel) :
    ∃ after followed, sortOuter compare fuel memory start = some (after, followed) ∧
      after.HasData places (ExchangeSort.sort compare data) ∧ after.next = memory.next ∧
      (∀ block, block ∉ places → after block = memory block) ∧
      ∀ block ∈ followed, block ∈ places := by
  induction places generalizing start fuel data memory with
  | nil =>
      cases hasData
      refine ⟨memory, [], ?_, ?_, rfl, fun _ _ => rfl, by simp⟩
      · rw [chain_nil_iff.mp chain]
        cases fuel <;> rfl
      · rw [ExchangeSort.sort]
        exact .nil
  | cons i rest ih =>
      cases fuel with
      | zero => simp at enough
      | succ fuel =>
          have enoughRest : rest.length ≤ fuel := Nat.le_of_succ_le_succ enough
          rcases List.forall₂_cons_left_iff.mp hasData with ⟨iData, later, iFound, hasLater, rfl⟩
          have apart : i ∉ rest := (List.nodup_cons.mp chain.nodup).1
          rcases exists_nodeAt iFound with ⟨node, isNode, isNext⟩
          have restChain : Chain memory.next node.next rest := isNext ▸ chain.2
          rcases sortInner_spec compare restChain iFound hasLater apart
            enoughRest with
            ⟨middle, passed, looped, iMiddle, restMiddle, nextMiddle, sameMiddle, insidePass⟩
          rcases exists_nodeAt iMiddle with ⟨nodeAfter, isNodeAfter, isNextAfter⟩
          have chainMiddle : Chain middle.next nodeAfter.next rest := by
            rw [isNextAfter, nextMiddle]
            exact chain.2
          rcases ih chainMiddle restMiddle enoughRest with
            ⟨after, followed, sorted, restAfter, nextAfter, sameAfter, inside⟩
          have iAfter := (dataAt_congr (sameAfter i apart)).trans iMiddle
          refine ⟨after, i :: passed ++ followed, ?_, ?_, nextAfter.trans nextMiddle, ?_, ?_⟩
          · rw [chain.1, sortOuter, isNode, Option.bind_some, looped, Option.bind_some]
            dsimp only
            rw [isNodeAfter, Option.bind_some, sorted]
            rfl
          · rw [ExchangeSort.sort]
            exact .cons iAfter restAfter
          · intro block notIn
            rw [List.mem_cons, not_or] at notIn
            exact (sameAfter block notIn.2).trans (sameMiddle block notIn.1 notIn.2)
          · intro block member
            rcases List.mem_append.mp member with inPass | inRest
            · rcases List.mem_cons.mp inPass with rfl | isPassed
              · exact List.mem_cons_self
              · exact insidePass block isPassed
            · exact List.mem_cons_of_mem _ (inside block inRest)

/-- Started at the head instead, the loops sort every list. -/
theorem Holds.sortOuter_sorts (holds : list.Holds nodes)
    (preorders : Preorders compare { pointer | pointer ∈ dataPointers nodes }) {fuel : ℕ}
    (enough : nodes.length ≤ fuel) :
    ∃ after followed, sortOuter compare fuel list.memory list.head = some (after, followed) ∧
      Sorts compare list (nodes.map HeapNode.node) ({ list with memory := after }, followed) := by
  rcases sortOuter_spec compare holds.chain holds.hasData (by simpa) with
    ⟨after, followed, sorted, hasData, sameNext, -, inside⟩
  refine ⟨after, followed, sorted, ?_⟩
  exact
    { chain := by
        dsimp only
        rw [sameNext]
        exact holds.chain
      length := rfl
      permuted := by
        dsimp only
        rw [dataOf_eq hasData, dataOf_eq holds.hasData]
        exact ExchangeSort.sort_perm compare _
      ordered := by
        dsimp only
        rw [dataOf_eq hasData]
        exact ExchangeSort.sort_sorted preorders fun _ member => member
      followed := inside }

end PointerList

end LetUsConnect
