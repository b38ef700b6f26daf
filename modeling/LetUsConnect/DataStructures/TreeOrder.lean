import LetUsConnect.DataStructures.Dictionary

/-!
# The order of the search tree

`iterate_bst` hands the data of the node to the comparator first, and moves to
`next` when the result is 1. The data that compares less than a node is thus
found under `next`, while the header places it under `previous`.

`Tree.Ordered` is stated for any relation between left and right, so that the
documented order and the order the insertions produce are two instances of it.
-/

namespace LetUsConnect

open Comparators CString

universe u v

namespace Tree

variable {Data : Type u} {Query : Type v} {compare : Data → Data → ℤ} {inserted : List Data}

/-- The data in the order of the previous-node-next traversal. -/
def inorder : Tree Data → List Data
  | .null => []
  | .node data next previous => previous.inorder ++ data :: next.inorder

/-- At every node all data on the left and the node, and the node and all on the right. -/
def Ordered (before : Data → Data → Prop) : Tree Data → Prop
  | .null => True
  | .node data next previous =>
      (∀ left ∈ previous.inorder, before left data) ∧
        (∀ right ∈ next.inorder, before data right) ∧
        previous.Ordered before ∧ next.Ordered before

/-- A new tree after these calls of `insert_bst`, in order. -/
def ofInsertBst (compare : Data → Data → ℤ) (inserted : List Data) : Tree Data :=
  inserted.foldl (insertBst compare) .null

/-! ## What an insertion adds -/

/-- Data the search already finds is not added; other data is added at one place. -/
theorem inorder_insertBst (compare : Data → Data → ℤ) (tree : Tree Data) (new : Data) :
    ((tree.searchBst compare new).isSome ∧ tree.insertBst compare new = tree) ∨
      (tree.searchBst compare new = none ∧ ∃ front rest, tree.inorder = front ++ rest ∧
        (tree.insertBst compare new).inorder = front ++ new :: rest) := by
  induction tree with
  | null => exact Or.inr ⟨rfl, [], [], rfl, rfl⟩
  | node data next previous ihNext ihPrevious =>
      rw [insertBst_node, searchBst_node]
      split_ifs with above below
      · rcases ihNext with ⟨found, same⟩ | ⟨missing, front, rest, before, after⟩
        · exact Or.inl ⟨found, by rw [same]⟩
        · refine Or.inr ⟨missing, previous.inorder ++ data :: front, rest, ?_, ?_⟩
          · simp [inorder, before]
          · simp [inorder, after]
      · rcases ihPrevious with ⟨found, same⟩ | ⟨missing, front, rest, before, after⟩
        · exact Or.inl ⟨found, by rw [same]⟩
        · refine Or.inr ⟨missing, front, rest ++ data :: next.inorder, ?_, ?_⟩
          · simp [inorder, before]
          · simp [inorder, after]
      · exact Or.inl ⟨rfl, rfl⟩

/-- What a search finds is in the tree and compares as equal. -/
theorem searchBst_sound {compare : Data → Query → ℤ} {query : Query} {tree : Tree Data}
    {found : Data}
    (threeWay : ∀ data ∈ tree.inorder,
      compare data query = 1 ∨ compare data query = -1 ∨ compare data query = 0)
    (searched : tree.searchBst compare query = some found) :
    found ∈ tree.inorder ∧ compare found query = 0 := by
  induction tree with
  | null => cases searched
  | node data next previous ihNext ihPrevious =>
      rw [searchBst_node] at searched
      split_ifs at searched with above below
      · have later :=
          ihNext (fun other member => threeWay other (by simp [inorder, member])) searched
        exact ⟨by simp [inorder, later.1], later.2⟩
      · have later := ihPrevious (fun other member => threeWay other (by simp [inorder, member]))
          searched
        exact ⟨by simp [inorder, later.1], later.2⟩
      · cases searched
        have self : found ∈ (node found next previous).inorder := by simp [inorder]
        exact ⟨self, by rcases threeWay found self with one | less | same <;> tauto⟩

/-- The tree keeps a part of what is inserted. -/
theorem inorder_foldl_insertBst (compare : Data → Data → ℤ) (inserted : List Data)
    (tree : Tree Data) :
    ∃ kept, kept.Sublist inserted ∧
      (inserted.foldl (Tree.insertBst compare) tree).inorder.Perm (kept ++ tree.inorder) := by
  induction inserted generalizing tree with
  | nil => exact ⟨[], .slnil, .refl _⟩
  | cons new inserted ih =>
      rcases ih (tree.insertBst compare new) with ⟨kept, isPart, same⟩
      rcases inorder_insertBst compare tree new with ⟨-, refused⟩ | ⟨-, front, rest, before, after⟩
      · rw [refused] at same
        exact ⟨kept, isPart.cons new, by rwa [List.foldl_cons, refused]⟩
      · refine ⟨new :: kept, isPart.cons_cons new, ?_⟩
        rw [after] at same
        rw [List.foldl_cons, before]
        have moved : (front ++ new :: rest).Perm (new :: (front ++ rest)) := List.perm_middle
        exact (same.trans (moved.append_left kept)).trans List.perm_middle

/-- When no two inserted data compare as equal, the tree keeps all of them. -/
theorem perm_inorder_foldl_insertBst {tree : Tree Data}
    (threeWay : ThreeWay compare {data | data ∈ tree.inorder ∨ data ∈ inserted})
    (apart : ∀ old ∈ tree.inorder, ∀ new ∈ inserted, compare old new ≠ 0)
    (distinct : inserted.Pairwise fun one two => compare one two ≠ 0) :
    (inserted.foldl (Tree.insertBst compare) tree).inorder.Perm (inserted ++ tree.inorder) := by
  induction inserted generalizing tree with
  | nil => exact .refl _
  | cons new inserted ih =>
      rw [List.pairwise_cons] at distinct
      rcases inorder_insertBst compare tree new with ⟨found, -⟩ | ⟨-, front, rest, before, after⟩
      · rcases Option.isSome_iff_exists.mp found with ⟨other, searched⟩
        have sound := searchBst_sound (fun data member =>
          threeWay data (.inl member) new (.inr List.mem_cons_self)) searched
        exact absurd sound.2 (apart other sound.1 new List.mem_cons_self)
      · have moved : (tree.insertBst compare new).inorder.Perm (new :: tree.inorder) := by
          rw [after, before]
          exact List.perm_middle
        have later := @ih (tree.insertBst compare new) ?_ ?_ distinct.2
        · exact (later.trans (moved.append_left inserted)).trans List.perm_middle
        · apply threeWay.mono
          rintro data (member | member)
          · rcases List.mem_cons.mp (moved.mem_iff.mp member) with rfl | old
            · exact .inr List.mem_cons_self
            · exact .inl old
          · exact .inr (List.mem_cons_of_mem _ member)
        · intro old oldIn
          rcases List.mem_cons.mp (moved.mem_iff.mp oldIn) with rfl | oldIn
          · exact distinct.1
          · exact fun other member => apart old oldIn other (List.mem_cons_of_mem _ member)

theorem mem_of_mem_inorder_insertBst {tree : Tree Data} {new data : Data}
    (member : data ∈ (tree.insertBst compare new).inorder) : data ∈ tree.inorder ∨ data = new := by
  rcases inorder_insertBst compare tree new with ⟨-, refused⟩ | ⟨-, front, rest, before, after⟩
  · exact Or.inl (refused ▸ member)
  · rw [after, List.mem_append, List.mem_cons] at member
    rw [before, List.mem_append]
    tauto

theorem mem_inorder_insertBst {tree : Tree Data} {new : Data}
    (orders : StrictlyOrders compare {data | data ∈ tree.inorder ∨ data = new}) (data : Data) :
    data ∈ (tree.insertBst compare new).inorder ↔ data ∈ tree.inorder ∨ data = new := by
  constructor
  · exact mem_of_mem_inorder_insertBst
  · intro member
    rcases inorder_insertBst compare tree new with ⟨found, same⟩ | ⟨-, front, rest, before, after⟩
    · rcases Option.isSome_iff_exists.mp found with ⟨other, searched⟩
      have sound := searchBst_sound
        (fun data member => orders.threeWay data (.inl member) new (.inr rfl)) searched
      have isNew : other = new := orders.equal other (.inl sound.1) new (.inr rfl) sound.2
      rw [same]
      rcases member with member | rfl
      · exact member
      · exact isNew ▸ sound.1
    · rw [before] at member
      rw [after]
      simp only [List.mem_append, List.mem_cons] at member ⊢
      tauto

/-! ## The order the insertions produce -/

/-- Greater data goes to `previous` and less data to `next`. -/
theorem Ordered.insertBst {tree : Tree Data} {new : Data}
    (orders : Preorders compare {data | data ∈ tree.inorder ∨ data = new})
    (mirrored : tree.Ordered fun left right => 0 < compare left right) :
    (tree.insertBst compare new).Ordered fun left right => 0 < compare left right := by
  induction tree with
  | null => simp [Ordered, inorder]
  | node data next previous ihNext ihPrevious =>
      rcases mirrored with ⟨left, right, orderedPrevious, orderedNext⟩
      have dataIn : data ∈ (node data next previous).inorder := by simp [inorder]
      rw [insertBst_node]
      split_ifs with above below
      · refine ⟨left, ?_, orderedPrevious, ihNext (orders.mono ?_) orderedNext⟩
        · intro other member
          rcases mem_of_mem_inorder_insertBst member with old | rfl
          · exact right other old
          · omega
        · exact fun other => Or.imp_left fun member => by simp [inorder, member]
      · refine ⟨?_, right, ihPrevious (orders.mono ?_) orderedPrevious, orderedNext⟩
        · intro other member
          rcases mem_of_mem_inorder_insertBst member with old | rfl
          · exact left other old
          · rw [orders.flip other (.inr rfl) data (.inl dataIn)]
            omega
        · exact fun other => Or.imp_left fun member => by simp [inorder, member]
      · exact ⟨left, right, orderedPrevious, orderedNext⟩

theorem ordered_foldl_insertBst {tree : Tree Data}
    (orders : Preorders compare {data | data ∈ tree.inorder ∨ data ∈ inserted})
    (mirrored : tree.Ordered fun left right => 0 < compare left right) :
    (inserted.foldl (Tree.insertBst compare) tree).Ordered
      fun left right => 0 < compare left right := by
  induction inserted generalizing tree with
  | nil => exact mirrored
  | cons new inserted ih =>
      apply ih
      · apply orders.mono
        rintro data (member | member)
        · rcases mem_of_mem_inorder_insertBst member with old | rfl
          · exact .inl old
          · exact .inr List.mem_cons_self
        · exact .inr (List.mem_cons_of_mem _ member)
      · apply mirrored.insertBst
        exact orders.mono fun data => Or.imp_right fun same => by simp [same]

/-- Everything that was inserted is in the tree. -/
theorem mem_inorder_foldl_insertBst {tree : Tree Data}
    (orders : StrictlyOrders compare {data | data ∈ tree.inorder ∨ data ∈ inserted})
    (data : Data) :
    data ∈ (inserted.foldl (Tree.insertBst compare) tree).inorder ↔
      data ∈ tree.inorder ∨ data ∈ inserted := by
  induction inserted generalizing tree with
  | nil => simp
  | cons new inserted ih =>
      have members := @mem_inorder_insertBst Data compare tree new
        (orders.mono fun data => Or.imp_right fun same => by simp [same])
      rw [List.foldl_cons, ih, members, List.mem_cons]
      · tauto
      · apply orders.mono
        rintro data (member | member)
        · rcases (members data).mp member with old | rfl
          · exact .inl old
          · exact .inr List.mem_cons_self
        · exact .inr (List.mem_cons_of_mem _ member)

theorem ordered_ofInsertBst (orders : Preorders compare {data | data ∈ inserted}) :
    (ofInsertBst compare inserted).Ordered fun left right => 0 < compare left right := by
  have fromNull : Preorders compare {data | data ∈ (null : Tree Data).inorder ∨ data ∈ inserted} :=
    orders.mono (by simp [inorder])
  exact ordered_foldl_insertBst fromNull trivial

theorem mem_inorder_ofInsertBst (orders : StrictlyOrders compare {data | data ∈ inserted})
    (data : Data) : data ∈ (ofInsertBst compare inserted).inorder ↔ data ∈ inserted := by
  rw [ofInsertBst, mem_inorder_foldl_insertBst]
  · simp [inorder]
  · exact orders.mono (by simp [inorder])

theorem subset_inserted {data : Data}
    (member : data ∈ (ofInsertBst compare inserted).inorder) : data ∈ inserted := by
  rcases inorder_foldl_insertBst compare inserted .null with ⟨kept, isPart, same⟩
  have inKept : data ∈ kept ++ (null : Tree Data).inorder := same.mem_iff.mp member
  rw [inorder, List.append_nil] at inKept
  exact isPart.subset inKept

/-- The traversal of an ordered tree is in order. -/
theorem Ordered.pairwise {before : Data → Data → Prop} {tree : Tree Data}
    (ordered : tree.Ordered before)
    (trans : ∀ one ∈ tree.inorder, ∀ two ∈ tree.inorder, ∀ three ∈ tree.inorder,
      before one two → before two three → before one three) :
    tree.inorder.Pairwise before := by
  induction tree with
  | null => exact List.Pairwise.nil
  | node data next previous ihNext ihPrevious =>
      rcases ordered with ⟨left, right, orderedPrevious, orderedNext⟩
      have inPrevious : ∀ other ∈ previous.inorder, other ∈ (node data next previous).inorder :=
        fun other member => by simp [inorder, member]
      have inNext : ∀ other ∈ next.inorder, other ∈ (node data next previous).inorder :=
        fun other member => by simp [inorder, member]
      have dataIn : data ∈ (node data next previous).inorder := by simp [inorder]
      rw [inorder, List.pairwise_append, List.pairwise_cons]
      refine ⟨?_, ⟨right, ?_⟩, ?_⟩
      · exact ihPrevious orderedPrevious fun one oneIn two twoIn three threeIn =>
          trans one (inPrevious one oneIn) two (inPrevious two twoIn) three
            (inPrevious three threeIn)
      · exact ihNext orderedNext fun one oneIn two twoIn three threeIn =>
          trans one (inNext one oneIn) two (inNext two twoIn) three (inNext three threeIn)
      · intro one oneIn two twoIn
        rcases List.mem_cons.mp twoIn with rfl | twoIn
        · exact left one oneIn
        · exact trans one (inPrevious one oneIn) data dataIn two (inNext two twoIn)
            (left one oneIn) (right two twoIn)

/-- The next-node-previous traversal lists the data strictly ascending. -/
theorem descending_ofInsertBst (orders : Preorders compare {data | data ∈ inserted}) :
    (ofInsertBst compare inserted).inorder.Pairwise fun left right => 0 < compare left right := by
  apply (ordered_ofInsertBst orders).pairwise
  intro one oneIn two twoIn three threeIn
  exact orders.gt_trans (subset_inserted oneIn) (subset_inserted twoIn) (subset_inserted threeIn)

/-- The tree has a node for each insertion exactly when no two inserted data compare as equal. -/
theorem length_inorder_ofInsertBst_iff (orders : Preorders compare {data | data ∈ inserted})
    (threeWay : ThreeWay compare {data | data ∈ inserted}) :
    (ofInsertBst compare inserted).inorder.length = inserted.length ↔
      inserted.Pairwise fun one two => compare one two ≠ 0 := by
  constructor
  · intro complete
    rcases inorder_foldl_insertBst compare inserted .null with ⟨kept, isPart, same⟩
    rw [inorder, List.append_nil] at same
    have all : kept = inserted := isPart.eq_of_length (same.length_eq.symm.trans complete)
    subst all
    have apart : (ofInsertBst compare kept).inorder.Pairwise
        fun left right => compare left right ≠ 0 ∧ compare right left ≠ 0 := by
      apply (descending_ofInsertBst orders).imp_of_mem
      intro left right leftIn rightIn greater
      have flipped := orders.flip left (subset_inserted leftIn) right (subset_inserted rightIn)
      omega
    have both : kept.Pairwise fun one two => compare one two ≠ 0 ∧ compare two one ≠ 0 :=
      (same.pairwise_iff fun differs => differs.symm).mp apart
    exact both.imp And.left
  · intro distinct
    have kept := @perm_inorder_foldl_insertBst Data compare inserted .null
      (threeWay.mono (by simp [inorder])) (by simp [inorder]) distinct
    rw [inorder, List.append_nil] at kept
    exact kept.length_eq

/-! ## The tree seen through a view of its data -/

theorem inorder_map {Other : Type u} (view : Data → Other) (tree : Tree Data) :
    (tree.map view).inorder = tree.inorder.map view := by
  induction tree with
  | null => rfl
  | node data next previous ihNext ihPrevious =>
      simp only [map, inorder, ihNext, ihPrevious, List.map_append, List.map_cons]

/-! ## The documented order -/

/--
What the header says of a tree: the left data compares less than the node and the
right data greater, so that the traversal lists the inserted data strictly
ascending.
-/
structure DocumentedOrder (compare : Data → Data → ℤ) (inserted : List Data) (tree : Tree Data) :
    Prop where
  ordered : tree.Ordered fun left right => compare left right < 0
  ascending : tree.inorder.Pairwise fun left right => compare left right < 0
  lists : ∀ data, data ∈ tree.inorder ↔ data ∈ inserted

/-- Both orders together leave room for one node. -/
theorem length_inorder_le_one {tree : Tree Data}
    (documented : tree.Ordered fun left right => compare left right < 0)
    (mirrored : tree.Ordered fun left right => 0 < compare left right) :
    tree.inorder.length ≤ 1 := by
  cases tree with
  | null => simp [inorder]
  | node data next previous =>
      have noPrevious : previous.inorder = [] := by
        apply List.eq_nil_iff_forall_not_mem.mpr
        intro left member
        have less := documented.1 left member
        have greater := mirrored.1 left member
        omega
      have noNext : next.inorder = [] := by
        apply List.eq_nil_iff_forall_not_mem.mpr
        intro right member
        have less := documented.2.1 right member
        have greater := mirrored.2.1 right member
        omega
      simp [inorder, noPrevious, noNext]

/-- A tree of one node is in any order. -/
theorem ordered_of_length_le_one (before : Data → Data → Prop) {tree : Tree Data}
    (short : tree.inorder.length ≤ 1) : tree.Ordered before := by
  cases tree with
  | null => trivial
  | node data next previous =>
      rw [inorder, List.length_append, List.length_cons] at short
      have noPrevious : previous.inorder = [] := List.eq_nil_of_length_eq_zero (by omega)
      have noNext : next.inorder = [] := List.eq_nil_of_length_eq_zero (by omega)
      have isNull : ∀ child : Tree Data, child.inorder = [] → child.Ordered before := by
        intro child empty
        cases child with
        | null => trivial
        | node => simp [inorder] at empty
      refine ⟨?_, ?_, isNull previous noPrevious, isNull next noNext⟩
      · simp [noPrevious]
      · simp [noNext]

/-- The tree has the documented order exactly as long as no two different data are inserted. -/
theorem documentedOrder_iff (orders : StrictlyOrders compare {data | data ∈ inserted}) :
    (ofInsertBst compare inserted).DocumentedOrder compare inserted ↔
      ∀ one ∈ inserted, ∀ two ∈ inserted, one = two := by
  have members := mem_inorder_ofInsertBst orders
  constructor
  · intro documented one oneIn two twoIn
    have mirrored := ordered_ofInsertBst orders.toPreorders
    have short := length_inorder_le_one documented.ordered mirrored
    rw [← members] at oneIn twoIn
    rcases listed : (ofInsertBst compare inserted).inorder with _ | ⟨only, rest⟩
    · rw [listed] at oneIn
      cases oneIn
    · rw [listed, List.length_cons] at short
      have nothingElse : rest = [] := List.eq_nil_of_length_eq_zero (by omega)
      rw [listed, nothingElse, List.mem_singleton] at oneIn twoIn
      rw [oneIn, twoIn]
  · intro single
    have short : (ofInsertBst compare inserted).inorder.length ≤ 1 := by
      have descending := descending_ofInsertBst orders.toPreorders
      rcases listed : (ofInsertBst compare inserted).inorder with _ | ⟨first, _ | ⟨second, rest⟩⟩
      · simp
      · simp
      · rw [listed] at descending
        have firstIn : first ∈ inserted := (members first).mp (by simp [listed])
        have secondIn : second ∈ inserted := (members second).mp (by simp [listed])
        have greater := List.rel_of_pairwise_cons descending List.mem_cons_self
        rw [single first firstIn second secondIn, orders.self_eq_zero secondIn] at greater
        omega
    have ascending : (ofInsertBst compare inserted).inorder.Pairwise
        fun left right => compare left right < 0 := by
      rcases listed : (ofInsertBst compare inserted).inorder with _ | ⟨first, _ | ⟨second, rest⟩⟩
      · exact List.Pairwise.nil
      · exact List.pairwise_singleton _ _
      · rw [listed, List.length_cons, List.length_cons] at short
        omega
    exact ⟨ordered_of_length_le_one _ short, ascending, members⟩

end Tree

/-! ## Texts as data -/

def binarySearchTreeStrCompare (dataOne dataTwo : Bytes) : ℤ :=
  let comparison := strcmp dataOne dataTwo
  if 0 < comparison then 1 else if comparison < 0 then -1 else 0

theorem binarySearchTreeStrCompare_eq_strcmp : binarySearchTreeStrCompare = strcmp := by
  funext one two
  rw [binarySearchTreeStrCompare]
  rcases strcmp_values one two with greater | less | equal
  · simp [greater]
  · simp [less]
  · simp [equal]

theorem strictlyOrders_binarySearchTreeStrCompare (texts : Set Bytes) :
    StrictlyOrders binarySearchTreeStrCompare texts := by
  rw [binarySearchTreeStrCompare_eq_strcmp]
  exact strictlyOrders_strcmp texts

/-- One text, inserted twice. -/
theorem repeatedText_documentedOrder :
    (Tree.ofInsertBst binarySearchTreeStrCompare [bytes "a", bytes "a"]).DocumentedOrder
        binarySearchTreeStrCompare [bytes "a", bytes "a"] ↔
      ∀ one ∈ [bytes "a", bytes "a"], ∀ two ∈ [bytes "a", bytes "a"], one = two :=
  Tree.documentedOrder_iff (strictlyOrders_binarySearchTreeStrCompare _)

/-- A second text that is greater is found before the first one by the traversal. -/
theorem greaterText_comesFirst :
    ¬∀ (compare : Bytes → Bytes → ℤ) (inserted : List Bytes),
      StrictlyOrders compare {data | data ∈ inserted} →
        (Tree.ofInsertBst compare inserted).DocumentedOrder compare inserted := by
  intro always
  have documented := always binarySearchTreeStrCompare [bytes "a", bytes "b"]
    (strictlyOrders_binarySearchTreeStrCompare _)
  exact absurd documented.ascending (by decide)

end LetUsConnect
