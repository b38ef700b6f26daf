import Mathlib.Algebra.Group.Pointwise.Set.Basic
import Mathlib.Algebra.Order.Group.Multiset
import Mathlib.Data.Finset.Card
import Mathlib.Data.Finset.Insert
import Mathlib.Data.Finset.Lattice.Fold
import Mathlib.Order.Lattice.Nat

/-!
# Allocated blocks

Programs that allocate and free blocks of memory, and the rules by which what
they leave allocated is computed. The memory is the set of live blocks; an
allocator picks any block that is not live, and freeing a block that is not
live is undefined.

A `Holding` is a set of multisets of blocks, added pointwise: the holding of
two parts is the sum of their holdings, so that blocks of different parts are
different by construction. `Triple` says which holding a program turns into
which other one; every block outside stays as it was.
-/

namespace Blocks

open scoped Pointwise

universe u v w

/-- A program over the live blocks; `none` when it does something undefined. -/
abbrev Program (Block : Type u) (Value : Type u) := StateT (Finset Block) Option Value

/-- What `malloc` returns when it succeeds. -/
structure Allocator (Block : Type u) where
  fresh : Finset Block → Block
  fresh_notMem : ∀ live, fresh live ∉ live

/-- The allocator of numbered blocks that goes past all live ones. -/
def Allocator.counting : Allocator ℕ where
  fresh live := live.sup id + 1
  fresh_notMem live isLive := by
    have bounded : live.sup id + 1 ≤ live.sup id := Finset.le_sup (f := id) isLive
    omega

section Programs

variable {Block : Type u} [DecidableEq Block]

def Allocator.malloc (allocator : Allocator Block) : Program Block Block :=
  fun live => some (allocator.fresh live, insert (allocator.fresh live) live)

def free (block : Block) : Program Block PUnit :=
  fun live => if block ∈ live then some (⟨⟩, live.erase block) else none

end Programs

/-! ## Holdings -/

/-- The multisets of blocks a part of a program may be responsible for. -/
abbrev Holding (Block : Type u) := Set (Multiset Block)

variable {Block : Type u}

/-- One given block. -/
def owns (block : Block) : Holding Block := {{block}}

/-- Any blocks, of which only the number is known. -/
def lost (count : ℕ) : Holding Block := {blocks | blocks.card = count}

@[simp]
theorem lost_zero : lost 0 = (0 : Holding Block) := by
  ext blocks
  simp [lost]

theorem owns_subset_lost (block : Block) : owns block ⊆ lost 1 := by
  rintro blocks rfl
  exact Multiset.card_singleton block

theorem lost_add_subset (one two : ℕ) :
    (lost one + lost two : Holding Block) ⊆ lost (one + two) := by
  rintro blocks ⟨first, firstCard, second, secondCard, rfl⟩
  have firstCount : first.card = one := firstCard
  have secondCount : second.card = two := secondCard
  simp [lost, firstCount, secondCount]

theorem Holding.subset_lost_add {first second : Holding Block} {one two : ℕ}
    (firstCount : first ⊆ lost one) (secondCount : second ⊆ lost two) :
    first + second ⊆ lost (one + two) :=
  (Set.add_subset_add firstCount secondCount).trans (lost_add_subset one two)

/-! ## Triples -/

/--
Started with the holding `before`, the program ends with a value that is `good`
and with the holding `after` of that value.
-/
def Triple {Value : Type u} (before : Holding Block) (program : Program Block Value)
    (good : Value → Prop) (after : Value → Holding Block) : Prop :=
  ∀ (live : Finset Block) (held rest : Multiset Block), held ∈ before → live.val = held + rest →
    ∃ value liveAfter heldAfter, program live = some (value, liveAfter) ∧ good value ∧
      heldAfter ∈ after value ∧ liveAfter.val = heldAfter + rest

namespace Triple

variable {Value Other : Type u} {before mid extra : Holding Block}
  {program : Program Block Value} {good : Value → Prop} {after : Value → Holding Block}

theorem pure {value : Value} (isGood : good value) (holds : before ⊆ after value) :
    Triple before (pure value) good after := by
  intro live held rest heldBefore split
  exact ⟨value, live, held, rfl, isGood, holds heldBefore, split⟩

theorem bind {next : Value → Program Block Other} {goodNext : Other → Prop}
    {afterNext : Other → Holding Block} (first : Triple before program good after)
    (second : ∀ value, good value → Triple (after value) (next value) goodNext afterNext) :
    Triple before (program >>= next) goodNext afterNext := by
  intro live held rest heldBefore split
  obtain ⟨value, liveMid, heldMid, ran, isGood, heldThere, splitMid⟩ :=
    first live held rest heldBefore split
  obtain ⟨other, liveAfter, heldAfter, ranNext, isGoodNext, heldEnd, splitAfter⟩ :=
    second value isGood liveMid heldMid rest heldThere splitMid
  refine ⟨other, liveAfter, heldAfter, ?_, isGoodNext, heldEnd, splitAfter⟩
  change (program live).bind (fun ended => next ended.1 ended.2) = _
  rw [ran]
  exact ranNext

/-- What a program does not need it leaves alone. -/
theorem frame (triple : Triple before program good after) (extra : Holding Block) :
    Triple (before + extra) program good (fun value => after value + extra) := by
  rintro live held rest ⟨own, ownBefore, other, otherExtra, rfl⟩ split
  obtain ⟨value, liveAfter, heldAfter, ran, isGood, heldThere, splitAfter⟩ :=
    triple live own (other + rest) ownBefore (by rw [split, add_assoc])
  refine ⟨value, liveAfter, heldAfter + other, ran, isGood, ?_, ?_⟩
  · exact Set.add_mem_add heldThere otherExtra
  · rw [splitAfter, add_assoc]

theorem weaken {wide : Holding Block} {goodAfter : Value → Prop}
    {afterwards : Value → Holding Block} (triple : Triple before program good after)
    (narrow : wide ⊆ before) (goodMono : ∀ value, good value → goodAfter value)
    (widen : ∀ value, good value → after value ⊆ afterwards value) :
    Triple wide program goodAfter afterwards := by
  intro live held rest heldWide split
  obtain ⟨value, liveAfter, heldAfter, ran, isGood, heldThere, splitAfter⟩ :=
    triple live held rest (narrow heldWide) split
  exact ⟨value, liveAfter, heldAfter, ran, goodMono value isGood, widen value isGood heldThere,
    splitAfter⟩

/-- A first step that needs only a part of the holding. -/
theorem seq {next : Value → Program Block Other} {goodNext : Other → Prop}
    {afterNext : Other → Holding Block} (first : Triple mid program good after)
    (parts : before = mid + extra)
    (second : ∀ value, good value →
      Triple (after value + extra) (next value) goodNext afterNext) :
    Triple before (program >>= next) goodNext afterNext := by
  subst parts
  exact (first.frame extra).bind second

/-- A last step that needs only a part of the holding. -/
theorem last {goodAfter : Value → Prop} {afterwards : Value → Holding Block}
    (triple : Triple mid program good after) (parts : before = mid + extra)
    (goodMono : ∀ value, good value → goodAfter value)
    (widen : ∀ value, good value → after value + extra ⊆ afterwards value) :
    Triple before program goodAfter afterwards := by
  subst parts
  exact (triple.frame extra).weaken subset_rfl goodMono widen

/--
A loop over a list refines the fold over it when its body refines the folded
function, and holds what its value accounts for.
-/
theorem foldlM {Item : Type v} {Abstract : Type w} {step : Value → Item → Program Block Value}
    {abstractStep : Abstract → Item → Abstract} {refines : Value → Abstract → Prop}
    {holding : Value → Holding Block}
    (body : ∀ value abstract item, refines value abstract →
      Triple (holding value) (step value item)
        (fun next => refines next (abstractStep abstract item)) holding)
    (items : List Item) {value : Value} {abstract : Abstract} (start : refines value abstract) :
    Triple (holding value) (items.foldlM step value)
      (fun last => refines last (items.foldl abstractStep abstract)) holding := by
  induction items generalizing value abstract with
  | nil => exact Triple.pure start subset_rfl
  | cons item items ih =>
      rw [List.foldlM_cons]
      apply (body value abstract item start).bind
      intro next related
      exact ih related

variable [DecidableEq Block]

theorem malloc (allocator : Allocator Block) :
    Triple 0 allocator.malloc (fun _ => True) owns := by
  rintro live held rest rfl split
  refine ⟨allocator.fresh live, _, {allocator.fresh live}, rfl, trivial, rfl, ?_⟩
  rw [Finset.insert_val_of_notMem (allocator.fresh_notMem live), split, zero_add,
    Multiset.singleton_add]

theorem free (block : Block) :
    Triple (owns block) (Blocks.free block) (fun _ => True) (fun _ => 0) := by
  rintro live held rest rfl split
  have isLive : block ∈ live := by
    rw [← Finset.mem_val, split]
    simp
  refine ⟨⟨⟩, live.erase block, 0, ?_, trivial, rfl, ?_⟩
  · rw [Blocks.free, if_pos isLive]
  · rw [Finset.erase_val, split, Multiset.singleton_add, Multiset.erase_cons_head, zero_add]

omit [DecidableEq Block] in
/-- A program that starts with nothing and loses `count` blocks adds that many live blocks. -/
theorem leaves {count : ℕ} (triple : Triple 0 program good (fun _ => lost count))
    (live : Finset Block) :
    ∃ value liveAfter, program live = some (value, liveAfter) ∧ live ⊆ liveAfter ∧
      liveAfter.card = live.card + count := by
  obtain ⟨value, liveAfter, heldAfter, ran, -, counted, split⟩ :=
    triple live 0 live.val rfl (by rw [zero_add])
  have held : heldAfter.card = count := counted
  refine ⟨value, liveAfter, ran, ?_, ?_⟩
  · apply Finset.val_le_iff.mp
    rw [split]
    exact Multiset.le_add_left _ _
  · rw [Finset.card_def, split, Multiset.card_add, held, add_comm, Finset.card_def]

omit [DecidableEq Block] in
/-- Such a program leaves the live blocks as they were exactly when it loses none. -/
theorem restores_iff {count : ℕ} (triple : Triple 0 program good (fun _ => lost count))
    (live : Finset Block) : (∃ value, program live = some (value, live)) ↔ count = 0 := by
  obtain ⟨value, liveAfter, ran, within, counted⟩ := triple.leaves live
  constructor
  · rintro ⟨other, restored⟩
    rw [ran, Option.some.injEq, Prod.mk.injEq] at restored
    rw [restored.2] at counted
    omega
  · intro none
    refine ⟨value, ?_⟩
    have same : live = liveAfter := Finset.eq_of_subset_of_card_le within (by omega)
    rw [ran, ← same]

end Triple

end Blocks
