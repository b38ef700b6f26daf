import Mathlib.Data.List.Basic
import Mathlib.Data.List.Nodup

/-!
# Chains of links

Places that each have at most one successor, as the nodes of a linked list do.
`Segment` lists the places that the links lead through from one link to another;
a `Chain` is a segment that comes to an end. Since the successor is a function of
the place, a chain is determined by its first link and passes no place twice.

The last part states what relinking a single place does to a segment.
-/

namespace Chains

universe u

/-- The place that comes after a place, if there is one. -/
abbrev Links (Place : Type u) := Place → Option Place

variable {Place : Type u} {next other : Links Place} {start stop : Option Place}
  {places front rest : List Place}

/-- From `start` on the links lead through these places to `stop`. -/
def Segment (next : Links Place) : Option Place → List Place → Option Place → Prop
  | start, [], stop => start = stop
  | start, place :: places, stop => start = some place ∧ Segment next (next place) places stop

/-- From `start` on the links lead through these places and end. -/
def Chain (next : Links Place) (start : Option Place) (places : List Place) : Prop :=
  Segment next start places none

/-- The link that is found after that many steps. -/
def walk (next : Links Place) : ℕ → Option Place → Option Place
  | 0, link => link
  | count + 1, link => walk next count (link.bind next)

/-- The place is passed from `start` on. -/
def Reaches (next : Links Place) (start : Option Place) (place : Place) : Prop :=
  ∃ count, walk next count start = some place

theorem walk_none (next : Links Place) (count : ℕ) : walk next count none = none := by
  induction count with
  | zero => rfl
  | succ count ih => exact ih

theorem walk_succ_some (next : Links Place) (count : ℕ) (place : Place) :
    walk next (count + 1) (some place) = walk next count (next place) := rfl

/-! ## Segments -/

theorem segment_append_iff :
    Segment next start (front ++ rest) stop ↔
      ∃ middle, Segment next start front middle ∧ Segment next middle rest stop := by
  induction front generalizing start with
  | nil => simp [Segment]
  | cons place front ih =>
      simp only [List.cons_append, Segment, ih]
      constructor
      · rintro ⟨isPlace, middle, before, after⟩
        exact ⟨middle, ⟨isPlace, before⟩, after⟩
      · rintro ⟨middle, ⟨isPlace, before⟩, after⟩
        exact ⟨isPlace, middle, before, after⟩

theorem segment_append_cons_iff {place : Place} :
    Segment next start (front ++ place :: rest) stop ↔
      Segment next start front (some place) ∧ Segment next (next place) rest stop := by
  rw [segment_append_iff]
  constructor
  · rintro ⟨middle, before, rfl, after⟩
    exact ⟨before, after⟩
  · rintro ⟨before, after⟩
    exact ⟨some place, before, rfl, after⟩

theorem Segment.congr (segment : Segment next start places stop)
    (same : ∀ place ∈ places, other place = next place) : Segment other start places stop := by
  induction places generalizing start with
  | nil => exact segment
  | cons place places ih =>
      refine ⟨segment.1, ?_⟩
      rw [same place List.mem_cons_self]
      apply ih segment.2
      intro later member
      exact same later (List.mem_cons_of_mem _ member)

/-! ## Chains -/

theorem chain_nil_iff : Chain next start [] ↔ start = none := Iff.rfl

theorem Chain.head_eq (chain : Chain next start places) : start = places.head? := by
  cases places with
  | nil => exact chain
  | cons place places => exact chain.1

theorem Chain.unique {others : List Place} (chain : Chain next start places)
    (second : Chain next start others) : places = others := by
  induction places generalizing start others with
  | nil =>
      cases others with
      | nil => rfl
      | cons place others => cases second.1.symm.trans chain
  | cons place places ih =>
      cases others with
      | nil => cases chain.1.symm.trans second
      | cons later others =>
          have same : place = later := Option.some.inj (chain.1.symm.trans second.1)
          subst same
          rw [ih chain.2 second.2]

theorem Chain.nodup (chain : Chain next start places) : places.Nodup := by
  induction places generalizing start with
  | nil => exact List.nodup_nil
  | cons place places ih =>
      refine List.nodup_cons.mpr ⟨?_, ih chain.2⟩
      intro again
      rcases List.append_of_mem again with ⟨front, rest, split⟩
      have later : Chain next (next place) (front ++ place :: rest) := split ▸ chain.2
      have shorter := (segment_append_cons_iff.mp later).2
      have same := congrArg List.length (Chain.unique later shorter)
      simp at same
      omega

theorem Chain.walk_eq (chain : Chain next start places) (count : ℕ) :
    walk next count start = places[count]? := by
  induction count generalizing start places with
  | zero => rw [walk, chain.head_eq, List.head?_eq_getElem?]
  | succ count ih =>
      cases places with
      | nil =>
          rw [chain_nil_iff.mp chain, walk_none, List.getElem?_nil]
      | cons place places =>
          rw [chain.1, walk_succ_some, ih chain.2, List.getElem?_cons_succ]

theorem Chain.reaches_iff (chain : Chain next start places) (place : Place) :
    Reaches next start place ↔ place ∈ places := by
  simp only [Reaches, chain.walk_eq, List.mem_iff_getElem?]

/-- No place of a chain is passed again after it. -/
theorem Chain.acyclic (chain : Chain next start places) {place : Place} (member : place ∈ places)
    (count : ℕ) : walk next (count + 1) (some place) ≠ some place := by
  intro again
  have distinct := chain.nodup
  rcases List.append_of_mem member with ⟨front, rest, rfl⟩
  have later : Chain next (next place) rest := (segment_append_cons_iff.mp chain).2
  rw [walk_succ_some, later.walk_eq] at again
  have inRest : place ∈ rest := List.mem_iff_getElem?.mpr ⟨count, again⟩
  exact (List.nodup_cons.mp (List.nodup_append.mp distinct).2.1).1 inRest

/-! ## Relinking -/

/-- A new place comes after the place that is relinked to it. -/
theorem Segment.insertAfter {place new : Place}
    (segment : Segment next start (front ++ place :: rest) stop) (linked : other place = some new)
    (taken : other new = next place)
    (same : ∀ kept ∈ front ++ rest, other kept = next kept) :
    Segment other start (front ++ place :: new :: rest) stop := by
  rcases segment_append_cons_iff.mp segment with ⟨before, after⟩
  refine segment_append_cons_iff.mpr ⟨?_, linked, ?_⟩
  · exact before.congr fun kept member => same kept (List.mem_append_left _ member)
  · rw [taken]
    exact after.congr fun kept member => same kept (List.mem_append_right _ member)

/-- The place after the one that is relinked drops out. -/
theorem Segment.removeAfter {place removed : Place}
    (segment : Segment next start (front ++ place :: removed :: rest) stop)
    (linked : other place = next removed)
    (same : ∀ kept ∈ front ++ rest, other kept = next kept) :
    Segment other start (front ++ place :: rest) stop := by
  rcases segment_append_cons_iff.mp segment with ⟨before, -, after⟩
  refine segment_append_cons_iff.mpr ⟨?_, ?_⟩
  · exact before.congr fun kept member => same kept (List.mem_append_left _ member)
  · rw [linked]
    exact after.congr fun kept member => same kept (List.mem_append_right _ member)

end Chains
