import LetUsConnect.Lib.Transition
import Mathlib.Data.Finset.Card
import Mathlib.Data.Finset.Range

/-!
# Receptions

What a server is for, as its clients see it: visitors arrive one at a time, are
refused or given one of a limited number of seats, are served and wait by turns, and
leave for good. Nothing is said about how the seats are kept or who serves.
-/

namespace Reception

open Transition

/-- What has become of a visitor. -/
inductive Phase where
  | unseen
  | arriving
  | serving
  | waiting
  | gone
  deriving DecidableEq

namespace Phase

def seated : Phase → Bool
  | .serving | .waiting => true
  | _ => false

/-- How far a visitor has come; being served and waiting count the same. -/
def rank : Phase → ℕ
  | .unseen => 0
  | .arriving => 1
  | .serving | .waiting => 2
  | .gone => 3

theorem seated_cases {phase : Phase} (seated : phase.seated) :
    phase = .serving ∨ phase = .waiting := by
  cases phase <;> first | exact .inl rfl | exact .inr rfl | cases seated

end Phase

/-- The visitors are numbered as they arrive. -/
structure Hall where
  arrived : ℕ
  phase : ℕ → Phase

inductive Move where
  | arrive
  | refuse (visitor : ℕ)
  | seat (visitor : ℕ)
  | rest (visitor : ℕ)
  | call (visitor : ℕ)
  | finish (visitor : ℕ)
  | expire (visitor : ℕ)

namespace Hall

def empty : Hall where
  arrived := 0
  phase := fun _ => .unseen

def setPhase (hall : Hall) (visitor : ℕ) (phase : Phase) : Hall :=
  { hall with phase := Function.update hall.phase visitor phase }

/-- A new visitor at the door. -/
def welcome (hall : Hall) : Hall where
  arrived := hall.arrived + 1
  phase := Function.update hall.phase hall.arrived .arriving

/-- The visitor goes from one phase to another. -/
def turn (hall : Hall) (visitor : ℕ) (before after : Phase) : Option Hall :=
  if hall.phase visitor = before then some (hall.setPhase visitor after) else none

/-- The visitors who have a seat. -/
def seats (hall : Hall) : Finset ℕ :=
  (Finset.range hall.arrived).filter fun visitor => (hall.phase visitor).seated

/-- Nobody is between the door and a seat. -/
def DoorFree (hall : Hall) : Prop :=
  ∀ visitor ∈ Finset.range hall.arrived, hall.phase visitor ≠ .arriving

instance (hall : Hall) : Decidable hall.DoorFree := inferInstanceAs (Decidable (∀ _ ∈ _, _))

def step (capacity : ℕ) (move : Move) (hall : Hall) : Option Hall :=
  match move with
  | .arrive => if hall.DoorFree then some hall.welcome else none
  | .refuse visitor => hall.turn visitor .arriving .gone
  | .seat visitor =>
      if hall.seats.card < capacity then hall.turn visitor .arriving .serving else none
  | .rest visitor => hall.turn visitor .serving .waiting
  | .call visitor => hall.turn visitor .waiting .serving
  | .finish visitor => hall.turn visitor .serving .gone
  | .expire visitor => hall.turn visitor .waiting .gone

end Hall

/-- A reception with so many seats. -/
def system (capacity : ℕ) : System Hall Move where
  initial hall := hall = .empty
  step := Hall.step capacity

namespace Hall

variable {hall after : Hall} {capacity visitor : ℕ} {move : Move}

@[simp]
theorem arrived_setPhase (phase : Phase) :
    (hall.setPhase visitor phase).arrived = hall.arrived := rfl

@[simp]
theorem phase_setPhase_self (phase : Phase) :
    (hall.setPhase visitor phase).phase visitor = phase := Function.update_self _ _ _

theorem phase_setPhase_of_ne {other : ℕ} (differs : other ≠ visitor) (phase : Phase) :
    (hall.setPhase visitor phase).phase other = hall.phase other :=
  Function.update_of_ne differs _ _

@[simp]
theorem arrived_welcome : hall.welcome.arrived = hall.arrived + 1 := rfl

@[simp]
theorem phase_welcome_self : hall.welcome.phase hall.arrived = .arriving :=
  Function.update_self _ _ _

theorem phase_welcome_of_ne (differs : visitor ≠ hall.arrived) :
    hall.welcome.phase visitor = hall.phase visitor := Function.update_of_ne differs _ _

/-! ## What a move does -/

theorem turn_cases {before next : Phase} (taken : hall.turn visitor before next = some after) :
    hall.phase visitor = before ∧ after = hall.setPhase visitor next := by
  rw [turn] at taken
  split_ifs at taken with isBefore
  cases taken
  exact ⟨isBefore, rfl⟩

/-- A move brings a new visitor in or takes one visitor to a phase that is further on. -/
theorem step_cases (taken : (system capacity).step move hall = some after) :
    (hall.DoorFree ∧ after = hall.welcome) ∨
    ∃ visitor phase, after = hall.setPhase visitor phase ∧ hall.phase visitor ≠ .unseen ∧
      phase ≠ .arriving ∧ phase ≠ .unseen ∧ (hall.phase visitor).rank ≤ phase.rank ∧
      (phase.seated → (hall.phase visitor).seated ∨ hall.seats.card < capacity) := by
  cases move <;> simp only [system, Hall.step] at taken
  case arrive =>
    split_ifs at taken with free
    cases taken
    exact Or.inl ⟨free, rfl⟩
  case seat =>
    split_ifs at taken with room
    rcases turn_cases taken with ⟨at_, rfl⟩
    exact Or.inr ⟨_, _, rfl, by simp [at_], by simp, by simp, by simp [at_, Phase.rank],
      fun _ => Or.inr room⟩
  all_goals
    rcases turn_cases taken with ⟨at_, rfl⟩
    refine Or.inr ⟨_, _, rfl, by simp [at_], by simp, by simp, by simp [at_, Phase.rank], ?_⟩
    simp [at_, Phase.seated]

/-! ## The hall never overflows -/

structure Sound (hall : Hall) (capacity : ℕ) : Prop where
  fresh : ∀ visitor, hall.phase visitor = .unseen ↔ hall.arrived ≤ visitor
  door : ∀ visitor other, hall.phase visitor = .arriving → hall.phase other = .arriving →
    visitor = other
  room : hall.seats.card ≤ capacity

theorem sound_empty (capacity : ℕ) : empty.Sound capacity where
  fresh := fun visitor => ⟨fun _ => Nat.zero_le visitor, fun _ => rfl⟩
  door := nofun
  room := Nat.zero_le capacity

theorem mem_seats : visitor ∈ hall.seats ↔
    visitor < hall.arrived ∧ (hall.phase visitor).seated := by
  rw [seats, Finset.mem_filter, Finset.mem_range]

theorem Sound.arrived_of_seen (sound : hall.Sound capacity) (seen : hall.phase visitor ≠ .unseen) :
    visitor < hall.arrived := by
  rw [Ne, sound.fresh] at seen
  exact Nat.lt_of_not_le seen

theorem Sound.welcome (sound : hall.Sound capacity) (free : hall.DoorFree) :
    hall.welcome.Sound capacity where
  fresh := by
    intro visitor
    by_cases isNew : visitor = hall.arrived
    · simp [isNew]
    · rw [phase_welcome_of_ne isNew, sound.fresh, arrived_welcome]
      omega
  door := by
    have onlyNew : ∀ visitor, hall.welcome.phase visitor = .arriving → visitor = hall.arrived := by
      intro visitor arriving
      by_contra isOld
      rw [phase_welcome_of_ne isOld] at arriving
      have arrived := sound.arrived_of_seen (by simp [arriving] : hall.phase visitor ≠ .unseen)
      exact free visitor (Finset.mem_range.mpr arrived) arriving
    intro visitor other arriving otherArriving
    exact (onlyNew visitor arriving).trans (onlyNew other otherArriving).symm
  room := by
    refine le_trans (Finset.card_le_card ?_) sound.room
    intro visitor member
    rw [mem_seats] at member
    by_cases isNew : visitor = hall.arrived
    · simp [isNew, Phase.seated] at member
    · rw [phase_welcome_of_ne isNew] at member
      refine mem_seats.mpr ⟨sound.arrived_of_seen ?_, member.2⟩
      intro unseen
      simp [unseen, Phase.seated] at member

theorem Sound.setPhase (sound : hall.Sound capacity) {phase : Phase}
    (seen : hall.phase visitor ≠ .unseen) (inside : phase ≠ .arriving) (known : phase ≠ .unseen)
    (fits : phase.seated → (hall.phase visitor).seated ∨ hall.seats.card < capacity) :
    (hall.setPhase visitor phase).Sound capacity where
  fresh := by
    intro other
    rw [arrived_setPhase]
    by_cases isVisitor : other = visitor
    · simp [isVisitor, known, sound.arrived_of_seen seen]
    · rw [phase_setPhase_of_ne isVisitor]
      exact sound.fresh other
  door := by
    have unchanged : ∀ other, (hall.setPhase visitor phase).phase other = .arriving →
        hall.phase other = .arriving := by
      intro other arriving
      by_cases isVisitor : other = visitor
      · simp [isVisitor, inside] at arriving
      · rwa [phase_setPhase_of_ne isVisitor] at arriving
    intro first second arriving otherArriving
    exact sound.door first second (unchanged first arriving) (unchanged second otherArriving)
  room := by
    have within : (hall.setPhase visitor phase).seats ⊆
        if phase.seated then insert visitor hall.seats else hall.seats := by
      intro other member
      rw [mem_seats] at member
      by_cases isVisitor : other = visitor
      · rw [isVisitor, phase_setPhase_self] at member
        rw [if_pos member.2, isVisitor]
        exact Finset.mem_insert_self _ _
      · rw [phase_setPhase_of_ne isVisitor] at member
        have before : other ∈ hall.seats := mem_seats.mpr member
        split_ifs
        · exact Finset.mem_insert_of_mem before
        · exact before
    refine le_trans (Finset.card_le_card within) ?_
    split_ifs with seated
    · rcases fits seated with already | room
      · rw [Finset.insert_eq_of_mem (mem_seats.mpr ⟨sound.arrived_of_seen seen, already⟩)]
        exact sound.room
      · exact le_trans (Finset.card_insert_le _ _) room
    · exact sound.room

theorem Sound.step (sound : hall.Sound capacity)
    (taken : (system capacity).step move hall = some after) : after.Sound capacity := by
  rcases step_cases taken with ⟨free, rfl⟩ | ⟨visitor, phase, rfl, seen, inside, known, -, fits⟩
  · exact sound.welcome free
  · exact sound.setPhase seen inside known fits

theorem sound_of_reachable (reached : (system capacity).Reachable hall) :
    hall.Sound capacity := by
  refine @System.Reachable.invariant _ _ _ (fun hall => hall.Sound capacity) ?_ ?_ _ reached
  · rintro hall rfl
    exact sound_empty capacity
  · intro hall move after sound taken
    exact sound.step taken

/-! ## Every visitor leaves for good -/

theorem Sound.rank_le_of_step (sound : hall.Sound capacity)
    (taken : (system capacity).step move hall = some after) (visitor : ℕ) :
    (hall.phase visitor).rank ≤ (after.phase visitor).rank := by
  rcases step_cases taken with ⟨-, rfl⟩ | ⟨other, phase, rfl, -, -, -, further, -⟩
  · by_cases isNew : visitor = hall.arrived
    · rw [(sound.fresh visitor).mpr isNew.ge]
      exact Nat.zero_le _
    · rw [phase_welcome_of_ne isNew]
  · by_cases isOther : visitor = other
    · rw [isOther, phase_setPhase_self]
      exact further
    · rw [phase_setPhase_of_ne isOther]

/-- Every visitor goes from one phase to the next and never back. -/
theorem Sound.rank_le_of_run (sound : hall.Sound capacity) {moves : List Move}
    (ran : (system capacity).run moves hall = some after) (visitor : ℕ) :
    (hall.phase visitor).rank ≤ (after.phase visitor).rank := by
  induction moves generalizing hall with
  | nil =>
      simp only [System.run, Option.some.injEq] at ran
      rw [ran]
  | cons move moves ih =>
      rw [System.run] at ran
      rcases Option.bind_eq_some_iff.mp ran with ⟨middle, taken, rest⟩
      exact (sound.rank_le_of_step taken visitor).trans (ih (sound.step taken) rest)

end Hall

end Reception
