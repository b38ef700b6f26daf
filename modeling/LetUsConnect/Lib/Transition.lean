import Mathlib.Algebra.GroupWithZero.Nat
import Mathlib.Logic.Function.Basic

/-!
# Labelled transition systems

Executable transition systems and the rules by which their invariants are
proved. A system offers one partial step function; the label carries every
choice the environment makes, so that a run is a list of labels.

`ReachableWhere guard` collects the states of those runs whose steps all meet
`guard`. Plain reachability is the special case of the trivial guard, and one
induction rule serves both.
-/

namespace Transition

universe u v

/-- A transition system with a partial, label-driven step function. -/
structure System (State : Type u) (Label : Type v) where
  /-- The states in which a run may begin. -/
  initial : State → Prop
  /-- One step; `none` when the label is not enabled. -/
  step : Label → State → Option State

namespace System

variable {State : Type u} {Label : Type v} {Abstract : Type u} {AbstractLabel : Type v}

/-- The states of the runs all of whose steps meet `guard`. -/
inductive ReachableWhere (system : System State Label) (guard : State → Label → Prop) :
    State → Prop where
  | start {state : State} (isInitial : system.initial state) :
      ReachableWhere system guard state
  | next {state after : State} {label : Label} (before : ReachableWhere system guard state)
      (meets : guard state label) (taken : system.step label state = some after) :
      ReachableWhere system guard after

/-- The states of all runs. -/
def Reachable (system : System State Label) : State → Prop :=
  system.ReachableWhere fun _ _ => True

theorem ReachableWhere.reachable {system : System State Label} {guard : State → Label → Prop}
    {state : State} (reached : system.ReachableWhere guard state) : system.Reachable state := by
  induction reached with
  | start isInitial => exact .start isInitial
  | next _ _ taken ih => exact .next ih trivial taken

/--
A predicate that holds initially and is preserved by every step meeting the
guard holds in every state of the guarded runs. A fact already known of all
reachable states may be used at each step.
-/
theorem ReachableWhere.invariant {system : System State Label} {guard : State → Label → Prop}
    {Known Invariant : State → Prop}
    (known : ∀ state, system.Reachable state → Known state)
    (initially : ∀ state, system.initial state → Invariant state)
    (preserved : ∀ state label after, Known state → Invariant state → guard state label →
      system.step label state = some after → Invariant after)
    {state : State} (reached : system.ReachableWhere guard state) : Invariant state := by
  induction reached with
  | start isInitial => exact initially _ isInitial
  | next before meets taken ih => exact preserved _ _ _ (known _ before.reachable) ih meets taken

/-- The unguarded form of `ReachableWhere.invariant`, without side knowledge. -/
theorem Reachable.invariant {system : System State Label} {Invariant : State → Prop}
    (initially : ∀ state, system.initial state → Invariant state)
    (preserved : ∀ state label after, Invariant state →
      system.step label state = some after → Invariant after)
    {state : State} (reached : system.Reachable state) : Invariant state := by
  have nothingKnown : ∀ state, system.Reachable state → True := fun _ _ => trivial
  apply ReachableWhere.invariant nothingKnown initially _ reached
  intro state label after _ holds _ taken
  exact preserved state label after holds taken

/-- The same steps, begun in one state. -/
def startingAt (system : System State Label) (start : State) : System State Label where
  initial state := state = start
  step := system.step

theorem Reachable.of_startingAt {system : System State Label} {start state : State}
    (reached : system.Reachable start) (later : (system.startingAt start).Reachable state) :
    system.Reachable state := by
  induction later with
  | start isStart => exact isStart ▸ reached
  | next _ _ taken ih => exact .next ih trivial taken

/-- Executes a list of labels from the left. -/
def run (system : System State Label) : List Label → State → Option State
  | [], state => some state
  | label :: labels, state => (system.step label state).bind (run system labels)

theorem run_append {system : System State Label} (first second : List Label) (state : State) :
    system.run (first ++ second) state = (system.run first state).bind (system.run second) := by
  induction first generalizing state with
  | nil => rfl
  | cons label first ih =>
      rw [List.cons_append, run, run, Option.bind_assoc]
      exact congrArg _ (funext ih)

/-- Executes a list of labels as long as each step meets the guard. -/
def runWhere (system : System State Label) (guard : State → Label → Prop)
    [∀ state label, Decidable (guard state label)] : List Label → State → Option State
  | [], state => some state
  | label :: labels, state =>
      if guard state label then (system.step label state).bind (runWhere system guard labels)
      else none

/-- A guarded run stays within the states of the guarded runs. -/
theorem ReachableWhere.runWhere {system : System State Label} {guard : State → Label → Prop}
    [∀ state label, Decidable (guard state label)] {labels : List Label} {state after : State}
    (reached : system.ReachableWhere guard state)
    (ran : system.runWhere guard labels state = some after) :
    system.ReachableWhere guard after := by
  induction labels generalizing state with
  | nil =>
      simp only [System.runWhere, Option.some.injEq] at ran
      exact ran ▸ reached
  | cons label labels ih =>
      rw [System.runWhere] at ran
      by_cases meets : guard state label
      · rw [if_pos meets] at ran
        rcases Option.bind_eq_some_iff.mp ran with ⟨middle, taken, rest⟩
        exact ih (.next reached meets taken) rest
      · rw [if_neg meets] at ran
        cases ran

theorem run_of_runWhere {system : System State Label} {guard : State → Label → Prop}
    [∀ state label, Decidable (guard state label)] {labels : List Label} {state after : State}
    (ran : system.runWhere guard labels state = some after) :
    system.run labels state = some after := by
  induction labels generalizing state with
  | nil => exact ran
  | cons label labels ih =>
      rw [System.runWhere] at ran
      by_cases meets : guard state label
      · rw [if_pos meets] at ran
        rcases Option.bind_eq_some_iff.mp ran with ⟨middle, taken, rest⟩
        rw [System.run, taken]
        exact ih rest
      · rw [if_neg meets] at ran
        cases ran

/-- A run meets the guard at every step, or some step of it does not. -/
theorem runWhere_or_violation {system : System State Label} (guard : State → Label → Prop)
    [∀ state label, Decidable (guard state label)] {labels : List Label} {state after : State}
    (ran : system.run labels state = some after) :
    system.runWhere guard labels state = some after ∨
      ∃ earlier label next rest, (system.startingAt state).Reachable earlier ∧
        ¬guard earlier label ∧ system.step label earlier = some next ∧
        system.run rest next = some after := by
  induction labels generalizing state with
  | nil => exact Or.inl ran
  | cons label labels ih =>
      rw [System.run] at ran
      rcases Option.bind_eq_some_iff.mp ran with ⟨middle, taken, remaining⟩
      by_cases meets : guard state label
      · rcases ih remaining with kept | ⟨earlier, broken, next, rest, reached, breaks, step, later⟩
        · refine Or.inl ?_
          rw [System.runWhere, if_pos meets, taken]
          exact kept
        · refine Or.inr ⟨earlier, broken, next, rest, ?_, breaks, step, later⟩
          have begun : (system.startingAt state).Reachable middle :=
            .next (.start rfl) trivial taken
          exact Reachable.of_startingAt begun reached
      · exact Or.inr ⟨state, label, middle, labels, .start rfl, meets, taken, remaining⟩

theorem Reachable.run {system : System State Label} {labels : List Label} {state after : State}
    (reached : system.Reachable state) (ran : system.run labels state = some after) :
    system.Reachable after := by
  induction labels generalizing state with
  | nil =>
      simp only [System.run, Option.some.injEq] at ran
      exact ran ▸ reached
  | cons label labels ih =>
      simp only [System.run, Option.bind_eq_some_iff] at ran
      rcases ran with ⟨middle, taken, rest⟩
      exact ih (.next reached trivial taken) rest

theorem run_startingAt {system : System State Label} {start state : State} (labels : List Label) :
    (system.startingAt start).run labels state = system.run labels state := by
  induction labels generalizing state with
  | nil => rfl
  | cons label labels ih =>
      have sameRest : (system.startingAt start).run labels = system.run labels := funext fun _ => ih
      rw [System.run, System.run, sameRest]
      rfl

/-- The end of a run is reachable from its beginning. -/
theorem reachable_of_run {system : System State Label} {labels : List Label} {state after : State}
    (ran : system.run labels state = some after) :
    (system.startingAt state).Reachable after := by
  have same : (system.startingAt state).run labels state = system.run labels state :=
    run_startingAt labels
  exact Reachable.run (.start rfl) (same.trans ran)

/-- A run from one state to another that comes through a state that meets the goal. -/
def Passes (system : System State Label) (labels : List Label) (state : State)
    (goal : State → Prop) (after : State) : Prop :=
  ∃ first second middle, labels = first ++ second ∧ system.run first state = some middle ∧
    goal middle ∧ system.run second middle = some after

theorem passes_nil {system : System State Label} {labels : List Label} {state after : State}
    {goal : State → Prop} (here : goal state) (ran : system.run labels state = some after) :
    system.Passes labels state goal after := ⟨[], labels, state, rfl, rfl, here, ran⟩

theorem Passes.cons {system : System State Label} {label : Label} {labels : List Label}
    {state next after : State} {goal : State → Prop} (taken : system.step label state = some next)
    (passes : system.Passes labels next goal after) :
    system.Passes (label :: labels) state goal after := by
  rcases passes with ⟨first, second, middle, rfl, ranFirst, here, ranSecond⟩
  refine ⟨label :: first, second, middle, rfl, ?_, here, ranSecond⟩
  rw [System.run, taken]
  exact ranFirst

/-- A run from one state to another in which a step of a certain kind is taken. -/
def Takes (system : System State Label) (labels : List Label) (state : State)
    (event : State → Label → State → Prop) (after : State) : Prop :=
  ∃ first label second middle next, labels = first ++ label :: second ∧
    system.run first state = some middle ∧ system.step label middle = some next ∧
    event middle label next ∧ system.run second next = some after

theorem Takes.cons {system : System State Label} {label : Label} {labels : List Label}
    {state next after : State} {event : State → Label → State → Prop}
    (taken : system.step label state = some next)
    (takes : system.Takes labels next event after) :
    system.Takes (label :: labels) state event after := by
  rcases takes with ⟨first, other, second, middle, later, rfl, ranFirst, step, happens, ranSecond⟩
  refine ⟨label :: first, other, second, middle, later, rfl, ?_, step, happens, ranSecond⟩
  rw [System.run, taken]
  exact ranFirst

/-- A run that takes a step to a goal comes through the goal. -/
theorem Takes.passes {system : System State Label} {labels : List Label} {state after : State}
    {goal : State → Prop} (takes : system.Takes labels state (fun _ _ next => goal next) after) :
    system.Passes labels state goal after := by
  rcases takes with ⟨first, label, second, middle, next, rfl, ranFirst, step, here, ranSecond⟩
  induction first generalizing state with
  | nil =>
      simp only [System.run, Option.some.injEq] at ranFirst
      subst ranFirst
      exact .cons step (passes_nil here ranSecond)
  | cons other first ih =>
      rw [System.run] at ranFirst
      rcases Option.bind_eq_some_iff.mp ranFirst with ⟨later, taken, rest⟩
      exact .cons taken (ih rest)

/--
If a step taken while waiting goes on waiting or is of a certain kind, a run that
begins waiting and does not end so takes a step of that kind.
-/
theorem Reachable.run_takes {system : System State Label} {Known Waiting : State → Prop}
    {Event : State → Label → State → Prop}
    (known : ∀ state, system.Reachable state → Known state)
    (waits : ∀ state label after, Known state → Waiting state →
      system.step label state = some after → Waiting after ∨ Event state label after)
    {labels : List Label} {state after : State} (reached : system.Reachable state)
    (waiting : Waiting state) (ran : system.run labels state = some after)
    (ended : ¬Waiting after) : system.Takes labels state Event after := by
  induction labels generalizing state with
  | nil =>
      simp only [System.run, Option.some.injEq] at ran
      exact absurd (ran ▸ waiting) ended
  | cons label labels ih =>
      rw [System.run] at ran
      rcases Option.bind_eq_some_iff.mp ran with ⟨next, taken, rest⟩
      rcases waits state label next (known state reached) waiting taken with still | happens
      · exact .cons taken (ih (.next reached trivial taken) still rest)
      · exact ⟨[], label, labels, state, next, rfl, rfl, taken, happens, rest⟩

/--
If a step taken while waiting goes on waiting or reaches the goal, a run that
begins waiting and does not end so passes through the goal.
-/
theorem Reachable.run_passes {system : System State Label} {Known Waiting Goal : State → Prop}
    (known : ∀ state, system.Reachable state → Known state)
    (waits : ∀ state label after, Known state → Waiting state →
      system.step label state = some after → Waiting after ∨ Goal after)
    {labels : List Label} {state after : State} (reached : system.Reachable state)
    (waiting : Waiting state) (ran : system.run labels state = some after)
    (ended : ¬Waiting after) : system.Passes labels state Goal after :=
  (reached.run_takes known waits waiting ran ended).passes

/-- Where each label costs one or nothing, a run costs the number of those that cost one. -/
theorem sum_map_toNat (counts : Label → Bool) (labels : List Label) :
    (labels.map fun label => (counts label).toNat).sum = labels.countP counts := by
  induction labels with
  | nil => rfl
  | cons label labels ih =>
      rw [List.map_cons, List.sum_cons, List.countP_cons, ih]
      cases counts label <;> simp [Nat.add_comm]

/--
If the steps of one kind lower a measure while waiting and no step raises it by more
than it raises a gauge, a run with more steps of that kind than the measure and the
rise of the gauge allow passes through the goal.
-/
theorem Reachable.run_passes_of_budget {system : System State Label}
    {Known Waiting Goal : State → Prop} {measure gauge : State → ℕ} {counts : Label → Bool}
    (known : ∀ state, system.Reachable state → Known state)
    (waits : ∀ state label after, Known state → Waiting state →
      system.step label state = some after →
      Waiting after ∧ measure after + (counts label).toNat + gauge state ≤
        measure state + gauge after ∨ Goal after)
    {labels : List Label} {state after : State} (reached : system.Reachable state)
    (waiting : Waiting state) (ran : system.run labels state = some after)
    (spent : measure state + gauge after < labels.countP counts + gauge state) :
    system.Passes labels state Goal after := by
  induction labels generalizing state with
  | nil =>
      simp only [System.run, Option.some.injEq] at ran
      rw [ran, List.countP_nil] at spent
      omega
  | cons label labels ih =>
      rw [System.run] at ran
      rcases Option.bind_eq_some_iff.mp ran with ⟨next, taken, rest⟩
      have count : (label :: labels).countP counts =
          labels.countP counts + (counts label).toNat := by
        rw [List.countP_cons]
        cases counts label <;> rfl
      refine .cons taken ?_
      rcases waits state label next (known state reached) waiting taken with
        ⟨still, paid⟩ | goal
      · exact ih (.next reached trivial taken) still rest (by omega)
      · exact passes_nil goal rest

/--
If the steps of one kind lower a measure while waiting and the others do not raise
it, a run with more steps of that kind passes through the goal.
-/
theorem Reachable.run_passes_of_count {system : System State Label}
    {Known Waiting Goal : State → Prop} {measure : State → ℕ} {counts : Label → Bool}
    (known : ∀ state, system.Reachable state → Known state)
    (waits : ∀ state label after, Known state → Waiting state →
      system.step label state = some after →
      Waiting after ∧ measure after + (counts label).toNat ≤ measure state ∨ Goal after)
    {labels : List Label} {state after : State} (reached : system.Reachable state)
    (waiting : Waiting state) (ran : system.run labels state = some after)
    (enough : measure state < labels.countP counts) :
    system.Passes labels state Goal after :=
  @Reachable.run_passes_of_budget _ _ _ _ _ _ measure (fun _ => 0) counts known waits _ _ _
    reached waiting ran enough

/-- What the steps of a run cost is paid by the measure and by what the labels bring in. -/
theorem cost_le_of_run {system : System State Label} {measure : State → ℕ}
    {cost income : Label → ℕ}
    (pays : ∀ state label after, system.step label state = some after →
      measure after + cost label ≤ measure state + income label)
    {labels : List Label} {state after : State} (ran : system.run labels state = some after) :
    measure after + (labels.map cost).sum ≤ measure state + (labels.map income).sum := by
  induction labels generalizing state with
  | nil =>
      simp only [System.run, Option.some.injEq] at ran
      simp [ran]
  | cons label labels ih =>
      rw [System.run] at ran
      rcases Option.bind_eq_some_iff.mp ran with ⟨middle, taken, rest⟩
      have first := pays state label middle taken
      have later := ih rest
      rw [List.map_cons, List.map_cons, List.sum_cons, List.sum_cons]
      omega

/-- A measure that every step lowers bounds the length of the runs. -/
theorem length_add_le_of_run {system : System State Label} {measure : State → ℕ}
    (lowers : ∀ state label after, system.step label state = some after →
      measure after < measure state)
    {labels : List Label} {state after : State} (ran : system.run labels state = some after) :
    labels.length + measure after ≤ measure state := by
  induction labels generalizing state with
  | nil =>
      simp only [System.run, Option.some.injEq] at ran
      simp [ran]
  | cons label labels ih =>
      rw [System.run] at ran
      rcases Option.bind_eq_some_iff.mp ran with ⟨middle, taken, rest⟩
      have lower := lowers state label middle taken
      have bound := ih rest
      rw [List.length_cons]
      omega

/-- With such a measure every run can be continued until no step is enabled. -/
theorem exists_run_to_end {system : System State Label} {measure : State → ℕ}
    (lowers : ∀ state label after, system.step label state = some after →
      measure after < measure state) (state : State) :
    ∃ labels after, system.run labels state = some after ∧
      ∀ label, system.step label after = none := by
  induction bound : measure state using Nat.strongRecOn generalizing state with
  | ind bound ih =>
      by_cases stuck : ∀ label, system.step label state = none
      · exact ⟨[], state, rfl, stuck⟩
      · rw [not_forall] at stuck
        rcases stuck with ⟨label, enabled⟩
        rcases Option.ne_none_iff_exists'.mp enabled with ⟨middle, taken⟩
        have lower := lowers state label middle taken
        rcases ih (measure middle) (by omega) middle rfl with ⟨labels, after, ran, ends⟩
        exact ⟨label :: labels, after, by rw [System.run, taken]; exact ran, ends⟩

/--
A projection under which every step is a step of the abstract system or leaves
the projected state unchanged carries reachable states to reachable states. A
fact already known of all reachable states may be used at each step.
-/
theorem Reachable.projectKnown {system : System State Label}
    {abstract : System Abstract AbstractLabel} {Known : State → Prop}
    (known : ∀ state, system.Reachable state → Known state) (view : State → Abstract)
    (initially : ∀ state, system.initial state → abstract.initial (view state))
    (simulates : ∀ state label after, Known state → system.step label state = some after →
      view after = view state ∨ ∃ move, abstract.step move (view state) = some (view after))
    {state : State} (reached : system.Reachable state) : abstract.Reachable (view state) := by
  induction reached with
  | start isInitial => exact .start (initially _ isInitial)
  | next before _ taken ih =>
      rcases simulates _ _ _ (known _ before.reachable) taken with unchanged | ⟨move, moved⟩
      · rw [unchanged]
        exact ih
      · exact .next ih trivial moved

/-- Under such a projection a run is a run of the abstract system, with no more steps. -/
theorem Reachable.run_project {system : System State Label}
    {abstract : System Abstract AbstractLabel} {Known : State → Prop}
    (known : ∀ state, system.Reachable state → Known state) (view : State → Abstract)
    (simulates : ∀ state label after, Known state → system.step label state = some after →
      view after = view state ∨ ∃ move, abstract.step move (view state) = some (view after))
    {labels : List Label} {state after : State} (reached : system.Reachable state)
    (ran : system.run labels state = some after) :
    ∃ moves, abstract.run moves (view state) = some (view after) ∧
      moves.length ≤ labels.length := by
  induction labels generalizing state with
  | nil =>
      simp only [System.run, Option.some.injEq] at ran
      exact ⟨[], by rw [ran, System.run], Nat.le_refl _⟩
  | cons label labels ih =>
      rw [System.run] at ran
      rcases Option.bind_eq_some_iff.mp ran with ⟨middle, taken, rest⟩
      rcases ih (.next reached trivial taken) rest with ⟨moves, moved, bound⟩
      rcases simulates _ _ _ (known _ reached) taken with unchanged | ⟨move, first⟩
      · exact ⟨moves, unchanged ▸ moved, Nat.le_succ_of_le bound⟩
      · exact ⟨move :: moves, by rw [System.run, first]; exact moved, Nat.succ_le_succ bound⟩

/--
A relation to the reachable states of an abstract system that holds initially and is
kept by every step, while the abstract system takes a step or stays, holds of every
reachable state. A fact already known of all reachable states may be used at each step.
-/
theorem Reachable.exists_related {system : System State Label}
    {abstract : System Abstract AbstractLabel} {Known : State → Prop}
    {related : State → Abstract → Prop}
    (known : ∀ state, system.Reachable state → Known state)
    (initially : ∀ state, system.initial state →
      ∃ view, abstract.Reachable view ∧ related state view)
    (simulates : ∀ state label after view, Known state → Known after →
      abstract.Reachable view → related state view → system.step label state = some after →
      ∃ viewAfter, (viewAfter = view ∨ ∃ move, abstract.step move view = some viewAfter) ∧
        related after viewAfter)
    {state : State} (reached : system.Reachable state) :
    ∃ view, abstract.Reachable view ∧ related state view := by
  induction reached with
  | start isInitial => exact initially _ isInitial
  | next before _ taken ih =>
      rcases ih with ⟨view, viewReached, isRelated⟩
      have knownAfter := known _ (.next before trivial taken)
      rcases simulates _ _ _ view (known _ before) knownAfter viewReached isRelated taken with
        ⟨viewAfter, rfl | ⟨move, moved⟩, relatedAfter⟩
      · exact ⟨viewAfter, viewReached, relatedAfter⟩
      · exact ⟨viewAfter, .next viewReached trivial moved, relatedAfter⟩

/-- The form of `Reachable.projectKnown` without side knowledge. -/
theorem Reachable.project {system : System State Label} {abstract : System Abstract AbstractLabel}
    (view : State → Abstract)
    (initially : ∀ state, system.initial state → abstract.initial (view state))
    (simulates : ∀ state label after, system.step label state = some after →
      view after = view state ∨ ∃ move, abstract.step move (view state) = some (view after))
    {state : State} (reached : system.Reachable state) : abstract.Reachable (view state) := by
  have nothingKnown : ∀ state, system.Reachable state → True := fun _ _ => trivial
  apply Reachable.projectKnown nothingKnown view initially _ reached
  intro state label after _ taken
  exact simulates state label after taken

end System

end Transition
