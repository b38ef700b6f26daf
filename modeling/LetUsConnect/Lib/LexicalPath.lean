import LetUsConnect.Lib.CString

/-!
# Lexical resolution of paths

The place a relative path names when every component is taken at its word: empty
components and `.` stay, `..` leaves the component before it, and symbolic links
are not followed. A place is the list of its names from the outermost one; `..`
that leave the starting directory stay at its front.

A path without `../` can leave a directory only by its last component, which is
what `below_iff` says.
-/

namespace LexicalPath

open CString

/-- The byte between two components. -/
def separator : UInt8 := ch '/'

/-- The component that stays. -/
def current : Bytes := bytes "."

/-- The component that leaves the last name. -/
def parent : Bytes := bytes ".."

/-- The components of a path. -/
def components (path : Bytes) : List Bytes := path.splitOn separator

/-- Whether a component stays where it is. -/
def stays (name : Bytes) : Bool := name == [] || name == current

/-- The place reached from a place by one component. -/
def enter (place : List Bytes) (name : Bytes) : List Bytes :=
  if stays name then place
  else if name = parent then
    if place.getLast?.all (· == parent) then place ++ [parent] else place.dropLast
  else place ++ [name]

/-- The place a path names. -/
def resolve (path : Bytes) : List Bytes := (components path).foldl enter []

/-- The path names the directory or something below it. -/
def Below (directory path : Bytes) : Prop := (resolve path).head? = some directory

instance (directory path : Bytes) : Decidable (Below directory path) :=
  inferInstanceAs (Decidable (_ = _))

/-- A component that names something. -/
def Proper (name : Bytes) : Prop := stays name = false ∧ name ≠ parent

instance (name : Bytes) : Decidable (Proper name) := inferInstanceAs (Decidable (_ ∧ _))

/-- Components that end in the parent of where they start. -/
def ClimbsOut (names : List Bytes) : Prop :=
  names.getLast? = some parent ∧ ∀ name ∈ names.dropLast, stays name = true

instance (names : List Bytes) : Decidable (ClimbsOut names) :=
  inferInstanceAs (Decidable (_ ∧ _))

theorem components_ne_nil (path : Bytes) : components path ≠ [] :=
  List.splitOn_ne_nil _ _

theorem components_append_separator (path rest : Bytes) :
    components (path ++ separator :: rest) = components path ++ components rest :=
  List.splitOn_append_cons_self path rest

theorem components_eq_singleton {name : Bytes} (whole : separator ∉ name) :
    components name = [name] :=
  List.splitOn_eq_singleton whole

theorem followed_of_mem_dropLast {path name : Bytes}
    (member : name ∈ (components path).dropLast) : name ++ [separator] <:+: path := by
  by_cases cut : separator ∈ path
  · rcases List.eq_append_cons_of_mem cut with ⟨before, after, rfl, whole⟩
    have shorter : after.length < (before ++ separator :: after).length := by
      rw [List.length_append, List.length_cons]
      omega
    rw [components_append_separator, components_eq_singleton whole, List.singleton_append,
      List.dropLast_cons_of_ne_nil (components_ne_nil after), List.mem_cons] at member
    rcases member with rfl | member
    · exact ⟨[], after, by simp⟩
    · refine (followed_of_mem_dropLast member).trans ⟨before ++ [separator], [], by simp⟩
  · rw [components_eq_singleton cut] at member
    simp at member
termination_by path.length

theorem parent_notMem_dropLast {path : Bytes} (guarded : ¬bytes "../" <:+: path) :
    parent ∉ (components path).dropLast :=
  fun member => guarded (followed_of_mem_dropLast member)

@[simp]
theorem enter_parent_of_proper {name : Bytes} (proper : Proper name) (place : List Bytes) :
    enter (place ++ [name]) parent = place := by
  have moves : stays parent = false := by decide
  simp [enter, moves, proper.2]

/-- Below a proper name, components without `..` never lead back to its parent. -/
theorem foldl_enter {names place : List Bytes} (downward : parent ∉ names) :
    names.foldl enter place = place ++ names.filter (!stays ·) := by
  induction names generalizing place with
  | nil => simp
  | cons name names ih =>
      rw [List.mem_cons, not_or] at downward
      rw [List.foldl_cons, ih downward.2, enter]
      by_cases staying : stays name
      · simp [staying]
      · simp [staying, Ne.symm downward.1]

theorem climbsOut_append_singleton {names : List Bytes} {last : Bytes} :
    ClimbsOut (names ++ [last]) ↔ last = parent ∧ ∀ name ∈ names, stays name = true := by
  rw [ClimbsOut, List.getLast?_concat, List.dropLast_concat, Option.some.injEq]

theorem foldl_enter_parent {first : Bytes} {names : List Bytes} (proper : Proper first)
    (downward : parent ∉ names) :
    (enter (names.foldl enter [first]) parent).head? =
      if ∀ name ∈ names, stays name = true then none else some first := by
  rw [foldl_enter downward]
  rcases List.eq_nil_or_concat' (names.filter (!stays ·)) with idle | ⟨down, name, visible⟩
  · have staying : ∀ name ∈ names, stays name = true := by
      simpa [List.filter_eq_nil_iff] using idle
    rw [idle, List.append_nil, if_pos staying]
    exact congrArg _ (enter_parent_of_proper proper [])
  · have member : name ∈ names.filter (!stays ·) := by simp [visible]
    rw [List.mem_filter, Bool.not_eq_eq_eq_not, Bool.not_true] at member
    have named : Proper name := ⟨member.2, fun same => downward (same ▸ member.1)⟩
    rw [visible, ← List.append_assoc, enter_parent_of_proper named, if_neg]
    · rfl
    · intro staying
      simp [staying name member.1] at member

/--
A path whose first component is proper and in which only the last component may
be `..` names something below the first one, unless its end leaves it.
-/
theorem resolve_head? {path first : Bytes} {others : List Bytes}
    (split : components path = first :: others) (proper : Proper first)
    (guarded : parent ∉ others.dropLast) :
    (resolve path).head? = if ClimbsOut others then none else some first := by
  have start : enter [] first = [first] := by
    simp [enter, proper.1, proper.2]
  rw [resolve, split, List.foldl_cons, start]
  rcases List.eq_nil_or_concat' others with rfl | ⟨names, last, rfl⟩
  · simp [ClimbsOut]
  · rw [List.dropLast_concat] at guarded
    rw [List.foldl_append, List.foldl_cons, List.foldl_nil]
    by_cases climbs : last = parent
    · simp only [climbs, climbsOut_append_singleton, true_and]
      exact foldl_enter_parent proper guarded
    · rw [if_neg (fun both => climbs (climbsOut_append_singleton.mp both).1),
        foldl_enter guarded, enter]
      split_ifs <;> simp

/-- Containment of a path without `../`. -/
theorem below_iff {directory path first : Bytes} {others : List Bytes}
    (split : components path = first :: others) (proper : Proper first)
    (guarded : ¬bytes "../" <:+: path) :
    Below directory path ↔ first = directory ∧ ¬ClimbsOut others := by
  have downward : parent ∉ others.dropLast := by
    have inside := parent_notMem_dropLast guarded
    rw [split] at inside
    cases others with
    | nil => simp
    | cons => exact fun member => inside (by simp [member])
  rw [Below, resolve_head? split proper downward]
  split_ifs with climbs <;> simp [climbs]

theorem below_append_separator {directory path name : Bytes} (whole : separator ∉ name)
    (isEntry : name ≠ parent) (differs : name ≠ directory) :
    Below directory (path ++ separator :: name) ↔ Below directory path := by
  rw [Below, Below, resolve, components_append_separator, components_eq_singleton whole,
    List.foldl_append, List.foldl_cons, List.foldl_nil, ← resolve, enter]
  split_ifs
  · rfl
  · cases resolve path <;> simp [differs]

end LexicalPath
