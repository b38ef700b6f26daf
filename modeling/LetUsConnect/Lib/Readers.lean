import Mathlib.Data.List.Basic

/-!
# Readers

A reader takes one value off the front of a text. Words that are recognized
whatever follows them can be written one after the other with nothing in between:
reading in turn gives back their values.
-/

namespace Readers

universe u v w

variable {Symbol : Type u} {Value : Type v} {Item : Type w}

/-- A reader returns the value it found and the rest of the text. -/
abbrev Reader (Symbol : Type u) (Value : Type v) := List Symbol → Option (Value × List Symbol)

/-- The reader takes the value off every text that begins with the word. -/
def Takes (reader : Reader Symbol Value) (word : List Symbol) (value : Value) : Prop :=
  ∀ rest, reader (word ++ rest) = some (value, rest)

/-- One value after the other, each with its own reader. -/
def inTurn : List (Reader Symbol Value) → Reader Symbol (List Value)
  | [], text => some ([], text)
  | reader :: readers, text =>
      (reader text).bind fun first =>
        (inTurn readers first.2).map fun others => (first.1 :: others.1, others.2)

/-- Words written one after the other are read in turn. -/
theorem takes_inTurn {items : List Item} {reader : Item → Reader Symbol Value}
    {word : Item → List Symbol} {value : Item → Value}
    (takes : ∀ item ∈ items, Takes (reader item) (word item) (value item)) :
    Takes (inTurn (items.map reader)) (items.flatMap word) (items.map value) := by
  induction items with
  | nil => exact fun _ => rfl
  | cons item items ih =>
      intro rest
      have first := takes item List.mem_cons_self (items.flatMap word ++ rest)
      have others := ih (fun other member => takes other (List.mem_cons_of_mem _ member)) rest
      rw [List.flatMap_cons, List.append_assoc, List.map_cons, inTurn, first, Option.bind_some,
        others, Option.map_some, List.map_cons]

end Readers
