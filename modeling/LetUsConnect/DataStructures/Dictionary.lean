import LetUsConnect.DataStructures.BinarySearchTree
import LetUsConnect.Lib.CString
import LetUsConnect.Lib.Comparators
import Mathlib.Data.Finset.Card

/-!
# The dictionary

`DataStructures/Dictionary`: a search tree of entries ordered by
`compare_string_keys`, together with the list of the keys passed to `insert`.
Keys are NUL-terminated texts, stored as their bytes.

The one fact the rest of the server relies on is that the first value inserted
under a key is the one every later search returns.
-/

namespace LetUsConnect

open Comparators CString

universe u v

structure Entry (Value : Type u) where
  key : Bytes
  value : Value

/-- The sign of `strcmp`, which is all that the comparison of keys looks at. -/
def strcmp : Bytes → Bytes → ℤ
  | [], [] => 0
  | [], _ :: _ => -1
  | _ :: _, [] => 1
  | one :: restOne, two :: restTwo =>
      if one = two then strcmp restOne restTwo else if two < one then 1 else -1

theorem strcmp_values (one two : Bytes) :
    strcmp one two = 1 ∨ strcmp one two = -1 ∨ strcmp one two = 0 := by
  induction one generalizing two with
  | nil => cases two <;> simp [strcmp]
  | cons byte one ih =>
      cases two with
      | nil => simp [strcmp]
      | cons other two =>
          rw [strcmp]
          split_ifs
          · exact ih two
          · simp
          · simp

theorem strcmp_eq_zero_iff {one two : Bytes} : strcmp one two = 0 ↔ one = two := by
  induction one generalizing two with
  | nil => cases two <;> simp [strcmp]
  | cons byte one ih =>
      cases two with
      | nil => simp [strcmp]
      | cons other two =>
          rw [strcmp]
          split_ifs with equal greater
          · simp [equal, ih]
          · simp [equal]
          · simp [equal]

theorem strcmp_flip (one two : Bytes) : strcmp one two = -strcmp two one := by
  induction one generalizing two with
  | nil => cases two <;> rfl
  | cons byte one ih =>
      cases two with
      | nil => rfl
      | cons other two =>
          rw [strcmp, strcmp]
          by_cases same : byte = other
          · simp only [if_pos same, if_pos same.symm, ih two]
          · rw [if_neg same, if_neg (Ne.symm same)]
            by_cases greater : other < byte
            · have notLess : ¬byte < other := UInt8.lt_asymm greater
              rw [if_pos greater, if_neg notLess]
              rfl
            · have less : byte < other := UInt8.lt_of_le_of_ne (UInt8.not_lt.mp greater) same
              rw [if_neg greater, if_pos less]

theorem strcmp_trans {one two three : Bytes} (first : strcmp one two ≤ 0)
    (second : strcmp two three ≤ 0) : strcmp one three ≤ 0 := by
  induction one generalizing two three with
  | nil => cases three <;> simp [strcmp]
  | cons byte one ih =>
      rcases two with _ | ⟨middle, two⟩
      · simp [strcmp] at first
      · rcases three with _ | ⟨other, three⟩
        · simp [strcmp] at second
        · rw [strcmp] at first second ⊢
          by_cases sameFirst : byte = middle
          · subst sameFirst
            rw [if_pos rfl] at first
            by_cases sameSecond : byte = other
            · rw [if_pos sameSecond] at second ⊢
              exact ih first second
            · rw [if_neg sameSecond] at second ⊢
              exact second
          · grind

/-- The order of NUL-terminated texts. -/
theorem strictlyOrders_strcmp (texts : Set Bytes) : StrictlyOrders strcmp texts where
  flip := by
    intro one _ two _
    have flipped := strcmp_flip one two
    omega
  trans := fun _ _ _ _ _ _ => strcmp_trans
  threeWay := fun one _ two _ => strcmp_values one two
  equal := fun _ _ _ _ => strcmp_eq_zero_iff.mp

def compareStringKeys {ValueOne : Type u} {ValueTwo : Type v} (one : Entry ValueOne)
    (two : Entry ValueTwo) : ℤ :=
  if 0 < strcmp one.key two.key then 1
  else if strcmp one.key two.key < 0 then -1
  else 0

theorem compareStringKeys_eq_strcmp {ValueOne : Type u} {ValueTwo : Type v}
    (one : Entry ValueOne) (two : Entry ValueTwo) :
    compareStringKeys one two = strcmp one.key two.key := by
  rw [compareStringKeys]
  rcases strcmp_values one.key two.key with greater | less | equal
  · simp [greater]
  · simp [less]
  · simp [equal]

structure Dictionary (Value : Type u) where
  binarySearchTree : Tree (Entry Value)
  keys : List Bytes

/-- `dictionary_constructor(compare_string_keys)`. -/
def dictionaryConstructor {Value : Type u} : Dictionary Value := ⟨.null, []⟩

namespace Dictionary

variable {Value : Type u}

/-- `insert_dict`; the key goes to the end of the key list whether or not the tree takes it. -/
def insertDict (dictionary : Dictionary Value) (key : Bytes) (value : Value) :
    Dictionary Value where
  binarySearchTree := dictionary.binarySearchTree.insertBst compareStringKeys ⟨key, value⟩
  keys := dictionary.keys ++ [key]

@[simp]
theorem keys_insertDict (dictionary : Dictionary Value) (key : Bytes) (value : Value) :
    (dictionary.insertDict key value).keys = dictionary.keys ++ [key] := rfl

/-- `search_dict`, which compares with an entry that wraps the key and a dummy value. -/
def searchDict (dictionary : Dictionary Value) (key : Bytes) : Option Value :=
  match dictionary.binarySearchTree with
  | .null => none
  | tree => (tree.searchBst compareStringKeys (⟨key, 0⟩ : Entry ℤ)).map Entry.value

theorem searchDict_eq (dictionary : Dictionary Value) (key : Bytes) :
    dictionary.searchDict key =
      (dictionary.binarySearchTree.searchBst compareStringKeys (⟨key, 0⟩ : Entry ℤ)).map
        Entry.value := by
  rw [searchDict]
  split
  · next isNull => rw [isNull]; rfl
  · rfl

@[simp]
theorem searchDict_constructor (key : Bytes) :
    (dictionaryConstructor : Dictionary Value).searchDict key = none := rfl

/-- An insertion is seen by the searches for its key, and only when the key was not there. -/
theorem searchDict_insertDict (dictionary : Dictionary Value) (key : Bytes) (value : Value)
    (wanted : Bytes) :
    (dictionary.insertDict key value).searchDict wanted =
      (dictionary.searchDict wanted).or (if key = wanted then some value else none) := by
  have values : compareStringKeys (⟨key, value⟩ : Entry Value) (⟨wanted, 0⟩ : Entry ℤ) = 1 ∨
      compareStringKeys (⟨key, value⟩ : Entry Value) (⟨wanted, 0⟩ : Entry ℤ) = -1 ∨
      compareStringKeys (⟨key, value⟩ : Entry Value) (⟨wanted, 0⟩ : Entry ℤ) = 0 := by
    simpa only [compareStringKeys_eq_strcmp] using strcmp_values key wanted
  have placed : compareStringKeys (⟨key, value⟩ : Entry Value) (⟨wanted, 0⟩ : Entry ℤ) = 0 →
      ∀ data : Entry Value, compareStringKeys data (⟨key, value⟩ : Entry Value) =
        compareStringKeys data (⟨wanted, 0⟩ : Entry ℤ) := by
    intro matched data
    rw [compareStringKeys_eq_strcmp, strcmp_eq_zero_iff] at matched
    simp only [compareStringKeys_eq_strcmp]
    simp only at matched
    rw [matched]
  have step := Tree.searchBst_insertBst values placed dictionary.binarySearchTree
  rw [searchDict_eq, searchDict_eq, insertDict, step, Option.map_or]
  simp only [compareStringKeys_eq_strcmp, strcmp_eq_zero_iff]
  split_ifs <;> rfl

/-- After a sequence of insertions a search returns the value of the first one with its key. -/
theorem searchDict_foldl_insertDict (entries : List (Bytes × Value))
    (dictionary : Dictionary Value) (wanted : Bytes) :
    (entries.foldl (fun filled entry => filled.insertDict entry.1 entry.2) dictionary).searchDict
        wanted =
      (dictionary.searchDict wanted).or
        ((entries.find? (fun entry => entry.1 = wanted)).map Prod.snd) := by
  induction entries generalizing dictionary with
  | nil => simp
  | cons entry entries ih =>
      rw [List.foldl_cons, ih, searchDict_insertDict, Option.or_assoc, List.find?_cons]
      by_cases same : entry.1 = wanted
      · simp [same]
      · simp [same]

theorem keys_foldl_insertDict (entries : List (Bytes × Value)) (dictionary : Dictionary Value) :
    (entries.foldl (fun filled entry => filled.insertDict entry.1 entry.2) dictionary).keys =
      dictionary.keys ++ entries.map Prod.fst := by
  induction entries generalizing dictionary with
  | nil => simp
  | cons entry entries ih => simp [ih]

/-- A new dictionary after these calls of `insert_dict`, in order. -/
def ofInserts (inserts : List (Bytes × Value)) : Dictionary Value :=
  inserts.foldl (fun filled insert => filled.insertDict insert.1 insert.2) dictionaryConstructor

theorem searchDict_ofInserts (inserts : List (Bytes × Value)) (key : Bytes) :
    (ofInserts inserts).searchDict key =
      (inserts.find? (fun insert => insert.1 = key)).map Prod.snd := by
  rw [ofInserts, searchDict_foldl_insertDict, searchDict_constructor, Option.none_or]

theorem isSome_searchDict_ofInserts {inserts : List (Bytes × Value)} {key : Bytes}
    (present : key ∈ inserts.map Prod.fst) : ((ofInserts inserts).searchDict key).isSome := by
  rcases List.mem_map.mp present with ⟨insert, member, rfl⟩
  rw [searchDict_ofInserts, Option.isSome_map, List.find?_isSome]
  exact ⟨insert, member, by simp⟩

/--
The value of a key is that of its earliest insertion, and inserting a key that
is present changes no search.
-/
theorem first_write_wins (inserts : List (Bytes × Value)) :
    (∀ key, (ofInserts inserts).searchDict key =
      (inserts.find? (fun insert => insert.1 = key)).map Prod.snd) ∧
    ∀ key ∈ inserts.map Prod.fst, ∀ value wanted,
      ((ofInserts inserts).insertDict key value).searchDict wanted =
        (ofInserts inserts).searchDict wanted := by
  refine ⟨searchDict_ofInserts inserts, ?_⟩
  intro key present value wanted
  rw [searchDict_insertDict]
  by_cases same : key = wanted
  · subst same
    have found := isSome_searchDict_ofInserts present
    exact Option.or_of_isSome found
  · rw [if_neg same, Option.or_none]

/-! ## Keys of the tree and keys of the list -/

/-- How a dictionary that was filled by insertions relates its tree to its list of keys. -/
structure KeysListed (dictionary : Dictionary Value) : Prop where
  found : ∀ key, (dictionary.searchDict key).isSome ↔ key ∈ dictionary.keys
  headless : dictionary.binarySearchTree = .null ↔ dictionary.keys = []

theorem keysListed_constructor : (dictionaryConstructor : Dictionary Value).KeysListed where
  found := by simp [dictionaryConstructor, searchDict]
  headless := by simp [dictionaryConstructor]

theorem KeysListed.insertDict {dictionary : Dictionary Value} (listed : dictionary.KeysListed)
    (key : Bytes) (value : Value) : (dictionary.insertDict key value).KeysListed where
  found := by
    intro wanted
    rw [searchDict_insertDict, Option.isSome_or, Bool.or_eq_true, listed.found]
    by_cases same : key = wanted
    · simp [Dictionary.insertDict, same]
    · simp [Dictionary.insertDict, same, Ne.symm same]
  headless := by
    simp only [Dictionary.insertDict, List.append_eq_nil_iff, List.cons_ne_nil, and_false,
      iff_false]
    cases dictionary.binarySearchTree with
    | null => simp
    | node data next previous =>
        rw [Tree.insertBst_node]
        split_ifs <;> simp

/-- A search with any entry of that key finds what `search_dict` finds. -/
theorem KeysListed.isSome_searchBst {dictionary : Dictionary Value}
    (listed : dictionary.KeysListed) {Other : Type v} (entry : Entry Other) :
    (dictionary.binarySearchTree.searchBst compareStringKeys entry).isSome ↔
      entry.key ∈ dictionary.keys := by
  have agree : ∀ data : Entry Value, compareStringKeys data entry =
      compareStringKeys data (⟨entry.key, 0⟩ : Entry ℤ) := by
    intro data
    simp only [compareStringKeys_eq_strcmp]
  rw [Tree.searchBst_congr agree, ← listed.found, searchDict_eq, Option.isSome_map]

/-- How many insertions the tree refused. -/
def refused (dictionary : Dictionary Value) : ℕ :=
  dictionary.keys.length - dictionary.keys.toFinset.card

@[simp]
theorem refused_constructor : (dictionaryConstructor : Dictionary Value).refused = 0 := rfl

theorem refused_insertDict (dictionary : Dictionary Value) (key : Bytes) (value : Value) :
    (dictionary.insertDict key value).refused =
      dictionary.refused + if key ∈ dictionary.keys then 1 else 0 := by
  have bounded := dictionary.keys.toFinset_card_le
  rw [refused, refused, Dictionary.insertDict]
  simp only [List.length_append, List.length_singleton, List.toFinset_append, List.toFinset_cons,
    List.toFinset_nil, insert_empty_eq]
  split_ifs with present
  · rw [Finset.union_eq_left.mpr (by simpa using present)]
    omega
  · rw [Finset.card_union_of_disjoint (by simpa using present), Finset.card_singleton]
    omega

/-- How many blocks stay allocated when a dictionary is destroyed. -/
def unreleased (dictionary : Dictionary Value) : ℕ :=
  2 * (dictionary.keys.length / 2) + 2 * dictionary.refused

/-- Only a dictionary of at most one insertion is released as a whole. -/
theorem unreleased_eq_zero_iff (dictionary : Dictionary Value) :
    dictionary.unreleased = 0 ↔ dictionary.keys.length ≤ 1 := by
  rw [unreleased, refused]
  constructor
  · omega
  · intro short
    rcases keys : dictionary.keys with _ | ⟨key, rest⟩
    · simp
    · rw [keys, List.length_cons] at short
      have single : rest = [] := List.eq_nil_of_length_eq_zero (by omega)
      simp [single]

end Dictionary

end LetUsConnect
