import QueryTree.Config.Keyword
import Mathlib.Data.List.Perm.Basic

/-!
# Keywords of custom types

What a name means as a keyword: a word or a predefined type, or else the first custom type that has
the name.  Where no two custom types have a name, their order does not count.
-/

namespace QueryTree

/-- Whether a type has a folded name, as its simple or its full name. -/
def Ty.isNamed (options : Options) (key : String) (t : Ty) : Bool :=
  options.fold t.simpleName == key || options.fold t.fullName == key

namespace KeywordTable

variable {options : Options} {key : String} {types : List Ty}

/-- What a folded name means without custom types. -/
def reserved? (options : Options) (key : String) : Option Keyword :=
  ((words ++ typeNames).find? fun entry => options.fold entry.1 == key).map (·.2)

/-- A name keeps its first meaning. -/
theorem lookup_foldl_enter (entries : List (String × Keyword)) (table : KeywordTable) :
    (entries.foldl (enter options) table).lookup key
      = (table.lookup key).or
        ((entries.find? fun entry => options.fold entry.1 == key).map (·.2)) := by
  induction entries generalizing table with
  | nil => simp
  | cons entry rest ih =>
      rw [List.foldl_cons, ih, List.find?_cons, enter]
      cases taken : table.lookup (options.fold entry.1) with
      | some held =>
          simp only [Option.isSome_some, if_true]
          cases same : options.fold entry.1 == key with
          | true => rw [← eq_of_beq same, taken, Option.some_or, Option.some_or]
          | false => rfl
      | none =>
          simp only [Option.isSome_none, Bool.false_eq_true, if_false, List.lookup_append]
          cases same : options.fold entry.1 == key with
          | true => simp [← eq_of_beq same, taken]
          | false =>
              have other : (key == options.fold entry.1) = false := by
                rw [BEq.comm, same]
              simp [List.lookup_cons, other]

theorem find?_customNames (types : List Ty) :
    ((customNames types).find? fun entry => options.fold entry.1 == key).map (·.2)
      = (types.find? (·.isNamed options key)).map .type := by
  induction types with
  | nil => rfl
  | cons t rest ih =>
      have first : customNames (t :: rest)
          = (t.simpleName, .type t) :: (t.fullName, .type t) :: customNames rest := rfl
      rw [first, List.find?_cons, List.find?_cons, List.find?_cons, Ty.isNamed]
      cases options.fold t.simpleName == key with
      | true => rfl
      | false =>
          cases options.fold t.fullName == key with
          | true => rfl
          | false => exact ih

theorem lookup_ofTypes :
    (ofTypes options types).lookup key
      = (reserved? options key).or ((types.find? (·.isNamed options key)).map .type) := by
  rw [ofTypes, List.foldl_append, lookup_foldl_enter, lookup_foldl_enter, find?_customNames]
  rfl

end KeywordTable

/-- The first item that satisfies a condition is the same in any order if it is the only one. -/
theorem find?_perm {α : Type} {p : α → Bool} {left right : List α} (perm : left.Perm right)
    (unique : ∀ a ∈ left, ∀ b ∈ left, p a = true → p b = true → a = b) :
    left.find? p = right.find? p := by
  cases found : left.find? p with
  | none =>
      refine (List.find?_eq_none.mpr fun a member => ?_).symm
      exact List.find?_eq_none.mp found a (perm.mem_iff.mpr member)
  | some a =>
      have member := List.mem_of_find?_eq_some found
      cases other : right.find? p with
      | none =>
          exact absurd (List.find?_some found)
            (List.find?_eq_none.mp other a (perm.mem_iff.mp member))
      | some b =>
          have known := perm.mem_iff.mpr (List.mem_of_find?_eq_some other)
          exact congrArg some
            (unique a member b known (List.find?_some found) (List.find?_some other))

namespace Environment

variable {options : Options} {types others : List Ty} {classes : ClassTable}

/-- No two types share a folded name that is not reserved. -/
def Unambiguous (options : Options) (types : List Ty) : Prop :=
  ∀ key, KeywordTable.reserved? options key = none → ∀ t ∈ types, ∀ u ∈ types,
    t.isNamed options key = true → u.isNamed options key = true → t = u

theorem keyword?_of (name : String) :
    (of options (.ofCustom types) classes).keyword? name
      = (KeywordTable.reserved? options (options.fold name)).or
        ((types.find? (·.isNamed options (options.fold name))).map .type) := by
  simp only [keyword?, of, TypeRegistry.ofCustom, KeywordTable.lookup_ofTypes]

theorem keyword?_perm (unambiguous : Unambiguous options types) (perm : types.Perm others)
    (name : String) :
    (of options (.ofCustom types) classes).keyword? name
      = (of options (.ofCustom others) classes).keyword? name := by
  rw [keyword?_of, keyword?_of]
  cases free : KeywordTable.reserved? options (options.fold name) with
  | some keyword => rfl
  | none =>
      rw [find?_perm perm fun t isType u isOther => unambiguous _ free t isType u isOther]

/-- Every order of the types gives every name the same meaning only if none is ambiguous. -/
theorem unambiguous_of_keyword?
    (same : ∀ left right : List Ty, left.Perm types → right.Perm types → ∀ name,
      (of options (.ofCustom left) classes).keyword? name
        = (of options (.ofCustom right) classes).keyword? name) :
    Unambiguous options types := by
  intro key free t isType u isOther named othersNamed
  obtain ⟨name, rfl⟩ : ∃ name, options.fold name = key := by
    obtain simple | full := (Bool.or_eq_true _ _).mp named
    · exact ⟨_, eq_of_beq simple⟩
    · exact ⟨_, eq_of_beq full⟩
  -- one order begins with the first type and another one with the second
  have first (v : Ty) (isType : v ∈ types) (named : v.isNamed options (options.fold name) = true) :
      ∃ order : List Ty, order.Perm types ∧
        (of options (.ofCustom order) classes).keyword? name = some (.type v) := by
    obtain ⟨before, after, rfl⟩ := List.append_of_mem isType
    refine ⟨v :: (before ++ after), List.perm_middle.symm, ?_⟩
    rw [keyword?_of, free, List.find?_cons, named]
    rfl
  obtain ⟨left, left_perm, isLeft⟩ := first t isType named
  obtain ⟨right, right_perm, isRight⟩ := first u isOther othersNamed
  have meanings := same left right left_perm right_perm name
  rw [isLeft, isRight] at meanings
  exact Keyword.type.inj (Option.some.inj meanings)

end Environment

end QueryTree
