import QueryTree.Json.Basic

/-!
# Normal documents

Sorted lists of named parts, and documents in which the members of every object are sorted.
-/

namespace QueryTree

namespace Named

variable {α : Type} {name : String} {part : α} {parts held : List (String × α)}

/-- The parts are sorted by name, and no two of them have the same name. -/
def IsSorted (parts : List (String × α)) : Prop := parts.Pairwise (·.1 < ·.1)

theorem mem_insert {p : String × α} (member : p ∈ insert name part parts) :
    p = (name, part) ∨ p ∈ parts := by
  induction parts with
  | nil => exact .inl (List.mem_singleton.mp member)
  | cons first rest ih =>
      obtain ⟨other, held⟩ := first
      unfold insert at member
      split at member
      next =>
        obtain rfl | member := List.mem_cons.mp member
        · exact .inl rfl
        · exact .inr (.tail _ member)
      next =>
        split at member
        next =>
          obtain rfl | member := List.mem_cons.mp member
          · exact .inl rfl
          · exact .inr member
        next =>
          obtain rfl | member := List.mem_cons.mp member
          · exact .inr (.head _)
          · exact (ih member).imp_right (.tail _)

theorem insert_isSorted (sorted : IsSorted parts) : IsSorted (insert name part parts) := by
  induction parts with
  | nil => exact List.pairwise_singleton ..
  | cons first rest ih =>
      obtain ⟨other, held⟩ := first
      obtain ⟨before, sorted⟩ := List.pairwise_cons.mp sorted
      unfold insert
      split
      next same => exact List.pairwise_cons.mpr ⟨same ▸ before, sorted⟩
      next different =>
        split
        next less =>
          refine List.pairwise_cons.mpr
            ⟨fun p member => ?_, List.pairwise_cons.mpr ⟨before, sorted⟩⟩
          obtain rfl | member := List.mem_cons.mp member
          · exact less
          · exact String.lt_trans less (before p member)
        next notLess =>
          refine List.pairwise_cons.mpr ⟨fun p member => ?_, ih sorted⟩
          obtain rfl | member := mem_insert member
          · exact String.not_le.mp fun atMost =>
              different (String.le_antisymm atMost (String.not_lt.mp notLess))
          · exact before p member

theorem foldl_insert_isSorted (sorted : IsSorted held) :
    IsSorted (parts.foldl (fun held part => insert part.1 part.2 held) held) := by
  induction parts generalizing held with
  | nil => exact sorted
  | cons first rest ih => exact ih (insert_isSorted sorted)

theorem sort_isSorted (parts : List (String × α)) : IsSorted (sort parts) :=
  foldl_insert_isSorted .nil

theorem mem_of_mem_foldl_insert {p : String × α}
    (member : p ∈ parts.foldl (fun held part => insert part.1 part.2 held) held) :
    p ∈ held ∨ p ∈ parts := by
  induction parts generalizing held with
  | nil => exact .inl member
  | cons first rest ih =>
      obtain inside | later := ih member
      · obtain rfl | inside := mem_insert inside
        · exact .inr (.head _)
        · exact .inl inside
      · exact .inr (.tail _ later)

theorem mem_of_mem_sort {p : String × α} (member : p ∈ sort parts) : p ∈ parts :=
  (mem_of_mem_foldl_insert member).resolve_left List.not_mem_nil

theorem insert_last (before : ∀ p ∈ held, p.1 < name) :
    insert name part held = held ++ [(name, part)] := by
  induction held with
  | nil => rfl
  | cons first rest ih =>
      obtain ⟨other, part'⟩ := first
      have less : other < name := before _ (.head _)
      have different : name ≠ other := by
        rintro rfl
        exact String.lt_irrefl _ less
      rw [insert, if_neg different, if_neg (String.lt_asymm less),
        ih fun p member => before p (.tail _ member)]
      rfl

theorem foldl_insert_eq (sorted : IsSorted (held ++ parts)) :
    parts.foldl (fun held part => insert part.1 part.2 held) held = held ++ parts := by
  induction parts generalizing held with
  | nil => rw [List.foldl_nil, List.append_nil]
  | cons first rest ih =>
      have before (p : String × α) (member : p ∈ held) : p.1 < first.1 :=
        (List.pairwise_append.mp sorted).2.2 p member first (.head _)
      rw [List.append_cons] at sorted
      rw [List.foldl_cons, insert_last before, ih sorted, ← List.append_cons]

/-- Sorted parts stay as they are. -/
theorem sort_eq_self (sorted : IsSorted parts) : sort parts = parts :=
  foldl_insert_eq sorted

end Named

namespace Json

mutual

/-- The members of every object of the document are sorted. -/
def IsNormal : Json → Prop
  | array items => AreNormal items
  | object members => Named.IsSorted members ∧ MembersNormal members
  | _ => True

/-- All documents of a list are normal. -/
def AreNormal : List Json → Prop
  | [] => True
  | item :: rest => item.IsNormal ∧ AreNormal rest

/-- All members of an object are normal. -/
def MembersNormal : List (String × Json) → Prop
  | [] => True
  | (_, value) :: rest => value.IsNormal ∧ MembersNormal rest

end

theorem membersNormal_iff {members : List (String × Json)} :
    MembersNormal members ↔ ∀ member ∈ members, member.2.IsNormal := by
  induction members with
  | nil => simp [MembersNormal]
  | cons first rest ih => simp [MembersNormal, ih]

mutual

theorem normalize_isNormal : ∀ json : Json, json.normalize.IsNormal
  | array items => normalizeAll_areNormal items
  | object members => by
      rw [normalize, IsNormal, membersNormal_iff]
      refine ⟨Named.sort_isSorted _, fun member sorted => ?_⟩
      exact membersNormal_iff.mp (normalizeMembers_normal members) member
        (Named.mem_of_mem_sort sorted)
  | null | bool _ | int _ | real _ | string _ => trivial

theorem normalizeAll_areNormal : ∀ items : List Json, AreNormal (normalizeAll items)
  | [] => trivial
  | item :: rest => ⟨normalize_isNormal item, normalizeAll_areNormal rest⟩

theorem normalizeMembers_normal :
    ∀ members : List (String × Json), MembersNormal (normalizeMembers members)
  | [] => trivial
  | (_, value) :: rest => ⟨normalize_isNormal value, normalizeMembers_normal rest⟩

end

end Json

end QueryTree
