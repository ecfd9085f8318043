import QueryTree.Proofs.Model.Loading
import QueryTree.Proofs.Type.Hierarchy

/-!
# Written types

The types that a schema can name: no type is widened by null twice, and none is a record, a group or
a function.  All types in the classes of a loaded model are of this form.
-/

namespace QueryTree

/-- Whether a type can be written in a schema. -/
def Ty.isWritten : Ty → Bool
  | atom _ | enum _ | cls _ => true
  | nullable inner => inner.isValue && !inner.isNullable && inner.isWritten
  | array element | list element | sequence element => element.isWritten
  | grouping .. | lambda .. | record .. => false

/-- The types of the members and elements of all classes can be written in a schema. -/
structure ClassTable.IsWritten (table : ClassTable) : Prop where
  members : ∀ c, ∀ m ∈ (table.body c).members, m.type.isWritten = true
  elements : ∀ c element, (table.body c).element = some element → element.isWritten = true

namespace Ty

variable {table : ClassTable} {type element : Ty} {m : Member}

theorem core_isWritten (written : type.isWritten = true) :
    type.core.isWritten = true ∧ type.core.isNullable = false := by
  cases type with
  | nullable inner =>
      simp only [isWritten, Bool.and_eq_true, Bool.not_eq_true'] at written
      exact ⟨written.2, written.1.2⟩
  | _ => exact ⟨written, rfl⟩

theorem element?_isWritten (table_written : table.IsWritten) (written : type.isWritten = true)
    (isElement : type.element? table = some element) : element.isWritten = true := by
  cases type with
  | array item | list item | sequence item =>
      cases isElement
      exact written
  | cls c => exact table_written.elements c element isElement
  | atom a =>
      cases a with
      | string =>
          cases isElement
          rfl
      | _ => cases isElement
  | grouping | lambda | record => cases written
  | nullable | enum => cases isElement

theorem inherited_isWritten (table_written : table.IsWritten) {c : ClassRef}
    (member : m ∈ table.inherited (·.members) c) : m.type.isWritten = true := by
  obtain own | above := List.mem_append.mp member
  · exact table_written.members c m own
  · obtain ⟨base, -, inherited⟩ := List.mem_flatMap.mp above
    cases isClass : base.class? with
    | none => simp [isClass] at inherited
    | some b =>
        rw [isClass] at inherited
        exact table_written.members b m inherited

end Ty

section Reading

variable {types : NamedTypes} {type : Ty}

theorem NamedTypes.named_isWritten (declared : ∀ entry ∈ types, entry.2.isWritten = true)
    {name : String} (ok : types.named name = .ok type) : type.isWritten = true := by
  have atomic : ∀ entry ∈ atoms, entry.2.isWritten = true := by decide
  obtain found | ⟨-, found⟩ := named_eq_ok.mp ok
  · exact atomic _ (mem_of_lookup found)
  · exact declared _ (mem_of_lookup found)

theorem NamedTypes.readFrom_isWritten (declared : ∀ entry ∈ types, entry.2.isWritten = true)
    {fuel : Nat} {cs : List Char} (ok : types.readFrom fuel cs = .ok type) :
    type.isWritten = true := by
  induction fuel generalizing cs type with
  | zero => cases ok
  | succ fuel ih =>
      cases typeText ok with
      | nullable read isValue notNullable =>
          simp [Ty.isWritten, isValue, notNullable, ih read]
      | @array _ element read | @list _ element read | @sequence _ element read =>
          exact (ih read : element.isWritten = true)
      | name _ _ _ isNamed => exact named_isWritten declared isNamed

theorem NamedTypes.read?_isWritten (declared : ∀ entry ∈ types, entry.2.isWritten = true)
    {text? : Option String} (ok : types.read? text? = .ok (some type)) :
    type.isWritten = true := by
  cases text? with
  | none => cases ok
  | some text =>
      obtain ⟨read, isRead, same⟩ := map_eq_ok_iff.mp ok
      cases same
      exact readFrom_isWritten declared isRead

theorem forall_mem_of_mapM_eq_ok {ε α β : Type} {f : α → Except ε β} {holds : β → Prop}
    {as : List α} {bs : List β} (each : ∀ a ∈ as, ∀ b, f a = .ok b → holds b)
    (ok : as.mapM f = .ok bs) : ∀ b ∈ bs, holds b := by
  induction as generalizing bs with
  | nil =>
      obtain rfl := pure_eq_ok_iff.mp ok
      exact nofun
  | cons a as ih =>
      rw [List.mapM_cons] at ok
      obtain ⟨b, first, ok⟩ := bind_eq_ok_iff.mp ok
      obtain ⟨rest, others, built⟩ := bind_eq_ok_iff.mp ok
      obtain rfl := pure_eq_ok_iff.mp built
      exact List.forall_mem_cons.mpr
        ⟨each a (.head _) b first, ih (fun a member => each a (.tail _ member)) others⟩

theorem Declarations.bodyOf_isWritten (declared : ∀ entry ∈ types, entry.2.isWritten = true)
    {definition : Schema.ClassDef} {body : ClassBody} (ok : bodyOf types definition = .ok body) :
    (∀ m ∈ body.members, m.type.isWritten = true) ∧
      ∀ element, body.element = some element → element.isWritten = true := by
  obtain ⟨members, isMembers, ok⟩ := bind_eq_ok_iff.mp ok
  obtain ⟨methods, -, ok⟩ := bind_eq_ok_iff.mp ok
  obtain ⟨operators, -, ok⟩ := bind_eq_ok_iff.mp ok
  obtain ⟨constructors, -, ok⟩ := bind_eq_ok_iff.mp ok
  obtain ⟨indexers, -, ok⟩ := bind_eq_ok_iff.mp ok
  obtain ⟨base, -, ok⟩ := bind_eq_ok_iff.mp ok
  obtain ⟨element, isElement, built⟩ := bind_eq_ok_iff.mp ok
  cases built
  refine ⟨forall_mem_of_mapM_eq_ok (fun p _ m read => ?_) isMembers, fun item same => ?_⟩
  · obtain ⟨type, isRead, built⟩ := bind_eq_ok_iff.mp read
    cases built
    exact NamedTypes.readFrom_isWritten declared isRead
  · obtain rfl : element = some item := same
    exact NamedTypes.read?_isWritten declared isElement

end Reading

namespace Model

variable {text : String} {model : Model}

/-- All types that are read in a loaded model can be written in a schema. -/
theorem ofText_isWritten (loaded : ofText text = .ok model) :
    (∀ entry ∈ model.types, entry.2.isWritten = true) ∧ model.classes.IsWritten ∧
      ∀ type, model.it = some type → type.isWritten = true := by
  obtain ⟨schema, -, built⟩ := ofText_eq_ok loaded
  obtain ⟨declared, sound, types, -, isIt, filled, kept⟩ := ofSchema_eq_ok built
  have entries : ∀ entry ∈ model.types, entry.2.isWritten = true := by
    rintro ⟨name, type⟩ member
    rw [types] at member
    cases sound.entries name type member with
    | enum e => rfl
    | cls c => rfl
  have bodies (c : ClassRef) : (∀ m ∈ (model.classes.body c).members, m.type.isWritten = true) ∧
      ∀ element, (model.classes.body c).element = some element → element.isWritten = true := by
    obtain ⟨b, d, pending, same⟩ | empty | isMath := sound.declared_or_unread kept c
    · rw [← ClassTable.body_congr same]
      exact Declarations.bodyOf_isWritten entries (filled b d pending)
    · rw [empty]
      exact ⟨nofun, nofun⟩
    · rw [isMath]
      exact ⟨by decide, nofun⟩
  refine ⟨entries, ⟨fun c => (bodies c).1, fun c => (bodies c).2⟩, fun type same => ?_⟩
  exact NamedTypes.read?_isWritten entries (same ▸ isIt)

theorem elementType_isWritten (loaded : ofText text = .ok model) {name? : Option String}
    {type : Ty} (named : model.elementType name? = .ok type) : type.isWritten = true := by
  obtain ⟨entries, -, ofIt⟩ := ofText_isWritten loaded
  unfold elementType at named
  split at named
  next name =>
    unfold readType at named
    split at named
    next isRead =>
      cases named
      exact NamedTypes.readFrom_isWritten entries isRead
    next => cases named
  next isIt =>
    cases named
    exact ofIt type isIt
  next => cases named

end Model

end QueryTree
