import QueryTree.Model.Basic
import QueryTree.Proofs.Outcome
import Mathlib.Data.List.Nodup

/-!
# Loading

What is known of the declared types of a loaded model: each has the name of its definition, no two
have the same name, and the body of each class is what its definition says.
-/

namespace QueryTree

/-- The definition of a class, if the type is one. -/
def Schema.TypeDef.class? : Schema.TypeDef → Option Schema.ClassDef
  | .cls _ definition => some definition
  | .enum _ => none

/-- The definitions of all classes. -/
def Schema.classes (schema : Schema) : List Schema.ClassDef := schema.types.filterMap (·.class?)

theorem NamedTypes.mem_of_lookup {types : NamedTypes} {name : String} {type : Ty}
    (found : types.lookup name = some type) : (name, type) ∈ types := by
  obtain ⟨before, after, rfl, -⟩ := List.lookup_eq_some_iff.mp found
  simp

theorem NamedTypes.lookup_isSome_of_mem {types : NamedTypes} {name : String} {type : Ty}
    (member : (name, type) ∈ types) : (types.lookup name).isSome := by
  by_contra missing
  have absent := List.lookup_eq_none_iff.mp (Option.not_isSome_iff_eq_none.mp missing) _ member
  simp at absent

/-- A name is not found if and only if no entry has it. -/
theorem NamedTypes.lookup_eq_none_iff {types : NamedTypes} {name : String} :
    types.lookup name = none ↔ name ∉ types.map (·.1) := by
  rw [List.lookup_eq_none_iff]
  refine ⟨fun other member => ?_, fun absent entry isEntry => ?_⟩
  · obtain ⟨entry, isEntry, rfl⟩ := List.mem_map.mp member
    simpa using other entry isEntry
  · have other : entry.1 ≠ name := fun same => absent (List.mem_map.mpr ⟨entry, isEntry, same⟩)
    simpa using other.symm

theorem NamedTypes.lookup_of_mem {types : NamedTypes} {name : String} {type : Ty}
    (names : (types.map (·.1)).Nodup) (member : (name, type) ∈ types) :
    types.lookup name = some type := by
  obtain ⟨held, found⟩ := Option.isSome_iff_exists.mp (lookup_isSome_of_mem member)
  have same := List.inj_on_of_nodup_map names (mem_of_lookup found) member rfl
  rw [found, (Prod.mk.inj same).2]

/-- A name stands for a type without parts, or else for the type that is declared under it. -/
theorem NamedTypes.named_eq_ok {types : NamedTypes} {name : String} {type : Ty} :
    types.named name = .ok type ↔ atoms.lookup name = some type ∨
      atoms.lookup name = none ∧ types.lookup name = some type := by
  rw [named, Option.orElse_eq_orElse, Option.orElse_eq_or, ← Option.or_eq_some_iff]
  split
  next found => rw [found, Except.ok.injEq, Option.some.injEq]
  next missing => simp [missing]

/-- What a text is read as: the type with its name, or a type made of the one that a part of the
text is read as. -/
inductive NamedTypes.TypeText (types : NamedTypes) (fuel : Nat) (cs : List Char) : Ty → Prop where
  | nullable {inner : List Char} {type : Ty} (read : readFrom types fuel inner = .ok type)
      (isValue : type.isValue = true) (notNullable : type.isNullable = false) :
      TypeText types fuel cs (.nullable type)
  | array {inner : List Char} {element : Ty} (read : readFrom types fuel inner = .ok element) :
      TypeText types fuel cs (.array element)
  | list {inner : List Char} {element : Ty} (read : readFrom types fuel inner = .ok element) :
      TypeText types fuel cs (.list element)
  | sequence {inner : List Char} {element : Ty} (read : readFrom types fuel inner = .ok element) :
      TypeText types fuel cs (.sequence element)
  | name {type : Ty} (notNullable : before? ['?'] (Text.trimChars cs) = none)
      (notArray : before? ['[', ']'] (Text.trimChars cs) = none)
      (notGeneric : splitArguments? (Text.trimChars cs) = none)
      (isNamed : types.named (String.ofList (Text.trimChars cs)) = .ok type) :
      TypeText types fuel cs type

theorem NamedTypes.typeText {types : NamedTypes} {fuel : Nat} {cs : List Char} {type : Ty}
    (ok : readFrom types (fuel + 1) cs = .ok type) : TypeText types fuel cs type := by
  simp only [readFrom] at ok
  split at ok
  next inner _ =>
    obtain ⟨type, read, ok⟩ := bind_eq_ok_iff.mp ok
    unfold widened at ok
    split at ok
    next => cases ok
    next admitted =>
      cases ok
      simp only [Bool.or_eq_true, Bool.not_eq_true', not_or, Bool.not_eq_false,
        Bool.not_eq_true] at admitted
      exact .nullable read admitted.1 admitted.2
  next notNullable =>
    split at ok
    next inner _ =>
      obtain ⟨element, read, rfl⟩ := map_eq_ok_iff.mp ok
      exact .array read
    next notArray =>
      split at ok
      next notGeneric => exact .name notNullable notArray notGeneric ok
      next =>
        split at ok
        next => cases ok
        next =>
          obtain ⟨element, read, ok⟩ := bind_eq_ok_iff.mp ok
          unfold generic at ok
          split at ok
          next => exact Except.ok.inj ok ▸ .list read
          next =>
            split at ok
            next => exact Except.ok.inj ok ▸ .sequence read
            next => cases ok

theorem NamedTypes.named_eq_cls {types : NamedTypes} {name : String} {c : ClassRef}
    (ok : types.named name = .ok (.cls c)) : (name, .cls c) ∈ types := by
  obtain atomic | ⟨-, declared⟩ := named_eq_ok.mp ok
  · have member := mem_of_lookup atomic
    simp [atoms] at member
  · exact mem_of_lookup declared

/-- Only a plain name names a class. -/
theorem NamedTypes.read_eq_cls {types : NamedTypes} {text : String} {c : ClassRef}
    (ok : types.read text = .ok (.cls c)) : ∃ name, (name, .cls c) ∈ types := by
  cases typeText ok with
  | name _ _ _ isNamed => exact ⟨_, named_eq_cls isNamed⟩

namespace Declarations

/-- A declared type with its name: an enumeration of that name, or a class of that name with the
definition that is still to be read. -/
inductive Entry (pending : List (ClassRef × Schema.ClassDef)) : String → Ty → Prop
  | enum (e : EnumType) : Entry pending e.name (.enum e)
  | cls (c : ClassRef) (definition : Schema.ClassDef) (known : (c, definition) ∈ pending)
      (named : definition.name = c.name) : Entry pending c.name (.cls c)

/-- What holds of types while they are being declared, with the definitions of the classes so
far. -/
structure Sound (definitions : List Schema.ClassDef) (d : Declarations) : Prop where
  entries : ∀ name type, (name, type) ∈ d.types → Entry d.pending name type
  names : (d.types.map (·.1)).Nodup
  listed : ∀ c definition, (c, definition) ∈ d.pending → (definition.name, .cls c) ∈ d.types
  described : d.pending.map (·.2) = definitions
  places : (d.pending.map (·.1.index)).Nodup
  unfilled : ∀ c definition, (c, definition) ∈ d.pending → d.classes[c.index]? = some none
  unread : ∀ c, d.classes.body c = .empty ∨ d.classes.body c = mathBody

variable {definitions : List Schema.ClassDef} {d entered : Declarations}
  {name : String} {type : Ty}

theorem Entry.mono {pending more : List (ClassRef × Schema.ClassDef)}
    (entry : Entry pending name type) (within : pending ⊆ more) : Entry more name type := by
  cases entry with
  | enum e => exact .enum e
  | cls c definition known named => exact .cls c definition (within known) named

theorem Sound.initial : Sound [] initial := by
  refine ⟨nofun, .nil, nofun, rfl, .nil, nofun, fun c => ?_⟩
  obtain ⟨_, _, _, index⟩ := c
  cases index with
  | zero => exact .inr rfl
  | succ index => exact .inl rfl

theorem enter_eq_ok (ok : d.enter name type = .ok entered) :
    name ∉ d.types.map (·.1) ∧ entered = { d with types := (name, type) :: d.types } := by
  unfold enter at ok
  split at ok
  next => cases ok
  next fresh =>
    cases ok
    refine ⟨fun taken => fresh ?_, rfl⟩
    obtain ⟨⟨_, held⟩, member, rfl⟩ := List.mem_map.mp taken
    exact NamedTypes.lookup_isSome_of_mem member

theorem enumOf_eq_ok {definition : Schema.EnumDef} (ok : enumOf definition = .ok type) :
    ∃ e, type = .enum e ∧ e.name = definition.name := by
  unfold enumOf at ok
  split at ok
  -- the underlying type is read in one case and given in the other one
  all_goals
    obtain ⟨underlying, -, ok⟩ := bind_eq_ok_iff.mp ok
    beta_reduce at ok
    split at ok
    · cases ok
    · obtain ⟨variants, -, built⟩ := bind_eq_ok_iff.mp ok
      exact ⟨_, (pure_eq_ok_iff.mp built).symm, rfl⟩

theorem Sound.enterEnum (sound : d.Sound definitions) {e : EnumType}
    (ok : d.enter e.name (.enum e) = .ok entered) : entered.Sound definitions := by
  obtain ⟨fresh, rfl⟩ := enter_eq_ok ok
  exact
    { entries := fun name type member => by
        obtain ⟨rfl, rfl⟩ | member := by simpa using member
        · exact .enum e
        · exact sound.entries name type member
      names := List.nodup_cons.mpr ⟨fresh, sound.names⟩
      listed := fun c definition known => .tail _ (sound.listed c definition known)
      described := sound.described
      places := sound.places
      unfilled := sound.unfilled
      unread := sound.unread }

/-- A class gets the next free place of the table. -/
theorem Sound.enterClass (sound : d.Sound definitions) {definition : Schema.ClassDef}
    {c : ClassRef} (place : c.index = d.classes.size) (named : definition.name = c.name)
    (fresh : c.name ∉ d.types.map (·.1)) :
    Sound (definitions ++ [definition])
      ⟨(c.name, .cls c) :: d.types, d.classes.push none, d.pending ++ [(c, definition)]⟩ := by
  have below (b : ClassRef) (known : Schema.ClassDef) (pending : (b, known) ∈ d.pending) :
      b.index < d.classes.size := by
    obtain ⟨within, -⟩ := Array.getElem?_eq_some_iff.mp (sound.unfilled b known pending)
    exact within
  exact
    { entries := fun name type member => by
        obtain ⟨rfl, rfl⟩ | member := by simpa using member
        · exact .cls c definition (by simp) named
        · exact (sound.entries name type member).mono (List.subset_append_left ..)
      names := List.nodup_cons.mpr ⟨fresh, sound.names⟩
      listed := fun b known pending => by
        obtain pending | ⟨rfl, rfl⟩ := by simpa using pending
        · exact .tail _ (sound.listed b known pending)
        · rw [named]
          exact .head _
      described := by rw [List.map_append, sound.described]; rfl
      places := by
        rw [List.map_append]
        refine sound.places.append (List.nodup_singleton _) fun i old new => ?_
        obtain ⟨⟨b, known⟩, pending, rfl⟩ := List.mem_map.mp old
        have same : b.index = c.index := by simpa using new
        exact absurd (below b known pending) (by omega)
      unfilled := fun b known pending => by
        obtain pending | ⟨rfl, rfl⟩ := by simpa using pending
        · rw [Array.getElem?_push, if_neg (Nat.ne_of_lt (below b known pending))]
          exact sound.unfilled b known pending
        · rw [place, Array.getElem?_push_size]
      unread := fun b => by
        have same : ClassTable.body (d.classes.push none) b = d.classes.body b := by
          rw [ClassTable.body, ClassTable.body, Array.getElem?_push]
          split
          next last => simp [last]
          next => rfl
        rw [same]
        exact sound.unread b }

theorem Sound.declare (sound : d.Sound definitions) {definition : Schema.TypeDef}
    (ok : d.declare definition = .ok entered) :
    entered.Sound (definitions ++ definition.class?.toList) := by
  cases definition with
  | cls isValue definition =>
      obtain ⟨entered', ok, built⟩ := bind_eq_ok_iff.mp ok
      obtain ⟨fresh, rfl⟩ := enter_eq_ok ok
      cases built
      exact sound.enterClass (c := ⟨definition.name, _, _, _⟩) rfl rfl fresh
  | enum definition =>
      obtain ⟨type, isEnum, ok⟩ := bind_eq_ok_iff.mp ok
      obtain ⟨e, rfl, named⟩ := enumOf_eq_ok isEnum
      rw [← named] at ok
      simpa [Schema.TypeDef.class?] using sound.enterEnum ok

theorem Sound.declareAll (sound : d.Sound definitions) {types : List Schema.TypeDef}
    (ok : types.foldlM Declarations.declare d = .ok entered) :
    entered.Sound (definitions ++ types.filterMap (·.class?)) := by
  induction types generalizing d definitions with
  | nil =>
      obtain rfl := pure_eq_ok_iff.mp ok
      simpa using sound
  | cons type types ih =>
      rw [List.foldlM_cons] at ok
      obtain ⟨next, one, others⟩ := bind_eq_ok_iff.mp ok
      have whole := ih (sound.declare one) others
      cases isClass : type.class? with
      | none => simpa [List.filterMap_cons, isClass] using whole
      | some definition => simpa [List.filterMap_cons, isClass] using whole

theorem bodyOf_base {types : NamedTypes} {definition : Schema.ClassDef} {body : ClassBody}
    (ok : bodyOf types definition = .ok body) :
    types.read? definition.base = .ok body.base := by
  obtain ⟨members, -, ok⟩ := bind_eq_ok_iff.mp ok
  obtain ⟨methods, -, ok⟩ := bind_eq_ok_iff.mp ok
  obtain ⟨operators, -, ok⟩ := bind_eq_ok_iff.mp ok
  obtain ⟨constructors, -, ok⟩ := bind_eq_ok_iff.mp ok
  obtain ⟨indexers, -, ok⟩ := bind_eq_ok_iff.mp ok
  obtain ⟨base, isBase, ok⟩ := bind_eq_ok_iff.mp ok
  obtain ⟨element, -, built⟩ := bind_eq_ok_iff.mp ok
  cases built
  exact isBase

/-- Reading the bodies of classes fills their places and no other ones. -/
theorem define_eq_ok {types : NamedTypes} {pending : List (ClassRef × Schema.ClassDef)}
    {classes defined : ClassTable} (places : (pending.map (·.1.index)).Nodup)
    (unfilled : ∀ c definition, (c, definition) ∈ pending → classes[c.index]? = some none)
    (ok : define types pending classes = .ok defined) :
    (∀ c definition, (c, definition) ∈ pending →
        bodyOf types definition = .ok (defined.body c)) ∧
      ∀ i ∉ pending.map (·.1.index), defined[i]? = classes[i]? := by
  induction pending generalizing classes with
  | nil =>
      cases ok
      exact ⟨nofun, fun i _ => rfl⟩
  | cons first rest ih =>
      obtain ⟨c, definition⟩ := first
      obtain ⟨body, isBody, ok⟩ := bind_eq_ok_iff.mp ok
      obtain ⟨new, places⟩ := List.nodup_cons.mp places
      have free := unfilled c definition (.head _)
      simp only [ClassTable.define?, free, Option.getD_some] at ok
      obtain ⟨filled, kept⟩ := ih places
        (fun b known pending => by
          have other : b.index ≠ c.index := by
            rintro same
            exact new (List.mem_map.mpr ⟨_, pending, same⟩)
          rw [Array.getElem?_setIfInBounds_ne other.symm]
          exact unfilled b known (.tail _ pending)) ok
      refine ⟨fun b known pending => ?_, fun i outside => ?_⟩
      · obtain pending | pending := List.mem_cons.mp pending
        · cases pending
          have within : c.index < classes.size := (Array.getElem?_eq_some_iff.mp free).1
          rw [isBody, ClassTable.body, kept _ new, Array.getElem?_setIfInBounds_self_of_lt within]
          rfl
        · exact filled b known pending
      · obtain ⟨other, outside⟩ := not_or.mp (List.mem_cons.not.mp outside)
        rw [kept i outside, Array.getElem?_setIfInBounds_ne (Ne.symm other)]

/-- A class that the schema does not declare has the body that it has had from the start. -/
theorem Sound.declared_or_unread {table : ClassTable} (sound : d.Sound definitions)
    (kept : ∀ i ∉ d.pending.map (·.1.index), table[i]? = d.classes[i]?) (c : ClassRef) :
    (∃ b definition, (b, definition) ∈ d.pending ∧ b.index = c.index) ∨
      table.body c = .empty ∨ table.body c = mathBody := by
  by_cases known : c.index ∈ d.pending.map (·.1.index)
  · obtain ⟨⟨b, definition⟩, pending, same⟩ := List.mem_map.mp known
    exact .inl ⟨b, definition, pending, same⟩
  · rw [ClassTable.body, kept _ known]
    exact .inr (sound.unread c)

end Declarations

namespace Model

variable {schema : Schema} {model : Model}

theorem ofText_eq_ok {text : String} (loaded : ofText text = .ok model) :
    ∃ schema, (Json.ofText? text).bind Schema.ofJson? = some schema ∧
      ofSchema schema = .ok model := by
  unfold ofText at loaded
  cases read : Json.ofText? text with
  | none => simp [read] at loaded
  | some json =>
      simp only [read, ofJson] at loaded
      cases described : Schema.ofJson? json with
      | none => simp [described] at loaded
      | some schema =>
          refine ⟨schema, described, ?_⟩
          cases built : ofSchema schema with
          | error fault => simp [described, built] at loaded
          | ok other => simpa [described, built] using loaded

/-- A loaded model comes from sound declarations, with the bodies of all classes read. -/
theorem ofSchema_eq_ok (loaded : ofSchema schema = .ok model) :
    ∃ declared : Declarations, declared.Sound schema.classes ∧
      model.types = declared.types ∧ model.options = schema.options ∧
      model.types.read? schema.it = .ok model.it ∧
      (∀ c definition, (c, definition) ∈ declared.pending →
        Declarations.bodyOf model.types definition = .ok (model.classes.body c)) ∧
      ∀ i ∉ declared.pending.map (·.1.index), model.classes[i]? = declared.classes[i]? := by
  obtain ⟨declared, each, rest⟩ := bind_eq_ok_iff.mp loaded
  obtain ⟨classes, bodies, rest⟩ := bind_eq_ok_iff.mp rest
  obtain ⟨it, isIt, built⟩ := bind_eq_ok_iff.mp rest
  cases built
  have sound : declared.Sound schema.classes := Declarations.Sound.initial.declareAll each
  exact ⟨declared, sound, rfl, rfl, isIt,
    Declarations.define_eq_ok sound.places sound.unfilled bodies⟩

end Model

end QueryTree
