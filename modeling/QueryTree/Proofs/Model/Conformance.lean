import QueryTree.Command.Run
import QueryTree.Proofs.Json.Normal
import QueryTree.Proofs.Model.Written
import QueryTree.Proofs.Safety.Conversion

/-!
# Documents of a type

When a value, with all its items and members, is one of a type, and when a document has the shape of
one.  Reading a document checks truth values and numbers against the type and nothing else: what is
read is a value of the type exactly where the document has its shape.
-/

namespace QueryTree

namespace Ty

/-- Whether the values of a type have named parts. -/
def hasParts : Ty → Bool
  | cls _ | record .. | dynamic => true
  | _ => false

/-- The type of the items of arrays that are values of a type.  A text is not an array. -/
def item? (table : ClassTable) : Ty → Option Ty
  | string => none
  | other => other.element? table

variable {table : ClassTable} {type item : Ty}

theorem element?_of_item? (isItem : type.item? table = some item) :
    type.element? table = some item := by
  unfold item? at isItem
  split at isItem
  next => cases isItem
  next => exact isItem

theorem members_isWritten (table_written : table.IsWritten) (written : type.isWritten = true)
    (parts : type.hasParts = true) : ∀ m ∈ type.members table, m.type.isWritten = true := by
  cases type with
  | cls c => exact fun m => inherited_isWritten table_written
  | record => cases written
  | atom a =>
      cases a with
      | dynamic => exact nofun
      | _ => cases parts
  | _ => cases parts

end Ty

/-- Whether objects with certain names can be without the other declared instance members, which
then are null. -/
def mayLack (declared : List Member) (names : List String) : Bool :=
  declared.all fun m =>
    m.isStatic || names.contains m.name || (Value.memberType declared m.name).admitsNull

namespace Value

mutual

/-- Whether a value, with all its parts, is one of a target. -/
def isOf (table : ClassTable) : Ty → Value → Bool
  | target, null => target.admitsNull
  | target, array items =>
    target.core == .object ||
      match target.core.item? table with
      | some item => areOf table item items
      | none => false
  | target, object members =>
    let declared := target.core.members table
    target.core == .object || target.core.hasParts
      && mayLack declared (members.map (·.1)) && membersAreOf table declared members
  | target, value => target.core == .object || value.naturalType == target.core

/-- Whether all items of an array are of a target. -/
def areOf (table : ClassTable) (target : Ty) : List Value → Bool
  | [] => true
  | item :: rest => isOf table target item && areOf table target rest

/-- Whether all members of an object are of their declared types. -/
def membersAreOf (table : ClassTable) (declared : List Member) : List (String × Value) → Bool
  | [] => true
  | (name, value) :: rest =>
    isOf table (memberType declared name) value && membersAreOf table declared rest

end

end Value

namespace Json

mutual

/-- Whether a document has the shape of a value of a type: null where the type admits it, an array
for a type with items and an object for a type with named parts, and likewise within. -/
def hasShape (table : ClassTable) : Ty → Json → Bool
  | target, null => target.admitsNull
  | target, bool _ => target.core == .object || target.core == .boolean
  | target, int _ | target, real _ =>
    target.core == .object || target.core.isNumeric || target.core.isEnum
  | target, string _ =>
    target.core == .object || target.core == .string || target.isEnum
      || (Value.reader? target.core).isSome
  | target, array items =>
    target.core == .object ||
      match target.core.item? table with
      | some item => haveShape table item items
      | none => false
  | target, object members =>
    let declared := target.core.members table
    target.core == .object || target.core.hasParts
      && mayLack declared (members.map (·.1)) && membersHaveShape table declared members

/-- Whether all documents of a list have the shape of a target. -/
def haveShape (table : ClassTable) (target : Ty) : List Json → Bool
  | [] => true
  | item :: rest => hasShape table target item && haveShape table target rest

/-- Whether all members of an object have the shapes of their declared types. -/
def membersHaveShape (table : ClassTable) (declared : List Member) : List (String × Json) → Bool
  | [] => true
  | (name, value) :: rest =>
    hasShape table (Value.memberType declared name) value && membersHaveShape table declared rest

end

end Json

namespace Value

variable {table : ClassTable} {target : Ty} {value : Value} {text : String}

theorem isOf_of_object (isObject : (target.core == .object) = true)
    (nonnull : value.isNull = false) : value.isOf table target = true := by
  cases value with
  | null => cases nonnull
  | _ => simp [isOf, isObject]

/-- The kind is all there is to a value without items and parts. -/
theorem HasKind.isOf (table : ClassTable) (kind : value.HasKind target.core)
    (notArray : ∀ t, target.core ≠ .array t) (notBag : target.core ≠ .dynamic) :
    value.isOf table target = true := by
  obtain ⟨nonnull, same⟩ := kind
  cases value with
  | null => cases nonnull
  | array items =>
      obtain ⟨element, isArray⟩ := naturalType_array items
      rw [isArray] at same
      cases core : target.core with
      | array t => exact absurd core (notArray t)
      | _ =>
          rw [core] at same
          cases same
  | object members => exact absurd (Ty.eq_atom_of_beq same) notBag
  | _ => simp [Value.isOf, same]

theorem reader?_kind {read : String → Option Value} (reads : reader? target = some read)
    (made : read text = some value) : value.HasKind target := by
  unfold reader? at reads
  split at reads <;> cases reads <;> dsimp only at made
  case h_1 =>
    split at made
    · cases made
      exact ⟨rfl, BEq.rfl⟩
    · split at made
      · cases made
        exact ⟨rfl, BEq.rfl⟩
      · cases made
  case h_2 =>
    split at made
    · cases made
      exact ⟨rfl, BEq.rfl⟩
    · cases made
  case h_3 kind =>
    obtain ⟨n, -, made⟩ := Option.bind_eq_some_iff.mp made
    exact ofInt?_kind (show ofInt? (.integral kind) n = some value from made)
  all_goals
    obtain ⟨part, -, rfl⟩ := Option.map_eq_some_iff.mp made
    exact ⟨rfl, BEq.rfl⟩

theorem reader?_isAtom (reads : (reader? target).isSome = true) :
    ∃ a, target = .atom a ∧ a ≠ .dynamic ∧ a ≠ .object ∧ a ≠ .string := by
  unfold reader? at reads
  split at reads
  case h_9 => cases reads
  all_goals exact ⟨_, rfl, by simp, by simp, by simp⟩

/-- A text is read as a value of an elementary type other than that of texts. -/
theorem ofText_kind {type : Ty} {text : String} (reads : ofText type text = .read value) :
    ∃ a, type.core = .atom a ∧ a ≠ .string ∧ value.HasKind (.atom a) := by
  unfold ofText at reads
  split at reads
  next => cases reads
  next read isReader =>
    split at reads
    next => cases reads
    next made =>
      obtain rfl := TextReading.read.inj reads
      obtain ⟨a, core, -, -, notString⟩ := reader?_isAtom (by rw [isReader]; rfl)
      exact ⟨a, core, notString, core ▸ reader?_kind isReader made⟩

/-- A number is read for a type that has numbers, and as one of them. -/
theorem ofNumber_isOf (table : ClassTable) {json : Json} {natural : Value}
    (plain : target.core.isNullable = false) (nonnull : natural.isNull = false)
    (ok : ofNumber target json natural = .ok value) :
    value.isOf table target = true ∧
      (target.core == .object || target.core.isNumeric || target.core.isEnum) = true := by
  simp only [ofNumber] at ok
  split at ok
  next isObject =>
    cases ok
    exact ⟨isOf_of_object isObject nonnull, by simp [isObject]⟩
  next =>
    split at ok
    next isNumber =>
      split at ok
      next made =>
        cases ok
        have kind := toNumeric?_kind made
        rw [Ty.core_eq_self plain, Ty.core_eq_self plain] at kind
        refine ⟨kind.isOf table (fun t core => ?_) (fun core => ?_), by
          rw [Bool.or_assoc, isNumber, Bool.or_true]⟩
        · rw [core] at isNumber
          cases isNumber
        · rw [core] at isNumber
          cases isNumber
      next => cases ok
    next => cases ok

/-- A string is read as a text wherever the type has no text form. -/
theorem ofString_isOf (ok : ofString target text = .ok value) :
    value.isOf table target = (Json.string text).hasShape table target := by
  unfold ofString at ok
  split at ok
  next e isEnum =>
    split at ok
    next n _ =>
      cases ok
      have kind : (enum e n).HasKind target.core := Ty.core_of_enum? isEnum ▸ ⟨rfl, BEq.rfl⟩
      simp [isOf, Json.hasShape, Ty.isEnum, isEnum, kind.2]
    next => cases ok
  next noEnum =>
    unfold ofText at ok
    cases reads : reader? target.core with
    | none =>
        rw [reads] at ok
        cases ok
        simp only [isOf, Json.hasShape, Ty.isEnum, noEnum, reads, naturalType, Option.isSome_none,
          Bool.or_false]
        rw [BEq.comm (a := Ty.string)]
    | some read =>
        simp only [reads] at ok
        cases made : read (Text.trim text) with
        | none => simp [made] at ok
        | some found =>
            simp only [made, Except.ok.injEq] at ok
            subst ok
            obtain ⟨a, core, notBag, -⟩ := reader?_isAtom (by rw [reads]; rfl)
            have kind := (reader?_kind reads made).isOf table
              (fun t isArray => by rw [core] at isArray; cases isArray)
              (fun isBag => notBag (Ty.atom.inj (core.symm.trans isBag)))
            simp [kind, Json.hasShape, reads]

theorem memberType_isWritten {declared : List Member} {name : String}
    (written : ∀ m ∈ declared, m.type.isWritten = true) :
    (memberType declared name).isWritten = true := by
  unfold memberType
  split
  next m found => exact written m (List.mem_of_find?_eq_some found)
  next => rfl

theorem ofJsonMembers_names {declared : List Member} {members : List (String × Json)}
    {values : List (String × Value)} (ok : ofJsonMembers table declared members = .ok values) :
    values.map (·.1) = members.map (·.1) := by
  induction members generalizing values with
  | nil =>
      cases ok
      rfl
  | cons first rest ih =>
      obtain ⟨value, -, ok⟩ := bind_eq_ok_iff.mp ok
      obtain ⟨others, isRest, built⟩ := bind_eq_ok_iff.mp ok
      cases built
      rw [List.map_cons, List.map_cons, ih isRest]

theorem ofJsonMembers_isSorted {declared : List Member} {members : List (String × Json)}
    {values : List (String × Value)} (sorted : Named.IsSorted members)
    (ok : ofJsonMembers table declared members = .ok values) : Named.IsSorted values := by
  have names_sorted := List.pairwise_map.mpr sorted
  rw [← ofJsonMembers_names ok] at names_sorted
  exact List.pairwise_map.mp names_sorted

mutual

/-- A value that is read from a document is of the type exactly where the document has its shape. -/
theorem ofJson_isOf (table_written : table.IsWritten) :
    ∀ (json : Json) (target : Ty) (value : Value), target.isWritten = true → json.IsNormal →
      ofJson table target json = .ok value →
      value.isOf table target = json.hasShape table target
  | .null, target, value, _, _, ok => by
      cases ok
      rw [isOf, Json.hasShape]
  | .bool b, target, value, _, _, ok => by
      simp only [ofJson] at ok
      split at ok
      next fits =>
        cases ok
        rw [Bool.or_comm] at fits
        simp only [isOf, Json.hasShape, naturalType]
        rw [BEq.comm (a := Ty.boolean)]
      next => cases ok
  | .int n, target, value, written, _, ok => by
      have nonnull : (ofIntegerNumber n).isNull = false := by
        unfold ofIntegerNumber
        split <;> rfl
      obtain ⟨isValue, shape⟩ := ofNumber_isOf table (Ty.core_isWritten written).2
        nonnull ok
      rw [isValue, Json.hasShape, shape]
  | .real x, target, value, written, _, ok => by
      obtain ⟨isValue, shape⟩ := ofNumber_isOf table (Ty.core_isWritten written).2
        rfl ok
      rw [isValue, Json.hasShape, shape]
  | .string s, target, value, _, _, ok => ofString_isOf ok
  | .array items, target, value, written, normal, ok => by
      obtain ⟨values, read, rfl⟩ := map_eq_ok_iff.mp ok
      rw [isOf, Json.hasShape]
      cases isItem : target.core.item? table with
      | none => rfl
      | some item =>
          have isElement := Ty.element?_of_item? isItem
          rw [isElement, Option.getD_some] at read
          have item_written := Ty.element?_isWritten table_written (Ty.core_isWritten written).1
            isElement
          dsimp only
          rw [ofJsonItems_areOf table_written items item values item_written normal read]
  | .object members, target, value, written, normal, ok => by
      obtain ⟨values, read, rfl⟩ := map_eq_ok_iff.mp ok
      rw [ofMembers, Named.sort_eq_self (ofJsonMembers_isSorted normal.1 read), isOf, Json.hasShape,
        ofJsonMembers_names read]
      cases parts : target.core.hasParts with
      | false => rfl
      | true =>
          have declared := Ty.members_isWritten table_written (Ty.core_isWritten written).1 parts
          rw [ofJsonMembers_areOf table_written members _ values declared normal.2 read]

theorem ofJsonItems_areOf (table_written : table.IsWritten) :
    ∀ (items : List Json) (target : Ty) (values : List Value), target.isWritten = true →
      Json.AreNormal items → ofJsonItems table target items = .ok values →
      areOf table target values = Json.haveShape table target items
  | [], target, values, _, _, ok => by
      cases ok
      rfl
  | item :: rest, target, values, written, normal, ok => by
      obtain ⟨value, isFirst, ok⟩ := bind_eq_ok_iff.mp ok
      obtain ⟨others, isRest, built⟩ := bind_eq_ok_iff.mp ok
      cases built
      rw [areOf, Json.haveShape,
        ofJson_isOf table_written item target value written normal.1 isFirst,
        ofJsonItems_areOf table_written rest target others written normal.2 isRest]

theorem ofJsonMembers_areOf (table_written : table.IsWritten) :
    ∀ (members : List (String × Json)) (declared : List Member) (values : List (String × Value)),
      (∀ m ∈ declared, m.type.isWritten = true) → Json.MembersNormal members →
      ofJsonMembers table declared members = .ok values →
      membersAreOf table declared values = Json.membersHaveShape table declared members
  | [], declared, values, _, _, ok => by
      cases ok
      rfl
  | (name, item) :: rest, declared, values, written, normal, ok => by
      obtain ⟨value, isFirst, ok⟩ := bind_eq_ok_iff.mp ok
      obtain ⟨others, isRest, built⟩ := bind_eq_ok_iff.mp ok
      cases built
      rw [membersAreOf, Json.membersHaveShape,
        ofJson_isOf table_written item _ value (memberType_isWritten written) normal.1 isFirst,
        ofJsonMembers_areOf table_written rest declared others written normal.2 isRest]

end

end Value

namespace Request

variable {schema : String} {model : Model} {name? : Option String} {type : Ty}

/-- Reading an input for a type of a loaded model either fails for the input or yields a value, and
the value is one of the type if and only if the document has its shape.  The reader itself asks for
less: null is read for every type, an array or an object too, and a string for every type without a
text form. -/
theorem inputValue_isOf_iff (loaded : Model.ofText schema = .ok model)
    (named : model.elementType name? = .ok type) (json : Json) :
    (∃ fault, inputValue model type json.normalize = .error (.input fault)) ∨
      ∃ value, inputValue model type json.normalize = .ok value ∧
        (value.isOf model.classes type = true ↔
          json.normalize.hasShape model.classes type = true) := by
  obtain ⟨-, table_written, -⟩ := Model.ofText_isWritten loaded
  have written := Model.elementType_isWritten loaded named
  unfold inputValue
  cases read : Value.ofJson model.classes type json.normalize with
  | error fault => exact .inl ⟨fault, rfl⟩
  | ok value =>
      refine .inr ⟨value, rfl, ?_⟩
      rw [Value.ofJson_isOf table_written json.normalize type value written
        json.normalize_isNormal read]

section Example

/-- A class with a member that does not admit null. -/
def personSchema : String :=
  "\x7b\"types\":[\x7b\"kind\":\"class\",\"name\":\"Person\","
    ++ "\"properties\":[\x7b\"name\":\"Age\",\"type\":\"Int32\"\x7d]\x7d]\x7d"

/-- A person with the age as a string, which reads as a number. -/
def personJson : Json := .object [("Age", .string "41")]

theorem inputValue_isOf_iff_person :
    ∃ model type, Model.ofText personSchema = .ok model ∧
      model.elementType (some "Person") = .ok type ∧
      ((∃ fault, inputValue model type personJson.normalize = .error (.input fault)) ∨
        ∃ value, inputValue model type personJson.normalize = .ok value ∧
          (value.isOf model.classes type = true ↔
            personJson.normalize.hasShape model.classes type = true)) := by
  obtain ⟨model, loaded, isNamed⟩ := exists_ok_of_any
    (show (Model.ofText personSchema).toOption.any (fun model =>
      (model.elementType (some "Person")).toOption.any fun _ => true) = true by decide +kernel)
  obtain ⟨type, named, -⟩ := exists_ok_of_any isNamed
  exact ⟨model, type, loaded, named, inputValue_isOf_iff loaded named personJson⟩

/-- Where an integer is expected, an array is read, and it is no integer. -/
theorem inputValue_array_unchecked :
    ∃ model value, Model.ofText "\x7b\x7d" = .ok model ∧
      model.elementType (some "Int32") = .ok .int32 ∧
      inputValue model .int32 (.array [.int 1]) = .ok value ∧
      value.isOf model.classes .int32 = false := by
  obtain ⟨model, loaded, -⟩ := exists_ok_of_any
    (show (Model.ofText "\x7b\x7d").toOption.any (fun _ => true) = true by decide +kernel)
  exact ⟨model, .array [.integral ⟨.int32, 1, by decide⟩], loaded, rfl, rfl, rfl⟩

end Example

end Request

end QueryTree
