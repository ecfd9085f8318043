import QueryTree.Proofs.Model.Conformance

/-!
# Values that are read as their types say

A value is of a type together with all that is read from it.  An instance member of such a value
other than null, and a built-in method without arguments on it, yield a value of the declared type
again, and do not fail for null.
-/

namespace QueryTree

/-- A failure that is no use of null. -/
def EvalError.IsOther (error : EvalError) : Prop := ∀ fault, error ≠ .null fault

namespace Ty

/-- The instance member with a name that is accessed in values of a type. -/
def instanceMember? (table : ClassTable) (type : Ty) (name : String) : Option Member :=
  (type.members table).find? fun m => !m.isStatic && m.name == name

/-- Whether the values of a type other than null are objects. -/
def isObjectType (type : Ty) : Bool :=
  type.hasParts ||
    match type with
    | grouping _ _ => true
    | _ => false

variable {table : ClassTable} {type : Ty} {name : String} {m : Member}

theorem isNumberLike_of_item? {item : Ty} (isItem : type.item? table = some item) :
    type.isNumberLike = false := by
  cases type with
  | array | list | sequence | grouping | cls => rfl
  | atom a => cases a <;> cases isItem
  | _ => cases isItem

theorem isNumberLike_of_isObjectType (isObject : type.isObjectType = true) :
    type.isNumberLike = false := by
  cases type with
  | cls | record | grouping => rfl
  | atom a =>
      cases a with
      | dynamic => rfl
      | _ => cases isObject
  | _ => cases isObject

theorem instanceMember?_mem (isMember : type.instanceMember? table name = some m) :
    m ∈ type.members table ∧ m.isStatic = false ∧ m.name = name := by
  have found := List.find?_some isMember
  simp only [Bool.and_eq_true, Bool.not_eq_true', beq_iff_eq] at found
  exact ⟨List.mem_of_find?_eq_some isMember, found⟩

end Ty

namespace Value

/-- The type of a value, with all that is read from it: null where the type admits it, an object
whose declared members are read as values of their types, an array of such items, and otherwise a
value of the kind that the type has. -/
inductive IsTyped (table : ClassTable) : Ty → Value → Prop where
  | null {type} (admits : type.admitsNull = true) : IsTyped table type .null
  | top {type v} (notNull : v.isNull = false) (isTop : type.core = .object) :
      IsTyped table type v
  | plain {type v} (notNull : v.isNull = false) (noItems : v.isArray = false)
      (noParts : v.isObject = false) (kind : (v.naturalType == type.core) = true) :
      IsTyped table type v
  | array {type item items} (isItem : type.core.item? table = some item)
      (each : ∀ v ∈ items, IsTyped table item v)
      (counts : ∀ name m, type.core.instanceMember? table name = some m →
        (name = "Length" ∨ name = "Count") → m.type = .int32 ∨ m.type = .object) :
      IsTyped table type (.array items)
  | object {type members} (isObject : type.core.isObjectType = true)
      (each : ∀ name m, type.core.instanceMember? table name = some m →
        IsTyped table m.type (memberNamed name members)) :
      IsTyped table type (.object members)

variable {table : ClassTable} {type : Ty} {v : Value} {name : String} {m : Member}

theorem IsTyped.admitsNull (typed : v.IsTyped table type) (isNull : v.isNull = true) :
    type.admitsNull = true := by
  cases typed with
  | null admits => exact admits
  | top notNull | plain notNull => simp [notNull] at isNull
  | array | object => cases isNull

/-- A value of an elementary kind has no items and no parts. -/
theorem HasKind.isTyped {a : Atom} (kind : v.HasKind (.atom a)) (noBag : a ≠ .dynamic) :
    v.IsTyped table (.atom a) := by
  refine .plain kind.1 ?_ ?_ kind.2
  · cases v with
    | array items =>
        obtain ⟨element, isArray⟩ := naturalType_array items
        have same := kind.2
        rw [isArray] at same
        cases same
    | _ => rfl
  · cases v with
    | object members => exact absurd (Ty.atom.inj (Ty.eq_atom_of_beq kind.2)) noBag
    | _ => rfl

/-- A value of a type is converted to this type as it is. -/
theorem IsTyped.convertTo_eq (typed : v.IsTyped table type) : v.convertTo type = .ok v := by
  rw [Value.convertTo_eq, if_pos]
  cases typed with
  | null => rfl
  | top _ isTop =>
      have noNumber : Ty.object.isNumberLike = false := rfl
      simp [isTop, noNumber]
  | plain _ _ _ kind => simp [kind]
  | array isItem => simp [Ty.isNumberLike_of_item? isItem]
  | object isObject => simp [Ty.isNumberLike_of_isObjectType isObject]

/-- A value of a type that is widened by null is one without it unless it is null. -/
theorem IsTyped.of_nullable {inner : Ty} (typed : v.IsTyped table (.nullable inner))
    (notNull : v.isNull = false) : v.IsTyped table inner := by
  have core_eq (plain : inner.isNullable = false) : inner.core = (Ty.nullable inner).core :=
    Ty.core_eq_self plain
  cases typed with
  | null => cases notNull
  | top _ isTop =>
      obtain rfl : inner = .object := isTop
      exact .top notNull rfl
  | plain _ noItems noParts kind =>
      refine .plain notNull noItems noParts ?_
      cases inner with
      | nullable => cases v <;> first | cases kind | cases noItems
      | _ => exact kind
  | array isItem each counts =>
      have same : inner.core = (Ty.nullable inner).core := core_eq <| by
        cases inner with
        | nullable => cases isItem
        | _ => rfl
      exact .array (same ▸ isItem) each (same ▸ counts)
  | object isObject each =>
      have same : inner.core = (Ty.nullable inner).core := core_eq <| by
        cases inner with
        | nullable => cases isObject
        | _ => rfl
      exact .object (same ▸ isObject) (same ▸ each)

/-- A count is an integer or too large. -/
theorem count_meets (what : String) (n : Int) :
    (count what n).Meets EvalError.IsOther (·.IsTyped table .int32) := by
  refine .require (fun v isCount => ?_) fun _ _ => nofun
  obtain ⟨number, fits, rfl⟩ := Option.map_eq_some_iff.mp isCount
  have isNumber : ofInt? .int32 n = some (integral number) := Option.map_eq_some_iff.mpr
    ⟨number, fits, rfl⟩
  exact (ofInt?_kind isNumber).isTyped (by decide)

theorem int32_isTyped (n : Int) : (int32 n).IsTyped table .int32 :=
  HasKind.isTyped ⟨rfl, BEq.rfl⟩ (by decide)

theorem ticks_meets (moment : DateTime) :
    (ticks moment).Meets EvalError.IsOther (·.IsTyped table .int64) := by
  unfold ticks
  simp only
  split
  next => exact fun _ => nofun
  next =>
    refine .require (fun v isNumber => ?_) fun _ _ => nofun
    obtain ⟨number, fits, rfl⟩ := Option.map_eq_some_iff.mp isNumber
    have isInteger : ofInt? .int64 _ = some (integral number) :=
      Option.map_eq_some_iff.mpr ⟨number, fits, rfl⟩
    exact (ofInt?_kind isInteger).isTyped (by decide)

theorem ofDateTimeMember_meets {moment : DateTime}
    (isMember : Ty.dateTime.instanceMember? table name = some m) :
    (ofDateTimeMember moment name).Meets EvalError.IsOther (·.IsTyped table m.type) := by
  obtain ⟨isDeclared, isInstance, rfl⟩ := Ty.instanceMember?_mem isMember
  obtain isPart | isOther := List.mem_append.mp isDeclared
  · obtain ⟨part, isName, rfl⟩ := List.mem_map.mp isPart
    simp only [List.mem_cons, List.not_mem_nil, or_false] at isName
    rcases isName with rfl | rfl | rfl | rfl | rfl | rfl | rfl | rfl
    all_goals exact int32_isTyped _
  · simp only [List.mem_cons, List.not_mem_nil, or_false] at isOther
    rcases isOther with rfl | rfl | rfl | rfl | rfl | rfl
    case inl => exact HasKind.isTyped ⟨rfl, BEq.rfl⟩ (by decide)
    case inr.inl => exact ticks_meets moment
    all_goals cases isInstance

theorem ofTimeSpanMember_meets {span : TimeSpan}
    (isMember : Ty.timeSpan.instanceMember? table name = some m) :
    (ofTimeSpanMember span name).Meets EvalError.IsOther (·.IsTyped table m.type) := by
  obtain ⟨isDeclared, -, rfl⟩ := Ty.instanceMember?_mem isMember
  obtain isPart | isTotal := List.mem_append.mp isDeclared
  · obtain ⟨part, isName, rfl⟩ := List.mem_map.mp isPart
    simp only [List.mem_cons, List.not_mem_nil, or_false] at isName
    rcases isName with rfl | rfl | rfl | rfl
    all_goals exact count_meets _ _
  · obtain ⟨total, isName, rfl⟩ := List.mem_map.mp isTotal
    simp only [List.mem_cons, List.not_mem_nil, or_false] at isName
    rcases isName with rfl | rfl | rfl | rfl
    all_goals exact HasKind.isTyped (a := .double) ⟨rfl, BEq.rfl⟩ (by decide)

theorem text_meets {s : String} (isMember : Ty.string.instanceMember? table name = some m) :
    (ofOwnMember .string name (string s)).Meets EvalError.IsOther (·.IsTyped table m.type) := by
  obtain ⟨isDeclared, isInstance, rfl⟩ := Ty.instanceMember?_mem isMember
  obtain rfl | isOther := List.mem_cons.mp isDeclared
  · exact count_meets _ _
  · obtain rfl := List.mem_singleton.mp isOther
    cases isInstance

/-- A member of a value without items and parts. -/
theorem plain_meets (notNull : v.isNull = false) (noItems : v.isArray = false)
    (noParts : v.isObject = false) (kind : (v.naturalType == type) = true)
    (isMember : type.instanceMember? table name = some m) :
    (v.ofOwnMember type name).Meets EvalError.IsOther (·.IsTyped table m.type) := by
  -- The other kinds of values have no instance members.
  have bare (noInstance : ∀ m ∈ type.members table, m.isStatic = true) :
      (v.ofOwnMember type name).Meets EvalError.IsOther (·.IsTyped table m.type) := by
    obtain ⟨isDeclared, isInstance, -⟩ := Ty.instanceMember?_mem isMember
    rw [noInstance m isDeclared] at isInstance
    cases isInstance
  cases v with
  | null => cases notNull
  | array => cases noItems
  | object => cases noParts
  | string s =>
      obtain rfl := Ty.eq_atom_of_beq kind
      exact text_meets isMember
  | dateTime moment =>
      obtain rfl := Ty.eq_atom_of_beq kind
      exact ofDateTimeMember_meets isMember
  | timeSpan span =>
      obtain rfl := Ty.eq_atom_of_beq kind
      exact ofTimeSpanMember_meets isMember
  | integral n =>
      obtain rfl := Ty.eq_atom_of_beq kind
      refine bare ?_
      simp only [Ty.members]
      split
      next => simp [Member.constant]
      next => exact nofun
  | enum e n =>
      refine bare ?_
      cases type with
      | enum => exact nofun
      | _ => cases kind
  | _ =>
      obtain rfl := Ty.eq_atom_of_beq kind
      exact bare nofun

theorem boolean_isTyped (b : Bool) : (boolean b).IsTyped table .boolean :=
  HasKind.isTyped ⟨rfl, BEq.rfl⟩ (by decide)

theorem string_isTyped (s : String) : (string s).IsTyped table .string :=
  HasKind.isTyped ⟨rfl, BEq.rfl⟩ (by decide)

/-- A member of an array is a count. -/
theorem array_meets {items : List Value}
    (counts : ∀ name m, type.instanceMember? table name = some m →
      (name = "Length" ∨ name = "Count") → m.type = .int32 ∨ m.type = .object)
    (isMember : type.instanceMember? table name = some m) :
    ((array items).ofOwnMember type name).Meets EvalError.IsOther (·.IsTyped table m.type) := by
  simp only [ofOwnMember]
  split
  next isCount =>
    simp only [Bool.or_eq_true, decide_eq_true_eq] at isCount
    have isTyped : (count name items.length).Meets EvalError.IsOther (·.IsTyped table .int32) :=
      count_meets name _
    refine isTyped.imp fun v typed => ?_
    obtain isInteger | isObject := counts name m isMember isCount
    · rwa [isInteger]
    · have notNull : v.isNull = false := Bool.eq_false_iff.mpr fun isNull => by
        cases typed.admitsNull isNull
      rw [isObject]
      exact .top notNull rfl
  next => exact fun _ => nofun

/-- An instance member of a value other than null does not fail for null and is a value of its
declared type. -/
theorem IsTyped.ofMember_meets (typed : v.IsTyped table type) (notNull : v.isNull = false)
    (isMember : type.instanceMember? table name = some m) :
    (v.ofMember type name).Meets EvalError.IsOther (·.IsTyped table m.type) := by
  cases isNullable : type.isNullable with
  | true =>
      cases type with
      | nullable inner =>
          obtain ⟨isDeclared, -, rfl⟩ := Ty.instanceMember?_mem isMember
          obtain rfl | isValue := List.mem_cons.mp isDeclared
          · exact boolean_isTyped _
          · obtain rfl := List.mem_singleton.mp isValue
            have isOk : v.ofMember (.nullable inner) "Value" = .ok v := by
              simp [ofMember, Ty.isNullable, notNull]
            rw [show (Member.property "Value" inner).name = "Value" from rfl, isOk]
            exact typed.of_nullable notNull
      | _ => cases isNullable
  | false =>
      have own : v.ofMember type name = v.ofOwnMember type name := by
        simp [ofMember, isNullable]
      have core_eq := Ty.core_eq_self isNullable
      rw [own]
      cases typed with
      | null => cases notNull
      | top _ isTop =>
          obtain rfl : type = .object := core_eq.symm.trans isTop
          cases (Ty.instanceMember?_mem isMember).1
      | plain _ noItems noParts kind =>
          exact plain_meets notNull noItems noParts (core_eq ▸ kind) isMember
      | array _ _ counts => exact array_meets (core_eq ▸ counts) isMember
      | object _ each => exact each name m (core_eq.symm ▸ isMember)

theorem IsTyped.eq_string (typed : v.IsTyped table .string) (notNull : v.isNull = false) :
    ∃ s, v = .string s := by
  cases typed with
  | null => cases notNull
  | top _ isTop => cases isTop
  | plain _ noItems _ kind =>
      cases v with
      | string s => exact ⟨s, rfl⟩
      | array => cases noItems
      | _ => cases kind
  | array isItem => cases isItem
  | object isObject => cases isObject

/-- A built-in method without arguments yields a text of a value other than null. -/
theorem IsTyped.callMethod_eq {method : Method} (typed : v.IsTyped table type)
    (notNull : v.isNull = false)
    (builtIn : method = .toText ∨ type = .string ∧ method ∈ Method.ofString)
    (noParams : method.params = []) :
    method.result = some .string ∧ ∃ s, callMethod method (some v) [] = .ok (.string s) := by
  obtain rfl | ⟨rfl, isText⟩ := builtIn
  · refine ⟨rfl, v.text, ?_⟩
    cases v with
    | null => cases notNull
    | _ => rfl
  · obtain ⟨s, rfl⟩ := typed.eq_string notNull
    simp only [Method.ofString, List.mem_cons, List.not_mem_nil, or_false] at isText
    rcases isText with rfl | rfl | rfl | rfl | rfl | rfl | rfl | rfl | rfl | rfl | rfl | rfl | rfl |
      rfl | rfl
    -- Only the methods for upper and lower case and for trimming take no arguments.
    all_goals first
      | exact ⟨rfl, _, rfl⟩
      | cases noParams

end Value

end QueryTree
