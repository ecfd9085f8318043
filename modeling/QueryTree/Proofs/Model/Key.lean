import QueryTree.Proofs.Model.Conformance
import QueryTree.Proofs.Projection.Member

/-!
# Members of loaded objects

An object is loaded key by key: a value has the type of the declared member that its key names
exactly, and is taken as it stands where there is none.  A member is read from the key with its
name, or else from the first one that differs from it only in the case of ASCII letters.  So its
value was converted to its own type if the key is spelled like the member, and to the type of
whatever else the key names otherwise.
-/

namespace QueryTree

/-! ## Keys -/

/-- What is found in two lists of which the items correspond. -/
theorem find?_rel {α β : Type} {related : α → β → Prop} {p : α → Bool} {q : β → Bool} {as : List α}
    {bs : List β} (agree : ∀ a b, related a b → p a = q b) (all : List.Forall₂ related as bs) :
    Option.Rel related (as.find? p) (bs.find? q) := by
  induction all with
  | nil => exact .none
  | @cons a b as bs first _ ih =>
      rw [List.find?_cons, List.find?_cons, agree a b first]
      cases q b with
      | true => exact .some first
      | false => exact ih

theorem orElse_rel {α β : Type} {related : α → β → Prop} {a a' : Option α} {b b' : Option β}
    (first : Option.Rel related a b) (second : Option.Rel related a' b') :
    Option.Rel related (a <|> a') (b <|> b') := by
  cases first with
  | some one => exact .some one
  | none => exact second

namespace Json

/-- The member of an object from which a declared member is read: the one with its name, or else
the first one with its name but for the case of ASCII letters. -/
def keyed? (members : List (String × Json)) (name : String) : Option (String × Json) :=
  (members.find? fun member => member.1 == name) <|>
    members.find? fun member => Text.sameIgnoringAsciiCase member.1 name

theorem mem_of_keyed? {members : List (String × Json)} {name : String} {member : String × Json}
    (isKeyed : keyed? members name = some member) : member ∈ members := by
  rw [keyed?, Option.orElse_eq_orElse, Option.orElse_eq_or] at isKeyed
  obtain found | ⟨-, found⟩ := Option.or_eq_some_iff.mp isKeyed <;>
    exact List.mem_of_find?_eq_some found

end Json

namespace Value

variable {table : ClassTable} {declared : List Member} {members : List (String × Json)}
  {values : List (String × Value)} {name : String}

/-- Each value of an object is read from the member in its place, by the key of that member. -/
theorem ofJsonMembers_forall₂ (ok : ofJsonMembers table declared members = .ok values) :
    List.Forall₂ (fun member value => value.1 = member.1 ∧
      ofJson table (memberType declared member.1) member.2 = .ok value.2) members values := by
  induction members generalizing values with
  | nil =>
      cases ok
      exact .nil
  | cons first rest ih =>
      obtain ⟨value, read, ok⟩ := bind_eq_ok_iff.mp ok
      obtain ⟨others, isRest, built⟩ := bind_eq_ok_iff.mp ok
      cases built
      exact .cons ⟨rfl, read⟩ (ih isRest)

theorem memberNamed_eq : memberNamed name values =
    (((values.find? fun value => value.1 == name) <|>
      values.find? fun value => Text.sameIgnoringAsciiCase value.1 name).map (·.2)).getD null := by
  have found : values.lookup name = (values.find? fun value => value.1 == name).map (·.2) := by
    induction values with
    | nil => rfl
    | cons first rest ih =>
        obtain ⟨key, value⟩ := first
        rw [List.lookup_cons, List.find?_cons, ih, BEq.comm]
        cases key == name <;> rfl
  rw [memberNamed, found]
  cases values.find? fun value => value.1 == name <;> rfl

/-- A member is read from its key in the object, or is null where there is none. -/
theorem memberNamed_ofJsonMembers (ok : ofJsonMembers table declared members = .ok values) :
    (Json.keyed? members name = none → memberNamed name values = null) ∧
      ∀ key item, Json.keyed? members name = some (key, item) →
        ofJson table (memberType declared key) item = .ok (memberNamed name values) := by
  have all := ofJsonMembers_forall₂ ok
  have chosen := orElse_rel
    (find?_rel (p := fun member => member.1 == name) (q := fun value => value.1 == name)
      (fun _ _ same => by rw [same.1]) all)
    (find?_rel (p := fun member => Text.sameIgnoringAsciiCase member.1 name)
      (q := fun value => Text.sameIgnoringAsciiCase value.1 name)
      (fun _ _ same => by rw [same.1]) all)
  rw [memberNamed_eq]
  change Option.Rel _ (Json.keyed? members name) _ at chosen
  generalize Json.keyed? members name = member? at chosen ⊢
  generalize (_ <|> _ : Option (String × Value)) = value? at chosen ⊢
  cases chosen with
  | none => exact ⟨fun _ => rfl, fun key item isKeyed => by cases isKeyed⟩
  | some same =>
      refine ⟨fun isNone => (by cases isNone), fun key item isKeyed => ?_⟩
      cases isKeyed
      exact same.2

/-- Which member a key stands for when another member is read from it, and the type that its value
was converted to. -/
inductive KeyStandsFor (declared : List Member) (members : List (String × Json)) (m : Member) :
    String → Ty → Prop where
  | own : KeyStandsFor declared members m m.name m.type
  /-- The key is that of a member with the same name but for case. -/
  | other {other : Member} (absent : ∀ member ∈ members, member.1 ≠ m.name)
      (alike : Text.sameIgnoringAsciiCase other.name m.name = true) (isMember : other ∈ declared)
      (isInstance : other.isStatic = false) : KeyStandsFor declared members m other.name other.type
  /-- No member has the key for a name. -/
  | extra {key : String} (absent : ∀ member ∈ members, member.1 ≠ m.name)
      (alike : Text.sameIgnoringAsciiCase key m.name = true)
      (undeclared : ∀ other ∈ declared, other.isStatic = false → other.name ≠ key) :
      KeyStandsFor declared members m key .object

/-- A member that a written name selects has its own type under its own name. -/
theorem memberType_of_selected {options : Options} {written : String} {m : Member}
    (selected : declared.find? (fun m => m.isStatic == false && options.sameName m.name written) =
      some m) : memberType declared m.name = m.type := by
  obtain ⟨fits, before, after, rfl, unfit⟩ := List.find?_eq_some_iff_append.mp selected
  simp only [Bool.and_eq_true, beq_iff_eq] at fits
  obtain ⟨isInstance, same⟩ := fits
  have found : (before ++ m :: after).find? (fun other => !other.isStatic && other.name == m.name) =
      some m := by
    refine List.find?_eq_some_iff_append.mpr ⟨?_, before, after, rfl, fun other isBefore => ?_⟩
    · simp [isInstance]
    · have differs := unfit other isBefore
      by_contra namesake
      simp only [Bool.not_eq_true', Bool.not_eq_false, Bool.and_eq_true, beq_iff_eq] at namesake
      simp [namesake.1, namesake.2, same] at differs
  rw [memberType, found]

theorem keyStandsFor_of_keyed? {options : Options} {written key : String} {m : Member} {item : Json}
    (selected : declared.find? (fun m => m.isStatic == false && options.sameName m.name written) =
      some m) (isKeyed : Json.keyed? members m.name = some (key, item)) :
    KeyStandsFor declared members m key (memberType declared key) := by
  rw [Json.keyed?, Option.orElse_eq_orElse, Option.orElse_eq_or] at isKeyed
  obtain found | ⟨missing, found⟩ := Option.or_eq_some_iff.mp isKeyed
  · obtain rfl : key = m.name := by simpa using List.find?_some found
    rw [memberType_of_selected selected]
    exact .own
  · have absent : ∀ member ∈ members, member.1 ≠ m.name := by simpa using missing
    have alike : Text.sameIgnoringAsciiCase key m.name = true := by
      simpa using List.find?_some found
    unfold memberType
    split
    next other isOther =>
      have fits := List.find?_some isOther
      simp only [Bool.and_eq_true, Bool.not_eq_true', beq_iff_eq] at fits
      obtain ⟨isInstance, rfl⟩ := fits
      exact .other absent alike (List.mem_of_find?_eq_some isOther) isInstance
    next undeclared =>
      refine .extra absent alike fun other isMember isInstance => ?_
      simpa [isInstance] using List.find?_eq_none.mp undeclared other isMember

end Value

namespace CompileContext

variable {ctx : CompileContext} {schema : String} {model : Model} {c : ClassRef} {json : Json}
  {members : List (String × Json)} {value : Value} {it : Expr} {values : EvalContext}
  {written : String} {m : Member}

/-- A declared member of a loaded object is null where no key has its name, not even but for case.
Otherwise its value was converted to the type of whatever the key stands for, which is the member's
own type where the key is spelled like the member, and it is of that type if and only if the
document has its shape. -/
theorem loaded_member (loaded : Model.ofText schema = .ok model)
    (classes : ctx.env.classes = model.classes) (document : json.normalize = .object members)
    (read : Value.ofJson model.classes (.cls c) (.object members) = .ok value)
    (isClass : it.type = .cls c) (evaluates : it.evaluate values = .ok value)
    (selected : ((Ty.cls c).members model.classes).find? (fun m =>
      m.isStatic == false && ctx.env.options.sameName m.name written) = some m) :
    (∀ position, ctx.namedMember (.value it) written position =
      .ok (.member m.type it m.name)) ∧
    ∃ v, (Expr.member m.type it m.name).evaluate values = .ok v ∧
      (Json.keyed? members m.name = none → v = .null) ∧
      ∀ key item, Json.keyed? members m.name = some (key, item) → ∃ type,
        Value.KeyStandsFor ((Ty.cls c).members model.classes) members m key type ∧
          Value.ofJson model.classes type item = .ok v ∧
          (v.isOf model.classes type = true ↔ item.hasShape model.classes type = true) := by
  obtain ⟨-, table_written, -⟩ := Model.ofText_isWritten loaded
  obtain ⟨held, areHeld, rfl⟩ := map_eq_ok_iff.mp read
  have normal : (Json.object members).IsNormal := document ▸ json.normalize_isNormal
  have member_value : (Expr.member m.type it m.name).evaluate values =
      .ok (Value.memberNamed m.name held) := by
    rw [Value.ofMembers,
      Named.sort_eq_self (Value.ofJsonMembers_isSorted normal.1 areHeld)] at evaluates
    rw [Expr.evaluate, evaluates, isClass]
    rfl
  obtain ⟨absent, converted⟩ := @Value.memberNamed_ofJsonMembers _ _ _ _ m.name areHeld
  refine ⟨fun position => ?_, _, member_value, absent, fun key item isKeyed => ?_⟩
  · have declared : ctx.declaredMember? (.value it) written =
        some (.member m.type it m.name) := by
      rw [declaredMember?_value, isClass, classes, selected]
      rfl
    have noBag : (Ty.cls c == .dynamic) = false := rfl
    simp [namedMember, enumMember?, Receiver.value?, isClass, noBag, declared, Option.filter]
  · refine ⟨_, Value.keyStandsFor_of_keyed? selected isKeyed, converted key item isKeyed, ?_⟩
    have isMember : (key, item) ∈ members := Json.mem_of_keyed? isKeyed
    have item_normal := Json.membersNormal_iff.mp normal.2 _ isMember
    have written : ∀ m ∈ (Ty.cls c).members model.classes, m.type.isWritten = true :=
      Ty.members_isWritten table_written rfl rfl
    rw [Value.ofJson_isOf table_written item _ _ (Value.memberType_isWritten written) item_normal
      (converted key item isKeyed)]

section Example

open Request (personSchema personJson)

/-- The class of persons, who have an age. -/
def person : ClassRef := ⟨"Person", none, false, 1⟩

theorem loaded_member_person : ∃ (model : Model) (ctx : CompileContext) (value : Value)
    (m : Member) (v : Value) (type : Ty), Model.ofText personSchema = .ok model ∧
      ctx.env.classes = model.classes ∧
      personJson.normalize = .object [("Age", .string "41")] ∧
      Value.ofJson model.classes (.cls person) (.object [("Age", .string "41")]) = .ok value ∧
      ((Ty.cls person).members model.classes).find? (fun m =>
        m.isStatic == false && ctx.env.options.sameName m.name "age") = some m ∧
      (Expr.member m.type (.constant (.cls person) value none) m.name).evaluate
        (.initial .minValue) = .ok v ∧
      Value.KeyStandsFor ((Ty.cls person).members model.classes) [("Age", .string "41")] m "Age"
        type ∧
      Value.ofJson model.classes type (.string "41") = .ok v := by
  obtain ⟨model, loaded, checks⟩ := exists_ok_of_any
    (show (Model.ofText personSchema).toOption.any (fun model =>
      (Value.ofJson model.classes (.cls person) (.object [("Age", .string "41")])).toOption.any
        (fun _ => true) && (((Ty.cls person).members model.classes).find? fun m =>
          m.isStatic == false && Options.initial.sameName m.name "age").any (·.name == "Age")) =
            true by decide +kernel)
  obtain ⟨isRead, isSelected⟩ := (Bool.and_eq_true _ _).mp checks
  obtain ⟨value, read, -⟩ := exists_ok_of_any isRead
  obtain ⟨m, selected, named⟩ := Option.any_eq_true _ _ |>.mp isSelected
  let ctx : CompileContext := ⟨.of .initial .empty model.classes, [], []⟩
  have document : personJson.normalize = .object [("Age", .string "41")] := rfl
  obtain ⟨-, v, evaluates, -, converted⟩ := @loaded_member ctx _ _ person _ _ _
    (.constant (.cls person) value none) (.initial .minValue) "age" m loaded rfl document read rfl
    rfl selected
  have isKeyed : Json.keyed? [("Age", .string "41")] m.name = some ("Age", .string "41") := by
    rw [beq_iff_eq.mp named]
    rfl
  obtain ⟨type, standsFor, isItem, -⟩ := converted _ _ isKeyed
  exact ⟨model, ctx, value, m, v, type, loaded, rfl, document, read, selected, evaluates,
    standsFor, isItem⟩

/-- The value of a key in lower case is no integer where the member is one. -/
theorem lower_key_unconverted : ∃ model value, Model.ofText personSchema = .ok model ∧
    Value.ofJson model.classes (.cls person) (.object [("age", .string "41")]) = .ok value ∧
    (Expr.member .int32 (.constant (.cls person) value none) "Age").evaluate
      (.initial .minValue) = .ok (.string "41") ∧
    Value.isOf model.classes .int32 (.string "41") = false := by
  obtain ⟨model, loaded, isRead⟩ := exists_ok_of_any
    (show (Model.ofText personSchema).toOption.any (fun model =>
      (Value.ofJson model.classes (.cls person) (.object [("age", .string "41")])).toOption.any
        fun value => (value.ofMember (.cls person) "Age").toOption.any fun v =>
          v.string? == some "41") = true by decide +kernel)
  obtain ⟨value, read, isMember⟩ := exists_ok_of_any isRead
  obtain ⟨v, evaluates, isText⟩ := exists_ok_of_any isMember
  obtain ⟨text, rfl⟩ : ∃ text, v = .string text := by
    cases v with
    | string text => exact ⟨text, rfl⟩
    | _ => cases isText
  obtain rfl : text = "41" := by simpa [Value.string?] using isText
  refine ⟨model, value, loaded, read, ?_, ?_⟩
  · rw [Expr.evaluate, Expr.evaluate]
    exact evaluates
  · rw [Value.isOf]
    · rfl
    all_goals simp

end Example

end CompileContext

end QueryTree
