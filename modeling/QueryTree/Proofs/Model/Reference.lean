import QueryTree.Proofs.Model.TypeName

/-!
# References to declared types

A declared type can be named in a schema if and only if its name reads as it stands: nothing is
trimmed or taken off it, and no primitive type has it.  A name that does not is never a reference to
what is declared under it, wherever in the schema it is written.
-/

namespace QueryTree

/-! ## Texts without blanks at their ends -/

namespace Text

variable {cs : List Char}

theorem trimStart_eq_self_iff : trimStart cs = cs ↔ ∀ c ∈ cs.head?, isBlank c = false := by
  cases cs with
  | nil => simp [trimStart]
  | cons c cs => simp [trimStart, List.dropWhile_eq_self_iff]

theorem rdropWhile_isBlank_eq_self_iff :
    cs.rdropWhile isBlank = cs ↔ ∀ c ∈ cs.getLast?, isBlank c = false := by
  rw [List.rdropWhile_eq_self_iff]
  obtain rfl | ⟨front, c, rfl⟩ := cs.eq_nil_or_concat <;> simp

/-- Nothing is trimmed off a text if and only if it neither begins nor ends with a blank. -/
theorem trimChars_eq_self_iff : trimChars cs = cs ↔
    (∀ c ∈ cs.head?, isBlank c = false) ∧ ∀ c ∈ cs.getLast?, isBlank c = false := by
  rw [← trimStart_eq_self_iff, ← rdropWhile_isBlank_eq_self_iff]
  constructor
  · intro trimmed
    have initial : trimChars cs <+: trimStart cs := List.rdropWhile_prefix isBlank (trimStart cs)
    have final : trimStart cs <:+ cs := List.dropWhile_suffix isBlank
    have same : trimStart cs = cs := by
      refine final.eq_of_length (Nat.le_antisymm final.length_le ?_)
      simpa only [trimmed] using initial.length_le
    rw [trimChars, same] at trimmed
    exact ⟨same, trimmed⟩
  · rintro ⟨start, last⟩
    rw [trimChars, start]
    exact last

end Text

open Text (isBlank trimChars)

/-! ## Names that can be written -/

namespace NamedTypes

/-- A name that reads as it stands: it has no blanks at its ends, no mark for null or for arrays at
its end and no angle bracket in it, and it is not the name of a primitive type. -/
structure Nameable (name : String) : Prop where
  noBlankFirst : ∀ c ∈ name.toList.head?, isBlank c = false
  noBlankLast : ∀ c ∈ name.toList.getLast?, isBlank c = false
  notNullable : ¬ ['?'] <:+ name.toList
  notArray : ¬ ['[', ']'] <:+ name.toList
  notGeneric : '<' ∉ name.toList
  notPrimitive : name ∉ atoms.map (·.1)

variable {types : NamedTypes} {name text : String} {type : Ty} {cs : List Char} {fuel : Nat}

theorem before?_eq_none_iff {suffix : List Char} :
    before? suffix cs = none ↔ ¬ suffix <:+ cs := by
  simp [before?]

theorem splitArguments?_eq_none_iff : splitArguments? cs = none ↔ '<' ∉ cs := by
  refine ⟨fun missing member => ?_, splitArguments?_eq_none⟩
  obtain ⟨front, rest, same, first⟩ := List.eq_append_cons_of_mem member
  rw [same, splitArguments?_append first] at missing
  cases missing

theorem isName_iff : IsName name.toList ↔
    ((∀ c ∈ name.toList.head?, isBlank c = false) ∧
      ∀ c ∈ name.toList.getLast?, isBlank c = false) ∧
      ¬ ['?'] <:+ name.toList ∧ ¬ ['[', ']'] <:+ name.toList ∧ '<' ∉ name.toList := by
  rw [← Text.trimChars_eq_self_iff, ← before?_eq_none_iff, ← before?_eq_none_iff,
    ← splitArguments?_eq_none_iff]
  constructor
  · rintro ⟨trimmed, notNullable, notArray, notGeneric⟩
    exact ⟨trimmed, notNullable, notArray, notGeneric⟩
  · rintro ⟨trimmed, notNullable, notArray, notGeneric⟩
    exact ⟨trimmed, notNullable, notArray, notGeneric⟩

theorem Nameable.of_isName (isName : IsName name.toList) (notPrimitive : name ∉ atoms.map (·.1)) :
    Nameable name :=
  have parts := isName_iff.mp isName
  ⟨parts.1.1, parts.1.2, parts.2.1, parts.2.2.1, parts.2.2.2, notPrimitive⟩

/-- A plain name is read for a type without parts only where the text is that name as it stands. -/
theorem readFrom_eq_plain (plain : type.isPlain = true)
    (ok : readFrom types (fuel + 1) cs = .ok type) :
    before? ['?'] (trimChars cs) = none ∧ before? ['[', ']'] (trimChars cs) = none ∧
      splitArguments? (trimChars cs) = none ∧
      types.named (String.ofList (trimChars cs)) = .ok type := by
  cases typeText ok with
  | nullable | array | list | sequence => cases plain
  | name notNullable notArray notGeneric isNamed =>
      exact ⟨notNullable, notArray, notGeneric, isNamed⟩

/-- Among types that are declared under their own texts, a type is read from its name if and only if
the name can be written. -/
theorem read_eq_ok_iff (names : (types.map (·.1)).Nodup)
    (declared : ∀ name type, (name, type) ∈ types →
      type.isPlain = true ∧ type.display = name ∧ ∀ a, type ≠ .atom a)
    (member : (name, type) ∈ types) : types.read name = .ok type ↔ Nameable name := by
  obtain ⟨plain, displayed, noAtom⟩ := declared name type member
  constructor
  · intro ok
    obtain ⟨notNullable, notArray, notGeneric, isNamed⟩ := readFrom_eq_plain plain ok
    obtain atomic | ⟨notPrimitive, known⟩ := named_eq_ok.mp isNamed
    · obtain ⟨a, -, isAtom⟩ := exists_atom_of_mem_atoms (mem_of_lookup atomic)
      exact absurd isAtom (noAtom a)
    · obtain ⟨-, same, -⟩ := declared _ _ (mem_of_lookup known)
      have whole : String.ofList (trimChars name.toList) = name := same.symm.trans displayed
      have trimmed : trimChars name.toList = name.toList := by
        rw [← String.toList_ofList (l := trimChars name.toList), whole]
      rw [trimmed] at notNullable notArray notGeneric
      rw [whole] at notPrimitive
      exact .of_isName ⟨trimmed, notNullable, notArray, notGeneric⟩
        (lookup_eq_none_iff.mp notPrimitive)
  · rintro ⟨noBlankFirst, noBlankLast, notNullable, notArray, notGeneric, notPrimitive⟩
    have isName := isName_iff.mpr
      ⟨⟨noBlankFirst, noBlankLast⟩, notNullable, notArray, notGeneric⟩
    rw [read, readFrom_name isName, String.ofList_toList, named,
      lookup_eq_none_iff.mpr notPrimitive, lookup_of_mem names member]
    rfl

end NamedTypes

/-! ## What definitions declare -/

namespace Schema.TypeDef

/-- The name of the type that is declared. -/
def name : TypeDef → String
  | .cls _ d => d.name
  | .enum d => d.name

/-- A definition declares a class of its name or the enumeration that it describes. -/
inductive Declares : TypeDef → Ty → Prop
  | cls {d : ClassDef} (c : ClassRef) (named : c.name = d.name)
      (qualified : c.qualifier = d.qualifier) : Declares (.cls c.isValue d) (.cls c)
  | enum {d : EnumDef} {e : EnumType} (described : Declarations.enumOf d = .ok (.enum e)) :
      Declares (.enum d) (.enum e)

end Schema.TypeDef

namespace Declarations

variable {d entered : Declarations}

theorem declare_eq_ok {definition : Schema.TypeDef} (ok : d.declare definition = .ok entered) :
    ∃ type, definition.Declares type ∧ entered.types = (definition.name, type) :: d.types := by
  cases definition with
  | cls isValue definition =>
      obtain ⟨entered', ok, built⟩ := bind_eq_ok_iff.mp ok
      obtain ⟨-, rfl⟩ := enter_eq_ok ok
      cases built
      exact ⟨_, .cls ⟨_, _, isValue, _⟩ rfl rfl, rfl⟩
  | enum definition =>
      obtain ⟨type, described, ok⟩ := bind_eq_ok_iff.mp ok
      obtain ⟨-, rfl⟩ := enter_eq_ok ok
      obtain ⟨e, rfl, -⟩ := enumOf_eq_ok described
      exact ⟨_, .enum described, rfl⟩

/-- All definitions are entered, and what has been entered stays. -/
theorem declareAll_eq_ok {types : List Schema.TypeDef}
    (ok : types.foldlM Declarations.declare d = .ok entered) :
    d.types ⊆ entered.types ∧ ∀ definition ∈ types, ∃ type,
      definition.Declares type ∧ (definition.name, type) ∈ entered.types := by
  induction types generalizing d with
  | nil =>
      obtain rfl := pure_eq_ok_iff.mp ok
      exact ⟨List.Subset.refl _, List.forall_mem_nil _⟩
  | cons first types ih =>
      rw [List.foldlM_cons] at ok
      obtain ⟨next, one, others⟩ := bind_eq_ok_iff.mp ok
      obtain ⟨type, declares, same⟩ := declare_eq_ok one
      obtain ⟨kept, later⟩ := ih others
      rw [same] at kept
      refine ⟨fun entry member => kept (.tail _ member), List.forall_mem_cons.mpr ⟨?_, later⟩⟩
      exact ⟨type, declares, kept (.head _)⟩

end Declarations

/-! ## Places where a type is named -/

/-- A method of which each type stands where its definition has a text that refers to it. -/
structure Method.StandsFor (refers : String → Ty → Prop) (d : Schema.MethodDef) (m : Method) :
    Prop where
  params : List.Forall₂ refers d.params m.params
  result : Option.Rel refers d.returns m.result

/-- A class body of which each type stands where the definition has a text that refers to it. -/
structure ClassBody.StandsFor (refers : String → Ty → Prop) (d : Schema.ClassDef)
    (body : ClassBody) : Prop where
  base : Option.Rel refers d.base body.base
  members : List.Forall₂ (fun p m => m.name = p.name ∧ refers p.type m.type)
    d.properties body.members
  methods : List.Forall₂ (Method.StandsFor refers) d.methods body.methods
  constructors : List.Forall₂ (List.Forall₂ refers) d.constructors body.constructors
  indexers : List.Forall₂ (fun i j => List.Forall₂ refers i.params j.params ∧
    refers i.returns j.type) d.indexers body.indexers
  operators : List.Forall₂ (Method.StandsFor refers) d.operators body.operators
  element : Option.Rel refers d.element body.element

/-- A model of which each type stands where the schema has a text that refers to it. -/
structure Model.StandsFor (refers : String → Ty → Prop) (schema : Schema) (model : Model) :
    Prop where
  it : Option.Rel refers schema.it model.it
  classes : ∀ d ∈ schema.classes, ∃ c, (d.name, .cls c) ∈ model.types ∧
    (model.classes.body c).StandsFor refers d

section Places

variable {refers other : String → Ty → Prop} {types : NamedTypes}

theorem rel_imp (implies : ∀ text type, refers text type → other text type) {text? : Option String}
    {type? : Option Ty} (rel : Option.Rel refers text? type?) : Option.Rel other text? type? := by
  cases rel with
  | some one => exact .some (implies _ _ one)
  | none => exact .none

theorem Method.StandsFor.imp (implies : ∀ text type, refers text type → other text type)
    {d : Schema.MethodDef} {m : Method} (stands : m.StandsFor refers d) : m.StandsFor other d :=
  ⟨stands.params.imp implies, rel_imp implies stands.result⟩

theorem ClassBody.StandsFor.imp (implies : ∀ text type, refers text type → other text type)
    {d : Schema.ClassDef} {body : ClassBody} (stands : body.StandsFor refers d) :
    body.StandsFor other d where
  base := rel_imp implies stands.base
  members := stands.members.imp fun _ _ one => ⟨one.1, implies _ _ one.2⟩
  methods := stands.methods.imp fun _ _ one => one.imp implies
  constructors := stands.constructors.imp fun _ _ one => one.imp implies
  indexers := stands.indexers.imp fun _ _ one => ⟨one.1.imp implies, implies _ _ one.2⟩
  operators := stands.operators.imp fun _ _ one => one.imp implies
  element := rel_imp implies stands.element

theorem Model.StandsFor.imp (implies : ∀ text type, refers text type → other text type)
    {schema : Schema} {model : Model} (stands : model.StandsFor refers schema) :
    model.StandsFor other schema where
  it := rel_imp implies stands.it
  classes d listed := by
    obtain ⟨c, isClass, body⟩ := stands.classes d listed
    exact ⟨c, isClass, body.imp implies⟩

/-- A text refers to the type that is read from it. -/
def NamedTypes.Reads (types : NamedTypes) (text : String) (type : Ty) : Prop :=
  types.read text = .ok type

theorem NamedTypes.reads_of_read? {text? : Option String} {type? : Option Ty}
    (ok : types.read? text? = .ok type?) : Option.Rel types.Reads text? type? := by
  cases text? with
  | none =>
      cases ok
      exact .none
  | some text =>
      obtain ⟨type, read, rfl⟩ := map_eq_ok_iff.mp ok
      exact .some read

namespace Declarations

theorem methodOf_standsFor {declaringType : String} {isStatic : Bool} {d : Schema.MethodDef}
    {m : Method} (ok : methodOf types declaringType isStatic d = .ok m) :
    m.StandsFor types.Reads d := by
  obtain ⟨params, areParams, ok⟩ := bind_eq_ok_iff.mp ok
  obtain ⟨result, isResult, built⟩ := bind_eq_ok_iff.mp ok
  cases built
  exact ⟨forall₂_of_mapM_eq_ok areParams, NamedTypes.reads_of_read? isResult⟩

theorem bodyOf_standsFor {d : Schema.ClassDef} {body : ClassBody}
    (ok : bodyOf types d = .ok body) : body.StandsFor types.Reads d := by
  obtain ⟨members, areMembers, ok⟩ := bind_eq_ok_iff.mp ok
  obtain ⟨methods, areMethods, ok⟩ := bind_eq_ok_iff.mp ok
  obtain ⟨operators, areOperators, ok⟩ := bind_eq_ok_iff.mp ok
  obtain ⟨constructors, areConstructors, ok⟩ := bind_eq_ok_iff.mp ok
  obtain ⟨indexers, areIndexers, ok⟩ := bind_eq_ok_iff.mp ok
  obtain ⟨base, isBase, ok⟩ := bind_eq_ok_iff.mp ok
  obtain ⟨element, isElement, built⟩ := bind_eq_ok_iff.mp ok
  cases built
  refine ⟨NamedTypes.reads_of_read? isBase, ?_, ?_, ?_, ?_, ?_,
    NamedTypes.reads_of_read? isElement⟩
  · refine (forall₂_of_mapM_eq_ok areMembers).imp fun p m ok => ?_
    obtain ⟨type, read, built⟩ := bind_eq_ok_iff.mp ok
    cases built
    exact ⟨rfl, read⟩
  · exact (forall₂_of_mapM_eq_ok areMethods).imp fun _ _ => methodOf_standsFor
  · exact (forall₂_of_mapM_eq_ok areConstructors).imp fun _ _ => forall₂_of_mapM_eq_ok
  · refine (forall₂_of_mapM_eq_ok areIndexers).imp fun i j ok => ?_
    obtain ⟨params, areParams, ok⟩ := bind_eq_ok_iff.mp ok
    obtain ⟨type, read, built⟩ := bind_eq_ok_iff.mp ok
    cases built
    exact ⟨forall₂_of_mapM_eq_ok areParams, read⟩
  · exact (forall₂_of_mapM_eq_ok areOperators).imp fun _ _ => methodOf_standsFor

end Declarations

end Places

namespace Model

variable {schema : Schema} {model : Model}

/-- Each definition of a schema has its type in the model. -/
theorem exists_declares (loaded : ofSchema schema = .ok model) :
    ∀ definition ∈ schema.types, ∃ type,
      definition.Declares type ∧ (definition.name, type) ∈ model.types := by
  obtain ⟨declared, each, rest⟩ := bind_eq_ok_iff.mp loaded
  obtain ⟨classes, -, rest⟩ := bind_eq_ok_iff.mp rest
  obtain ⟨it, -, built⟩ := bind_eq_ok_iff.mp rest
  cases built
  exact (Declarations.declareAll_eq_ok each).2

/-- Each text of a schema that refers to a type is read as the type in its place. -/
theorem standsFor_reads (loaded : ofSchema schema = .ok model) :
    model.StandsFor model.types.Reads schema := by
  obtain ⟨declared, sound, same, -, isIt, filled, -⟩ := ofSchema_eq_ok loaded
  refine ⟨NamedTypes.reads_of_read? isIt, fun d listed => ?_⟩
  rw [← sound.described] at listed
  obtain ⟨⟨c, d⟩, pending, rfl⟩ := List.mem_map.mp listed
  exact ⟨c, same ▸ sound.listed c d pending, Declarations.bodyOf_standsFor (filled c d pending)⟩

/-- A declared type is read from its name if and only if the name reads as it stands, and then
wherever the name is written in the schema the type stands for it; otherwise it does so nowhere. -/
theorem declared_named_iff (loaded : ofSchema schema = .ok model)
    {definition : Schema.TypeDef} (listed : definition ∈ schema.types) :
    ∃ type, definition.Declares type ∧ (definition.name, type) ∈ model.types ∧
      (model.types.read definition.name = .ok type ↔ NamedTypes.Nameable definition.name) ∧
      model.StandsFor (fun text named => text = definition.name →
        (named = type ↔ NamedTypes.Nameable definition.name)) schema := by
  obtain ⟨type, declares, member⟩ := exists_declares loaded definition listed
  obtain ⟨displayed, names⟩ := types_display loaded
  obtain ⟨declared, sound, same, -⟩ := ofSchema_eq_ok loaded
  have noAtom : ∀ name type, (name, type) ∈ model.types → ∀ a, type ≠ .atom a := by
    intro name type member a
    rw [same] at member
    cases sound.entries name type member with
    | enum | cls => exact Ty.noConfusion
  have reads : model.types.read definition.name = .ok type ↔
      NamedTypes.Nameable definition.name :=
    NamedTypes.read_eq_ok_iff names (fun name type member =>
      ⟨(displayed name type member).1, (displayed name type member).2,
        noAtom name type member⟩) member
  refine ⟨type, declares, member, reads, (standsFor_reads loaded).imp ?_⟩
  rintro text named read rfl
  rw [← reads, show model.types.read definition.name = .ok named from read, Except.ok.injEq]

section Example

/-- A class with a member of an enumeration that is declared behind it. -/
def boxSchema : Schema :=
  ⟨some "Box", .initial,
    [.cls false ⟨"Box", none, none, [⟨"Shade", "Color", false⟩], [], [], [], [], none⟩,
      .enum ⟨"Color", none, none, [⟨"Red", none⟩]⟩]⟩

theorem declared_named_iff_color :
    ∃ model type, ofSchema boxSchema = .ok model ∧ ("Color", type) ∈ model.types ∧
      model.types.read "Color" = .ok type ∧
      model.StandsFor (fun text named => text = "Color" → named = type) boxSchema := by
  obtain ⟨model, loaded, -⟩ := exists_ok_of_any
    (show (ofSchema boxSchema).toOption.any (fun _ => true) = true by decide +kernel)
  have listed : .enum ⟨"Color", none, none, [⟨"Red", none⟩]⟩ ∈ boxSchema.types :=
    .tail _ (.head _)
  obtain ⟨type, -, member, read, places⟩ := declared_named_iff loaded listed
  have nameable : NamedTypes.Nameable "Color" :=
    .of_isName (by decide) (by decide)
  exact ⟨model, type, loaded, member, read.mpr nameable,
    places.imp fun _ _ fits same => (fits same).mpr nameable⟩

/-- An enumeration with the name of a primitive type is declared, but its name is the primitive
type. -/
theorem int32_names_primitive :
    ∃ model e, ofSchema ⟨none, .initial, [.enum ⟨"Int32", none, none, [⟨"A", none⟩]⟩]⟩ = .ok model ∧
      ("Int32", .enum e) ∈ model.types ∧ model.types.read "Int32" = .ok .int32 :=
  ⟨⟨.initial, none, [("Int32", .enum ⟨"Int32", none, .int32, false, [("A", 0)]⟩)],
    ClassTable.initial⟩, _, rfl, .head _, rfl⟩

end Example

end Model

end QueryTree
