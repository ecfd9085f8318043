import QueryTree.Proofs.Model.Loading
import QueryTree.Proofs.Type.Hierarchy

/-!
# Base types of loaded models

The loader does not look for cycles of base types.  The walk from a declared class to its base types
ends exactly where the definitions of the schema that it meets form no cycle.
-/

namespace QueryTree

section Simulation

variable {α β : Type} {r : α → α → Prop} {s : β → β → Prop}

/-- What one relation can do, another one can do from a related place. -/
theorem exists_transGen_of_simulates {related : α → β → Prop}
    (simulates : ∀ a a' b, related a b → r a a' → ∃ b', related a' b' ∧ s b b')
    {a a' : α} {b : β} (start : related a b) (reaches : Relation.TransGen r a a') :
    ∃ b', related a' b' ∧ Relation.TransGen s b b' := by
  induction reaches with
  | single one =>
      obtain ⟨b', same, other⟩ := simulates _ _ _ start one
      exact ⟨b', same, .single other⟩
  | tail _ one ih =>
      obtain ⟨b', same, others⟩ := ih
      obtain ⟨b'', last, other⟩ := simulates _ _ _ same one
      exact ⟨b'', last, .tail others other⟩

theorem AcyclicFrom.of_simulates (related : α → β → Prop)
    (simulates : ∀ a a' b, related a b → r a a' → ∃ b', related a' b' ∧ s b b')
    (unique : ∀ a b b', related a b → related a b' → b = b')
    {a : α} {b : β} (start : related a b) (acyclic : AcyclicFrom s b) : AcyclicFrom r a := by
  intro a' reaches again
  obtain ⟨b', same, reached⟩ : ∃ b', related a' b' ∧ Relation.ReflTransGen s b b' := by
    obtain rfl | reaches := Relation.reflTransGen_iff_eq_or_transGen.mp reaches
    · exact ⟨b, start, .refl⟩
    · obtain ⟨b', same, reached⟩ := exists_transGen_of_simulates simulates start reaches
      exact ⟨b', same, reached.to_reflTransGen⟩
  -- the cycle ends where it has begun, since only one place is related to its start
  obtain ⟨b'', last, returned⟩ := exists_transGen_of_simulates simulates same again
  obtain rfl := unique a' b' b'' same last
  exact acyclic b' reached returned

end Simulation

namespace Schema

/-- A definition names the class of another one as its base. -/
def Extends (schema : Schema) (types : NamedTypes) (d b : ClassDef) : Prop :=
  b ∈ schema.classes ∧
    ∃ text c, d.base = some text ∧ types.read text = .ok (.cls c) ∧ c.name = b.name

end Schema

namespace Declarations

variable {schema : Schema} {declared : Declarations} {table : ClassTable}
  {c b : ClassRef} {d e : Schema.ClassDef}

/-- The bodies of all classes are read. -/
def FilledBy (declared : Declarations) (table : ClassTable) : Prop :=
  ∀ c d, (c, d) ∈ declared.pending → bodyOf declared.types d = .ok (table.body c)

theorem Sound.definition_unique (sound : declared.Sound schema.classes)
    (one : (c, d) ∈ declared.pending) (other : (c, e) ∈ declared.pending) : d = e :=
  (Prod.mk.inj (List.inj_on_of_nodup_map sound.places one other rfl)).2

theorem Sound.class_unique (sound : declared.Sound schema.classes)
    (one : (c, d) ∈ declared.pending) (other : (b, e) ∈ declared.pending)
    (same : d.name = e.name) : c = b := by
  have types := List.inj_on_of_nodup_map sound.names (sound.listed c d one)
    (sound.listed b e other) same
  exact Ty.cls.inj (Prod.mk.inj types).2

theorem Sound.named (sound : declared.Sound schema.classes) {name : String}
    (isType : (name, .cls c) ∈ declared.types) :
    name = c.name ∧ ∃ d, (c, d) ∈ declared.pending ∧ d.name = c.name := by
  cases sound.entries _ _ isType with
  | cls _ d known named => exact ⟨rfl, d, known, named⟩

theorem Sound.extends_definition (sound : declared.Sound schema.classes)
    (filled : declared.FilledBy table) (known : (c, d) ∈ declared.pending)
    (base : table.Extends c b) :
    ∃ e, (b, e) ∈ declared.pending ∧ schema.Extends declared.types d e := by
  have isBase := bodyOf_base (filled c d known)
  rw [show (table.body c).base = some (.cls b) from base] at isBase
  cases named : d.base with
  | none => simp [NamedTypes.read?, named] at isBase
  | some text =>
      simp only [NamedTypes.read?, named, map_eq_ok_iff, Option.some.injEq, exists_eq_right]
        at isBase
      obtain ⟨name, isType⟩ := NamedTypes.read_eq_cls isBase
      obtain ⟨-, e, pending, same⟩ := sound.named isType
      have listed : e ∈ schema.classes := by
        rw [← sound.described]
        exact List.mem_map_of_mem pending
      exact ⟨e, pending, listed, text, b, named, isBase, same.symm⟩

theorem Sound.extends_class (sound : declared.Sound schema.classes)
    (filled : declared.FilledBy table) (known : (c, d) ∈ declared.pending)
    (base : schema.Extends declared.types d e) :
    ∃ b, (b, e) ∈ declared.pending ∧ table.Extends c b := by
  obtain ⟨listed, text, b, named, isClass, same⟩ := base
  rw [← sound.described] at listed
  obtain ⟨⟨b', e⟩, pending, rfl⟩ := List.mem_map.mp listed
  obtain ⟨name, isType⟩ := NamedTypes.read_eq_cls isClass
  obtain ⟨-, e', pending', named'⟩ := sound.named isType
  obtain rfl := sound.class_unique pending pending' (same.symm.trans named'.symm)
  have isBase := bodyOf_base (filled c d known)
  simp only [NamedTypes.read?, named, isClass, Except.map, Except.ok.injEq] at isBase
  exact ⟨b', pending, isBase.symm⟩

/-- The classes of the table extend each other as their definitions do. -/
theorem Sound.acyclicFrom_iff (sound : declared.Sound schema.classes)
    (filled : declared.FilledBy table) (known : (c, d) ∈ declared.pending) :
    AcyclicFrom table.Extends c ↔ AcyclicFrom (schema.Extends declared.types) d := by
  constructor
  · intro acyclic
    exact .of_simulates (fun d c => (c, d) ∈ declared.pending)
      (fun d e c known base => sound.extends_class filled known base)
      (fun d c b one other => sound.class_unique one other rfl) known acyclic
  · intro acyclic
    exact .of_simulates (fun c d => (c, d) ∈ declared.pending)
      (fun c b d known base => sound.extends_definition filled known base)
      (fun c d e one other => sound.definition_unique one other) known acyclic

end Declarations

namespace Model

variable {text : String} {model : Model}

/-- Where the walk to the base types of the classes of a loaded model ends.  For the class of a
definition it does so if and only if no definition that it meets extends itself, and then the
ancestors are all of it; without such definitions no walk from any class goes on forever. -/
theorem bases_end_iff (loaded : ofText text = .ok model) :
    ∃ schema, (Json.ofText? text).bind Schema.ofJson? = some schema ∧
      (∀ d ∈ schema.classes, ∃ c, model.types.lookup d.name = some (.cls c) ∧
        ((∃ bases, model.classes.Reaches c bases) ↔
          AcyclicFrom (schema.Extends model.types) d) ∧
        ∀ bases, model.classes.Reaches c bases → model.classes.ancestors c = bases) ∧
      ((∀ d ∈ schema.classes, AcyclicFrom (schema.Extends model.types) d) →
        ∀ c, model.classes.Reaches c (model.classes.ancestors c)) := by
  obtain ⟨schema, described, built⟩ := ofText_eq_ok loaded
  obtain ⟨declared, sound, types, -, -, filled, kept⟩ := ofSchema_eq_ok built
  rw [types] at filled ⊢
  refine ⟨schema, described, fun d listed => ?_, fun acyclic c => ?_⟩
  · rw [← sound.described] at listed
    obtain ⟨⟨c, d⟩, pending, rfl⟩ := List.mem_map.mp listed
    refine ⟨c, NamedTypes.lookup_of_mem sound.names (sound.listed c d pending), ?_, ?_⟩
    · rw [← sound.acyclicFrom_iff filled pending]
      simp [ClassTable.reaches_iff]
    · intro bases walk
      exact (ClassTable.reaches_iff.mp walk).2
  · obtain ⟨b, d, pending, same⟩ | other := sound.declared_or_unread kept c
    · have listed : d ∈ schema.classes := by
        rw [← sound.described]
        exact List.mem_map_of_mem pending
      have ended := ClassTable.reaches_ancestors
        ((sound.acyclicFrom_iff filled pending).mpr (acyclic d listed))
      rwa [ClassTable.Reaches, ClassTable.body_congr same, ClassTable.ancestors_congr same]
        at ended
    · have unbased : (model.classes.body c).base = none := by
        obtain empty | isMath := other
        · rw [empty, ClassBody.empty]
        · rw [isMath, mathBody, ClassBody.empty]
      rw [ClassTable.Reaches, ClassTable.ancestors, unbased]
      exact .done

section Example

/-- A class and one that has it as its base. -/
def chainSchema : String :=
  "\x7b\"types\":[\x7b\"kind\":\"class\",\"name\":\"A\",\"base\":\"B\"\x7d,"
    ++ "\x7b\"kind\":\"class\",\"name\":\"B\"\x7d]\x7d"

/-- A class that is its own base. -/
def loopSchema : String :=
  "\x7b\"types\":[\x7b\"kind\":\"class\",\"name\":\"A\",\"base\":\"A\"\x7d]\x7d"

theorem bases_end_iff_chain :
    ∃ model, ofText chainSchema = .ok model ∧
      ∃ schema, (Json.ofText? chainSchema).bind Schema.ofJson? = some schema ∧
      (∀ d ∈ schema.classes, ∃ c, model.types.lookup d.name = some (.cls c) ∧
        ((∃ bases, model.classes.Reaches c bases) ↔
          AcyclicFrom (schema.Extends model.types) d) ∧
        ∀ bases, model.classes.Reaches c bases → model.classes.ancestors c = bases) ∧
      ((∀ d ∈ schema.classes, AcyclicFrom (schema.Extends model.types) d) →
        ∀ c, model.classes.Reaches c (model.classes.ancestors c)) := by
  obtain ⟨model, loaded, -⟩ := exists_ok_of_any
    (show (ofText chainSchema).toOption.any (fun _ => true) = true by decide +kernel)
  exact ⟨model, loaded, bases_end_iff loaded⟩

/-- The loader accepts a class that is its own base, and the walk from that class has no end. -/
theorem loopSchema_endless :
    ∃ model c, ofText loopSchema = .ok model ∧ model.types.lookup "A" = some (.cls c) ∧
      ¬ ∃ bases, model.classes.Reaches c bases := by
  let c : ClassRef := ⟨"A", none, false, 1⟩
  obtain ⟨model, loaded, facts⟩ := exists_ok_of_any
    (show (ofText loopSchema).toOption.any (fun model =>
      (model.types.lookup "A").any (·.class? == some c)
        && (model.classes.body c).base.any (·.class? == some c)) = true by decide +kernel)
  obtain ⟨isDeclared, isBase⟩ := (Bool.and_eq_true_iff ..).mp facts
  obtain ⟨type, found, isClass⟩ := (Option.any_eq_true _ _).mp isDeclared
  obtain ⟨base, declared, isSame⟩ := (Option.any_eq_true _ _).mp isBase
  obtain rfl := Ty.eq_cls_of_class? (eq_of_beq isClass)
  obtain rfl := Ty.eq_cls_of_class? (eq_of_beq isSame)
  refine ⟨model, c, loaded, found, ?_⟩
  rintro ⟨bases, walk⟩
  exact walk.acyclicFrom c .refl (.single declared)

end Example

end Model

end QueryTree
