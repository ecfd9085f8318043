import QueryTree.Proofs.Compile.Renaming
import QueryTree.Proofs.Config.Keyword
import QueryTree.Proofs.Model.Loading

/-!
# The order of declared types

The declared types of a model can be made known in any order.  The order does not count exactly
where no two of them share a folded name: the loader tells types apart by their own names only, as
they are written, while keywords are folded and are the names with namespaces too.
-/

namespace QueryTree

theorem Text.dot_mem_foldCase {text : String} (dot : '.' ∈ text.toList) :
    '.' ∈ (foldCase text).toList := by
  have kept : '.' ∈ lowerChar '.' := List.mem_singleton.mpr rfl
  rw [foldCase, String.toList_ofList]
  exact List.mem_flatMap.mpr ⟨'.', dot, kept⟩

theorem Options.dot_mem_fold {options : Options} {name : String} (dot : '.' ∈ name.toList) :
    '.' ∈ (options.fold name).toList := by
  unfold fold
  split
  · exact dot
  · exact Text.dot_mem_foldCase dot

/-- Neither words nor names of predefined types have parts joined by dots. -/
theorem KeywordTable.reserved?_plain {options : Options} {key : String}
    (isReserved : (reserved? options key).isSome = true) : '.' ∉ key.toList := by
  have plain : ∀ entry ∈ words ++ typeNames,
      '.' ∉ entry.1.toList ∧ '.' ∉ (Text.foldCase entry.1).toList := by decide +kernel
  rw [reserved?, Option.isSome_map] at isReserved
  obtain ⟨entry, found⟩ := Option.isSome_iff_exists.mp isReserved
  obtain ⟨asWritten, folded⟩ := plain entry (List.mem_of_find?_eq_some found)
  have isKey := List.find?_some found
  obtain rfl := eq_of_beq isKey
  unfold Options.fold
  split
  · exact asWritten
  · exact folded

theorem qualifiedName_plain {qualifier : Option String} {name : String}
    (plain : '.' ∉ (qualifiedName qualifier name).toList) :
    qualifiedName qualifier name = name := by
  unfold qualifiedName at plain ⊢
  split
  next space =>
    split
    next => rfl
    next nonempty => simp [nonempty] at plain
  next => rfl

namespace Model

variable {schema : Schema} {model : Model}

/-- The declared types. -/
def declared (model : Model) : List Ty := model.types.map (·.2)

/-- The environment in which the declared types are made known in some order. -/
def environmentOf (model : Model) (types : List Ty) : Environment :=
  .of model.options (.ofCustom types) model.classes

/-- A declared type has the name by which it is declared, which no other one has. -/
theorem declared_unique (loaded : ofSchema schema = .ok model) :
    ∀ t ∈ model.declared, ∀ u ∈ model.declared, t.simpleName = u.simpleName → t = u := by
  obtain ⟨declared, sound, types, -⟩ := ofSchema_eq_ok loaded
  have named (name : String) (t : Ty) (isType : (name, t) ∈ declared.types) :
      t.simpleName = name := by
    cases sound.entries name t isType <;> rfl
  rw [Model.declared, types]
  intro t isType u isOther same
  obtain ⟨⟨tName, t⟩, tEntry, rfl⟩ := List.mem_map.mp isType
  obtain ⟨⟨uName, u⟩, uEntry, rfl⟩ := List.mem_map.mp isOther
  have names : tName = uName := by
    rw [← named tName t tEntry, ← named uName u uEntry]
    exact same
  exact (Prod.mk.inj (List.inj_on_of_nodup_map sound.names tEntry uEntry names)).2

/-- A declared type whose full name has no dots has no namespace. -/
theorem declared_fullName_plain (loaded : ofSchema schema = .ok model) {t : Ty}
    (isType : t ∈ model.declared) (plain : '.' ∉ t.fullName.toList) :
    t.fullName = t.simpleName := by
  obtain ⟨declared, sound, types, -⟩ := ofSchema_eq_ok loaded
  rw [Model.declared, types] at isType
  obtain ⟨⟨name, t⟩, entry, rfl⟩ := List.mem_map.mp isType
  cases sound.entries name t entry with
  | enum e => exact qualifiedName_plain plain
  | cls c => exact qualifiedName_plain plain

theorem fullName_unique (loaded : ofSchema schema = .ok model)
    (unambiguous : Environment.Unambiguous model.options model.declared) :
    ∀ t ∈ model.declared, ∀ u ∈ model.declared, t.fullName = u.fullName → t = u := by
  intro t isType u isOther same
  cases free : KeywordTable.reserved? model.options (model.options.fold t.fullName) with
  | none =>
      refine unambiguous _ free t isType u isOther ?_ ?_
      · simp [Ty.isNamed]
      · simp [Ty.isNamed, same]
  | some keyword =>
      have plain : '.' ∉ t.fullName.toList := fun dot =>
        KeywordTable.reserved?_plain (by rw [free]; rfl) (Options.dot_mem_fold dot)
      refine declared_unique loaded t isType u isOther ?_
      rw [← declared_fullName_plain loaded isType plain, same]
      exact declared_fullName_plain loaded isOther (same ▸ plain)

/-- Where no name is ambiguous, another order of the types answers all questions alike. -/
theorem namesAlike_perm (loaded : ofSchema schema = .ok model)
    (unambiguous : Environment.Unambiguous model.options model.declared) {left right : List Ty}
    (isLeft : left.Perm model.declared) (isRight : right.Perm model.declared) :
    (model.environmentOf left).NamesAlike (.ofCustom right)
      (.ofTypes model.options right) := by
  have perm : right.Perm left := isRight.trans isLeft.symm
  have known (t : Ty) : t ∈ right → t ∈ model.declared := isRight.mem_iff.mp
  have meanings (name : String) : (model.environmentOf right).keyword? name
      = (model.environmentOf left).keyword? name := by
    refine Environment.keyword?_perm ?_ perm name
    intro key free t isType u isOther
    exact unambiguous key free t (known t isType) u (known u isOther)
  have byFullName (name : String) :
      (model.environmentOf right).registry.byFullName? name
        = (model.environmentOf left).registry.byFullName? name := by
    simp only [environmentOf, Environment.of, TypeRegistry.byFullName?, TypeRegistry.all,
      TypeRegistry.ofCustom, List.append_nil]
    exact find?_perm perm fun t isType u isOther isFirst isSecond =>
      fullName_unique loaded unambiguous t (known t isType) u (known u isOther)
        ((eq_of_beq isFirst).trans (eq_of_beq isSecond).symm)
  have bySimpleName (name : String) :
      (model.environmentOf right).registry.bySimpleName? name
        = (model.environmentOf left).registry.bySimpleName? name := by
    simp only [environmentOf, Environment.of, TypeRegistry.bySimpleName?, TypeRegistry.all,
      TypeRegistry.ofCustom, List.append_nil]
    exact find?_perm perm fun t isType u isOther isFirst isSecond =>
      declared_unique loaded t (known t isType) u (known u isOther)
        ((eq_of_beq isFirst).trans (eq_of_beq isSecond).symm)
  exact
    { keyword? := meanings
      knowsType := fun type => congrArg (_ || ·) (perm.any_eq)
      knowsTypeName := fun name => congrArg (_ || ·) (perm.any_eq)
      resolveType? := fun name scope anyType => by
        change (model.environmentOf right).resolveType? name scope anyType = _
        simp only [Environment.resolveType?, meanings, byFullName, bySimpleName]
        rfl }

/-- When the order in which the declared types are made known does not count.  Names mean the same
in every order if and only if no two declared types share a folded name that is not reserved, and
then every text compiles to the same function and to the same sort keys. -/
theorem order_irrelevant_iff (loaded : ofSchema schema = .ok model) :
    ((∀ left right : List Ty, left.Perm model.declared → right.Perm model.declared → ∀ name,
        (model.environmentOf left).keyword? name = (model.environmentOf right).keyword? name) ↔
      Environment.Unambiguous model.options model.declared) ∧
    (Environment.Unambiguous model.options model.declared →
      ∀ left right : List Ty, left.Perm model.declared → right.Perm model.declared →
      ∀ (params : List Parameter) (text : String) (args : List Argument) (store : Store),
        (∀ expected?, compileFunction (model.environmentOf left) params expected? text args store
          = compileFunction (model.environmentOf right) params expected? text args store) ∧
        ∀ continues, compileOrdering (model.environmentOf left) params continues text args store
          = compileOrdering (model.environmentOf right) params continues text args store) := by
  refine ⟨⟨Environment.unambiguous_of_keyword?, ?_⟩, ?_⟩
  · intro unambiguous left right isLeft isRight name
    exact ((namesAlike_perm loaded unambiguous isLeft isRight).keyword? name).symm
  · intro unambiguous left right isLeft isRight params text args store
    have alike := namesAlike_perm loaded unambiguous isLeft isRight
    constructor
    · intro expected?
      exact (compileFunction_rename alike params expected? text args store).symm
    · intro continues
      exact (compileOrdering_rename alike params continues text args store).symm

section Example

/-- An enumeration and a class with different names. -/
def paintingSchema : Schema :=
  ⟨none, .initial, [
    .enum ⟨"Color", some "Paint", none, [⟨"Red", none⟩, ⟨"Blue", none⟩]⟩,
    .cls false ⟨"Shape", none, none, [⟨"Fill", "Color", false⟩], [], [], [], [], none⟩]⟩

/-- Two enumerations whose names differ in case only. -/
def orderSchema : Schema :=
  ⟨none, .initial, [.enum ⟨"Order", none, none, [⟨"A", none⟩]⟩,
    .enum ⟨"order", none, none, [⟨"B", none⟩]⟩]⟩

theorem order_irrelevant_iff_painting :
    ∃ model, ofSchema paintingSchema = .ok model ∧
      ((∀ left right : List Ty, left.Perm model.declared → right.Perm model.declared → ∀ name,
          (model.environmentOf left).keyword? name = (model.environmentOf right).keyword? name) ↔
        Environment.Unambiguous model.options model.declared) ∧
      (Environment.Unambiguous model.options model.declared →
        ∀ left right : List Ty, left.Perm model.declared → right.Perm model.declared →
        ∀ (params : List Parameter) (text : String) (args : List Argument) (store : Store),
          (∀ expected?, compileFunction (model.environmentOf left) params expected? text args store
            = compileFunction (model.environmentOf right) params expected? text args store) ∧
          ∀ continues, compileOrdering (model.environmentOf left) params continues text args store
            = compileOrdering (model.environmentOf right) params continues text args store) := by
  obtain ⟨model, loaded, -⟩ := exists_ok_of_any
    (show (ofSchema paintingSchema).toOption.any (fun _ => true) = true by decide +kernel)
  exact ⟨model, loaded, order_irrelevant_iff loaded⟩

/-- A text that compiles with the types in one order and not in the other one. -/
theorem order_counts :
    ∃ model left right, ofSchema orderSchema = .ok model ∧
      left.Perm model.declared ∧ right.Perm model.declared ∧
      (compileFunction (model.environmentOf left) [] none "order.A" [] .initial).1.toOption.isSome
        = true ∧
      (compileFunction (model.environmentOf right) [] none "order.A" [] .initial).1.toOption.isSome
        = false := by
  let compiles (model : Model) (types : List Ty) : Bool :=
    (compileFunction (model.environmentOf types) [] none "order.A" [] .initial).1.toOption.isSome
  obtain ⟨model, loaded, facts⟩ := exists_ok_of_any
    (show (ofSchema orderSchema).toOption.any (fun model =>
      compiles model model.declared.reverse && !compiles model model.declared) = true by
        decide +kernel)
  obtain ⟨reversed, plain⟩ := (Bool.and_eq_true _ _).mp facts
  exact ⟨model, model.declared.reverse, model.declared, loaded, List.reverse_perm _, .refl _,
    reversed, by simpa [compiles] using plain⟩

end Example

end Model

end QueryTree
