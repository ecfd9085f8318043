import QueryTree.Proofs.Compile.Text
import QueryTree.Proofs.Config.Keyword
import QueryTree.Proofs.Naming.Folding
import QueryTree.Proofs.Overload.Promotion

/-!
# Which names match

A written name selects a declared one by a rule.  Which names a lookup finds, and by which rule.
-/

/-!
## Names that are looked up

Keywords, parameters, values and members are found by names that are equal to their own under the
options: in the same case, or with all letters in lower case.
-/

namespace QueryTree

/-! ## Keywords -/

section Keywords

variable {options : Options} {registry : TypeRegistry} {classes : ClassTable} {written : String}

/-- The names that mean a keyword, with their meanings; of names that match the first one counts. -/
def KeywordTable.declared (registry : TypeRegistry) : List (String × Keyword) :=
  words ++ typeNames ++ customNames registry.custom

theorem Environment.keyword?_eq_find? :
    (Environment.of options registry classes).keyword? written =
      ((KeywordTable.declared registry).find? (options.sameName ·.1 written)).map (·.2) := by
  simp only [keyword?, of, KeywordTable.ofTypes, KeywordTable.lookup_foldl_enter, List.lookup_nil,
    Option.none_or]
  rfl

/-- A type is named by a keyword, or by its very name. -/
theorem Environment.resolveType?_named {scope : List Ty} {anyType : Bool} {t : Ty}
    (found : (Environment.of options registry classes).resolveType? written scope anyType =
      some t) :
    (∃ declared, (declared, Keyword.type t) ∈ KeywordTable.declared registry ∧
      options.sameName declared written = true) ∨ t.simpleName = written ∨ t.fullName = written := by
  unfold resolveType? at found
  split at found
  next t' isKeyword =>
    rw [keyword?_eq_find?] at isKeyword
    obtain ⟨⟨declared, keyword⟩, isFirst, rfl⟩ := Option.map_eq_some_iff.mp isKeyword
    obtain rfl := Option.some.inj found
    have matching := List.find?_some isFirst
    exact .inl ⟨declared, List.mem_of_find?_eq_some isFirst, matching⟩
  next =>
    right
    simp only [Option.orElse_eq_orElse, Option.orElse_eq_or, Option.or_eq_some_iff] at found
    have simply {types : List Ty} (first : types.find? (·.simpleName == written) = some t) :
        t.simpleName = written := by
      have matching := List.find?_some first
      exact eq_of_beq matching
    have fully {types : List Ty} (first : types.find? (·.fullName == written) = some t) :
        t.fullName = written := by
      have matching := List.find?_some first
      exact eq_of_beq matching
    obtain simple | ⟨-, full | ⟨-, resolved⟩⟩ := found
    · exact .inl (simply simple)
    · exact .inr (fully full)
    · split at resolved
      next =>
        obtain full | ⟨-, simple⟩ := Option.or_eq_some_iff.mp resolved
        · exact .inr (fully full)
        · split at simple
          next => exact .inl (simply simple)
          next => cases simple
      next => cases resolved

end Keywords

/-! ## Parameters, values and members -/

namespace CompileContext

variable {env : Environment} {params : List Parameter} {args : List Argument} {ctx : CompileContext}
  {written : String}

/-- The values with names of their own. -/
def namedValues (args : List Argument) : List (String × Value) :=
  match args.getLast? with
  | some (.externals members) => members
  | _ => []

theorem lookup_symbols_eq_some_iff (outcome : CompileContext.of env params args = .ok ctx)
    {symbol : Symbol} :
    ctx.symbols.lookup (env.options.fold written) = some symbol ↔
      ∃ declared, (declared, symbol) ∈ parameterSymbols params ++ argumentSymbols 0 args ∧
        env.options.sameName declared written = true := by
  obtain ⟨symbols, folded, same⟩ := bind_eq_ok_iff.mp outcome
  obtain rfl := pure_eq_ok_iff.mp same
  constructor
  · intro found
    obtain ⟨before, after, all, -⟩ := List.lookup_eq_some_iff.mp found
    obtain held | ⟨declared, isEntry, folds⟩ := foldSymbols_mem folded
      (show (env.options.fold written, symbol) ∈ symbols by
        rw [show symbols = _ from all]
        simp)
    · cases held
    · exact ⟨declared, isEntry, beq_iff_eq.mpr folds.symm⟩
  · rintro ⟨declared, isEntry, matching⟩
    rw [← eq_of_beq matching]
    exact (foldSymbols_lookup folded).2 declared symbol isEntry

theorem lookup_map_fold {options : Options} {β : Type} (entries : List (String × β)) :
    (entries.map fun entry => (options.fold entry.1, entry.2)).lookup (options.fold written) =
      (entries.find? (options.sameName ·.1 written)).map (·.2) := by
  induction entries with
  | nil => rfl
  | cons entry rest ih =>
      rw [List.map_cons, List.lookup_cons, List.find?_cons, Options.sameName, BEq.comm]
      cases options.fold entry.1 == options.fold written with
      | true => rfl
      | false => exact ih

/-- Of the values with names that match, the last one counts. -/
theorem lookup_externals (outcome : CompileContext.of env params args = .ok ctx) :
    ctx.externals.lookup (env.options.fold written) =
      ((namedValues args).reverse.find? (env.options.sameName ·.1 written)).map (·.2) := by
  obtain ⟨symbols, -, same⟩ := bind_eq_ok_iff.mp outcome
  obtain rfl := pure_eq_ok_iff.mp same
  have values : externalValues env.options args =
      (namedValues args).reverse.map fun value => (env.options.fold value.1, value.2) := by
    unfold externalValues namedValues
    cases args.getLast? with
    | none => rfl
    | some last => cases last <;> rfl
  change (externalValues env.options args).lookup (env.options.fold written) = _
  rw [values]
  exact lookup_map_fold _

theorem declaredMember?_named {receiver : Receiver} {e : Expr}
    (found : ctx.declaredMember? receiver written = some e) :
    ∃ m ∈ receiver.memberType.members ctx.env.classes, e = receiver.access m ∧
      m.isStatic = receiver.isStatic ∧ ctx.env.options.sameName m.name written = true := by
  obtain ⟨m, isFirst, rfl⟩ := Option.map_eq_some_iff.mp found
  have suits := List.find?_some isFirst
  obtain ⟨static, matching⟩ := (Bool.and_eq_true _ _).mp suits
  exact ⟨m, List.mem_of_find?_eq_some isFirst, rfl, eq_of_beq static, matching⟩

/-- A part of a construction binds a member whose name matches its own. -/
theorem bindings_named {type : Ty} {items : List NewItem} {bound : List (String × Expr)}
    (outcome : ctx.bindings type items = .ok bound) :
    List.Forall₂ (fun item binding => ∃ m ∈ type.members ctx.env.classes, m.name = binding.1 ∧
      m.isStatic = false ∧ ctx.env.options.sameName m.name (item.name.getD "") = true)
      items bound := by
  induction items generalizing bound with
  | nil =>
      cases outcome
      exact .nil
  | cons item rest ih =>
      unfold bindings at outcome
      simp only at outcome
      split at outcome
      next => cases outcome
      next m isFirst =>
        split at outcome
        next => cases outcome
        next value =>
          obtain ⟨later, isLater, same⟩ := bind_eq_ok_iff.mp outcome
          obtain rfl := pure_eq_ok_iff.mp same
          have suits := List.find?_some isFirst
          obtain ⟨static, matching⟩ := (Bool.and_eq_true _ _).mp suits
          exact .cons ⟨m, List.mem_of_find?_eq_some isFirst, rfl, by simpa using static, matching⟩
            (ih isLater)

end CompileContext

end QueryTree

/-!
## Rules of matching

A written name selects a declared one by a rule.  Keywords, parameters, values, elements and members
go by the options: in the same case, or with all letters in lower case.  Methods, members of
enumerations and sequence operations go by a rule of their own, in which the case of ASCII letters
never counts and that of all others always does.
-/

namespace QueryTree

open Text (sameIgnoringAsciiCase)

/-! ## Lookups without regard to the options -/

section ByAscii

variable {written written' : String}

theorem Text.sameIgnoringAsciiCase_comm {left right : String}
    (same : sameIgnoringAsciiCase left right = true) : sameIgnoringAsciiCase right left = true :=
  beq_iff_eq.mpr (eq_of_beq same).symm

theorem Text.sameIgnoringAsciiCase_trans {left middle right : String}
    (first : sameIgnoringAsciiCase left middle = true)
    (second : sameIgnoringAsciiCase middle right = true) :
    sameIgnoringAsciiCase left right = true :=
  beq_iff_eq.mpr ((eq_of_beq first).trans (eq_of_beq second))

namespace Ty

variable {table : ClassTable} {type : Ty} {isStatic : Bool} {args promoted : List Expr}

theorem resolveMethod_congr (same : sameIgnoringAsciiCase written written' = true) :
    type.resolveMethod table written isStatic args =
      type.resolveMethod table written' isStatic args := by
  have answers (m : Method) : answersTo m written = answersTo m written' := by
    simp only [answersTo, sameIgnoringAsciiCase, eq_of_beq same]
  simp only [resolveMethod, answers]

/-- A method that a name reaches is reached by the names that differ from its own at most in the
case of ASCII letters, and by no others. -/
theorem resolveMethod_reached_iff {method : Method}
    (found : type.resolveMethod table written isStatic args = .found method promoted) :
    (∃ promoted', type.resolveMethod table written' isStatic args = .found method promoted') ↔
      sameIgnoringAsciiCase method.name written' = true := by
  have answers := (resolveMethod_found found).2.2.1
  constructor
  · rintro ⟨promoted', found'⟩
    exact (resolveMethod_found found').2.2.1
  · intro same
    have both := Text.sameIgnoringAsciiCase_trans (Text.sameIgnoringAsciiCase_comm answers) same
    exact ⟨promoted, resolveMethod_congr both ▸ found⟩

end Ty

theorem EnumType.valueOf?_named {e : EnumType} {value : Int} (found : e.valueOf? written = some value) :
    ∃ declared, (declared, value) ∈ e.variants ∧ sameIgnoringAsciiCase declared written = true := by
  obtain ⟨⟨declared, _⟩, isFirst, rfl⟩ := Option.map_eq_some_iff.mp found
  have matching := List.find?_some isFirst
  exact ⟨declared, List.mem_of_find?_eq_some isFirst, matching⟩

theorem EnumType.valueOf?_eq_none_iff {e : EnumType} :
    e.valueOf? written = none ↔
      ∀ entry ∈ e.variants, sameIgnoringAsciiCase entry.1 written = false := by
  simp [valueOf?]

/-- Every operation has a signature. -/
theorem Aggregate.exists_signature (operation : Aggregate) :
    ∃ entry ∈ signatures, entry.1 = operation := by
  have all : ∀ operation ∈ vocabulary, signatures.any (·.1 = operation) = true :=
    List.all_eq_true.mp rfl
  obtain ⟨entry, isEntry, same⟩ := List.any_eq_true.mp (all operation (mem_vocabulary operation))
  exact ⟨entry, isEntry, of_decide_eq_true same⟩

theorem Aggregate.ofName?_eq_some_iff {operation : Aggregate} :
    ofName? written = some operation ↔ sameIgnoringAsciiCase operation.name written = true := by
  have matches_of_named {other : Aggregate} (named : ofName? written = some other) :
      sameIgnoringAsciiCase other.name written = true := by
    obtain ⟨entry, isFirst, rfl⟩ := Option.map_eq_some_iff.mp named
    have matching := List.find?_some isFirst
    exact matching
  constructor
  · exact matches_of_named
  · intro matching
    cases named : ofName? written with
    | some other =>
        exact congrArg some
          (name_injective ((eq_of_beq (matches_of_named named)).trans (eq_of_beq matching).symm))
    | none =>
        obtain ⟨entry, isEntry, rfl⟩ := exists_signature operation
        exact absurd matching
          (List.find?_eq_none.mp (Option.map_eq_none_iff.mp named) entry isEntry)

end ByAscii

/-! ## All lookups of a compile -/

/-- Which declared names the names select that are written in a text. -/
structure NamesMatch (options : Options) (registry : TypeRegistry) (params : List Parameter)
    (args : List Argument) (ctx : CompileContext) : Prop where
  /-- A keyword is the first one whose name matches by the options. -/
  keyword : ∀ written, ctx.env.keyword? written =
    ((KeywordTable.declared registry).find? (options.sameName ·.1 written)).map (·.2)
  /-- A type is a keyword, or the written name is its very name. -/
  type : ∀ written scope anyType t, ctx.env.resolveType? written scope anyType = some t →
    (∃ declared, (declared, Keyword.type t) ∈ KeywordTable.declared registry ∧
      options.sameName declared written = true) ∨ t.simpleName = written ∨ t.fullName = written
  /-- A parameter or positional value is the one whose name matches by the options. -/
  symbol : ∀ written symbol, ctx.symbols.lookup (options.fold written) = some symbol ↔
    ∃ declared, (declared, symbol) ∈ CompileContext.parameterSymbols params ++
      CompileContext.argumentSymbols 0 args ∧ options.sameName declared written = true
  /-- A named value is the last one whose name matches by the options. -/
  value : ∀ written, ctx.externals.lookup (options.fold written) =
    ((CompileContext.namedValues args).reverse.find? (options.sameName ·.1 written)).map (·.2)
  /-- A name for an element stands for it wherever a written name matches by the options. -/
  element : ∀ (names : ElementNames) declared element? written,
    (names.set (options.fold declared) element?).lookup (options.fold written) =
      if options.sameName declared written then element? else names.lookup (options.fold written)
  /-- A member that is accessed has a name that matches by the options. -/
  member : ∀ receiver written e, ctx.declaredMember? receiver written = some e →
    ∃ m ∈ receiver.memberType.members ctx.env.classes, e = receiver.access m ∧
      m.isStatic = receiver.isStatic ∧ options.sameName m.name written = true
  /-- So has a member that is bound. -/
  binding : ∀ type items bound, ctx.bindings type items = .ok bound →
    List.Forall₂ (fun item binding => ∃ m ∈ type.members ctx.env.classes, m.name = binding.1 ∧
      m.isStatic = false ∧ options.sameName m.name (item.name.getD "") = true) items bound
  /-- A method that is called is called alike by all names that match its own but for the case of
  ASCII letters, and by no other name, whatever the options are. -/
  method : ∀ (type : Ty) written isStatic args m promoted,
    type.resolveMethod ctx.env.classes written isStatic args = .found m promoted →
    ∀ written', (∃ promoted', type.resolveMethod ctx.env.classes written' isStatic args =
      .found m promoted') ↔ sameIgnoringAsciiCase m.name written' = true
  /-- So are members of enumerations. -/
  enumMember : ∀ (e : EnumType) written,
    (e.valueOf? written = none ↔
      ∀ entry ∈ e.variants, sameIgnoringAsciiCase entry.1 written = false) ∧
    ∀ n, e.valueOf? written = some n →
      ∃ declared, (declared, n) ∈ e.variants ∧ sameIgnoringAsciiCase declared written = true
  /-- And so are sequence operations. -/
  operation : ∀ written operation, Aggregate.ofName? written = some operation ↔
    sameIgnoringAsciiCase operation.name written = true
  /-- The second rule selects nothing that the options exclude only where case does not count, -/
  asciiWithin : (∀ declared written, sameIgnoringAsciiCase declared written = true →
    options.sameName declared written = true) ↔ options.caseSensitive = false
  /-- and misses nothing that they select only where it does. -/
  withinAscii : (∀ declared written, options.sameName declared written = true →
    sameIgnoringAsciiCase declared written = true) ↔ options.caseSensitive = true

/-- In every compile keywords, parameters, values, elements and members are matched by the options,
and methods, members of enumerations and operations without regard to them. -/
theorem names_match {options : Options} {registry : TypeRegistry} {classes : ClassTable}
    {params : List Parameter} {args : List Argument} {ctx : CompileContext}
    (outcome : CompileContext.of (.of options registry classes) params args = .ok ctx) :
    NamesMatch options registry params args ctx := by
  have env_eq := CompileContext.of_env outcome
  have options_eq : ctx.env.options = options := by rw [env_eq]; rfl
  constructor
  case keyword =>
    intro written
    rw [env_eq]
    exact Environment.keyword?_eq_find?
  case type =>
    intro written scope anyType t found
    rw [env_eq] at found
    exact Environment.resolveType?_named found
  case symbol => exact fun written symbol => CompileContext.lookup_symbols_eq_some_iff outcome
  case value => exact fun written => CompileContext.lookup_externals outcome
  case element =>
    intro names declared element? written
    simp only [ElementNames.lookup, ElementNames.set, Options.sameName, beq_iff_eq,
      eq_comm (a := options.fold written)]
  case member =>
    intro receiver written e found
    exact options_eq ▸ CompileContext.declaredMember?_named found
  case binding =>
    intro type items bound made
    exact options_eq ▸ CompileContext.bindings_named made
  case method =>
    exact fun type written isStatic args m promoted found written' =>
      Ty.resolveMethod_reached_iff found
  case enumMember =>
    exact fun e written => ⟨EnumType.valueOf?_eq_none_iff, fun n => EnumType.valueOf?_named⟩
  case operation => exact fun written operation => Aggregate.ofName?_eq_some_iff
  case asciiWithin => exact Options.sameName_of_ascii_iff
  case withinAscii => exact Options.ascii_of_sameName_iff

section Example

/-- The options of a compile in which case counts. -/
def inCase : Options := { Options.initial with caseSensitive := true }

/-- An enumeration of one colour. -/
def colours : Ty := .enum ⟨"Colour", none, .int32, false, [("Red", 0)]⟩

/-- A class with a method whose name is not in ASCII. -/
def judge : ClassRef := ⟨"Judge", none, false, 1⟩

/-- An environment in which the enumeration and the class are declared. -/
def overJudge (options : Options) : Environment :=
  .of options (.ofCustom [colours, .cls judge])
    #[some mathBody,
      some { ClassBody.empty with methods := [.instanceMethod "Judge" "Äußert" [] .int32] }]

/-- A judge and a list of numbers as parameters. -/
def judgement : List Parameter := [⟨0, "j", .cls judge⟩, ⟨1, "marks", .array .int32⟩]

/-- Where case counts, a parameter is not found in another case. -/
theorem names_match_judgement :
    ∃ ctx, CompileContext.of (overJudge inCase) judgement [] = .ok ctx ∧
      (ctx.symbols.lookup (inCase.fold "marks")).isSome = true ∧
      (ctx.symbols.lookup (inCase.fold "Marks")).isSome = false ∧
      NamesMatch inCase (.ofCustom [colours, .cls judge]) judgement [] ctx := by
  refine ⟨⟨overJudge inCase, [("marks", .parameter ⟨1, "marks", .array .int32⟩),
    ("j", .parameter ⟨0, "j", .cls judge⟩)], []⟩, rfl, by decide +kernel, by decide +kernel, ?_⟩
  exact names_match (show CompileContext.of (overJudge inCase) judgement [] = .ok _ from rfl)

/-- Whether a text compiles over a judge and numbers. -/
def judges (options : Options) (text : String) : Bool :=
  (compileFunction (overJudge options) judgement none text [] ⟨.empty, 2⟩).1.toOption.isSome

/-- Where case counts, a method, a member of an enumeration and an operation are found in another
case all the same; and where it does not, a method is not found in another case if its name has
other letters than those of ASCII. -/
theorem methods_match_otherwise :
    (judges inCase "\"a\".toupper()" = true ∧ judges inCase "Colour.rED" = true ∧
        judges inCase "marks.any()" = true ∧ judges inCase "Marks.Any()" = false) ∧
      judges .initial "J.Äußert()" = true ∧ judges .initial "J.äußert()" = false := by
  decide +kernel

end Example

end QueryTree
