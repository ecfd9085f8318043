import QueryTree.Proofs.Naming.Folding
import QueryTree.Proofs.Naming.Matching
import QueryTree.Proofs.Parallel.Primary

/-!
# Names with a mark

A name can be written with the mark `@` in front.  The mark is no part of the name where the name is
that of a member, so that with it a member can be named like a keyword.  Elsewhere it is a part of
the name: a name with a mark stands for no parameter, value or element that has the name without
the mark, but for a member of the current element.
-/

namespace QueryTree

/-- The state in which another text stands in the place of the current token's. -/
def Session.named (session : Session) (text : String) : Session :=
  { session with current := { session.current with text := text } }

/-- The expression of which this one is a member or an item, or which it calls a method or a
sequence operation of. -/
def Expr.accessed? : Expr → Option Expr
  | .member _ target _ => some target
  | .index _ target _ => some target
  | .methodCall _ _ target _ => some target
  | .aggregate _ _ source _ _ => some source
  | _ => none

/-- A name with the mark in front, character by character. -/
theorem Text.toList_marked (name : String) : ("@" ++ name).toList = '@' :: name.toList :=
  String.toList_append

namespace Parse

variable {name : String} {session : Session}

theorem unescapedName_marked (nonempty : name ≠ "") : unescapedName ("@" ++ name) = name := by
  obtain ⟨c, rest, chars⟩ := List.exists_cons_of_ne_nil (String.toList_eq_nil_iff.not.mpr nonempty)
  rw [unescapedName, Text.toList_marked, chars]
  exact (congrArg String.ofList chars.symm).trans String.ofList_toList

theorem unescapedName_unmarked (unmarked : name.toList.head? ≠ some '@') :
    unescapedName name = name := by
  rw [unescapedName]
  split
  next marked => exact absurd (congrArg List.head? marked) unmarked
  next => rfl

theorem identifier_eq (isName : session.current.kind = .identifier) :
    identifier session = .ok (unescapedName session.current.text) session := by
  rw [identifier, bind_eq (validate_eq isName), bind_eq (current_eq session)]
  rfl

/-! Whatever the state is in which a step succeeds, what it makes satisfies a condition. -/

/-- What a step makes satisfies a condition. -/
def Makes {α : Type} (step : Parse α) (holds : α → Prop) : Prop :=
  ∀ session a after, step session = .ok a after → holds a

namespace Makes

variable {α β : Type} {holds : α → Prop}

theorem bind {step : Parse β} {next : β → Parse α} (second : ∀ b, (next b).Makes holds) :
    (step >>= next).Makes holds := by
  intro session a after ran
  obtain ⟨b, middle, -, ran⟩ := bind_eq_ok_iff.mp ran
  exact second b middle a after ran

theorem pure {a : α} (satisfied : holds a) : (Pure.pure a : Parse α).Makes holds := by
  intro session b after ran
  cases ran
  exact satisfied

theorem lift {outcome : Except CompileError α} (satisfied : ∀ a, outcome = .ok a → holds a) :
    (Parse.lift outcome).Makes holds :=
  fun _ a _ ran => satisfied a (lift_eq_ok_iff.mp ran).1

theorem failAt {position : Nat} {fault : CompileFault} :
    (Parse.failAt position fault : Parse α).Makes holds := by
  intro session a after ran
  cases ran

end Makes

end Parse

namespace CompileContext

variable {ctx : CompileContext} {expression : Parse Expr} {session after : Session} {next : Token}
  {rest : List Token} {e : Expr}

/-! ## What is read behind a name -/

section Access

variable {receiver : Receiver} {name : String}

/-- What is made of a member by its name, behind the name. -/
def accessNamed (ctx : CompileContext) (expression : Parse Expr) (receiver : Receiver)
    (position : Nat) (name : String) : Parse Expr := do
  let frame ← Parse.scope
  let beforeArrow ← Parse.check .lambda
  match (elementReceiver? receiver frame).filter fun _ => beforeArrow with
  | some element =>
    Parse.withInternal (ctx.env.options.fold name) element do
      Parse.advance
      expression
  | none =>
    if ← Parse.check .openParen then
      match ctx.sequenceOperation? receiver name with
      | some (source, operation, element) =>
        operation.parseCall ctx expression source element name position
      | none =>
        let args ← Parse.argumentList expression
        Parse.lift (ctx.methodCall receiver name position args)
    else Parse.lift (ctx.namedMember receiver name position)

/-- Of the name of a member nothing counts but what is left without a mark. -/
theorem memberAccess_eq_accessNamed (isName : session.current.kind = .identifier)
    (isNext : session.rest = next :: rest) :
    ctx.memberAccess expression receiver session =
      ctx.accessNamed expression receiver session.current.position
        (Parse.unescapedName session.current.text) (session.moveTo next rest) := by
  rw [memberAccess, Parse.bind_eq (Parse.position_eq session),
    Parse.bind_eq (Parse.identifier_eq isName), Parse.bind_eq (Parse.advance_eq isNext)]
  rfl

/-- A name is that of a member unless an argument list follows, or an arrow behind a parameter. -/
theorem accessNamed_eq_namedMember {position : Nat}
    (noElement : session.current.kind ≠ .lambda ∨ receiver.value?.bind (·.parameter?) = none)
    (noCall : session.current.kind ≠ .openParen) :
    ctx.accessNamed expression receiver position name session =
      Parse.lift (ctx.namedMember receiver name position) session := by
  have noElement (frame : ScopeFrame) : (elementReceiver? receiver frame).filter
      (fun _ => session.current.kind == .lambda) = none := by
    obtain noLambda | noParameter := noElement
    · rw [beq_false_of_ne noLambda]
      cases elementReceiver? receiver frame <;> rfl
    · simp [elementReceiver?, noParameter]
  rw [accessNamed, Parse.bind_eq (Parse.scope_eq _), Parse.bind_eq (Parse.check_eq .lambda _)]
  simp only [noElement]
  rw [Parse.bind_eq (Parse.check_eq .openParen _), beq_false_of_ne noCall]
  simp only [Bool.false_eq_true, if_false]

theorem namedMember_accesses {target : Expr} {position : Nat}
    (found : ctx.namedMember (.value target) name position = .ok e) :
    e.accessed? = some target := by
  simp only [namedMember, enumMember?] at found
  split at found
  next source isDynamic =>
    obtain rfl := Except.ok.inj found
    obtain ⟨isValue, -⟩ := Option.filter_eq_some_iff.mp isDynamic
    exact isValue.symm
  next =>
    split at found
    next member isMember =>
      obtain rfl := Except.ok.inj found
      rw [Option.orElse_eq_orElse, Option.orElse_eq_or] at isMember
      obtain declared | ⟨-, indexed⟩ := Option.or_eq_some_iff.mp isMember
      · obtain ⟨m, -, rfl⟩ := Option.map_eq_some_iff.mp declared
        rfl
      · rw [indexedMember?] at indexed
        split at indexed
        next => cases indexed
        next =>
          obtain ⟨source, isValue, made⟩ := Option.bind_eq_some_iff.mp indexed
          obtain ⟨indexer, -, rfl⟩ := Option.map_eq_some_iff.mp made
          exact isValue.symm
    next => cases found

theorem parseCall_accesses {operation : Aggregate} {source : Expr} {element : Ty}
    {position : Nat} :
    (operation.parseCall ctx expression source element name position).Makes
      (·.accessed? = some source) := by
  refine .bind fun p => .bind fun outer => .bind fun args => ?_
  split
  next =>
    split
    next => exact .bind fun wanted => .pure rfl
    next => exact .bind fun wanted => .pure rfl
    next =>
      split
      next => exact .pure rfl
      next => exact .failAt
  next => exact .failAt

/-- What is read behind a name is a member or an item of the receiver, or calls a method or an
operation of it, unless the name is one for the element. -/
theorem accessNamed_accesses {target : Expr} {position : Nat}
    (noArrow : session.current.kind ≠ .lambda)
    (ran : ctx.accessNamed expression (.value target) position name session = .ok e after) :
    e.accessed? = some target := by
  have noElement : ((elementReceiver? (.value target) session.scopes.current).filter
      fun _ => session.current.kind == .lambda) = none := by
    simp [noArrow]
  rw [accessNamed, Parse.bind_eq (Parse.scope_eq session),
    Parse.bind_eq (Parse.check_eq .lambda session)] at ran
  simp only [noElement] at ran
  suffices made : Parse.Makes _ fun e : Expr => e.accessed? = some target from made _ _ _ ran
  refine .bind fun called => ?_
  cases called with
  | true =>
      simp only [if_true]
      split
      next source operation element isOperation =>
        obtain rfl : target = source :=
          Option.some.inj (sequenceOperation?_eq_some isOperation).1
        exact parseCall_accesses
      next =>
        refine .bind fun args => .lift fun e called => ?_
        obtain ⟨method, type, args', rfl, -⟩ := methodCall_cases called
        rfl
  | false => exact .lift fun e found => namedMember_accesses found

end Access

/-! ## Names that stand for nothing with the mark -/

section Unclaimed

variable {options : Options} {registry : TypeRegistry} {classes : ClassTable}
  {params : List Parameter} {args : List Argument} {name : String} {first : Char}

/-- Under no options a name without the mark is equal to one with it. -/
theorem sameName_marked {declared : String} (unmarked : declared.toList.head? ≠ some '@') :
    options.sameName declared ("@" ++ name) = false := by
  refine beq_eq_false_iff_ne.mpr fun same => unmarked ?_
  have marked : ("@" ++ name).toList.head? = some '@' := congrArg List.head? (Text.toList_marked name)
  exact (Options.head_fold (by decide)).mp (same ▸ (Options.head_fold (by decide)).mpr marked)

theorem sameName_place {place : Nat} (begins : name.toList.head? = some first)
    (noDigit : first.isDigit = false) :
    options.sameName ("@" ++ toString place) ("@" ++ name) = false := by
  refine beq_eq_false_iff_ne.mpr fun same => ?_
  rw [Options.fold_marked, Options.fold_marked] at same
  have same : options.fold (toString place) = options.fold name := by
    simpa using same
  have chars : (toString place).toList = Nat.toDigits 10 place := Nat.toList_repr
  obtain ⟨d, digits, all⟩ := List.exists_cons_of_ne_nil (Nat.toDigits_ne_nil (n := place) (b := 10))
  have isDigit : d.isDigit = true :=
    Nat.isDigit_of_mem_toDigits (by decide) (by decide) (all ▸ List.mem_cons_self)
  have early : d.toNat < 65 := by
    have bounds := isDigit
    simp only [Char.isDigit, Bool.and_eq_true, decide_eq_true_eq, ge_iff_le,
      UInt32.le_iff_toNat_le] at bounds
    exact Nat.lt_of_le_of_lt bounds.2 (by decide)
  rw [all] at chars
  have headed : (options.fold (toString place)).toList.head? = some d :=
    (Options.head_fold early).mpr (congrArg List.head? chars)
  rw [same, Options.head_fold early, begins] at headed
  rw [Option.some.inj headed, isDigit] at noDigit
  cases noDigit

theorem argumentSymbols_name {place : Nat} {declared : String} {symbol : Symbol}
    (isSymbol : (declared, symbol) ∈ argumentSymbols place args) :
    ∃ position : Nat, declared = "@" ++ toString position := by
  induction args generalizing place with
  | nil => simp [argumentSymbols] at isSymbol
  | cons arg rest ih =>
      unfold argumentSymbols at isSymbol
      simp only at isSymbol
      split at isSymbol
      next =>
        obtain same | later := List.mem_cons.mp isSymbol
        · exact ⟨place, (Prod.mk.inj same).1⟩
        · exact ih later
      next => exact ih isSymbol

theorem declared_unmarked (types_unmarked : ∀ t ∈ registry.custom,
      t.simpleName.toList.head? ≠ some '@' ∧ t.fullName.toList.head? ≠ some '@') :
    ∀ entry ∈ KeywordTable.declared registry, entry.1.toList.head? ≠ some '@' := by
  intro entry isEntry
  obtain reserved | custom := List.mem_append.mp isEntry
  · have all : ∀ entry ∈ KeywordTable.words ++ KeywordTable.typeNames,
        entry.1.toList.head? ≠ some '@' := by
      decide +kernel
    exact all entry reserved
  · obtain ⟨t, isType, named⟩ := List.mem_flatMap.mp custom
    obtain ⟨simple, full⟩ := types_unmarked t isType
    obtain rfl | named := List.mem_cons.mp named
    · exact simple
    · obtain rfl := List.mem_singleton.mp named
      exact full

/-- Where no declared name begins with the mark, a name that is no number stands for nothing with
it. -/
theorem unclaimed_of_unmarked
    (outcome : CompileContext.of (.of options registry classes) params args = .ok ctx)
    (types_unmarked : ∀ t ∈ registry.custom,
      t.simpleName.toList.head? ≠ some '@' ∧ t.fullName.toList.head? ≠ some '@')
    (params_unmarked : ∀ p ∈ params, p.name.toList.head? ≠ some '@')
    (values_unmarked : ∀ value ∈ namedValues args, value.1.toList.head? ≠ some '@')
    (begins : name.toList.head? = some first) (noDigit : first.isDigit = false) :
    ctx.env.keyword? ("@" ++ name) = none ∧
      ∀ internals : ElementNames,
        internals.lookup (ctx.env.options.fold ("@" ++ name)) = none →
        ctx.symbol? internals (ctx.env.options.fold ("@" ++ name)) = none := by
  have noKeyword : (Environment.of options registry classes).keyword? ("@" ++ name) = none := by
    refine Environment.keyword?_eq_find?.trans (Option.map_eq_none_iff.mpr ?_)
    refine List.find?_eq_none.mpr fun entry isEntry => ?_
    simp [sameName_marked (declared_unmarked types_unmarked entry isEntry)]
  have noSymbol : ctx.symbols.lookup (options.fold ("@" ++ name)) = none := by
    refine Option.eq_none_iff_forall_ne_some.mpr fun symbol found => ?_
    obtain ⟨declared, isEntry, same⟩ := (lookup_symbols_eq_some_iff outcome).mp found
    have other : options.sameName declared ("@" ++ name) = false := by
      obtain isParam | isArgument := List.mem_append.mp isEntry
      · obtain ⟨p, member, entry_eq⟩ := List.mem_map.mp isParam
        obtain rfl : p.name = declared := (Prod.mk.inj entry_eq).1
        exact sameName_marked (params_unmarked p (List.mem_filter.mp member).1)
      · obtain ⟨place, rfl⟩ := argumentSymbols_name isArgument
        exact sameName_place begins noDigit
    exact Bool.false_ne_true (other.symm.trans same)
  have noValue : ctx.externals.lookup (options.fold ("@" ++ name)) = none := by
    refine (lookup_externals outcome).trans (Option.map_eq_none_iff.mpr ?_)
    refine List.find?_eq_none.mpr fun value isValue => ?_
    simpa [Environment.of] using
      sameName_marked (values_unmarked value (List.mem_reverse.mp isValue))
  rw [of_env outcome]
  refine ⟨noKeyword, fun internals noElement => ?_⟩
  change internals.lookup (options.fold ("@" ++ name)) = none at noElement
  change ctx.symbol? internals (options.fold ("@" ++ name)) = none
  simp [symbol?, noSymbol, noValue, noElement]

end Unclaimed

/-! ## What a name with a mark means -/

/-- A name with a mark is looked at, which is that of nothing that is declared. -/
structure AtMarked (ctx : CompileContext) (session : Session) (name : String) (next : Token)
    (rest : List Token) : Prop where
  isName : session.current.kind = .identifier
  marked : session.current.text = "@" ++ name
  begins : ∃ first, name.toList.head? = some first ∧ first ≠ '@' ∧ first.isDigit = false
  ahead : session.rest = next :: rest
  noKeyword : ctx.env.keyword? session.current.text = none
  noSymbol : ctx.symbol? session.internals (ctx.env.options.fold session.current.text) = none

/-- What a name with a mark means, compared with the name without the mark. -/
structure MarkedMeaning (ctx : CompileContext) (expression : Parse Expr) (session : Session)
    (name : String) (next : Token) (rest : List Token) : Prop where
  /-- Where a member is read, the mark is no part of its name. -/
  ofMember : ∀ receiver, ctx.memberAccess expression receiver session =
    ctx.memberAccess expression receiver (session.named name)
  /-- Where an expression is read, it is a member of the current element, keyword or not. -/
  ofElement : ∀ it, session.scopes.current.it = some it →
    ctx.atom expression session =
      ctx.memberAccess expression (.value (.parameter it)) (session.named name)
  /-- Without a current element it is an error, whatever is declared. -/
  ofNothing : session.scopes.current.it = none →
    ctx.atom expression session =
      .error ⟨session.current.position, .unknownIdentifier session.current.text⟩ session
  /-- A name that without the mark is a member means the same with it. -/
  likePlain : session.scopes.current.it ≠ none →
    ctx.visibleKeyword? session.scopes.current name = none →
    ctx.symbol? session.internals (ctx.env.options.fold name) = none →
    ctx.atom expression session = ctx.atom expression (session.named name)
  /-- A declared name stands for what it is declared as, without the mark. -/
  ofSymbol : ∀ symbol, ctx.visibleKeyword? session.scopes.current name = none →
    ctx.symbol? session.internals (ctx.env.options.fold name) = some symbol →
    ctx.atom expression (session.named name) =
      ctx.symbolExpr expression symbol (session.moveTo next rest)
  /-- With the mark it is no parameter and no value, but a part of the current element. -/
  neverSymbol : next.kind ≠ .lambda → ∀ e after, ctx.atom expression session = .ok e after →
    ∃ it, session.scopes.current.it = some it ∧ e.accessed? = some (.parameter it)

theorem isPositional_marked {name : String} {first : Char} (begins : name.toList.head? = some first)
    (noDigit : first.isDigit = false) : isPositional ("@" ++ name) = false := by
  obtain ⟨digits, chars⟩ := List.head?_eq_some_iff.mp begins
  rw [isPositional, Text.toList_marked, chars]
  simp [noDigit]

theorem isPositional_unmarked {name : String} (unmarked : name.toList.head? ≠ some '@') :
    isPositional name = false := by
  rw [isPositional]
  split
  next marked => exact absurd (congrArg List.head? marked) unmarked
  next => rfl

theorem atom_eq_nameIn (isName : session.current.kind = .identifier) :
    ctx.atom expression session =
      ctx.nameIn expression session.scopes.current session.current.text
        (ctx.symbol? session.internals (ctx.env.options.fold session.current.text)) session := by
  rw [atom, Parse.bind_eq (Parse.current_eq session)]
  simp only [isName]
  exact name_eq_nameIn session

namespace AtMarked

variable {name : String} (atMarked : ctx.AtMarked session name next rest)

include atMarked

theorem unmarked : name.toList.head? ≠ some '@' := by
  obtain ⟨first, begins, noMark, -⟩ := atMarked.begins
  exact fun mark => noMark (Option.some.inj (begins.symm.trans mark))

theorem nonempty : name ≠ "" := by
  obtain ⟨first, begins, -⟩ := atMarked.begins
  rintro rfl
  cases begins

theorem noPosition : isPositional session.current.text = false := by
  obtain ⟨first, begins, -, noDigit⟩ := atMarked.begins
  exact atMarked.marked ▸ isPositional_marked begins noDigit

theorem named_isName : (session.named name).current.kind = .identifier :=
  atMarked.isName

/-- Behind a receiver the mark is no part of the name. -/
theorem memberAccess_eq (receiver : Receiver) :
    ctx.memberAccess expression receiver session =
      ctx.memberAccess expression receiver (session.named name) := by
  rw [memberAccess_eq_accessNamed atMarked.isName atMarked.ahead,
    memberAccess_eq_accessNamed atMarked.named_isName atMarked.ahead, atMarked.marked,
    Parse.unescapedName_marked atMarked.nonempty]
  exact congrArg (ctx.accessNamed expression receiver session.current.position · _)
    (Parse.unescapedName_unmarked atMarked.unmarked).symm

/-- A name with the mark is that of a member of the current element, or unknown. -/
theorem atom_eq : ctx.atom expression session =
    match session.scopes.current.it with
    | some it => ctx.memberAccess expression (.value (.parameter it)) (session.named name)
    | none => .error ⟨session.current.position, .unknownIdentifier session.current.text⟩ session := by
  have hidden : ctx.visibleKeyword? session.scopes.current session.current.text = none := by
    rw [visibleKeyword?, atMarked.noKeyword, Option.filter_none]
  rw [atom_eq_nameIn atMarked.isName]
  simp only [nameIn, hidden, atMarked.noSymbol]
  cases session.scopes.current.it with
  | some it =>
      simp only [Option.filter_some, atMarked.noPosition, Bool.not_false, if_true]
      exact atMarked.memberAccess_eq _
  | none => rfl

/-- A mark in front of a name makes it that of a member: of the receiver in front of it, or of the
current element.  Keywords are members then as well, but parameters, values and elements that have
the name are not reached. -/
theorem means_member : ctx.MarkedMeaning expression session name next rest := by
  have plainly : ctx.atom expression (session.named name) =
      ctx.nameIn expression session.scopes.current name
        (ctx.symbol? session.internals (ctx.env.options.fold name)) (session.named name) :=
    atom_eq_nameIn atMarked.named_isName
  constructor
  case ofMember => exact atMarked.memberAccess_eq
  case ofElement =>
    intro it current
    rw [atMarked.atom_eq, current]
  case ofNothing =>
    intro absent
    rw [atMarked.atom_eq, absent]
  case likePlain =>
    intro element visible noName
    obtain ⟨it, current⟩ := Option.ne_none_iff_exists'.mp element
    rw [atMarked.atom_eq, plainly]
    simp only [nameIn, visible, noName, current, isPositional_unmarked atMarked.unmarked,
      Option.filter_some, Bool.not_false, if_true]
  case ofSymbol =>
    intro symbol visible isSymbol
    rw [plainly]
    simp only [nameIn, visible, isSymbol]
    exact Parse.bind_eq (Parse.advance_eq atMarked.ahead)
  case neverSymbol =>
    intro noArrow e after ran
    rw [atMarked.atom_eq] at ran
    cases current : session.scopes.current.it with
    | none =>
        rw [current] at ran
        cases ran
    | some it =>
        simp only [current] at ran
        rw [memberAccess_eq_accessNamed atMarked.named_isName atMarked.ahead] at ran
        exact ⟨it, rfl, accessNamed_accesses noArrow ran⟩

end AtMarked

end CompileContext

section Example

open CompileContext (AtMarked MarkedMeaning)

/-- A class with a property that is called like a keyword. -/
def catalogue : ClassRef := ⟨"Catalogue", none, false, 1⟩

/-- An environment in which the class is declared. -/
def overCatalogue : Environment :=
  .of .initial (.ofCustom [.cls catalogue])
    #[some mathBody,
      some { ClassBody.empty with
        members := [.property "new" .int32, .property "Prices" (.array .int32)] }]

/-- A catalogue as the element. -/
def catalogueElement : Parameter := ⟨0, "", .cls catalogue⟩

/-- Whether a function gives a member of its parameter. -/
def givesMember (name : String) : Expr → Bool
  | .lambda [p] (.member _ (.parameter q) member) => p == q && member == name
  | _ => false

/-- The property is read with a mark in front of its name. -/
theorem means_member_new :
    let ctx : CompileContext := ⟨overCatalogue, [], []⟩
    let finish : Token := ⟨.finish, "", 4⟩
    (∃ start, Session.start (Scan.ofText "@new" '.') [catalogueElement] ⟨.empty, 1⟩ = .ok start ∧
      ctx.AtMarked start "new" finish [] ∧
      ctx.MarkedMeaning (ctx.expression 2) start "new" finish []) ∧
      ∃ function, (compileFunction overCatalogue [catalogueElement] none "@new" [] ⟨.empty, 1⟩).1 =
        .ok function ∧ givesMember "new" function = true := by
  intro ctx finish
  obtain ⟨noKeyword, noSymbol⟩ := CompileContext.unclaimed_of_unmarked
    (show CompileContext.of overCatalogue [catalogueElement] [] = .ok ctx from rfl)
    (by decide) (by decide) (by decide) (show "new".toList.head? = some 'n' from rfl)
    (by decide)
  have atMarked : ctx.AtMarked ⟨⟨.identifier, "@new", 0⟩, [finish], none,
      .of (.outermost (some catalogueElement)), .empty, ⟨.empty, 1⟩⟩ "new" finish [] :=
    ⟨rfl, rfl, ⟨'n', rfl, by decide, by decide⟩, rfl, noKeyword, noSymbol _ rfl⟩
  exact ⟨⟨_, rfl, atMarked, atMarked.means_member⟩, exists_ok_of_any (by decide +kernel)⟩

/-- Whether a compile fails at a position because a name is unknown. -/
def failsUnknown (position : Nat) (name : String) : Except CompileError Expr → Bool
  | .error ⟨place, .unknownIdentifier unknown⟩ => place == position && unknown == name
  | .error ⟨place, .unknownMember unknown _⟩ => place == position && unknown == name
  | _ => false

/-- With a mark a parameter and a supplied value are unknown, and the name for an element is taken
for a member of it. -/
theorem marked_names_unreached :
    failsUnknown 0 "@n" (compileFunction overCatalogue [⟨0, "n", .int32⟩] none "@n" []
        ⟨.empty, 1⟩).1 = true ∧
      failsUnknown 0 "@n" (compileFunction overCatalogue [] none "@n"
        [.externals [("n", .boolean true)]] ⟨.empty, 1⟩).1 = true ∧
      failsUnknown 16 "x" (compileFunction overCatalogue [catalogueElement] none
        "Prices.Any(x => @x > 1)" [] ⟨.empty, 1⟩).1 = true := by
  decide +kernel

end Example

end QueryTree
