import QueryTree.Proofs.Compile.Node
import QueryTree.Proofs.Compile.Restoration
import QueryTree.Proofs.Independence.Level

/-!
# Compiling after a history

A text compiles after a history just as on a fresh store, up to the numbers of parameters and record
types, unless it can name a record type by its number or a record type of the history stands in for
one of its own that has other members.
-/

namespace QueryTree

/-! ## Symbols -/

/-- An argument in which parameters have other numbers and record types have lost theirs. -/
def Argument.renumbered (number : Nat → Nat) : Argument → Argument
  | value v => value v
  | expr e => expr (e.renumbered number)
  | externals members => externals members

theorem lookup_map_snd {α β : Type} (change : α → β) (entries : List (String × α)) (key : String) :
    (entries.map (Prod.map id change)).lookup key = (entries.lookup key).map change := by
  induction entries with
  | nil => rfl
  | cons entry rest ih =>
      obtain ⟨name, a⟩ := entry
      simp only [List.map_cons, Prod.map, List.lookup_cons, id_eq]
      split
      · rfl
      · exact ih

namespace CompileContext

variable {number : Nat → Nat}

theorem foldSymbols_map (options : Options) (change : Symbol → Symbol)
    (held entries : List (String × Symbol)) :
    (foldSymbols options (held.map (Prod.map id change))
        (entries.map (Prod.map id change))).toOption
      = (foldSymbols options held entries).toOption.map (·.map (Prod.map id change)) := by
  induction entries generalizing held with
  | nil => rfl
  | cons entry rest ih =>
      obtain ⟨name, symbol⟩ := entry
      simp only [List.map_cons, Prod.map, foldSymbols, id_eq, lookup_map_snd, Option.isSome_map]
      split
      · rfl
      · exact ih ((options.fold name, symbol) :: held)

theorem parameterSymbols_renumbered (params : List Parameter) :
    parameterSymbols (params.map (Parameter.renumbered number))
      = (parameterSymbols params).map (Prod.map id (Numbered.renumbered number)) := by
  simp only [parameterSymbols, List.filter_map, List.map_map]
  rfl

theorem argumentSymbols_renumbered (place : Nat) (args : List Argument) :
    argumentSymbols place (args.map (Argument.renumbered number))
      = (argumentSymbols place args).map (Prod.map id (Numbered.renumbered number)) := by
  induction args generalizing place with
  | nil => rfl
  | cons arg rest ih =>
      have symbol : argumentSymbol? (rest.map (Argument.renumbered number)).isEmpty
            (arg.renumbered number)
          = (argumentSymbol? rest.isEmpty arg).map (Numbered.renumbered number) := by
        rw [List.isEmpty_map]
        cases arg with
        | value v | expr e => rfl
        | externals members =>
            simp only [Argument.renumbered, argumentSymbol?]
            split <;> rfl
      simp only [List.map_cons, argumentSymbols, symbol, ih]
      cases argumentSymbol? rest.isEmpty arg <;> rfl

theorem externalValues_renumbered (options : Options) (args : List Argument) :
    externalValues options (args.map (Argument.renumbered number)) = externalValues options args := by
  rw [externalValues, externalValues, List.getLast?_map]
  cases args.getLast? with
  | none => rfl
  | some arg => cases arg <;> rfl

end CompileContext

theorem Session.initialElement?_renumbered {number : Nat → Nat} (params : List Parameter) :
    initialElement? (params.map (Parameter.renumbered number))
      = (initialElement? params).map (Parameter.renumbered number) := by
  match params with
  | [] | _ :: _ :: _ => rfl
  | [p] =>
      rw [List.map_singleton, initialElement?, initialElement?]
      change (if p.name.isEmpty then _ else _) = _
      split <;> rfl

/-! ## Names that a compile reads -/

/-- A text that a compile can take for the name of a type: that of a token, that of a literal, or one
among the values and the expressions that are supplied. -/
inductive Environment.Reads (env : Environment) (text : String) (args : List Argument) :
    String → Prop where
  | token {token} (isToken : token ∈ (Scan.ofText text env.options.decimalSeparator).tokens) :
    Reads env text args token.text
  | literal {token e name}
    (met : Token.Met (Scan.ofText text env.options.decimalSeparator).tokens token)
    (read : Literal.quoted token = .ok e) (isText : e.value? = some (.string name)) :
    Reads env text args name
  | keyword {word name} (isKeyword : env.keyword? word = some (.constant (.string name))) :
    Reads env text args name
  | value {name} (isArg : Argument.value (.string name) ∈ args) : Reads env text args name
  | external {members key name} (isArg : Argument.externals members ∈ args)
    (isMember : (key, Value.string name) ∈ members) : Reads env text args name
  | supplied {e bound node name} (isArg : Argument.expr e ∈ args)
    (occurs : Expr.Occurs bound node e) (isText : node.value? = some (.string name)) :
    Reads env text args name

namespace CompileContext

variable {ctx : CompileContext} {tokens : List Token}

/-- The constants that a step of the grammar puts in a tree mention no record type if the tokens and
the values that it reads mention none. -/
theorem nodesKeep_isSilent
    (words : ∀ token, Token.Met tokens token → mentionsRecord token.text = false)
    (literals : ∀ e, Literal.ReadFrom tokens e → e.IsSilent)
    (values : ∀ name, ctx.NamesValue (.string name) → mentionsRecord name = false) :
    ctx.NodesKeep tokens Expr.IsSilent where
  other node _ noConstant := by
    intro name isText
    rw [Expr.isConstant, isText] at noConstant
    cases noConstant
  operation _ _ _ _ _ := .of_noText rfl
  comparison _ _ _ _ _ _ outcome := by
    obtain ⟨_, _, _, rfl, -⟩ := Expr.comparison_cases outcome
    exact .of_noText rfl
  call receiver _ _ _ _ _ := by
    cases receiver <;> exact .of_noText rfl
  literal := literals
  value v named := by
    intro name isText
    obtain rfl : v = .string name := Option.some.inj isText
    exact values name named
  type _ := .of_noText rfl
  null _ := .of_noText rfl
  member _ _ _ _ _ _ _ := .of_noText rfl
  name token met := by
    intro name isText
    obtain rfl := Value.string.inj (Option.some.inj isText)
    exact mentionsRecord_unescapedName (words token met)
  adapted _ _ isAdapted silent := silent.adapted isAdapted

/-- A value among the symbols is an argument, or an object of named values. -/
theorem argumentSymbols_value {place : Nat} {args : List Argument} {key : String} {v : Value}
    (isSymbol : (key, Symbol.value v) ∈ argumentSymbols place args) :
    Argument.value v ∈ args ∨ ∃ members, v = Value.ofMembers members := by
  induction args generalizing place with
  | nil => cases isSymbol
  | cons arg rest ih =>
      have later (isLater : (key, Symbol.value v) ∈ argumentSymbols (place + 1) rest) :=
        (ih isLater).imp_left (List.mem_cons_of_mem arg)
      unfold argumentSymbols at isSymbol
      simp only at isSymbol
      split at isSymbol
      next symbol here =>
        obtain same | isLater := List.mem_cons.mp isSymbol
        · obtain rfl := (Prod.mk.inj same).2
          cases arg with
          | value v' =>
              obtain rfl := Symbol.value.inj (Option.some.inj here)
              exact .inl List.mem_cons_self
          | expr e => cases here
          | externals members =>
              rw [argumentSymbol?] at here
              split at here
              next => cases here
              next => exact .inr ⟨members, (Symbol.value.inj (Option.some.inj here)).symm⟩
        · exact later isLater
      next => exact later isSymbol

/-- The texts that names stand for are among those that a compile reads. -/
theorem of_namesValue {env : Environment} {params : List Parameter} {args : List Argument}
    (context : CompileContext.of env params args = .ok ctx) {name : String}
    (named : ctx.NamesValue (.string name)) (text : String) : env.Reads text args name := by
  obtain ⟨symbols, folded, same⟩ := bind_eq_ok_iff.mp context
  obtain rfl := pure_eq_ok_iff.mp same
  obtain ⟨names, key, found⟩ | ⟨word, isKeyword⟩ := named
  · cases own : symbols.lookup key with
    | some symbol =>
        obtain rfl : symbol = .value (.string name) := by simpa [symbol?, own] using found
        obtain before | ⟨_, isEntry, -⟩ := foldSymbols_mem folded (mem_of_lookup own)
        · cases before
        · obtain isParam | isArgument := List.mem_append.mp isEntry
          · obtain ⟨p, -, same⟩ := List.mem_map.mp isParam
            cases (Prod.mk.inj same).2
          · obtain isArg | ⟨members, same⟩ := argumentSymbols_value isArgument
            · exact .value isArg
            · cases same
    | none =>
        cases external : (externalValues env.options args).lookup key with
        | some v =>
            obtain rfl : v = .string name := by simpa [symbol?, own, external] using found
            have isExternal := mem_of_lookup external
            unfold externalValues at isExternal
            split at isExternal
            next members isLast =>
              obtain ⟨member, isMember, same⟩ := List.mem_map.mp isExternal
              obtain ⟨-, isText⟩ := Prod.mk.inj same
              have among : (member.1, Value.string name) ∈ members :=
                isText ▸ List.mem_reverse.mp isMember
              exact .external (List.mem_of_getLast? isLast) among
            next => cases isExternal
        | none => cases element : names.lookup key <;> simp [symbol?, own, external, element] at found
  · exact .keyword isKeyword

end CompileContext

/-! ## Texts -/

/-- Two outcomes that are the same up to numbers: errors, or results that are equal once the
parameters of the second one are numbered anew and the record types of both have lost their
numbers. -/
inductive SameUpTo {α : Type} [Numbered α] (number : Nat → Nat) :
    Except CompileError α → Except CompileError α → Prop where
  | results {a a' : α} (same : Numbered.renumbered id a = Numbered.renumbered number a') :
    SameUpTo number (.ok a) (.ok a')
  | errors {error error' : CompileError} : SameUpTo number (.error error) (.error error')

theorem SameUpTo.lambda {number : Nat → Nat} {body body' : Except CompileError Expr}
    {params params' : List Parameter} (same : SameUpTo number body body')
    (sameParams : params.map (Parameter.renumbered id)
      = params'.map (Parameter.renumbered number)) :
    SameUpTo number (body.map (Expr.lambda params)) (body'.map (Expr.lambda params')) := by
  cases same with
  | results twin => exact .results (congrArg₂ Expr.lambda sameParams twin)
  | errors => exact .errors

/-- A compile after a history repeats one on a fresh store: its parameters and arguments are the
same up to numbers, and so are the parameters that it makes. -/
structure Repeats (number : Nat → Nat) (params params' : List Parameter)
    (args args' : List Argument) (after fresh : Store) : Prop where
  distinct : Function.Injective number
  params : params.map (Parameter.renumbered id) = params'.map (Parameter.renumbered number)
  args : args.map (Argument.renumbered id) = args'.map (Argument.renumbered number)
  made : ∀ n, number (fresh.nextParameter + n) = after.nextParameter + n
  noRecords : fresh.records = .empty

namespace Repeats

variable {number : Nat → Nat} {params params' : List Parameter} {args args' : List Argument}
  {after fresh : Store} (repeats : Repeats number params params' args args' after fresh)
  {env : Environment} {text : String}

/-- The two runs of a compile that is repeated. -/
def rerun (repeats : Repeats number params params' args args' after fresh) (env : Environment)
    (text : String) : Rerun where
  tokens := (Scan.ofText text env.options.decimalSeparator).tokens
  history := after.records.shapes
  number := number
  distinct := repeats.distinct

include repeats

theorem symbols (options : Options) :
    (CompileContext.foldSymbols options []
        (CompileContext.parameterSymbols params
          ++ CompileContext.argumentSymbols 0 args)).toOption.map
        (·.map (Prod.map id (Numbered.renumbered id)))
      = (CompileContext.foldSymbols options []
          (CompileContext.parameterSymbols params'
            ++ CompileContext.argumentSymbols 0 args')).toOption.map
          (·.map (Prod.map id (Numbered.renumbered number))) := by
  have entries : (CompileContext.parameterSymbols params
        ++ CompileContext.argumentSymbols 0 args).map (Prod.map id (Numbered.renumbered id))
      = (CompileContext.parameterSymbols params'
        ++ CompileContext.argumentSymbols 0 args').map
          (Prod.map id (Numbered.renumbered number)) := by
    rw [List.map_append, List.map_append, ← CompileContext.parameterSymbols_renumbered,
      ← CompileContext.parameterSymbols_renumbered, ← CompileContext.argumentSymbols_renumbered,
      ← CompileContext.argumentSymbols_renumbered, repeats.params, repeats.args]
  have folded := CompileContext.foldSymbols_map options (Numbered.renumbered id) []
    (CompileContext.parameterSymbols params ++ CompileContext.argumentSymbols 0 args)
  rw [entries] at folded
  exact folded.symm.trans (CompileContext.foldSymbols_map options (Numbered.renumbered number) [] _)

/-- Either both compiles have a context or neither has. -/
theorem contexts :
    (∃ error error', CompileContext.of env params args = .error error
        ∧ CompileContext.of env params' args' = .error error')
      ∨ ∃ ctx ctx', CompileContext.of env params args = .ok ctx
        ∧ CompileContext.of env params' args' = .ok ctx'
        ∧ (repeats.rerun env text).Contexts ctx ctx' := by
  have symbols := repeats.symbols env.options
  have externals : CompileContext.externalValues env.options args
      = CompileContext.externalValues env.options args' := by
    rw [← CompileContext.externalValues_renumbered, repeats.args,
      CompileContext.externalValues_renumbered]
  unfold CompileContext.of
  cases h : CompileContext.foldSymbols env.options []
      (CompileContext.parameterSymbols params ++ CompileContext.argumentSymbols 0 args) <;>
    cases h' : CompileContext.foldSymbols env.options []
      (CompileContext.parameterSymbols params' ++ CompileContext.argumentSymbols 0 args') <;>
    rw [h, h'] at symbols
  case error.error error error' => exact .inl ⟨error, error', rfl, rfl⟩
  case ok.ok held held' =>
    refine .inr ⟨_, _, rfl, rfl, rfl, fun key => ?_, externals⟩
    have same := congrArg (List.lookup key) (Option.some.inj symbols)
    rwa [lookup_map_snd, lookup_map_snd] at same
  all_goals cases symbols

/-- Either both compiles have a first token or neither has. -/
theorem starts :
    (∃ error,
        Session.start (Scan.ofText text env.options.decimalSeparator) params after = .error error
          ∧ Session.start (Scan.ofText text env.options.decimalSeparator) params' fresh
            = .error error)
      ∨ ∃ session session',
        Session.start (Scan.ofText text env.options.decimalSeparator) params after = .ok session
          ∧ Session.start (Scan.ofText text env.options.decimalSeparator) params' fresh
            = .ok session'
          ∧ (repeats.rerun env text).Sessions session session' := by
  have element : (repeats.rerun env text).Twin (Session.initialElement? params)
      (Session.initialElement? params') := by
    change Option.map (Parameter.renumbered id) _ = Option.map (Parameter.renumbered number) _
    rw [← Session.initialElement?_renumbered, repeats.params, Session.initialElement?_renumbered]
  have scopes : (repeats.rerun env text).TwinScopes
      (.of (.outermost (Session.initialElement? params)))
      (.of (.outermost (Session.initialElement? params'))) :=
    ⟨congrArg (fun p? => ScopeFrame.mk p? none p?) element, rfl⟩
  have begins (current : Token) (rest : List Token) (failure : Option CompileError)
      (start : Session.start (Scan.ofText text env.options.decimalSeparator) params' fresh
        = .ok ⟨current, rest, failure, .of (.outermost (Session.initialElement? params')), .empty,
          fresh⟩) :
      (repeats.rerun env text).Sessions
        ⟨current, rest, failure, .of (.outermost (Session.initialElement? params)), .empty, after⟩
        ⟨current, rest, failure, .of (.outermost (Session.initialElement? params')), .empty,
          fresh⟩ :=
    ⟨rfl, rfl, rfl, scopes, fun _ => rfl, repeats.made, repeats.noRecords ▸ .start after.records,
      Session.start_reads start⟩
  cases tokens : (Scan.ofText text env.options.decimalSeparator).tokens with
  | cons token rest =>
      refine .inr ⟨_, _, ?_, ?_, begins token rest
        (Scan.ofText text env.options.decimalSeparator).failure ?_⟩ <;>
        simp only [Session.start, tokens]
  | nil =>
      cases failure : (Scan.ofText text env.options.decimalSeparator).failure with
      | none =>
          refine .inr ⟨_, _, ?_, ?_, begins ⟨.finish, "", 0⟩ [] none ?_⟩ <;>
            simp only [Session.start, tokens, failure]
      | some error =>
          refine .inl ⟨error, ?_, ?_⟩ <;> simp only [Session.start, tokens, failure]

/-- Steps that go together make texts compile alike, and if they compile, the record types stay
beside each other. -/
theorem compileText_ends {α : Type} [Numbered α] {step : CompileContext → Parse α}
    (steps : ∀ ctx ctx', CompileContext.of env params' args' = .ok ctx' →
      (repeats.rerun env text).Contexts ctx ctx' →
      (repeats.rerun env text).Steps (step ctx) (step ctx'))
    (clear : (compileText env params' args' text step fresh).2.records.ClearOf
      after.records.shapes) :
    SameUpTo number (compileText env params args text step after).1
        (compileText env params' args' text step fresh).1 ∧
      ∀ a, (compileText env params args text step after).1 = .ok a →
        RecordTypes.Beside after.records.shapes
          (compileText env params args text step after).2.records
          (compileText env params' args' text step fresh).2.records := by
  unfold QueryTree.compileText at clear ⊢
  obtain ⟨error, error', failed, failed'⟩ | ⟨ctx, ctx', context, context', contexts⟩ :=
    repeats.contexts
  · rw [failed, failed']
    exact ⟨.errors, nofun⟩
  · rw [context'] at clear
    rw [context, context']
    simp only at clear ⊢
    obtain ⟨error, failed, failed'⟩ | ⟨session, session', start, start', sessions⟩ :=
      repeats.starts
    · rw [failed, failed']
      exact ⟨.errors, nofun⟩
    · rw [start'] at clear
      rw [start, start']
      have ends := (steps ctx ctx' context' contexts).ends session session' sessions
      simp only [Parse.finalRecords] at clear ends ⊢
      cases ran' : step ctx' session' with
      | ok a' _ =>
          rw [ran'] at clear ends
          generalize step ctx session = outcome at ends ⊢
          cases ends clear with
          | ok twin sessions' => exact ⟨.results twin, fun _ _ => sessions'.records⟩
      | error error' _ =>
          rw [ran'] at clear ends
          generalize step ctx session = outcome at ends ⊢
          cases ends clear with
          | error => exact ⟨.errors, nofun⟩

/-- Steps that go together make texts compile alike. -/
theorem compileText {α : Type} [Numbered α] {step : CompileContext → Parse α}
    (steps : ∀ ctx ctx', CompileContext.of env params' args' = .ok ctx' →
      (repeats.rerun env text).Contexts ctx ctx' →
      (repeats.rerun env text).Steps (step ctx) (step ctx'))
    (clear : (compileText env params' args' text step fresh).2.records.ClearOf
      after.records.shapes) :
    SameUpTo number (compileText env params args text step after).1
      (compileText env params' args' text step fresh).1 :=
  (repeats.compileText_ends steps clear).1

/-- What a compile reads is silent if no name that it reads mentions a record type. -/
theorem silent (noRecord : ∀ name, env.Reads text args' name → mentionsRecord name = false)
    {ctx' : CompileContext} (context' : CompileContext.of env params' args' = .ok ctx') :
    (repeats.rerun env text).Silent ctx' (Argument.expr · ∈ args') := by
  have words (token : Token)
      (met : Token.Met (Scan.ofText text env.options.decimalSeparator).tokens token) :
      mentionsRecord token.text = false :=
    met.silent fun token isToken => noRecord _ (.token isToken)
  have literals (e : Expr)
      (read : Literal.ReadFrom (Scan.ofText text env.options.decimalSeparator).tokens e) :
      e.IsSilent := by
    intro name isText
    obtain ⟨token, met, quoted⟩ := read.exists_quoted isText
    exact noRecord name (.literal met quoted isText)
  have keep := CompileContext.nodesKeep_isSilent words literals
    fun name named => noRecord name (CompileContext.of_namesValue context' named text)
  refine ⟨words, fun visible e built => (keep.built (fun e isArg => ?_) built).at_root⟩
  exact Expr.everywhere_of_occurs fun bound node occurs name isText =>
    noRecord name (.supplied isArg occurs isText)

/-- Compiling a text is independent of the history of the configuration, if no name that it reads
mentions a record type and no record type of the history stands in for one of the text that has
other members. -/
theorem independent (noRecord : ∀ name, env.Reads text args' name → mentionsRecord name = false) :
    (∀ expected? : Option Ty,
      (compileExpr env params' expected? text args' fresh).2.records.ClearOf after.records.shapes →
        SameUpTo number (compileExpr env params expected? text args after).1
            (compileExpr env params' expected? text args' fresh).1
          ∧ SameUpTo number (compileFunction env params expected? text args after).1
            (compileFunction env params' expected? text args' fresh).1)
      ∧ ∀ continues : Bool,
        (compileOrdering env params' continues text args' fresh).2.records.ClearOf
            after.records.shapes →
          SameUpTo number (compileOrdering env params continues text args after).1
            (compileOrdering env params' continues text args' fresh).1 := by
  have supplies {ctx' : CompileContext} (context' : CompileContext.of env params' args' = .ok ctx')
      (key : String) (e : Expr) (isSymbol : (key, Symbol.expr e) ∈ ctx'.symbols) :
      Argument.expr e ∈ args' :=
    Environment.Returns.of_symbols_expr context' isSymbol
  refine ⟨fun expected? clear => ?_, fun continues clear => ?_⟩
  · have same : SameUpTo number (compileExpr env params expected? text args after).1
        (compileExpr env params' expected? text args' fresh).1 :=
      repeats.compileText (fun ctx ctx' context' contexts =>
        Rerun.body contexts (repeats.silent noRecord context') (supplies context') expected?) clear
    refine ⟨same, ?_⟩
    exact same.lambda repeats.params
  · exact repeats.compileText (fun ctx ctx' context' contexts =>
      Rerun.ordering contexts (repeats.silent noRecord context') (supplies context') continues)
      clear

end Repeats

section Example

/-- Without a sign only the tokens of the text are met. -/
theorem Token.Met.isToken {tokens : List Token}
    (noSign : ∀ token ∈ tokens, token.kind ≠ .minus) {token : Token}
    (met : Token.Met tokens token) : token ∈ tokens := by
  induction met with
  | own isToken => exact isToken
  | signed isSign _ _ sign _ => exact absurd isSign (noSign _ sign)

/-- A configuration that nothing is told. -/
def freshEnvironment : Environment := .of .initial .empty .initial

/-- The store of a fresh configuration, after a parameter was made. -/
def freshStore : Store := ⟨.empty, 1⟩

/-- The store of a configuration on which a projection of a text was compiled, and on which more
parameters were made. -/
def namedStore : Store := ⟨⟨[(["Name"], [.string])]⟩, 5⟩

/-- Numbers to be projected. -/
def projectedParam (id : Nat) : Parameter := ⟨id, "xs", .array .int32⟩

/-- A projection with a member that is read again. -/
def projectedText : String := "xs.Select(new(it as A)).Where(A > 1)"

/-- No keyword of a fresh configuration stands for a text. -/
theorem freshKeywords_noText : freshEnvironment.keywords.all (fun entry =>
    match entry.2 with
    | .constant v => v.string?.isNone
    | _ => true) = true := by
  decide +kernel

/-- Whether a token is no sign, and neither it nor a text that it stands for mentions a record
type. -/
def Token.isSilent (token : Token) : Bool :=
  token.kind != .minus && !mentionsRecord token.text &&
    (Literal.quoted token).toOption.all fun e =>
      e.value?.all fun v => v.string?.all (!mentionsRecord ·)

/-- No name that a text reads on a fresh configuration mentions a record type if its tokens mention
none. -/
theorem freshEnvironment_silent {text : String}
    (tokens : (Scan.ofText text freshEnvironment.options.decimalSeparator).tokens.all Token.isSilent
      = true) (name : String) (reads : freshEnvironment.Reads text [] name) :
    mentionsRecord name = false := by
  have each (token : Token)
      (isToken : token ∈ (Scan.ofText text freshEnvironment.options.decimalSeparator).tokens) :
      token.kind ≠ .minus ∧ mentionsRecord token.text = false ∧
        (Literal.quoted token).toOption.all (fun e =>
          e.value?.all fun v => v.string?.all (!mentionsRecord ·)) = true := by
    have silent := List.all_eq_true.mp tokens token isToken
    simpa only [Token.isSilent, Bool.and_eq_true, bne_iff_ne, Bool.not_eq_true', and_assoc]
      using silent
  cases reads with
  | token isToken => exact (each _ isToken).2.1
  | @literal token e name met read isText =>
      have isToken := met.isToken fun token isToken => (each token isToken).1
      have silent := (each token isToken).2.2
      rw [read] at silent
      simpa [Except.toOption, isText, Value.string?] using silent
  | @keyword word name isKeyword =>
      rw [Environment.keyword?] at isKeyword
      have isEntry : (freshEnvironment.options.fold word, Keyword.constant (.string name))
          ∈ freshEnvironment.keywords := CompileContext.mem_of_lookup isKeyword
      cases List.all_eq_true.mp freshKeywords_noText _ isEntry
  | value isArg | external isArg _ | supplied isArg _ _ => cases isArg

/-- The projection compiles after the history just as without it. -/
theorem independent_projection :
    (compileFunction freshEnvironment [projectedParam 0] none projectedText [] freshStore).1.isOk
        = true
      ∧ SameUpTo (· + 4)
        (compileFunction freshEnvironment [projectedParam 4] none projectedText [] namedStore).1
        (compileFunction freshEnvironment [projectedParam 0] none projectedText [] freshStore).1 := by
  have repeats : Repeats (· + 4) [projectedParam 4] [projectedParam 0] [] [] namedStore freshStore :=
    ⟨fun _ _ => Nat.add_right_cancel, rfl, rfl, fun n => by
      simp only [freshStore, namedStore]
      omega, rfl⟩
  have clear : (compileExpr freshEnvironment [projectedParam 0] none projectedText []
      freshStore).2.records.ClearOf namedStore.records.shapes := by
    have others : (compileExpr freshEnvironment [projectedParam 0] none projectedText []
        freshStore).2.records.shapes.all (·.1 != ["Name"]) = true := by
      decide +kernel
    intro held isHeld made isMade same
    obtain rfl := List.mem_singleton.mp isHeld
    exact absurd same.1.symm (by simpa using List.all_eq_true.mp others made isMade)
  have silent := @freshEnvironment_silent projectedText (by decide +kernel)
  exact ⟨by decide +kernel, ((repeats.independent silent).1 none clear).2⟩

/-- A projection whose type is named by its number. -/
def numberedText : String := "xs.Select(new(it as A)).Select(new DynamicClass1(it))"

/-- The first record type of a configuration has another name after a history. -/
theorem numbered_after_history :
    (compileFunction freshEnvironment [projectedParam 0] none numberedText [] freshStore).1.isOk
        = true
      ∧ (compileFunction freshEnvironment [projectedParam 0] none numberedText [] namedStore).1.isOk
        = false := by
  decide +kernel

/-- A value of an enumeration. -/
def levelParam : Parameter :=
  ⟨0, "x", .enum ⟨"Level", none, .int32, false, [("Low", 0), ("High", 1)]⟩⟩

/-- The store of a configuration on which a value of a namesake of the enumeration was projected. -/
def namesakeStore : Store := ⟨⟨[(["P"], [.enum ⟨"Level", none, .int32, false, [("Low", 0)]⟩])]⟩, 1⟩

/-- A member of a projection that is compared. -/
def levelText : String := "new(x as P).P == \"High\""

/-- A record type of the history stands in for one with the namesake of its member's type. -/
theorem namesake_after_history :
    (compileFunction freshEnvironment [levelParam] none levelText [] freshStore).1.isOk = true
      ∧ (compileFunction freshEnvironment [levelParam] none levelText [] namesakeStore).1.isOk
        = false := by
  decide +kernel

end Example

end QueryTree
