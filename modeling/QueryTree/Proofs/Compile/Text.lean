import QueryTree.Proofs.Compile.Level
import QueryTree.Proofs.Nesting.Step
import QueryTree.Proofs.Outcome

/-!
# Whole texts

Where the compile of a text starts, what its names stand for, and that it yields a built tree in
which only the parameters of the text are visible.
-/

namespace QueryTree

/-- The state in which the compile of a scanned text starts. -/
theorem Session.start_cases {scan : Scan} {params : List Parameter} {store : Store}
    {session : Session} (start : Session.start scan params store = .ok session) :
    ∃ token rest, session = ⟨token, rest, scan.failure, .of (.outermost (initialElement? params)),
        .empty, store⟩ ∧
      (scan.tokens = token :: rest ∨ scan.tokens = [] ∧ scan.failure = none) := by
  unfold Session.start at start
  simp only at start
  split at start
  next tokens => exact ⟨_, _, (Except.ok.inj start).symm, .inl tokens⟩
  next => cases start
  next tokens failure =>
    rw [failure]
    exact ⟨_, _, (Except.ok.inj start).symm, .inr ⟨tokens, rfl⟩⟩

/-- A compile starts in the outermost scope and without names for elements. -/
theorem Session.start_surroundings {scan : Scan} {params : List Parameter} {store : Store}
    {session : Session} (start : Session.start scan params store = .ok session) :
    session.surroundings = ⟨.of (.outermost (initialElement? params)), .empty⟩ := by
  obtain ⟨token, rest, rfl, -⟩ := start_cases start
  rfl

theorem Session.start_store {scan : Scan} {params : List Parameter} {store : Store}
    {session : Session} (start : Session.start scan params store = .ok session) :
    session.store = store := by
  obtain ⟨token, rest, rfl, -⟩ := start_cases start
  rfl

/-- A compile starts at the first token of its text. -/
theorem Session.start_tokens {text : String} {separator : Char} {params : List Parameter}
    {store : Store} {session : Session}
    (start : Session.start (Scan.ofText text separator) params store = .ok session) :
    (Scan.ofText text separator).tokens = session.current :: session.rest := by
  have endsWell := Scan.ofText_endsWell text separator
  obtain ⟨token, rest, rfl, tokens | ⟨tokens, failure⟩⟩ := start_cases start
  · exact tokens
  · rw [tokens, failure] at endsWell
    exact absurd rfl endsWell

/-- All tokens of a text are ahead of its compile. -/
theorem Session.start_reads {text : String} {separator : Char} {params : List Parameter}
    {store : Store} {session : Session}
    (start : Session.start (Scan.ofText text separator) params store = .ok session) :
    session.Reads (Scan.ofText text separator).tokens :=
  Session.start_tokens start ▸ session.reads_ahead

namespace CompileContext

/-- A symbol is one of those that are folded or one that was there before. -/
theorem foldSymbols_mem {options : Options} {entries held all : List (String × Symbol)}
    (outcome : foldSymbols options held entries = .ok all) {key : String} {symbol : Symbol}
    (isSymbol : (key, symbol) ∈ all) :
    (key, symbol) ∈ held ∨ ∃ name, (name, symbol) ∈ entries ∧ key = options.fold name := by
  induction entries generalizing held with
  | nil =>
      cases outcome
      exact .inl isSymbol
  | cons entry rest ih =>
      unfold foldSymbols at outcome
      simp only at outcome
      split at outcome
      next => cases outcome
      next =>
        obtain here | ⟨name, isEntry, same⟩ := ih outcome
        · obtain same | before := List.mem_cons.mp here
          · obtain ⟨rfl, rfl⟩ := Prod.mk.inj same
            exact .inr ⟨entry.1, by simp, rfl⟩
          · exact .inl before
        · exact .inr ⟨name, List.mem_cons_of_mem _ isEntry, same⟩

/-- Folding symbols keeps the ones that were there before, and each folded name stands for its
symbol. -/
theorem foldSymbols_lookup {options : Options} {entries held all : List (String × Symbol)}
    (outcome : foldSymbols options held entries = .ok all) :
    (∀ key symbol, held.lookup key = some symbol → all.lookup key = some symbol) ∧
      ∀ name symbol, (name, symbol) ∈ entries → all.lookup (options.fold name) = some symbol := by
  induction entries generalizing held with
  | nil =>
      cases outcome
      exact ⟨fun _ _ found => found, by simp⟩
  | cons entry rest ih =>
      unfold foldSymbols at outcome
      simp only at outcome
      split at outcome
      next => cases outcome
      next isNew =>
        obtain ⟨keeps, each⟩ := ih outcome
        refine ⟨fun key symbol found => keeps key symbol ?_, fun name symbol isEntry => ?_⟩
        · have other : key ≠ options.fold entry.1 := by
            rintro rfl
            simp [found] at isNew
          rwa [List.lookup_cons, beq_eq_false_iff_ne.mpr other]
        · obtain rfl | later := List.mem_cons.mp isEntry
          · exact keeps _ _ List.lookup_cons_self
          · exact each name symbol later

theorem argumentSymbols_mem {args : List Argument} {place : Nat} {name : String}
    {symbol : Symbol} (isSymbol : (name, symbol) ∈ argumentSymbols place args) :
    (∃ v, symbol = .value v) ∨ ∃ e, Argument.expr e ∈ args ∧ symbol = .expr e := by
  induction args generalizing place with
  | nil => simp [argumentSymbols] at isSymbol
  | cons arg rest ih =>
      have later (isLater : (name, symbol) ∈ argumentSymbols (place + 1) rest) :
          (∃ v, symbol = .value v) ∨ ∃ e, Argument.expr e ∈ arg :: rest ∧ symbol = .expr e := by
        obtain isValue | ⟨e, isArg, same⟩ := ih isLater
        · exact .inl isValue
        · exact .inr ⟨e, List.mem_cons_of_mem _ isArg, same⟩
      unfold argumentSymbols at isSymbol
      simp only at isSymbol
      split at isSymbol
      next here isHere =>
        obtain same | isLater := List.mem_cons.mp isSymbol
        · obtain ⟨rfl, rfl⟩ := Prod.mk.inj same
          cases arg with
          | value v => exact .inl ⟨v, (Option.some.inj isHere).symm⟩
          | expr e => exact .inr ⟨e, by simp, (Option.some.inj isHere).symm⟩
          | externals members =>
              simp only [argumentSymbol?] at isHere
              split at isHere
              next => cases isHere
              next => exact .inl ⟨_, (Option.some.inj isHere).symm⟩
        · exact later isLater
      next => exact later isSymbol

/-- A symbol stands for a parameter, a value or an expression among the arguments. -/
theorem of_symbols {env : Environment} {params : List Parameter} {args : List Argument}
    {ctx : CompileContext} (outcome : CompileContext.of env params args = .ok ctx)
    {key : String} {symbol : Symbol} (isSymbol : (key, symbol) ∈ ctx.symbols) :
    (∃ p ∈ params, symbol = .parameter p) ∨ (∃ v, symbol = .value v) ∨
      ∃ e, Argument.expr e ∈ args ∧ symbol = .expr e := by
  obtain ⟨symbols, folded, same⟩ := bind_eq_ok_iff.mp outcome
  obtain rfl := pure_eq_ok_iff.mp same
  obtain before | ⟨name, isEntry, -⟩ := foldSymbols_mem folded isSymbol
  · simp at before
  · obtain isParameter | isArgument := List.mem_append.mp isEntry
    · obtain ⟨p, isParam, same⟩ := List.mem_map.mp isParameter
      obtain ⟨-, rfl⟩ := Prod.mk.inj same
      exact .inl ⟨p, (List.mem_filter.mp isParam).1, rfl⟩
    · exact .inr (argumentSymbols_mem isArgument)

theorem of_env {env : Environment} {params : List Parameter} {args : List Argument}
    {ctx : CompileContext} (outcome : CompileContext.of env params args = .ok ctx) :
    ctx.env = env := by
  obtain ⟨symbols, -, same⟩ := bind_eq_ok_iff.mp outcome
  exact pure_eq_ok_iff.mp same ▸ rfl

end CompileContext

theorem compileText_eq_ok {α : Type} {env : Environment} {params : List Parameter}
    {args : List Argument} {text : String} {step : CompileContext → Parse α} {store : Store}
    {a : α} (outcome : (compileText env params args text step store).1 = .ok a) :
    ∃ ctx session after, CompileContext.of env params args = .ok ctx ∧
      Session.start (Scan.ofText text env.options.decimalSeparator) params store = .ok session ∧
      step ctx session = .ok a after := by
  rw [compileText] at outcome
  split at outcome
  next => cases outcome
  next ctx context =>
    split at outcome
    next => cases outcome
    next session start =>
      split at outcome
      next b after ran =>
        cases outcome
        exact ⟨ctx, session, after, context, start, ran⟩
      next => cases outcome

theorem initialElement?_mem {params : List Parameter} {p : Parameter}
    (isElement : Session.initialElement? params = some p) : p ∈ params := by
  unfold Session.initialElement? at isElement
  split at isElement
  next =>
    split at isElement
    next => simp [Option.some.inj isElement]
    next => cases isElement
  next => cases isElement

/-- Without expressions among its arguments a text compiles to a tree in which only its parameters
are visible. -/
theorem compileExpr_built {env : Environment} {params : List Parameter} {expected? : Option Ty}
    {text : String} {args : List Argument} {store : Store} {e : Expr}
    (values : ∀ e, Argument.expr e ∉ args)
    (outcome : (compileExpr env params expected? text args store).1 = .ok e) :
    ∃ ctx : CompileContext, ctx.env = env ∧
      ctx.Built (Scan.ofText text env.options.decimalSeparator).tokens (fun _ => False)
        (· ∈ params) e := by
  obtain ⟨ctx, session, after, context, start, ran⟩ := compileText_eq_ok outcome
  refine ⟨ctx, CompileContext.of_env context, ?_⟩
  have supplies (key : String) (e : Expr) (isSymbol : (key, Symbol.expr e) ∈ ctx.symbols) :
      False := by
    obtain ⟨p, -, same⟩ | ⟨v, same⟩ | ⟨e', isArg, -⟩ := CompileContext.of_symbols context isSymbol
    · cases same
    · cases same
    · exact values e' isArg
  have yields := CompileContext.body_yields supplies expected? session.surroundings session
    ⟨rfl, Session.start_reads start⟩
  rw [ran] at yields
  refine yields.2.mono fun p isVisible => ?_
  have outermost := Session.start_surroundings start
  rw [outermost] at isVisible
  obtain it | parent | root | ⟨key, named⟩ | ⟨key, isSymbol⟩ := isVisible
  · exact initialElement?_mem it
  · cases parent
  · exact initialElement?_mem root
  · cases named
  · obtain ⟨q, isParam, same⟩ | ⟨v, same⟩ | ⟨e, -, same⟩ :=
      CompileContext.of_symbols context isSymbol
    · cases same
      exact isParam
    · cases same
    · cases same

/-- A function is compiled from its body. -/
theorem compileFunction_eq_ok {env : Environment} {params : List Parameter} {expected? : Option Ty}
    {text : String} {args : List Argument} {store : Store} {e : Expr}
    (outcome : (compileFunction env params expected? text args store).1 = .ok e) :
    ∃ body, e = .lambda params body ∧
      (compileExpr env params expected? text args store).1 = .ok body := by
  obtain ⟨body, compiled, rfl⟩ := map_eq_ok_iff.mp outcome
  exact ⟨body, rfl, compiled⟩

end QueryTree
