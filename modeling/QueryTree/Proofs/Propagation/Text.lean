import QueryTree.Proofs.Compile.Enclosed
import QueryTree.Proofs.Compile.Node
import QueryTree.Proofs.Propagation.Chain

/-!
# Texts that protect against null

How `np` and its arguments are read, and what a text that is such a call compiles to: a chain of
members and methods that is protected against null by a default.
-/

namespace QueryTree

open Parse QueryTree.Expr

/-- The links of what a text compiles to are declared. -/
theorem Environment.Compiles.linked {env : Environment} {e : Expr} (compiles : env.Compiles e) :
    e.Linked env.classes := by
  have granted {params : List Parameter} {args : List Argument} {ctx : CompileContext}
      (context : CompileContext.of env params args = .ok ctx)
      (supplied : ∀ a, Argument.expr a ∈ args → a.Linked env.classes) :
      ∀ e, Argument.expr e ∈ args → e.Linked ctx.env.classes := by
    rw [CompileContext.of_env context]
    exact supplied
  induction compiles with
  | function _ outcome _ =>
      obtain ⟨body, rfl, -⟩ := compileFunction_eq_ok outcome
      trivial
  | @body _ expected? _ _ _ _ _ outcome supplied =>
      obtain ⟨ctx, session, after, context, start, ran⟩ := compileText_eq_ok outcome
      have yields := CompileContext.body_yields
        (fun _ _ => Environment.Returns.of_symbols_expr context) expected? session.surroundings session
        ⟨rfl, Session.start_reads start⟩
      rw [ran] at yields
      exact CompileContext.of_env context ▸ yields.2.linked (granted context supplied)
  | @selector _ continues _ _ _ _ _ _ outcome isKey supplied =>
      obtain ⟨ctx, session, after, context, start, ran⟩ := compileText_eq_ok outcome
      have yields := CompileContext.ordering_within
        (fun _ _ => Environment.Returns.of_symbols_expr context) continues session
        ⟨rfl, Session.start_reads start⟩
      rw [ran] at yields
      exact CompileContext.of_env context ▸
        (yields.2 _ isKey).linked (granted context supplied)

namespace CompileContext

variable {ctx : CompileContext} {expression : Parse Expr} {start stop after : Session} {depth : Nat}
  {e tree : Expr} {default? : Option Expr}

/-- An atom is a whole expression where none of its operators follows. -/
theorem expression_readsTo_atom {outcome : Option Expr}
    (reads : ReadsTo (ctx.atom (ctx.expression depth)) start outcome stop)
    (noMinus : start.current.kind ≠ .minus) (noNot : start.current.kind ≠ .exclamation)
    (ends : stop.current.kind.grip ≤ 0) :
    ReadsTo (ctx.expression (depth + 1)) start outcome stop := by
  have primary : ReadsTo (ctx.primary (ctx.expression depth)) start outcome stop :=
    reads.keep fun e => by
      rw [bind_eq (tokensLeft_eq stop)]
      exact suffixes_end (TokenKind.opensSuffix_of_grip (Nat.le_trans ends (by decide)))
  have unary : ReadsTo (ctx.levelAt (ctx.expression depth) 8) start outcome stop := by
    refine primary.congr ?_
    change ctx.unary (ctx.expression depth) start = _
    rw [CompileContext.unary, bind_eq (tokensLeft_eq start), unaryFrom_eq_primary noMinus noNot]
  have noOperator : Ends 1 stop.current := .of_grip (Nat.le_refl 1) (Nat.le_succ_of_le ends)
  exact conditional_readsTo_disjunction
    (unary.congr (levelAt_eq_of_stopsAt (n := 1) (Nat.le_refl 1) (by decide) (Nat.le_refl 8)
      (unary.stopsAt noOperator))) (.of_grip ends)

/-- A call of `np` is read: its name, the expression that is protected and the default, if there is
one. -/
structure ReadsProtected (ctx : CompileContext) (expression : Parse Expr) (start : Session)
    (e : Expr) (default? : Option Expr) (stop : Session) : Prop where
  isName : start.current.kind = .identifier
  isKeyword : ctx.env.keyword? start.current.text = some .nullPropagation
  arguments : functionArguments expression start = .ok (e :: default?.toList) stop

namespace ReadsProtected

theorem npFunction_readsTo (reads : ctx.ReadsProtected expression start e default? stop) :
    ReadsTo (ctx.npFunction expression) start
      (if e.receiver?.isSome then
        (e.propagateNull ctx.env.classes start.current.position default?).toOption
      else none) stop := by
  have protect : ReadsTo (if e.receiver?.isSome then
        Parse.lift (e.propagateNull ctx.env.classes start.current.position default?)
      else Parse.failAt start.current.position .npTarget) stop
      (if e.receiver?.isSome then
        (e.propagateNull ctx.env.classes start.current.position default?).toOption
      else none) stop := by
    split
    next => exact .lift _ stop
    next => exact .of_error rfl stop
  refine protect.congr ?_
  rw [npFunction, bind_eq (position_eq start), bind_eq reads.arguments]
  cases default? <;> rfl

theorem atom_eq (reads : ctx.ReadsProtected expression start e default? stop) :
    ctx.atom expression start = ctx.npFunction expression start := by
  have visible : ctx.visibleKeyword? start.scopes.current start.current.text =
      some .nullPropagation := by
    rw [visibleKeyword?, reads.isKeyword]
    rfl
  rw [CompileContext.atom, bind_eq (current_eq start)]
  simp only [reads.isName]
  rw [CompileContext.name, bind_eq (current_eq start), bind_eq (scope_eq start)]
  simp only [visible]
  rfl

/-- Where a call of `np` is a whole expression, this is the protected chain. -/
theorem propagateNull_eq (reads : ctx.ReadsProtected (ctx.expression depth) start e default? stop)
    (ends : stop.current.kind.grip ≤ 0)
    (compiled : ctx.expression (depth + 1) start = .ok tree after) :
    e.receiver?.isSome = true ∧
      e.propagateNull ctx.env.classes start.current.position default? = .ok tree := by
  have whole := expression_readsTo_atom (reads.npFunction_readsTo.congr reads.atom_eq)
    (reads.isName ▸ by decide) (reads.isName ▸ by decide) ends
  obtain ⟨isOutcome, -⟩ := (whole tree after).mp compiled
  split at isOutcome
  next hasReceiver =>
    cases made : e.propagateNull ctx.env.classes start.current.position default? with
    | ok made =>
        rw [made] at isOutcome
        exact ⟨hasReceiver, congrArg _ (Option.some.inj isOutcome)⟩
    | error error =>
        rw [made] at isOutcome
        cases isOutcome
  next => cases isOutcome

/-- A chain of members and built-in methods in a call of `np` is protected against null in every
context in which its start has a value of its type. -/
theorem protects_chain {env : Environment} {params : List Parameter} {args : List Argument}
    {p : Parameter} {prefixes : List Expr} {values : EvalContext} {v : Value}
    (context : CompileContext.of env params args = .ok ctx)
    (supplied : ∀ a, Argument.expr a ∈ args → env.Compiles a)
    (reads : ctx.ReadsProtected (ctx.expression depth) start e default? stop)
    (ends : stop.current.kind.grip ≤ 0)
    (compiled : ctx.expression (depth + 1) start = .ok tree after)
    (chain : Chain p e prefixes) (several : 2 ≤ prefixes.length)
    (isStart : EvaluatesTyped values env.classes (.parameter p) v) :
    Protects values prefixes e default? tree := by
  have linked : e.Linked env.classes := by
    have yields := functionArguments_within
      ⟨fun _ _ => Environment.Returns.of_symbols_expr context,
        expression_yields (fun _ _ => Environment.Returns.of_symbols_expr context) depth⟩
      start ⟨rfl, start.reads_ahead⟩
    rw [reads.arguments] at yields
    have env_eq : ctx.env = env := of_env context
    have built := yields.2 e List.mem_cons_self
    exact env_eq ▸ built.linked fun a isArg => env_eq.symm ▸ (supplied a isArg).linked
  obtain ⟨-, made⟩ := reads.propagateNull_eq ends compiled
  rw [of_env context] at made
  exact chain.protects linked isStart several made

end ReadsProtected

end CompileContext

section Example

/-- A class of persons with a name who are in touch with other persons. -/
def household : ClassRef := ⟨"P", none, false, 1⟩

/-- An environment in which the class is declared. -/
def overHousehold : Environment :=
  .of .initial (.ofCustom [.cls household])
    #[some mathBody,
      some { ClassBody.empty with
        members := [.property "Name" .string, .property "Inner" (.cls household),
          .property "Items" (.array (.cls household))] }]

/-- A person. -/
def member : Parameter := ⟨0, "q", .cls household⟩

/-- What texts over a person are compiled with. -/
def overMember : CompileContext := ⟨overHousehold, [("q", .parameter member)], []⟩

/-- The state before a text over a person that starts with a call of `np`. -/
def beforeProtected (text : String) : Session :=
  ⟨⟨.identifier, "np", 0⟩, (Scan.ofText text '.').tokens.tail, none, .of (.outermost none), .empty,
    ⟨.empty, 1⟩⟩

theorem of_overMember : CompileContext.of overHousehold [member] [] = .ok overMember := rfl

theorem keyword?_np : overHousehold.keyword? "np" = some .nullPropagation :=
  (Environment.keyword?_of "np").trans rfl

/-- A person without a name who is in touch with nobody. -/
theorem nobody_isTyped : (Value.object []).IsTyped overHousehold.classes (.cls household) := by
  refine .object rfl fun name m isMember => ?_
  obtain ⟨isDeclared, -, rfl⟩ := Ty.instanceMember?_mem isMember
  have members : Ty.members overHousehold.classes (.cls household) =
    [.property "Name" .string, .property "Inner" (.cls household),
      .property "Items" (.array (.cls household))] := rfl
  change m ∈ Ty.members overHousehold.classes (.cls household) at isDeclared
  rw [members] at isDeclared
  simp only [List.mem_cons, List.not_mem_nil, or_false] at isDeclared
  obtain rfl | rfl | rfl := isDeclared <;> exact .null rfl

/-- The parameter and the number of the name of another person that a person is in touch with. -/
def otherName? : Expr → Option Parameter
  | .member _ (.member _ (.parameter p) "Inner") "Name" => some p
  | _ => none

theorem otherName?_eq {e : Expr} {p : Parameter} (isName : otherName? e = some p) :
    ∃ type type', e = .member type (.member type' (.parameter p) "Inner") "Name" := by
  unfold otherName? at isName
  split at isName
  next =>
    obtain rfl := Option.some.inj isName
    exact ⟨_, _, rfl⟩
  next => cases isName

/-- Whether a parameter is a person. -/
def isMember (p : Parameter) : Bool :=
  match p.type with
  | .cls c => decide (c = household)
  | _ => false

theorem type_eq_of_isMember {p : Parameter} (same : isMember p = true) :
    p.type = .cls household := by
  unfold isMember at same
  split at same
  next c isClass => exact of_decide_eq_true same ▸ isClass
  next => cases same

/-- Whether arguments are the name of the other person and a default, before the end of a text. -/
def readsOtherName (outcome : EStateM.Result CompileError Session (List Expr)) : Bool :=
  match outcome with
  | .ok [e, _] stop => (otherName? e).any isMember && stop.current.kind == .finish
  | _ => false

theorem readsOtherName_cases {outcome : EStateM.Result CompileError Session (List Expr)}
    (reads : readsOtherName outcome = true) :
    ∃ type type' p d stop, outcome =
        .ok [.member type (.member type' (.parameter p) "Inner") "Name", d] stop ∧
      isMember p = true ∧ stop.current.kind = .finish := by
  unfold readsOtherName at reads
  split at reads
  next e d stop =>
    obtain ⟨any, isFinish⟩ := (Bool.and_eq_true _ _).mp reads
    obtain ⟨p, isName, isPerson⟩ := (Option.any_eq_true _ _).mp any
    obtain ⟨type, type', rfl⟩ := otherName?_eq isName
    exact ⟨type, type', p, d, stop, rfl, isPerson, beq_iff_eq.mp isFinish⟩
  next => cases reads

/-- Whether a step succeeds. -/
def succeeds {α : Type} : EStateM.Result CompileError Session α → Bool
  | .ok _ _ => true
  | .error _ _ => false

theorem exists_of_succeeds {α : Type} {outcome : EStateM.Result CompileError Session α}
    (isOk : succeeds outcome = true) : ∃ a after, outcome = .ok a after := by
  cases outcome with
  | ok a after => exact ⟨a, after, rfl⟩
  | error => cases isOk

/-- The name of the other person or a default, for a person who is in touch with nobody. -/
theorem protects_chain_otherName :
    ∃ p type type' d tree after,
      overMember.expression 13 (beforeProtected "np(q.Inner.Name, \"none\")") = .ok tree after ∧
        ∀ now, Expr.Protects ((EvalContext.initial now).bind p (.object []))
          [.member type' (.parameter p) "Inner",
            .member type (.member type' (.parameter p) "Inner") "Name"]
          (.member type (.member type' (.parameter p) "Inner") "Name") (some d) tree := by
  obtain ⟨type, type', p, d, stop, arguments, isPerson, isFinish⟩ := readsOtherName_cases
    (show readsOtherName (CompileContext.functionArguments (overMember.expression 12)
      (beforeProtected "np(q.Inner.Name, \"none\")")) = true by decide +kernel)
  obtain ⟨tree, after, compiled⟩ := exists_of_succeeds
    (show succeeds (overMember.expression 13 (beforeProtected "np(q.Inner.Name, \"none\")")) = true by
      decide +kernel)
  have isHousehold := type_eq_of_isMember isPerson
  refine ⟨p, type, type', d, tree, after, compiled, fun now => ?_⟩
  have isStart : Expr.EvaluatesTyped ((EvalContext.initial now).bind p (.object []))
      overHousehold.classes (.parameter p) (.object []) := by
    refine ⟨?_, rfl, ?_⟩
    · rw [evaluate, EvalContext.lookup, EvalContext.bind, List.lookup_cons_self]
      rfl
    · rw [Expr.type, isHousehold]
      exact nobody_isTyped
  have chain : Chain p (.member type (.member type' (.parameter p) "Inner") "Name") _ :=
    .member (.member .start)
  have ends : stop.current.kind.grip ≤ 0 := Nat.le_of_eq (congrArg TokenKind.grip isFinish)
  have reads : overMember.ReadsProtected (overMember.expression 12)
      (beforeProtected "np(q.Inner.Name, \"none\")") _ (some d) stop :=
    ⟨rfl, keyword?_np, arguments⟩
  exact reads.protects_chain of_overMember (by simp) ends compiled chain (Nat.le_refl 2) isStart

end Example

end QueryTree

/-!
## Defaults of protected expressions

When the default of a call of `np` counts, whatever is protected: never for one member alone, and
otherwise where one of the links is null.  The start of a chain, such as an item at an index, is no
link of it, so that a member of it fails where it is null.
-/

namespace QueryTree

namespace Expr

variable {table : ClassTable} {position : Nat} {e tree : Expr} {default? : Option Expr}

/-- What becomes of an expression that is protected against null by a default. -/
structure Propagates (e : Expr) (default? : Option Expr) (tree : Expr) : Prop where
  /-- One member alone is left as it is, whatever the default. -/
  single : e.chainReceivers = [] → e.isCall = false → tree = e
  /-- What has no part that may be null is left as it is. -/
  unguarded : e.guarded = [] → tree = e
  /-- Otherwise the expression counts where no part is null, and the default where one is. -/
  guarded : (e.chainReceivers = [] → e.isCall = true) → e.guarded ≠ [] →
    ∃ ifTrue brought, (∃ type, e.BroughtTo type ifTrue) ∧
      (default?.getD nullLiteral).BroughtTo tree.type brought ∧
      tree = whereNoneNull e.guarded ifTrue brought ∧ ∀ values,
        ((∀ part ∈ e.guarded, part.HasSome values) →
          tree.evaluate values = ifTrue.evaluate values) ∧
        ∀ before part after, e.guarded = before ++ part :: after →
          (∀ b ∈ before, b.HasSome values) →
            (part.evaluate values = .ok .null →
              tree.evaluate values = brought.evaluate values) ∧
            ∀ error, part.evaluate values = .error error → tree.evaluate values = .error error
  /-- The parts are links, so that the start of a chain is none of them. -/
  parts : ∀ start links, Spine start e links → start.receiver? = none → links ≠ [] →
    e.guarded = links.filter (·.type.admitsNull)
  /-- Where a link fails the whole fails likewise. -/
  failure : ∀ values start before link after error, Spine start e (before ++ link :: after) →
    start.receiver? = none → (∀ b ∈ before, b.HasSome values) →
      link.evaluate values = .error error → tree.evaluate values = .error error
  /-- A member of the start fails for null where the start is null. -/
  null : ∀ values start type name links, Spine start e (member type start name :: links) →
    start.receiver? = none → name ≠ "HasValue" → start.evaluate values = .ok .null →
      ∃ fault, tree.evaluate values = .error (.null fault)

theorem ofMember_null (type : Ty) {name : String} (isRead : name ≠ "HasValue") :
    ∃ fault, Value.ofMember type name .null = .error (.null fault) := by
  rw [Value.ofMember, if_neg (by simp [isRead])]
  split
  next => exact ⟨_, rfl⟩
  next => exact ⟨_, rfl⟩

theorem propagateNull_propagates (made : e.propagateNull table position default? = .ok tree) :
    Propagates e default? tree := by
  have failure {values : EvalContext} {start link : Expr} {before after : List Expr}
      {error : EvalError} (spine : Spine start e (before ++ link :: after))
      (noReceiver : start.receiver? = none) (some : ∀ b ∈ before, b.HasSome values)
      (failed : link.evaluate values = .error error) : tree.evaluate values = .error error := by
    obtain ⟨rfl, -⟩ | ⟨-, -, ifTrue, ifFalse, unified, rfl⟩ := propagateNull_eq_ok made
    · exact spine.evaluate_error rfl failed _ spine.mem_of_append_cons
    · obtain ⟨⟨type, isTrue⟩, -⟩ := unified.broughtTo
      rw [spine.guarded_eq noReceiver (by simp)]
      exact spine.whereNoneNull_error some failed isTrue ifFalse
  refine ⟨fun none noCall => ?_, fun none => ?_, fun several hasPart => ?_,
    fun start links spine noReceiver hasLink => spine.guarded_eq noReceiver hasLink,
    fun values start before link after error => failure,
    fun values start type name links spine noReceiver isRead isNull => ?_⟩
  · obtain ⟨rfl, -⟩ | ⟨several, -⟩ := propagateNull_eq_ok made
    · rfl
    · cases noCall.symm.trans (several none)
  · obtain ⟨rfl, -⟩ | ⟨-, hasPart, -⟩ := propagateNull_eq_ok made
    · rfl
    · exact absurd none hasPart
  · obtain ⟨-, ⟨none, noCall⟩ | none⟩ | ⟨-, -, ifTrue, ifFalse, unified, rfl⟩ :=
      propagateNull_eq_ok made
    · cases noCall.symm.trans (several none)
    · exact absurd none hasPart
    · obtain ⟨isTrue, isFalse⟩ := unified.broughtTo
      refine ⟨ifTrue, ifFalse, isTrue, (type_whereNoneNull _).symm ▸ isFalse, rfl, fun values =>
        ⟨evaluate_whereNoneNull_true, fun before part after isPart some =>
          ⟨fun isNull => ?_, fun error failed => ?_⟩⟩⟩
      · rw [isPart]
        exact evaluate_whereNoneNull_false some isNull _ _
      · rw [isPart]
        exact evaluate_whereNoneNull_error some failed _ _ _
  · obtain ⟨fault, isFault⟩ := ofMember_null start.type isRead
    refine ⟨fault, failure (show Spine start e ([] ++ member type start name :: links) from spine)
      noReceiver (by simp) ?_⟩
    rw [evaluate, isNull]
    exact isFault

end Expr

namespace CompileContext.ReadsProtected

variable {ctx : CompileContext} {start stop after : Session} {depth : Nat} {e tree : Expr}
  {default? : Option Expr}

/-- What a call of `np` compiles to, whatever is protected in it. -/
theorem propagates (reads : ctx.ReadsProtected (ctx.expression depth) start e default? stop)
    (ends : stop.current.kind.grip ≤ 0)
    (compiled : ctx.expression (depth + 1) start = .ok tree after) :
    Expr.Propagates e default? tree :=
  Expr.propagateNull_propagates (reads.propagateNull_eq ends compiled).2

end CompileContext.ReadsProtected

section Example

/-- The arguments of a call of `np` that protects one member alone. -/
def readsName (outcome : EStateM.Result CompileError Session (List Expr)) : Bool :=
  match outcome with
  | .ok [.member _ (.parameter p) "Name", _] stop =>
    isMember p && stop.current.kind == .finish
  | _ => false

theorem readsName_cases {outcome : EStateM.Result CompileError Session (List Expr)}
    (reads : readsName outcome = true) :
    ∃ type p d stop, outcome = .ok [.member type (.parameter p) "Name", d] stop ∧
      isMember p = true ∧ stop.current.kind = .finish := by
  unfold readsName at reads
  split at reads
  next type p d stop =>
    obtain ⟨isPerson, isFinish⟩ := (Bool.and_eq_true _ _).mp reads
    exact ⟨type, p, d, stop, rfl, isPerson, beq_iff_eq.mp isFinish⟩
  next => cases reads

/-- The name of a person without a name is null for all defaults. -/
theorem propagates_name :
    ∃ p type d tree after,
      overMember.expression 12 (beforeProtected "np(q.Name, \"none\")") = .ok tree after ∧
        Expr.Propagates (.member type (.parameter p) "Name") (some d) tree ∧
        ∀ now, tree.evaluate ((EvalContext.initial now).bind p (.object [])) = .ok .null := by
  obtain ⟨type, p, d, stop, arguments, isPerson, isFinish⟩ := readsName_cases
    (show readsName (CompileContext.functionArguments (overMember.expression 11)
      (beforeProtected "np(q.Name, \"none\")")) = true by decide +kernel)
  obtain ⟨tree, after, compiled⟩ := exists_of_succeeds
    (show succeeds (overMember.expression 12 (beforeProtected "np(q.Name, \"none\")")) = true by
      decide +kernel)
  have ends : stop.current.kind.grip ≤ 0 := Nat.le_of_eq (congrArg TokenKind.grip isFinish)
  have reads : overMember.ReadsProtected (overMember.expression 11)
      (beforeProtected "np(q.Name, \"none\")") (.member type (.parameter p) "Name") (some d) stop :=
    ⟨rfl, keyword?_np, arguments⟩
  have propagates := reads.propagates ends compiled
  refine ⟨p, type, d, tree, after, compiled, propagates, fun now => ?_⟩
  rw [propagates.single rfl rfl, Expr.evaluate, Expr.evaluate, EvalContext.lookup,
    EvalContext.bind, List.lookup_cons_self, Expr.type, type_eq_of_isMember isPerson]
  rfl

/-- Whether a function of a person is null for a person. -/
def isNullFor (person : Value) (function : Expr) : Bool :=
  match function.call .minValue [person] with
  | .ok .null => true
  | _ => false

/-- Whether a function of a person fails for null for a person. -/
def usesNullFor (person : Value) (function : Expr) : Bool :=
  match function.call .minValue [person] with
  | .error (.null _) => true
  | _ => false

/-- A name that is null stays null, though the default is another one; and the name of an item that
is null is no default either, but an error. -/
theorem defaults_ignored :
    (∃ function, (compileFunction overHousehold [member] none "np(q.Name, \"none\")" []
        ⟨.empty, 1⟩).1 = .ok function ∧ isNullFor (.object []) function = true) ∧
      ∃ function, (compileFunction overHousehold [member] none "np(q.Items[0].Name, \"none\")" []
        ⟨.empty, 1⟩).1 = .ok function ∧
          usesNullFor (.object [("Items", .array [.null])]) function = true :=
  ⟨exists_ok_of_any (by decide +kernel), exists_ok_of_any (by decide +kernel)⟩

end Example

end QueryTree
