import QueryTree.Compile.Expression
import QueryTree.Expr.Literal
import QueryTree.Proofs.Compile.Surroundings

/-!
# Built trees

The trees that the steps of a compile put together.  A tree is built from trees by the operations
that the grammar has for them; the parameters in it are those that are visible where it stands.
What holds of all trees that a text compiles to is proved by induction on how they are built.
-/

/-!
## Constants of literals

A literal is read as a constant of the natural type of its value, which is a character, a text or
a number.
-/

namespace QueryTree.Literal

/-- Whether a value is of a kind that literals are read as. -/
def isLiteralValue : Value → Bool
  | .char _ | .string _ | .integral _ | .single _ | .double _ | .decimal _ => true
  | _ => false

/-- Whether a value is a number that a literal is read as. -/
def isNumberValue : Value → Bool
  | .integral _ | .single _ | .double _ | .decimal _ => true
  | _ => false

/-- An expression is the constant of a literal. -/
def IsLiteral (e : Expr) : Prop :=
  ∃ value text, e = constant value text ∧ isLiteralValue value = true

/-- An expression is the constant of a number. -/
def IsNumber (e : Expr) : Prop :=
  ∃ value text, e = constant value text ∧ isNumberValue value = true

theorem IsNumber.isLiteral {e : Expr} (isNumber : IsNumber e) : IsLiteral e := by
  obtain ⟨value, text, rfl, isValue⟩ := isNumber
  refine ⟨value, text, rfl, ?_⟩
  cases value <;> first | rfl | cases isValue

theorem IsNumber.noText {e : Expr} (isNumber : IsNumber e) (text : String) :
    e.value? ≠ some (.string text) := by
  obtain ⟨value, kept, rfl, isValue⟩ := isNumber
  intro isText
  obtain rfl : value = .string text := Option.some.inj isText
  cases isValue

theorem quoted_isLiteral {token : Token} {e : Expr} (outcome : quoted token = .ok e) :
    IsLiteral e := by
  rw [quoted] at outcome
  cases decoding : Escape.decode token.position token.text.toList with
  | error error => simp [decoding, bind, Except.bind] at outcome
  | ok decoded =>
      simp only [decoding, bind, Except.bind, pure, Except.pure] at outcome
      split at outcome
      next =>
        split at outcome
        next c => exact ⟨.char c, _, (Except.ok.inj outcome).symm, rfl⟩
        next => cases outcome
      next => exact ⟨.string _, _, (Except.ok.inj outcome).symm, rfl⟩

theorem finiteSingle?_eq_some {text : String} {value : Value}
    (read : finiteSingle? text = some value) : ∃ x, value = .single x := by
  obtain ⟨x, -, finite⟩ := Option.bind_eq_some_iff.mp read
  split at finite
  next => exact ⟨x, (Option.some.inj finite).symm⟩
  next => cases finite

theorem finiteDouble?_eq_some {text : String} {value : Value}
    (read : finiteDouble? text = some value) : ∃ x, value = .double x := by
  obtain ⟨x, -, finite⟩ := Option.bind_eq_some_iff.mp read
  split at finite
  next => exact ⟨x, (Option.some.inj finite).symm⟩
  next => cases finite

theorem real_isNumber {text : String} {separator : Char} {position : Nat} {e : Expr}
    (outcome : real text separator position = .ok e) : IsNumber e := by
  rw [real] at outcome
  simp only at outcome
  split at outcome
  next => cases outcome
  next value read =>
    refine ⟨value, _, (Except.ok.inj outcome).symm, ?_⟩
    split at read
    next =>
      obtain ⟨x, rfl⟩ := finiteSingle?_eq_some read
      rfl
    next =>
      obtain ⟨d, -, rfl⟩ := Option.map_eq_some_iff.mp read
      rfl
    next =>
      obtain ⟨x, rfl⟩ := finiteDouble?_eq_some read
      rfl

theorem real_isLiteral {text : String} {separator : Char} {position : Nat} {e : Expr}
    (outcome : real text separator position = .ok e) : IsLiteral e :=
  (real_isNumber outcome).isLiteral

theorem fitting?_isNumberValue {kinds : List IntKind} {n : Int} {value : Value}
    (fits : fitting? kinds n = some value) : isNumberValue value = true := by
  obtain ⟨number, -, rfl⟩ := Option.map_eq_some_iff.mp fits
  rfl

theorem natural?_isNumberValue {qualifier : List Char} {n : Nat} {value : Value}
    (fits : natural? qualifier n = some value) : isNumberValue value = true := by
  unfold natural? at fits
  split at fits
  any_goals exact fitting?_isNumberValue fits
  cases fits

theorem integer_isNumber {text : String} {position : Nat} {e : Expr}
    (outcome : integer text position = .ok e) : IsNumber e := by
  rw [integer] at outcome
  simp only at outcome
  split at outcome
  next =>
    split at outcome
    next => exact real_isNumber outcome
    next => cases outcome
  next =>
    split at outcome
    next => cases outcome
    next n _ =>
      split at outcome
      next => cases outcome
      next =>
        split at outcome
        next =>
          split at outcome
          next => cases outcome
          next =>
            split at outcome
            next value fits =>
              exact ⟨value, _, (Except.ok.inj outcome).symm, fitting?_isNumberValue fits⟩
            next => cases outcome
        next =>
          split at outcome
          next value fits =>
            exact ⟨value, _, (Except.ok.inj outcome).symm, natural?_isNumberValue fits⟩
          next => cases outcome

theorem integer_isLiteral {text : String} {position : Nat} {e : Expr}
    (outcome : integer text position = .ok e) : IsLiteral e :=
  (integer_isNumber outcome).isLiteral

/-- The constant that a token of a text is read as. -/
inductive ReadFrom (tokens : List Token) (e : Expr) : Prop where
  | quoted {token} (met : Token.Met tokens token) (outcome : Literal.quoted token = .ok e)
  | integer {token} (met : Token.Met tokens token)
      (outcome : Literal.integer token.text token.position = .ok e)
  | real {token separator} (met : Token.Met tokens token)
      (outcome : Literal.real token.text separator token.position = .ok e)

/-- A literal is read as a constant that keeps its text. -/
theorem ReadFrom.isLiteral {tokens : List Token} {e : Expr} (read : ReadFrom tokens e) :
    IsLiteral e := by
  cases read with
  | quoted _ outcome => exact quoted_isLiteral outcome
  | integer _ outcome => exact integer_isLiteral outcome
  | real _ outcome => exact real_isLiteral outcome

/-- Only a token that is read between quotes is a text. -/
theorem ReadFrom.exists_quoted {tokens : List Token} {e : Expr} (read : ReadFrom tokens e)
    {text : String} (isText : e.value? = some (.string text)) :
    ∃ token, Token.Met tokens token ∧ Literal.quoted token = .ok e := by
  cases read with
  | quoted met outcome => exact ⟨_, met, outcome⟩
  | integer _ outcome => exact absurd isText ((integer_isNumber outcome).noText text)
  | real _ outcome => exact absurd isText ((real_isNumber outcome).noText text)

end QueryTree.Literal

namespace QueryTree.CompileContext

open Parse (Within)

/-- The parameters that can be referred to: those of the innermost scope, those that a name of an
element stands for and those that were supplied with a name. -/
def Visible (ctx : CompileContext) (around : Surroundings) (p : Parameter) : Prop :=
  around.frame.it = some p ∨ around.frame.parent = some p ∨ around.frame.root = some p ∨
    (∃ key, around.names.lookup key = some p) ∨ ∃ key, (key, Symbol.parameter p) ∈ ctx.symbols

/-- A name, be it a keyword or not, stands for a value. -/
def NamesValue (ctx : CompileContext) (v : Value) : Prop :=
  (∃ names key, ctx.symbol? names key = some (.value v)) ∨
    ∃ name, ctx.env.keyword? name = some (.constant v)

/-- An expression is built from the tokens of a text, and from expressions that are taken for
granted, where some parameters are visible. -/
inductive Built (ctx : CompileContext) (tokens : List Token) (granted : Expr → Prop) :
    (Parameter → Prop) → Expr → Prop where
  | literal {visible e} (read : Literal.ReadFrom tokens e) : Built ctx tokens granted visible e
  | value {visible v} (named : ctx.NamesValue v) :
      Built ctx tokens granted visible (.ofValue v.naturalType v)
  | null {visible} : Built ctx tokens granted visible .nullLiteral
  | type {visible t} : Built ctx tokens granted visible (.ofValue .type (.type t))
  | parameter {visible p} (isVisible : visible p) : Built ctx tokens granted visible (.parameter p)
  | granted {visible e} (isGranted : granted e) : Built ctx tokens granted visible e
  | invoke {visible function params result args promoted}
      (target : Built ctx tokens granted visible function)
      (typed : function.type = .lambda params result)
      (each : ∀ a ∈ args, Built ctx tokens granted visible a)
      (fits : Expr.promoteAll? ctx.env.classes .exactly params args = some promoted) :
      Built ctx tokens granted visible (.invoke result function promoted)
  | sign {visible op operand e} (inner : Built ctx tokens granted visible operand)
      (outcome : applySign ctx.env.classes op operand = .ok e) : Built ctx tokens granted visible e
  | product {visible token operator left right e}
      (isOperator : productOperator? token = some operator)
      (left_built : Built ctx tokens granted visible left)
      (right_built : Built ctx tokens granted visible right)
      (outcome : Expr.ofGroup ctx.env.classes .arithmetic operator token left right = .ok e) :
      Built ctx tokens granted visible e
  | sum {visible token left right e}
      (left_built : Built ctx tokens granted visible left)
      (right_built : Built ctx tokens granted visible right)
      (outcome : Expr.sum ctx.env.classes token left right = .ok e) :
      Built ctx tokens granted visible e
  | difference {visible token left right e}
      (left_built : Built ctx tokens granted visible left)
      (right_built : Built ctx tokens granted visible right)
      (outcome : Expr.difference ctx.env.classes token left right = .ok e) :
      Built ctx tokens granted visible e
  | shift {visible token operator left right e}
      (isOperator : shiftOperator? token = some operator)
      (left_built : Built ctx tokens granted visible left)
      (right_built : Built ctx tokens granted visible right)
      (outcome : Expr.ofGroup ctx.env.classes .shift operator token left right = .ok e) :
      Built ctx tokens granted visible e
  | comparison {visible token operator left right e}
      (isOperator : comparisonOperator? token = some operator)
      (left_built : Built ctx tokens granted visible left)
      (right_built : Built ctx tokens granted visible right)
      (outcome : Expr.comparison ctx.env.classes operator token left right = .ok e) :
      Built ctx tokens granted visible e
  | bitConjunction {visible token left right e}
      (left_built : Built ctx tokens granted visible left)
      (right_built : Built ctx tokens granted visible right)
      (outcome : Expr.conjunction ctx.env.classes token left right = .ok e) :
      Built ctx tokens granted visible e
  | bitDisjunction {visible token left right e}
      (left_built : Built ctx tokens granted visible left)
      (right_built : Built ctx tokens granted visible right)
      (outcome : Expr.disjunction token left right = .ok e) : Built ctx tokens granted visible e
  | isItem {visible token left right e}
      (left_built : Built ctx tokens granted visible left)
      (right_built : Built ctx tokens granted visible right)
      (outcome : Expr.isItem ctx.env.classes token left right = .ok e) :
      Built ctx tokens granted visible e
  | eitherItem {visible left right}
      (left_built : Built ctx tokens granted visible left)
      (right_built : Built ctx tokens granted visible right)
      (left_type : left.type = .boolean) (right_type : right.type = .boolean) :
      Built ctx tokens granted visible (.test .orElse left right)
  | isContained {visible token item sequence e}
      (item_built : Built ctx tokens granted visible item)
      (sequence_built : Built ctx tokens granted visible sequence)
      (outcome : Expr.isContained ctx.env.classes token item sequence = .ok e) :
      Built ctx tokens granted visible e
  | logical {visible token operator left right e}
      (isOperator : andOperator? token = some operator ∨ orOperator? token = some operator)
      (left_built : Built ctx tokens granted visible left)
      (right_built : Built ctx tokens granted visible right)
      (outcome : Expr.ofGroup ctx.env.classes .logical operator token left right = .ok e) :
      Built ctx tokens granted visible e
  | choose {visible position test ifTrue ifFalse e}
      (test_built : Built ctx tokens granted visible test)
      (true_built : Built ctx tokens granted visible ifTrue)
      (false_built : Built ctx tokens granted visible ifFalse)
      (outcome : Expr.choose ctx.env.classes position test ifTrue ifFalse = .ok e) :
      Built ctx tokens granted visible e
  | orElseValue {visible position left right e}
      (left_built : Built ctx tokens granted visible left)
      (right_built : Built ctx tokens granted visible right)
      (outcome : Expr.orElseValue ctx.env.classes position left right = .ok e) :
      Built ctx tokens granted visible e
  | propagateNull {visible position chain default? e}
      (chain_built : Built ctx tokens granted visible chain)
      (default_built : ∀ d ∈ default?, Built ctx tokens granted visible d)
      (outcome : chain.propagateNull ctx.env.classes position default? = .ok e) :
      Built ctx tokens granted visible e
  | typeTest {visible target wanted test position type}
      (inner : Built ctx tokens granted visible target)
      (outcome : typeTestType test wanted position = .ok type) :
      Built ctx tokens granted visible (.typeTest type target wanted test)
  | convertTo {visible target position operand e} (inner : Built ctx tokens granted visible operand)
      (outcome : Expr.convertTo ctx.env.classes target position operand = .ok e) :
      Built ctx tokens granted visible e
  | constructOf {visible type position args e}
      (each : ∀ a ∈ args, Built ctx tokens granted visible a)
      (outcome : Expr.constructOf ctx.env.classes type position args = .ok e) :
      Built ctx tokens granted visible e
  | methodCall {visible receiver name position args e}
      (receiver_built : ∀ r ∈ Receiver.value? receiver, Built ctx tokens granted visible r)
      (each : ∀ a ∈ args, Built ctx tokens granted visible a)
      (outcome : ctx.methodCall receiver name position args = .ok e) :
      Built ctx tokens granted visible e
  | namedMember {visible receiver name position token e}
      (receiver_built : ∀ r ∈ Receiver.value? receiver, Built ctx tokens granted visible r)
      (met : Token.Met tokens token) (named : name = Parse.unescapedName token.text)
      (outcome : ctx.namedMember receiver name position = .ok e) :
      Built ctx tokens granted visible e
  | indexAccess {visible position target args e}
      (target_built : Built ctx tokens granted visible target)
      (each : ∀ a ∈ args, Built ctx tokens granted visible a)
      (outcome : ctx.indexAccess position target args = .ok e) : Built ctx tokens granted visible e
  /-- An operation on a sequence.  Its element `p` is visible in its arguments unless the
  operation sees the outer scope. -/
  | aggregate {visible inside : Parameter → Prop} {operation source element type typeArgs p} {name}
      {args promoted : List Expr} {params : List Ty}
      (source_built : Built ctx tokens granted visible source) (p_type : p.type = element)
      (elements : source.type.element? ctx.env.classes = some element)
      (each : ∀ a ∈ args, Built ctx tokens granted inside a)
      (outer : ∀ q, inside q → visible q ∨ (operation.seesOuterScope = false ∧ q = p))
      (resolved : Aggregate.resolve ctx.env.classes name args = .found (operation, params) promoted)
      (typed : operation.typing? ctx.env.classes element (promoted.map (·.type)) =
        some (type, typeArgs)) :
      Built ctx tokens granted visible
        (.aggregate type operation source typeArgs (operation.bindElement p promoted))
  /-- An operation whose argument only names a type. -/
  | typedAggregate {visible operation source element wanted}
      (source_built : Built ctx tokens granted visible source)
      (elements : source.type.element? ctx.env.classes = some element)
      (isTyped : operation = .ofType ∨ operation = .cast) :
      Built ctx tokens granted visible (.aggregate (.sequence wanted) operation source [wanted] [])
  | newArray {visible element? position items e}
      (each : ∀ a ∈ items, Built ctx tokens granted visible a)
      (outcome : ctx.newArray element? position items = .ok e) : Built ctx tokens granted visible e
  | newOfType {visible type position items e}
      (each : ∀ item ∈ items, Built ctx tokens granted visible item.value)
      (outcome : ctx.newOfType type position items = .ok e) : Built ctx tokens granted visible e
  | projection {visible type items}
      (each : ∀ item ∈ items, Built ctx tokens granted visible item.value)
      (isRecord : type = .dynamic ∨ ∃ id held,
        type = .record id ((NewItem.named items).map (·.1)) held ∧
          Ty.sameAll held ((NewItem.named items).map (·.2.type)) = true) :
      Built ctx tokens granted visible (.record type .anonymous (NewItem.named items))
  | lambda {visible it body} (isVisible : visible it)
      (inner : Built ctx tokens granted visible body) :
      Built ctx tokens granted visible (.lambda [it] body)
  | promoted {visible target operand e} (inner : Built ctx tokens granted visible operand)
      (outcome : operand.promote? ctx.env.classes .exactly target = some e) :
      Built ctx tokens granted visible e

variable {ctx : CompileContext} {tokens : List Token} {granted : Expr → Prop}

theorem Built.mono {visible wider : Parameter → Prop} {e : Expr}
    (built : ctx.Built tokens granted visible e) (widen : ∀ p, visible p → wider p) :
    ctx.Built tokens granted wider e := by
  induction built generalizing wider with
  | literal read => exact .literal read
  | value named => exact .value named
  | null => exact .null
  | type => exact .type
  | parameter isVisible => exact .parameter (widen _ isVisible)
  | granted isGranted => exact .granted isGranted
  | invoke _ typed _ fits target each =>
      exact .invoke (target widen) typed (fun a member => each a member widen) fits
  | sign _ outcome inner => exact .sign (inner widen) outcome
  | product isOperator _ _ outcome left right =>
      exact .product isOperator (left widen) (right widen) outcome
  | sum _ _ outcome left right => exact .sum (left widen) (right widen) outcome
  | difference _ _ outcome left right => exact .difference (left widen) (right widen) outcome
  | shift isOperator _ _ outcome left right =>
      exact .shift isOperator (left widen) (right widen) outcome
  | comparison isOperator _ _ outcome left right =>
      exact .comparison isOperator (left widen) (right widen) outcome
  | bitConjunction _ _ outcome left right =>
      exact .bitConjunction (left widen) (right widen) outcome
  | bitDisjunction _ _ outcome left right =>
      exact .bitDisjunction (left widen) (right widen) outcome
  | isItem _ _ outcome left right => exact .isItem (left widen) (right widen) outcome
  | eitherItem _ _ left_type right_type left right =>
      exact .eitherItem (left widen) (right widen) left_type right_type
  | isContained _ _ outcome item sequence =>
      exact .isContained (item widen) (sequence widen) outcome
  | logical isOperator _ _ outcome left right =>
      exact .logical isOperator (left widen) (right widen) outcome
  | choose _ _ _ outcome test ifTrue ifFalse =>
      exact .choose (test widen) (ifTrue widen) (ifFalse widen) outcome
  | orElseValue _ _ outcome left right => exact .orElseValue (left widen) (right widen) outcome
  | propagateNull _ _ outcome chain default =>
      exact .propagateNull (chain widen) (fun d isDefault => default d isDefault widen) outcome
  | typeTest _ outcome inner => exact .typeTest (inner widen) outcome
  | convertTo _ outcome inner => exact .convertTo (inner widen) outcome
  | constructOf _ outcome each =>
      exact .constructOf (fun a member => each a member widen) outcome
  | methodCall _ _ outcome receiver each =>
      exact .methodCall (fun r isValue => receiver r isValue widen)
        (fun a member => each a member widen) outcome
  | namedMember _ met named outcome receiver =>
      exact .namedMember (fun r isValue => receiver r isValue widen) met named outcome
  | indexAccess _ _ outcome target each =>
      exact .indexAccess (target widen) (fun a member => each a member widen) outcome
  | aggregate _ p_type elements each outer resolved typed source _ =>
      exact .aggregate (source widen) p_type elements each
        (fun q isInside => (outer q isInside).imp_left (widen q)) resolved typed
  | typedAggregate _ elements isTyped source =>
      exact .typedAggregate (source widen) elements isTyped
  | newArray _ outcome each => exact .newArray (fun a member => each a member widen) outcome
  | newOfType _ outcome each =>
      exact .newOfType (fun item member => each item member widen) outcome
  | projection _ isRecord each =>
      exact .projection (fun item member => each item member widen) isRecord
  | lambda isVisible _ inner => exact .lambda (widen _ isVisible) (inner widen)
  | promoted _ outcome inner => exact .promoted (inner widen) outcome

theorem Visible.of_symbol {around : Surroundings} {key : String} {p : Parameter}
    (isSymbol : (key, Symbol.parameter p) ∈ ctx.symbols) : ctx.Visible around p :=
  .inr (.inr (.inr (.inr ⟨key, isSymbol⟩)))

/-- A name stands for an element that is visible anyway. -/
theorem Visible.of_name {around : Surroundings} {key : String} {element p : Parameter}
    (isElement : around.frame.it = some element)
    (isVisible : ctx.Visible (around.name key element) p) : ctx.Visible around p := by
  obtain it | parent | root | ⟨other, named⟩ | symbol := isVisible
  · exact .inl it
  · exact .inr (.inl parent)
  · exact .inr (.inr (.inl root))
  · simp only [Surroundings.name, ElementNames.lookup, ElementNames.set] at named
    split at named
    next => exact .inl (isElement.trans named)
    next => exact .inr (.inr (.inr (.inl ⟨other, named⟩)))
  · exact .inr (.inr (.inr (.inr symbol)))

/-- In the arguments of an operation its element is visible, unless the operation sees the outer
scope, and else only what is visible around the operation. -/
theorem Visible.of_argument {around : Surroundings} {operation : Aggregate}
    {element p : Parameter}
    (isVisible : ctx.Visible (around.enter (operation.argumentScope around.frame element)) p) :
    ctx.Visible around p ∨ (operation.seesOuterScope = false ∧ p = element) := by
  rw [Aggregate.argumentScope] at isVisible
  cases sees : operation.seesOuterScope with
  | true =>
      simp only [sees, if_true] at isVisible
      obtain it | parent | root | named | symbol := isVisible
      · exact .inl (.inl it)
      · exact .inl (.inl parent)
      · exact .inl (.inr (.inr (.inl root)))
      · exact .inl (.inr (.inr (.inr (.inl named))))
      · exact .inl (.inr (.inr (.inr (.inr symbol))))
  | false =>
      simp only [sees] at isVisible
      obtain it | parent | root | named | symbol := isVisible
      · exact .inr ⟨rfl, (Option.some.inj it).symm⟩
      · exact .inl (.inl parent)
      · exact .inl (.inr (.inr (.inl root)))
      · exact .inl (.inr (.inr (.inr (.inl named))))
      · exact .inl (.inr (.inr (.inr (.inr symbol))))

/-- A step yields trees that are built of what is visible around it, wherever it stands. -/
def Yields (ctx : CompileContext) (tokens : List Token) (granted : Expr → Prop)
    (step : Parse Expr) : Prop :=
  ∀ around, Within tokens around step (ctx.Built tokens granted (ctx.Visible around))

/-- What the procedures rely on: that supplied expressions are taken for granted and that nested
expressions are built. -/
structure Nested (ctx : CompileContext) (tokens : List Token) (granted : Expr → Prop)
    (expression : Parse Expr) : Prop where
  supplies : ∀ key e, (key, Symbol.expr e) ∈ ctx.symbols → granted e
  yields : ctx.Yields tokens granted expression

end QueryTree.CompileContext
