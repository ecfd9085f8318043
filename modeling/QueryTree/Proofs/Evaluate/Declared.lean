import QueryTree.Proofs.Comparison.Mirror
import QueryTree.Proofs.Compile.Node
import QueryTree.Proofs.Model.Loading
import QueryTree.Proofs.Model.Written

/-!
# Evaluation of what classes declare

What the evaluation makes of the operators and methods that a schema declares.  It knows neither of
them: a comparison that calls an operator method is evaluated as if it called none, and a method of
a class is told from a built-in one by their names only.
-/

namespace QueryTree

/-- The methods that the evaluation knows besides the one that every type has. -/
def Method.builtIn : List Method := ofString ++ ofDateTime ++ ofMath

/-- A class has a built-in method of a name. -/
def Method.IsBuiltIn (className name : String) : Prop :=
  ∃ b ∈ Method.builtIn, b.declaringType = className ∧ b.name = name

instance (className name : String) : Decidable (Method.IsBuiltIn className name) :=
  inferInstanceAs (Decidable (∃ b ∈ Method.builtIn, _ ∧ _))

/-- The names of the classes with built-in methods. -/
def builtInClasses : List String := ["String", "DateTime", "Math"]

namespace Value

open Method (IsBuiltIn)

variable {name : String} {method : Method} {receiver? : Option Value} {args : List Value}
  {value : Value}

theorem callTextFunction_eq_ok (outcome : callTextFunction name args = .ok value) :
    IsBuiltIn "String" name := by
  unfold callTextFunction at outcome
  split at outcome
  any_goals decide
  cases outcome

theorem callTextMethod_eq_ok {s : String} (outcome : callTextMethod name s args = .ok value) :
    IsBuiltIn "String" name := by
  unfold callTextMethod at outcome
  split at outcome
  any_goals decide
  cases outcome

theorem callDateTimeMethod_eq_ok {moment : DateTime}
    (outcome : callDateTimeMethod name moment args = .ok value) : IsBuiltIn "DateTime" name := by
  obtain ⟨amount, -, outcome⟩ := bind_eq_ok_iff.mp outcome
  obtain ⟨unit, isUnit, -⟩ := bind_eq_ok_iff.mp outcome
  unfold millisPerUnit? at isUnit
  split at isUnit
  any_goals decide
  cases isUnit

theorem callMath_eq_ok (outcome : callMath name args = .ok value) : IsBuiltIn "Math" name := by
  unfold callMath at outcome
  simp only at outcome
  split at outcome
  any_goals decide
  cases outcome

/-- A call that yields a value is one of a built-in method, by the names of the method and its
class. -/
theorem callMethod_eq_ok (other : method.name ≠ "ToString")
    (outcome : callMethod method receiver? args = .ok value) :
    IsBuiltIn method.declaringType method.name := by
  unfold callMethod at outcome
  rw [if_neg other] at outcome
  split at outcome
  next isText => exact isText ▸ callTextFunction_eq_ok outcome
  next isText => exact isText ▸ callTextMethod_eq_ok outcome
  next isMoment => exact isMoment ▸ callDateTimeMethod_eq_ok outcome
  next => cases outcome
  next => cases outcome
  next isMath => exact isMath ▸ callMath_eq_ok outcome
  next => cases outcome

/-- Methods of one name of classes of one name are called alike. -/
theorem callMethod_congr {other : Method} (classes : other.declaringType = method.declaringType)
    (names : other.name = method.name) :
    callMethod method receiver? args = callMethod other receiver? args := by
  simp only [callMethod, classes, names]

/-- A call of a method of a class without built-in methods is not supported. -/
theorem callMethod_unsupported (other : method.name ≠ "ToString")
    (unknown : method.declaringType ∉ builtInClasses) :
    callMethod method receiver? args =
      .error (.unsupported (.method method.declaringType method.name)) := by
  have isOther {type : String} (isBuiltIn : type ∈ builtInClasses) :
      method.declaringType ≠ type := fun same => unknown (same ▸ isBuiltIn)
  unfold callMethod
  rw [if_neg other]
  split
  next isText => exact absurd isText (isOther (by decide))
  next isText => exact absurd isText (isOther (by decide))
  next isMoment => exact absurd isMoment (isOther (by decide))
  next isText _ _ => exact absurd isText (isOther (by decide))
  next isMoment _ => exact absurd isMoment (isOther (by decide))
  next isMath => exact absurd isMath (isOther (by decide))
  next => rfl

end Value

namespace Expr

/-- A node calls a method: the method, the value it is called on if there is one, and the values of
the arguments. -/
inductive Calls (ctx : EvalContext) (method : Method) :
    Expr → Option Value → List Value → Prop where
  | static {type args values} (isArgs : evaluateAll args ctx = .ok values) :
      Calls ctx method (.staticCall type method args) none values
  | onValue {type target args value values} (isTarget : target.evaluate ctx = .ok value)
      (isArgs : evaluateAll args ctx = .ok values) :
      Calls ctx method (.methodCall type method target args) (some value) values

theorem Calls.evaluate {ctx : EvalContext} {method : Method} {node : Expr}
    {receiver? : Option Value} {values : List Value} (calls : node.Calls ctx method receiver? values) :
    node.evaluate ctx = Value.callMethod method receiver? values := by
  cases calls with
  | static isArgs => simp only [Expr.evaluate, isArgs, bind, Except.bind]
  | onValue isTarget isArgs => simp only [Expr.evaluate, isTarget, isArgs, bind, Except.bind]

/-- The method that a node calls. -/
def method? : Expr → Option Method
  | staticCall _ method _ | methodCall _ method _ _ => some method
  | _ => none

theorem Calls.method?_eq {ctx : EvalContext} {method : Method} {node : Expr}
    {receiver? : Option Value} {values : List Value}
    (calls : node.Calls ctx method receiver? values) : node.method? = some method := by
  cases calls <;> rfl

theorem compareValues_method {table : ClassTable} {operator : BinaryOp} {op : Token}
    {left right : Expr} {c : Compared} {name : String}
    (outcome : compareValues table operator op left right = .ok c)
    (isMethod : c.method = some name) :
    name = operator.methodName ∧ hasOperator table left.type operator = true ∧
      (c.left.type == c.right.type) = true := by
  cases valuesCompared outcome with
  | textRight | textLeft | builtIn => cases isMethod
  | declared same has => exact ⟨(Option.some.inj isMethod).symm, has, same⟩

/-- A comparison calls only the method of its own operator, which the type of both operands has. -/
theorem comparison_method {table : ClassTable} {operator : BinaryOp} {op : Token}
    {left right e : Expr} (outcome : comparison table operator op left right = .ok e) :
    ∃ left' right' method?, e = .binary .boolean operator left' right' method? ∧
      ∀ name, method? = some name → name = operator.methodName ∧
        hasOperator table left.type operator = true ∧ (left'.type == right'.type) = true := by
  obtain ⟨c, outcome, same⟩ := bind_eq_ok_iff.mp outcome
  refine ⟨c.left, c.right, c.method, (pure_eq_ok_iff.mp same).symm, fun name isMethod => ?_⟩
  cases operandsCompared outcome with
  | references | members | integers => cases isMethod
  | values outcome => exact compareValues_method outcome isMethod

end Expr

/-- A schema declares a method: it is read from the definition of a class, with the name of the
class. -/
def Schema.Declares (schema : Schema) (types : NamedTypes) (m : Method) : Prop :=
  ∃ definition ∈ schema.classes, ∃ d ∈ definition.methods,
    Declarations.methodOf types definition.name d.isStatic d = .ok m

namespace Model

variable {schema : Schema} {model : Model}

theorem bodyOf_methods {types : NamedTypes} {definition : Schema.ClassDef} {body : ClassBody}
    (ok : Declarations.bodyOf types definition = .ok body) :
    ∀ m ∈ body.methods, ∃ d ∈ definition.methods,
      Declarations.methodOf types definition.name d.isStatic d = .ok m := by
  obtain ⟨members, -, ok⟩ := bind_eq_ok_iff.mp ok
  obtain ⟨methods, areMethods, ok⟩ := bind_eq_ok_iff.mp ok
  obtain ⟨operators, -, ok⟩ := bind_eq_ok_iff.mp ok
  obtain ⟨constructors, -, ok⟩ := bind_eq_ok_iff.mp ok
  obtain ⟨indexers, -, ok⟩ := bind_eq_ok_iff.mp ok
  obtain ⟨base, -, ok⟩ := bind_eq_ok_iff.mp ok
  obtain ⟨element, -, built⟩ := bind_eq_ok_iff.mp ok
  cases built
  exact forall_mem_of_mapM_eq_ok (fun d isMember m read => ⟨d, isMember, read⟩) areMethods

/-- The methods of a class of a loaded model are mathematical functions or declared. -/
theorem body_methods (loaded : ofSchema schema = .ok model) (c : ClassRef) :
    ∀ m ∈ (model.classes.body c).methods, m ∈ Method.ofMath ∨ schema.Declares model.types m := by
  obtain ⟨declared, sound, -, -, -, filled, kept⟩ := ofSchema_eq_ok loaded
  intro m isMethod
  obtain ⟨b, definition, pending, same⟩ | isEmpty | isMath := sound.declared_or_unread kept c
  · have body_eq : model.classes.body b = model.classes.body c := by
      simp only [ClassTable.body, same]
    have isBody := filled b definition pending
    rw [body_eq] at isBody
    have isDefinition : definition ∈ schema.classes :=
      sound.described ▸ List.mem_map.mpr ⟨_, pending, rfl⟩
    exact .inr ⟨definition, isDefinition, bodyOf_methods isBody m isMethod⟩
  · rw [isEmpty] at isMethod
    cases isMethod
  · rw [isMath] at isMethod
    exact .inl isMethod

/-- A method of a type of a loaded model is the one that every type has, a built-in one, or
declared. -/
theorem methods_cases (loaded : ofSchema schema = .ok model) {type : Ty} {m : Method}
    (isMethod : m ∈ type.methods model.classes) :
    m = .toText ∨ m ∈ Method.builtIn ∨ schema.Declares model.types m := by
  obtain own | isText := List.mem_append.mp isMethod
  · refine .inr ?_
    split at own
    next => exact .inl (List.mem_append_left _ (List.mem_append_left _ own))
    next => exact .inl (List.mem_append_left _ (List.mem_append_right _ own))
    next c =>
      obtain ⟨owner, isOwn⟩ := Ty.mem_inherited own
      exact (body_methods loaded owner m isOwn).imp_left (List.mem_append_right _)
    next => cases own
  · exact .inl (List.mem_singleton.mp isText)

end Model

namespace Expr

/-- What a node of a compiled tree calls: a comparison may call the method of its operator, other
operations call none, and a method is built in or declared by the schema. -/
structure CallsKnown (schema : Schema) (types : NamedTypes) (node : Expr) : Prop where
  operator : ∀ type op left right name, node = .binary type op left right (some name) →
    type = .boolean ∧ op.isComparison = true ∧ name = op.methodName
  method : ∀ m, node.method? = some m →
    m = .toText ∨ m ∈ Method.builtIn ∨ schema.Declares types m

end Expr

theorem nodesKeep_callsKnown {schema : Schema} {model : Model}
    (loaded : Model.ofSchema schema = .ok model) {ctx : CompileContext}
    (isEnv : ctx.env = model.environment) (tokens : List Token) :
    ctx.NodesKeep tokens (Expr.CallsKnown schema model.types) := by
  apply CompileContext.NodesKeep.of_operations
  case other =>
    intro node isOther
    constructor
    · rintro type op left right name rfl
      cases isOther
    · intro m isMethod
      cases node with
      | staticCall | methodCall => cases isOther
      | _ => cases isMethod
  case operation => exact fun type op left right _ => ⟨by rintro _ _ _ _ name ⟨⟩, nofun⟩
  case comparison =>
    intro token op left right e isOperator outcome
    obtain ⟨left', right', method?, rfl, isMethod⟩ := Expr.comparison_method outcome
    refine ⟨?_, nofun⟩
    rintro _ _ _ _ name ⟨⟩
    exact ⟨rfl, CompileContext.isComparison_of_comparisonOperator? isOperator,
      (isMethod name rfl).1⟩
  case call =>
    intro receiver type method args isMethod _
    have known : method = .toText ∨ method ∈ Method.builtIn ∨
        schema.Declares model.types method := by
      rw [isEnv] at isMethod
      exact Model.methods_cases loaded isMethod
    cases receiver with
    | type t => exact ⟨nofun, fun m same => Option.some.inj same ▸ known⟩
    | value r => exact ⟨nofun, fun m same => Option.some.inj same ▸ known⟩

/-- What a node of a compiled tree evaluates to, as far as it calls what the schema declares. -/
structure Expr.EvaluatesDeclared (schema : Schema) (types : NamedTypes) (node : Expr) : Prop where
  /-- Only comparisons call an operator method, and they have the truth value of the built-in
  comparison whenever their operands have values. -/
  comparison : ∀ type op left right name, node = .binary type op left right (some name) →
    op.isComparison = true ∧ name = op.methodName ∧
      ∀ ctx v w, left.evaluate ctx = .ok v → right.evaluate ctx = .ok w →
        node.evaluate ctx = .ok (.boolean (v.compares op w))
  /-- The methods that are called are built in or declared. -/
  known : ∀ ctx method receiver? values, node.Calls ctx method receiver? values →
    method.name ≠ "ToString" → method ∈ Method.builtIn ∨ schema.Declares types method
  /-- A declared method of a class without a built-in namesake is not supported. -/
  unsupported : ∀ ctx method receiver? values, node.Calls ctx method receiver? values →
    method.name ≠ "ToString" → schema.Declares types method →
      method.declaringType ∉ builtInClasses →
        node.evaluate ctx = .error (.unsupported (.method method.declaringType method.name))
  /-- A declared method is evaluated as the built-in one of its name, of a class of one name. -/
  namesake : ∀ ctx method receiver? values, node.Calls ctx method receiver? values →
    schema.Declares types method →
      ∀ b ∈ Method.builtIn, b.declaringType = method.declaringType → b.name = method.name →
        node.evaluate ctx = Value.callMethod b receiver? values
  /-- Another declared method has no value. -/
  refused : ∀ ctx method receiver? values, node.Calls ctx method receiver? values →
    method.name ≠ "ToString" → schema.Declares types method →
      ¬ Method.IsBuiltIn method.declaringType method.name →
        ∃ error, node.evaluate ctx = .error error

theorem Expr.CallsKnown.evaluatesDeclared {schema : Schema} {types : NamedTypes} {node : Expr}
    (calls : node.CallsKnown schema types) : node.EvaluatesDeclared schema types where
  comparison := by
    rintro type op left right name rfl
    obtain ⟨rfl, isComparison, named⟩ := calls.operator type op left right name rfl
    refine ⟨isComparison, named, fun ctx v w left_value right_value => ?_⟩
    exact (Expr.evaluate_comparison_iff isComparison).mpr ⟨v, w, left_value, right_value, rfl⟩
  known ctx method receiver? values isCall other := by
    obtain rfl | known := calls.method method isCall.method?_eq
    · exact absurd rfl other
    · exact known
  unsupported ctx method receiver? values isCall other _ unknown :=
    isCall.evaluate.trans (Value.callMethod_unsupported other unknown)
  namesake ctx method receiver? values isCall _ b _ classes names :=
    isCall.evaluate.trans (Value.callMethod_congr classes names)
  refused ctx method receiver? values isCall other _ notBuiltIn := by
    rw [isCall.evaluate]
    cases outcome : Value.callMethod method receiver? values with
    | error error => exact ⟨error, rfl⟩
    | ok value => exact absurd (Value.callMethod_eq_ok other outcome) notBuiltIn

/-- Under an accepted schema every node of every compiled tree evaluates what the schema declares in
this way: it never calls an operator method, and it calls built-in methods for the declared ones of
their names. -/
theorem compiles_evaluatesDeclared {schema : Schema} {model : Model} {e : Expr}
    (loaded : Model.ofSchema schema = .ok model) (compiles : model.environment.Compiles e) :
    e.Everywhere (Expr.EvaluatesDeclared schema model.types) := by
  have known : e.Everywhere (Expr.CallsKnown schema model.types) :=
    compiles.everywhere fun ctx tokens isEnv => nodesKeep_callsKnown loaded isEnv tokens
  exact known.imp fun node calls => calls.evaluatesDeclared

section Example

/-- A class of a name with the methods and operators that it declares on its own values. -/
def plainClass (name : String) (methods operators : List Schema.MethodDef) : Schema.TypeDef :=
  .cls false ⟨name, none, none, [], methods, [], [], operators, none⟩

/-- A schema with a class of its own for mathematics, and sums of money that can be ordered. -/
def accounts : Schema where
  it := none
  options := .initial
  types := [plainClass "Math" [⟨"Abs", ["Int32"], some "Int32", false⟩] [],
    plainClass "Money" [] [⟨"op_LessThan", ["Money", "Money"], some "Boolean", false⟩]]

/-- A value of a class that a schema names, as the only parameter. -/
def ofClass (model : Model) (name : String) : List Parameter :=
  (model.types.lookup name).toList.map fun type => ⟨0, "a", type⟩

/-- Whether a function calls a method with a value as its receiver. -/
def callsMethod : Expr → Bool
  | .lambda _ (.methodCall _ _ _ _) => true
  | _ => false

/-- A call of the method of the class `Math` that the schema declares. -/
theorem compiles_evaluatesDeclared_math : ∃ model e,
    Model.ofSchema accounts = .ok model ∧ model.environment.Compiles e ∧ callsMethod e = true ∧
      e.Everywhere (Expr.EvaluatesDeclared accounts model.types) := by
  obtain ⟨model, loaded, compiled⟩ := exists_ok_of_any
    (show (Model.ofSchema accounts).toOption.any (fun model =>
      (compileFunction model.environment (ofClass model "Math") none "a.Abs(-5)" []
        .initial).1.toOption.any callsMethod) = true by decide +kernel)
  obtain ⟨e, outcome, calls⟩ := exists_ok_of_any compiled
  have compiles : model.environment.Compiles e := .function (by simp) outcome
  exact ⟨model, e, loaded, compiles, calls, compiles_evaluatesDeclared loaded compiles⟩

/-- Whether a function has such a value for an object without members. -/
def hasValue (holds : Value → Bool) (e : Expr) : Bool :=
  (e.call ⟨0, 0, 0⟩ [.object []]).toOption.any holds

/-- The declared method `Abs` of the class `Math` has a value, the one of the built-in method, and
an ordering by a declared operator has a value as well. -/
theorem declared_calls_have_values :
    (Model.ofSchema accounts).toOption.any (fun model =>
      (compileFunction model.environment (ofClass model "Math") none "a.Abs(-5)" []
        .initial).1.toOption.any (hasValue (·.toInt? == some 5)) &&
      (compileFunction model.environment (ofClass model "Money") none "a < a" []
        .initial).1.toOption.any (hasValue (·.isBoolean false))) = true := by
  decide +kernel

end Example

end QueryTree
