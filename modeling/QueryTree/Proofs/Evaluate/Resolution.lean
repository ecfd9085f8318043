import QueryTree.Proofs.Evaluate.Outcome
import QueryTree.Evaluate.Expression

/-!
# Operations on values resolve

The operations on values know nothing of parameters, so that no outcome of theirs is that a
parameter has no value.
-/

namespace QueryTree

open Evaluation (Resolves)

namespace Value

theorem convertTo_resolves (type : Ty) (value : Value) : Resolves (value.convertTo type) := by
  unfold convertTo
  simp only
  split
  next => simp
  next => split <;> simp

theorem integerArithmetic_resolves (op : BinaryOp) (type : Ty) (left right : Value) :
    Resolves (integerArithmetic op type left right) := by
  rw [integerArithmetic]
  split
  next => split <;> simp [overflowOf]
  next => simp

theorem arithmetic_resolves (op : BinaryOp) (type : Ty) (left right : Value) :
    Resolves (arithmetic op type left right) := by
  unfold arithmetic
  split
  next => split <;> simp [overflowOf]
  next => simp
  next => simp
  next => simp [overflowOf]
  next => simp [overflowOf]
  next =>
    split
    next => simp
    next => exact integerArithmetic_resolves op type _ _
  next => exact integerArithmetic_resolves op type _ _

theorem bitwise_resolves (op : BinaryOp) (type : Ty) (left right : Value) :
    Resolves (bitwise op type left right) := by
  unfold bitwise
  split
  next => simp
  next => split <;> simp

theorem shift_resolves (op : BinaryOp) (type : Ty) (left right : Value) :
    Resolves (shift op type left right) := by
  unfold shift
  split <;> simp

theorem applyBinary_resolves (op : BinaryOp) (type : Ty) (left right : Value) :
    Resolves (applyBinary op type left right) := by
  unfold applyBinary
  split
  next => simp
  next =>
    split
    next => simp
    next =>
      split
      next => simp
      next =>
        split
        next => simp
        next =>
          split
          next => exact bitwise_resolves _ _ _ _
          next => exact bitwise_resolves _ _ _ _
          next => exact shift_resolves _ _ _ _
          next => exact shift_resolves _ _ _ _
          next => exact arithmetic_resolves _ _ _ _

theorem negated_resolves (type : Ty) (value : Value) : Resolves (value.negated type) := by
  unfold negated
  split
  next => simp
  next => simp
  next => simp
  next => simp
  next => split <;> simp

theorem inverted_resolves (value : Value) : Resolves value.inverted := by
  unfold inverted
  split <;> simp

theorem testType_resolves (wanted : Ty) (test : TypeTest) (value : Value) :
    Resolves (value.testType wanted test) := by
  unfold testType
  simp only
  split
  next => simp
  next => simp
  next =>
    split
    next => simp
    next => exact convertTo_resolves wanted value

theorem ofStaticMember_resolves (now : DateTime) (type : Ty) (name : String) :
    Resolves (ofStaticMember now type name) := by
  unfold ofStaticMember
  split <;> simp

theorem ofDateTimeMember_resolves (moment : DateTime) (name : String) :
    Resolves (ofDateTimeMember moment name) := by
  unfold ofDateTimeMember ticks
  simp only
  split
  case h_10 => split <;> simp
  all_goals simp

theorem ofTimeSpanMember_resolves (span : TimeSpan) (name : String) :
    Resolves (ofTimeSpanMember span name) := by
  unfold ofTimeSpanMember count
  simp only
  split <;> simp

theorem ofMember_resolves (type : Ty) (name : String) (value : Value) :
    Resolves (value.ofMember type name) := by
  rw [ofMember]
  split
  next => simp
  next =>
    split
    next => split <;> simp
    next =>
      unfold ofOwnMember count
      simp only
      split
      next => simp
      next => simp
      next => split <;> simp
      next => split <;> simp
      next => exact ofDateTimeMember_resolves _ name
      next => exact ofTimeSpanMember_resolves _ name
      next => simp

theorem itemAt_resolves {α : Type} (items : List α) (i : Int) : Resolves (itemAt items i) :=
  Resolves.require (by simp)

theorem atIndex_resolves (value : Value) (keys : List Value) : Resolves (value.atIndex keys) := by
  have place (key : Value) : Resolves key.position := Resolves.require (by simp)
  unfold atIndex
  split
  next => simp
  next => exact Resolves.bind (place _) fun i => itemAt_resolves _ i
  next => exact Resolves.bind (place _) fun i => .bind (itemAt_resolves _ i) fun _ => trivial
  next => simp
  next => simp

theorem textArgument_resolves (args : List Value) (place : Nat) :
    Resolves (textArgument args place) := by
  rw [textArgument]
  split <;> simp

theorem integerArgument_resolves (args : List Value) (place : Nat) :
    Resolves (integerArgument args place) :=
  Resolves.require (by simp)

theorem substring_resolves (s : String) (start length : Int) :
    Resolves (substring s start length) := by
  unfold substring
  simp only
  split <;> simp

theorem callTextFunction_resolves (name : String) (args : List Value) :
    Resolves (callTextFunction name args) := by
  unfold callTextFunction
  split <;> simp

theorem callTextMethod_resolves (name : String) (s : String) (args : List Value) :
    Resolves (callTextMethod name s args) := by
  have withText (place : Nat) {next : String → Evaluation Value}
      (second : ∀ text, Resolves (next text)) : Resolves (textArgument args place >>= next) :=
    Resolves.bind (textArgument_resolves args place) fun text => second text
  unfold callTextMethod
  split
  next => exact withText 0 fun _ => trivial
  next => exact withText 0 fun _ => trivial
  next => exact withText 0 fun _ => trivial
  next => simp
  next => simp
  next => simp
  next => simp
  next =>
    refine Resolves.bind (integerArgument_resolves args 0) fun start => ?_
    simp only
    split
    next =>
      exact Resolves.bind (integerArgument_resolves args 1) fun length =>
        substring_resolves s start length
    next => exact substring_resolves s start _
  next => exact withText 0 fun _ => trivial
  next => exact withText 0 fun _ => withText 1 fun _ => trivial
  next => simp

theorem callDateTimeMethod_resolves (name : String) (moment : DateTime) (args : List Value) :
    Resolves (callDateTimeMethod name moment args) :=
  Resolves.bind (Resolves.require (by simp)) fun _ =>
    Resolves.bind (Resolves.require (by simp)) fun _ => Resolves.require (by simp)

theorem callMath_resolves (name : String) (args : List Value) : Resolves (callMath name args) := by
  have places : Resolves (placesArgument args) := by
    rw [placesArgument]
    split
    next => exact integerArgument_resolves args 1
    next => simp
  unfold callMath
  simp only
  split
  case h_3 =>
    split
    next => exact Resolves.require (by simp)
    next => simp
  case h_7 => exact Resolves.bind places fun _ => trivial
  case h_8 =>
    refine Resolves.bind places fun _ => ?_
    split
    next => simp
    next => exact (Resolves.error (α := Value)).mpr (by simp)
  all_goals simp

theorem callMethod_resolves (method : Method) (receiver? : Option Value) (args : List Value) :
    Resolves (callMethod method receiver? args) := by
  unfold callMethod
  split
  next => split <;> simp
  next =>
    split
    next => exact callTextFunction_resolves _ args
    next => exact callTextMethod_resolves _ _ args
    next => exact callDateTimeMethod_resolves _ _ args
    next => simp
    next => simp
    next => exact callMath_resolves _ args
    next => simp

end Value

/-- An argument of a sequence operation resolves, as a value and as a function of an item. -/
def SequenceArgument.Resolves (arg : SequenceArgument) : Prop :=
  Evaluation.Resolves (arg.value ()) ∧ ∀ item, Evaluation.Resolves (arg.apply item)

namespace Aggregate

variable {args : List SequenceArgument} {arg? : Option SequenceArgument}

theorem items_resolves (operation : Aggregate) (source : Value) :
    Resolves (operation.items source) := by
  unfold items
  split
  next => simp
  next => split <;> simp
  next => simp
  next => simp
  next => simp

theorem filtered_resolves (each : ∀ arg ∈ arg?, arg.Resolves) (items : List Value) :
    Resolves (filtered arg? items) := by
  cases arg? with
  | none => simp [filtered]
  | some arg =>
      refine Evaluation.Meets.filterM fun item _ => ?_
      exact Resolves.bind ((each arg rfl).2 item) fun _ => trivial

theorem projected_resolves (each : ∀ arg ∈ arg?, arg.Resolves) (items : List Value) :
    Resolves (projected arg? items) := by
  cases arg? with
  | none => simp [projected]
  | some arg =>
      exact Resolves.mapM fun item _ => (each arg rfl).2 item

theorem emptyResult_resolves (operation : Aggregate) (type : Ty) :
    Resolves (emptyResult operation type) := by
  rw [emptyResult]
  split <;> simp

theorem addAll_resolves (type : Ty) (values : List Value) (total : Value) :
    Resolves (addAll type values total) := by
  refine Resolves.foldlM fun total value => ?_
  split
  next => simp
  next =>
    exact Resolves.bind (Value.convertTo_resolves type value) fun _ =>
      Value.applyBinary_resolves _ type total _

theorem averageOf_resolves (type : Ty) (values : List Value) :
    Resolves (averageOf type values) := by
  rw [averageOf]
  split
  next => exact emptyResult_resolves average type
  next =>
    split
    next =>
      refine Resolves.bind (Resolves.foldlM fun total value => ?_) fun total => ?_
      · exact Resolves.bind (Resolves.require (by simp)) fun _ => Resolves.require (by simp)
      · exact Resolves.require (by simp)
    next =>
      refine Resolves.bind (Resolves.foldlM fun total value => ?_) fun total => ?_
      · exact Resolves.bind (Resolves.require (by simp)) fun _ => trivial
      · exact Value.convertTo_resolves type _

theorem extreme_resolves (operation : Aggregate) (wanted : Ordering) (type : Ty)
    (values : List Value) : Resolves (extreme operation wanted type values) := by
  rw [extreme]
  split
  next => exact emptyResult_resolves operation type
  next => simp

theorem argumentValue_resolves (operation : Aggregate) (each : ∀ arg ∈ args, arg.Resolves) :
    Resolves (argumentValue operation args) := by
  cases args with
  | nil => simp [argumentValue]
  | cons arg rest => exact (each arg (by simp)).1

theorem amount_resolves (operation : Aggregate) (each : ∀ arg ∈ args, arg.Resolves) :
    Resolves (amount operation args) :=
  Resolves.bind (argumentValue_resolves operation each) fun _ =>
    Resolves.bind (Resolves.require (by simp)) fun _ => trivial

theorem sorted_resolves (ascending : Bool) (each : ∀ arg ∈ arg?, arg.Resolves)
    (items : List Value) : Resolves (sorted ascending arg? items) :=
  Resolves.bind (projected_resolves each items) fun _ => trivial

theorem onlyOne?_resolves (found : List Value) : Resolves (onlyOne? found) := by
  unfold onlyOne?
  split <;> simp

/-- An operation on a sequence resolves if its arguments do.  The operations that have no value
here do not even look at them. -/
theorem evaluate_resolves (operation : Aggregate) (type : Ty) (source : Value)
    (each : operation ≠ .defaultIfEmpty → ∀ arg ∈ args, arg.Resolves) :
    Resolves (operation.evaluate type source args) := by
  refine Resolves.bind (items_resolves operation source) fun items => ?_
  by_cases isDefault : operation = .defaultIfEmpty
  · subst isDefault
    exact (Resolves.error (α := Value)).mpr (by simp)
  have all := each isDefault
  have first : ∀ arg ∈ args.head?, arg.Resolves := fun arg isHead =>
    all arg (List.mem_of_head? isHead)
  have second : ∀ arg ∈ args[1]?, arg.Resolves := fun arg isSecond =>
    all arg (List.mem_of_getElem? isSecond)
  have filters {next : List Value → Evaluation Value} (last : ∀ kept, Resolves (next kept)) :
      Resolves (filtered args.head? items >>= next) :=
    Resolves.bind (filtered_resolves first items) fun kept => last kept
  have projects {next : List Value → Evaluation Value} (last : ∀ values, Resolves (next values)) :
      Resolves (projected args.head? items >>= next) :=
    Resolves.bind (projected_resolves first items) fun values => last values
  have single {next : Option Value → Evaluation Value} (last : ∀ found, Resolves (next found)) :
      Resolves (filtered args.head? items >>= fun kept => onlyOne? kept >>= next) :=
    filters fun kept => Resolves.bind (onlyOne?_resolves kept) fun found => last found
  cases operation with
  | filter | any | all | firstOrDefault | lastOrDefault => exact filters fun _ => trivial
  | count | longCount | first | last => exact filters fun _ => Resolves.require (by simp)
  | single => exact single fun _ => Resolves.require (by simp)
  | singleOrDefault => exact single fun _ => trivial
  | select => exact projects fun _ => trivial
  | selectMany =>
      exact projects fun values =>
        .bind (Resolves.mapM fun inner _ => items_resolves _ inner) fun _ => trivial
  | sum =>
      exact Resolves.bind (Resolves.require (by simp)) fun zero => projects fun values =>
        addAll_resolves _ values zero
  | average => exact projects fun values => averageOf_resolves type values
  | min | max => exact projects fun values => extreme_resolves _ _ type values
  | contains => exact Resolves.bind (argumentValue_resolves _ all) fun _ => trivial
  | take | skip => exact Resolves.bind (amount_resolves _ all) fun _ => trivial
  | orderBy | orderByDescending =>
      exact Resolves.bind (sorted_resolves _ first items) fun _ => trivial
  | groupBy =>
      exact projects fun _ => Resolves.bind (projected_resolves second items) fun _ => trivial
  | distinct | reverse | toArray | toList => trivial
  | defaultIfEmpty => exact absurd rfl isDefault
  | thenBy | thenByDescending | skipWhile | takeWhile | ofType | cast =>
      exact (Resolves.error (α := Value)).mpr (by simp)

end Aggregate

end QueryTree
