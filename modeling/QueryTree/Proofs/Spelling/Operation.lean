import QueryTree.Compile.Expression
import QueryTree.Proofs.Spelling.Step

/-!
# Operations over two spellings

What is made of operands depends on the position of an operator, and on its spelling, no further
than in the error.
-/

namespace QueryTree

open Outcome (Alike)

variable {placed : Nat → Nat → Prop} {position position' : Nat} {table : ClassTable}

section Operand

variable (related : placed position position')

include related

theorem OperatorGroup.operands_alike {group : OperatorGroup} {symbol symbol' : String}
    {left right : Expr} :
    Alike placed Eq (group.operands table symbol position left right)
      (group.operands table symbol' position' left right) := by
  unfold operands
  split
  · exact .ok rfl
  · exact .error related

theorem OperatorGroup.operand_alike {group : OperatorGroup} {symbol symbol' : String} {e : Expr} :
    Alike placed Eq (group.operand table symbol position e)
      (group.operand table symbol' position' e) := by
  unfold operand
  split
  · exact .ok rfl
  · exact .error related

namespace Expr

theorem enumConstant_alike {type : Ty} {e : Expr} :
    Alike placed Eq (enumConstant type position e) (enumConstant type position' e) := by
  unfold enumConstant
  split
  · exact .error related
  · simp only
    split
    · exact .ok rfl
    · exact .error related

theorem readText?_alike {e : Expr} {target : Ty} :
    Alike placed Eq (e.readText? target position) (e.readText? target position') := by
  unfold readText?
  split
  · exact .ok rfl
  · split
    · exact .ok rfl
    · exact .ok rfl
    · exact .error related

theorem choose_alike {test ifTrue ifFalse : Expr} :
    Alike placed Eq (choose table position test ifTrue ifFalse)
      (choose table position' test ifTrue ifFalse) := by
  unfold choose
  repeat' split
  all_goals first | exact .ok rfl | exact .error related

theorem orElseValue_alike {left right : Expr} :
    Alike placed Eq (orElseValue table position left right)
      (orElseValue table position' left right) := by
  unfold orElseValue
  repeat' split
  all_goals first | exact .ok rfl | exact .error related

theorem propagateNull_alike {chain : Expr} {default? : Option Expr} :
    Alike placed Eq (chain.propagateNull table position default?)
      (chain.propagateNull table position' default?) := by
  unfold propagateNull
  split
  · exact .ok rfl
  · split
    · exact .ok rfl
    · exact choose_alike related

theorem convertTo_alike {target : Ty} {e : Expr} :
    Alike placed Eq (e.convertTo table target position) (e.convertTo table target position') := by
  simp only [convertTo]
  split
  · exact .ok rfl
  · split
    · exact .ok rfl
    · split
      · exact .ok rfl
      · split
        · exact .ok rfl
        · refine (readText?_alike related).bind ?_
          rintro (_ | converted) _ rfl
          · simp only
            split
            · exact .ok rfl
            · exact .error related
          · exact .ok rfl

theorem constructOf_alike {type : Ty} {args : List Expr} :
    Alike placed Eq (constructOf table type position args)
      (constructOf table type position' args) := by
  simp only [constructOf]
  split
  · exact convertTo_alike related
  · split
    · exact .ok rfl
    · exact .error related
    · split
      · exact convertTo_alike related
      · exact .error related

end Expr

end Operand

namespace Expr

variable {op op' : Token} (related : placed op.position op'.position) {operator : BinaryOp}
  {left right : Expr}

include related

theorem incompatible_alike {α : Type} {holds : α → α → Prop} :
    Alike placed holds (.error (incompatible op left right) : Except CompileError α)
      (.error (incompatible op' left right)) :=
  .error related

theorem ofGroup_alike {group : OperatorGroup} :
    Alike placed Eq (ofGroup table group operator op left right)
      (ofGroup table group operator op' left right) := by
  refine (OperatorGroup.operands_alike related).bind ?_
  rintro operands _ rfl
  exact .ok rfl

theorem concat_alike :
    Alike placed Eq (concat table op left right) (concat table op' left right) := by
  unfold concat
  split
  · exact .ok rfl
  · exact incompatible_alike related

theorem sum_alike : Alike placed Eq (sum table op left right) (sum table op' left right) := by
  unfold sum
  split
  · exact concat_alike related
  · exact ofGroup_alike related

theorem difference_alike :
    Alike placed Eq (difference table op left right) (difference table op' left right) := by
  refine (OperatorGroup.operands_alike related).bind ?_
  rintro operands _ rfl
  exact .ok rfl

theorem bitwise_alike :
    Alike placed Eq (bitwise operator op left right) (bitwise operator op' left right) := by
  simp only [bitwise]
  split
  · exact .ok rfl
  · exact incompatible_alike related

theorem conjunction_alike :
    Alike placed Eq (conjunction table op left right) (conjunction table op' left right) := by
  simp only [conjunction]
  split
  · exact concat_alike related
  · exact bitwise_alike related

theorem disjunction_alike :
    Alike placed Eq (disjunction op left right) (disjunction op' left right) :=
  bitwise_alike related

theorem compareReferences_alike :
    Alike placed Eq (compareReferences table op left right)
      (compareReferences table op' left right) := by
  unfold compareReferences
  repeat' split
  all_goals first | exact .ok rfl | exact incompatible_alike related

theorem alignEnums_alike :
    Alike placed Eq (alignEnums table op left right) (alignEnums table op' left right) := by
  unfold alignEnums
  split
  · exact .ok rfl
  · split
    · exact .ok rfl
    · split
      · exact .ok rfl
      · split
        · exact (enumConstant_alike related).map_eq
        · split
          · exact (enumConstant_alike related).map_eq
          · exact incompatible_alike related

theorem compareValues_alike :
    Alike placed Eq (compareValues table operator op left right)
      (compareValues table operator op' left right) := by
  refine (readText?_alike related).bind ?_
  rintro (_ | right) _ rfl
  · refine (readText?_alike related).bind ?_
    rintro (_ | left) _ rfl
    · simp only
      split
      · exact .ok rfl
      · refine (OperatorGroup.operands_alike related).bind ?_
        rintro operands _ rfl
        exact .ok rfl
    · exact .ok rfl
  · exact .ok rfl

theorem compared_alike :
    Alike placed Eq (compared table operator op left right)
      (compared table operator op' left right) := by
  simp only [compared]
  split
  · refine (compareReferences_alike related).bind ?_
    rintro operands _ rfl
    exact .ok rfl
  · split
    · refine (alignEnums_alike related).bind ?_
      rintro operands _ rfl
      split
      · exact .ok rfl
      · exact .ok rfl
    · exact compareValues_alike related

theorem comparison_alike :
    Alike placed Eq (comparison table operator op left right)
      (comparison table operator op' left right) := by
  refine (compared_alike related).bind ?_
  rintro operands _ rfl
  exact .ok rfl

theorem isItem_alike :
    Alike placed Eq (isItem table op left right) (isItem table op' left right) := by
  unfold isItem
  split
  · exact .ok rfl
  · split
    · split
      · exact (enumConstant_alike related).map_eq
      · exact .error related
    · refine (OperatorGroup.operands_alike related).bind ?_
      rintro operands _ rfl
      exact .ok rfl

theorem isContained_alike :
    Alike placed Eq (isContained table op left right) (isContained table op' left right) := by
  unfold isContained
  split
  · exact .error related
  · split
    · exact .ok rfl
    · exact .error related

end Expr

namespace Literal

theorem real_alike (related : placed position position') {text : String} {separator : Char} :
    Alike placed Eq (real text separator position) (real text separator position') := by
  simp only [real]
  split
  · exact .error related
  · exact .ok rfl

theorem integer_alike (related : placed position position') {text : String} :
    Alike placed Eq (integer text position) (integer text position') := by
  simp only [integer]
  split
  · split
    · exact real_alike related
    · exact .error related
  · repeat' split
    all_goals first | exact .ok rfl | exact .error related

theorem quoted_alike {token token' : Token} (alike : token.Alike placed token')
    (isString : token.kind = .stringLiteral) : Alike placed Eq (quoted token) (quoted token') := by
  have same : token.text = token'.text := alike.text (by rw [isString]; rfl)
  have aligned := alike.aligned isString
  rw [← String.length_toList] at aligned
  unfold quoted
  rw [← same]
  refine (Escape.decode_alike aligned).bind ?_
  rintro decoded _ rfl
  split
  · split
    · exact .ok rfl
    · exact .error alike.position
  · exact .ok rfl

end Literal

namespace NewItem

/-- Parts of two constructions that differ in their positions only. -/
structure Alike (placed : Nat → Nat → Prop) (item item' : NewItem) : Prop where
  name : item.name = item'.name
  value : item.value = item'.value
  position : placed item.position item'.position

variable {items items' : List NewItem}

theorem map_value_eq (alike : List.Forall₂ (Alike placed) items items') :
    items.map (·.value) = items'.map (·.value) := by
  induction alike with
  | nil => rfl
  | cons first _ ih => rw [List.map_cons, List.map_cons, first.value, ih]

theorem map_name_eq (alike : List.Forall₂ (Alike placed) items items') :
    items.map (·.name) = items'.map (·.name) := by
  induction alike with
  | nil => rfl
  | cons first _ ih => rw [List.map_cons, List.map_cons, first.name, ih]

theorem named_eq (alike : List.Forall₂ (Alike placed) items items') :
    named items = named items' := by
  induction alike with
  | nil => rfl
  | cons first _ ih =>
      simp only [named, List.filterMap_cons, first.name, first.value] at ih ⊢
      rw [ih]

theorem find?_unnamed_alike (alike : List.Forall₂ (Alike placed) items items') :
    Option.Rel (Alike placed) (items.find? (·.name.isNone)) (items'.find? (·.name.isNone)) := by
  induction alike with
  | nil => exact .none
  | cons first _ ih =>
      rw [List.find?_cons, List.find?_cons, ← first.name]
      split
      · exact .some first
      · exact ih

theorem duplicate?_alike (options : Options) (seen : List String)
    (alike : List.Forall₂ (Alike placed) items items') :
    Option.Rel (fun found found' => Alike placed found.1 found'.1)
      (duplicate? options seen items) (duplicate? options seen items') := by
  induction alike generalizing seen with
  | nil => exact .none
  | cons first _ ih =>
      unfold duplicate?
      rw [← first.name]
      split
      · exact ih seen
      · split
        · exact .some first
        · exact ih _

end NewItem

namespace CompileContext

variable {ctx : CompileContext}

section Member

variable (related : placed position position')

include related

theorem typeTestType_alike {test : TypeTest} {wanted : Ty} :
    Alike placed Eq (typeTestType test wanted position) (typeTestType test wanted position') := by
  cases test with
  | is => exact .ok rfl
  | cast => exact .ok rfl
  | as =>
      unfold typeTestType
      simp only
      split
      · exact .ok rfl
      · exact .error related

theorem methodCall_alike {receiver : Receiver} {name : String} {args : List Expr} :
    Alike placed Eq (ctx.methodCall receiver name position args)
      (ctx.methodCall receiver name position' args) := by
  simp only [methodCall]
  repeat' split
  all_goals first | exact .ok rfl | exact .error related

theorem namedMember_alike {receiver : Receiver} {name : String} :
    Alike placed Eq (ctx.namedMember receiver name position)
      (ctx.namedMember receiver name position') := by
  unfold namedMember
  repeat' split
  all_goals first | exact .ok rfl | exact .error related

theorem indexAccess_alike {e : Expr} {args : List Expr} :
    Alike placed Eq (ctx.indexAccess position e args) (ctx.indexAccess position' e args) := by
  unfold indexAccess
  repeat' split
  all_goals first | exact .ok rfl | exact .error related

theorem arrayItems_alike {element : Ty} {items : List Expr} :
    Alike placed Eq (ctx.arrayItems element position items)
      (ctx.arrayItems element position' items) := by
  induction items with
  | nil => exact .ok rfl
  | cons e rest ih =>
      unfold arrayItems
      split
      · exact ih.map_eq
      · exact .error related

theorem newArray_alike {element? : Option Ty} {items : List Expr} :
    Alike placed Eq (ctx.newArray element? position items)
      (ctx.newArray element? position' items) := by
  unfold newArray
  split
  · exact (arrayItems_alike related).map_eq
  · split
    · exact .ok rfl
    · exact .ok rfl

end Member

section Parts

variable {type : Ty} {items items' : List NewItem}
  (parts : List.Forall₂ (NewItem.Alike placed) items items')

include parts

theorem bindings_alike : Alike placed Eq (ctx.bindings type items) (ctx.bindings type items') := by
  induction parts with
  | nil => exact .ok rfl
  | @cons item item' _ _ first _ ih =>
      unfold bindings
      simp only [← first.name, ← first.value]
      split
      · exact .error first.position
      · split
        · exact .error first.position
        · refine ih.bind ?_
          rintro bound _ rfl
          exact .ok rfl

theorem newOfType_alike (related : placed position position') :
    Alike placed Eq (ctx.newOfType type position items) (ctx.newOfType type position' items') := by
  have unnamed : items.all (·.name.isNone) = items'.all (·.name.isNone) := by
    have names := congrArg (·.all Option.isNone) (NewItem.map_name_eq parts)
    rwa [List.all_map, List.all_map] at names
  unfold newOfType
  rw [← unnamed, ← NewItem.map_value_eq parts]
  split
  · exact Expr.constructOf_alike related
  · have missing := NewItem.find?_unnamed_alike parts
    generalize items.find? (·.name.isNone) = item? at missing
    generalize items'.find? (·.name.isNone) = item?' at missing
    cases missing with
    | some found => exact .error found.position
    | none => exact (bindings_alike parts).map_eq

end Parts

theorem applySign_alike {op op' : Token} (alike : op.Alike placed op') {operand : Expr} :
    Alike placed Eq (applySign table op operand) (applySign table op' operand) := by
  unfold applySign
  simp only [← alike.kind_eq_iff .minus rfl]
  split
  · refine (OperatorGroup.operand_alike alike.position).bind ?_
    rintro operand _ rfl
    exact .ok rfl
  · refine (OperatorGroup.operand_alike alike.position).bind ?_
    rintro operand _ rfl
    exact .ok rfl

end CompileContext

end QueryTree
