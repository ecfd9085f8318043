import QueryTree.Proofs.Binding.Tree
import QueryTree.Proofs.Compile.Node
import QueryTree.Proofs.Literal.Rereading
import QueryTree.Proofs.Membership.Item

/-!
# Constants of a compiled tree

Where the constants of a compiled tree come from, and the texts that they keep.
-/

/-!
## Origins of constants

Where the constants of a compiled tree come from: from the tokens of the text and the values that
its names stand for, from the expressions that were supplied, or from other constants, which are
read again as values of another type or taken for members of an enumeration.
-/

namespace QueryTree

namespace CompileContext

open QueryTree.Expr (Adapted Everywhere Occurs TakenBeside)

variable {ctx : CompileContext} {tokens : List Token} {supplied : Expr → Prop}

/-- A constant comes from the tokens of a text, from what was supplied, or from another such
constant. -/
inductive Origin (ctx : CompileContext) (tokens : List Token) (supplied : Expr → Prop) :
    Expr → Prop where
  | supplied {e} (isSupplied : supplied e) : Origin ctx tokens supplied e
  /-- A value that a name stands for. -/
  | value {v} (named : ctx.NamesValue v) : Origin ctx tokens supplied (.ofValue v.naturalType v)
  | literal {e} (read : Literal.ReadFrom tokens e) : Origin ctx tokens supplied e
  | null {type} : Origin ctx tokens supplied (.nullOf type)
  | type {t} : Origin ctx tokens supplied (.ofValue .type (.type t))
  /-- A member of an enumeration, written as a member of its type. -/
  | member {type enum token n} (met : Token.Met tokens token) (isEnum : type.enum? = some enum)
      (named : enum.valueOf? (Parse.unescapedName token.text) = some n) :
      Origin ctx tokens supplied (.ofValue type (.enum enum n))
  /-- The name of a member, where it is an index. -/
  | name {token} (met : Token.Met tokens token) :
      Origin ctx tokens supplied (.ofValue .string (.string (Parse.unescapedName token.text)))
  /-- The text of a literal, read again as a value of another type. -/
  | reread {source value text target again}
      (before : Origin ctx tokens supplied (.constant source value (some text)))
      (isValue : value ≠ .null) (outcome : Expr.reread? source text target.core = some again) :
      Origin ctx tokens supplied (.constant target again (some text))
  /-- A text, read as a value of a type. -/
  | read {e text target value} (before : Origin ctx tokens supplied e)
      (isText : e.text? = some text) (outcome : Value.ofText target text = .read value) :
      Origin ctx tokens supplied (.ofValue target value)
  | integer {e value} (before : Origin ctx tokens supplied e)
      (outcome : e.integerText? = some value) : Origin ctx tokens supplied (.ofValue .int32 value)
  | taken {x e member} (before : Origin ctx tokens supplied e)
      (taken : TakenBeside ctx.env.classes x e member) : Origin ctx tokens supplied member

/-- The origin of a node that is a constant. -/
def Originates (ctx : CompileContext) (tokens : List Token) (supplied : Expr → Prop)
    (node : Expr) : Prop :=
  node.isConstant = true → ctx.Origin tokens supplied node

namespace Originates

theorem promote? {mode : Promotion} {target : Ty} {e promoted : Expr}
    (originates : ctx.Originates tokens supplied e)
    (outcome : e.promote? ctx.env.classes mode target = some promoted) :
    ctx.Originates tokens supplied promoted := by
  intro isConstant
  obtain ⟨rfl, -⟩ | ⟨_, _, constant, -⟩ | ⟨rfl, -⟩ | ⟨rfl, -⟩ := Expr.promote?_cases outcome
  · exact originates isConstant
  · cases Expr.promotedConstant constant with
    | null => exact .null
    | reread notNull read => exact .reread (originates rfl) notNull read
  · cases isConstant
  · exact originates isConstant

/-- Every step that adapts a constant is one of those that constants come from each other by. -/
theorem adapted {e e' : Expr} (isAdapted : Adapted ctx.env.classes e e')
    (originates : ctx.Originates tokens supplied e) : ctx.Originates tokens supplied e' := by
  induction isAdapted with
  | same => exact originates
  | promoted _ outcome ih => exact ih.promote? outcome
  | @read target position first second before outcome ih =>
      intro _
      obtain ⟨text, value, isText, reads, rfl⟩ := Expr.readText?_eq_ok outcome
      have isConstant : first.isConstant = true := by
        obtain ⟨value, isValue, -⟩ := Option.bind_eq_some_iff.mp isText
        rw [Expr.isConstant, isValue]
        rfl
      exact .read (ih isConstant) isText reads
  | @integer first value before outcome ih =>
      intro _
      have isConstant : first.isConstant = true := by
        obtain ⟨text, isText, -⟩ := Option.bind_eq_some_iff.mp outcome
        obtain ⟨value, isValue, -⟩ := Option.bind_eq_some_iff.mp isText
        rw [Expr.isConstant, isValue]
        rfl
      exact .integer (ih isConstant) outcome
  | @member x first second before taken ih =>
      intro _
      exact .taken (ih taken.isConstant) taken
  | null => exact fun _ => .null
  | convert => exact fun isConstant => absurd isConstant Bool.false_ne_true

end Originates

/-- Every constant that a step of the grammar puts in a tree has an origin. -/
theorem nodesKeep_originates (ctx : CompileContext) (tokens : List Token)
    (supplied : Expr → Prop) : ctx.NodesKeep tokens (ctx.Originates tokens supplied) where
  other node _ noConstant isConstant := by
    rw [noConstant] at isConstant
    cases isConstant
  operation _ _ _ _ _ := nofun
  comparison _ _ _ _ _ _ outcome := by
    obtain ⟨_, _, _, rfl, -⟩ := Expr.comparison_cases outcome
    exact nofun
  call receiver _ _ _ _ _ := by
    cases receiver <;> exact nofun
  literal _ read _ := .literal read
  value _ named _ := .value named
  type _ _ := .type
  null _ _ := .null
  member _ _ _ _ met isEnum named _ := .member met isEnum named
  name _ met _ := .name met
  adapted _ _ isAdapted originates := originates.adapted isAdapted

end CompileContext

/-- A node occurs in an expression among the arguments of a text. -/
def Argument.Supplies (args : List Argument) (node : Expr) : Prop :=
  ∃ a bound, Argument.expr a ∈ args ∧ Expr.Occurs bound node a

/-- Every constant of a tree that a text compiles to has an origin. -/
theorem Environment.Returns.originates {env : Environment} {params : List Parameter}
    {text : String} {args : List Argument} {ctx : CompileContext} {e : Expr}
    (context : CompileContext.of env params args = .ok ctx)
    (returns : env.Returns params text args e) :
    e.Everywhere (ctx.Originates (Scan.ofText text env.options.decimalSeparator).tokens
      (Argument.Supplies args)) := by
  refine Returns.everywhere (fun other same => ?_) (fun a isArg => ?_) returns
  · obtain rfl : ctx = other := Except.ok.inj (context.symm.trans same)
    exact CompileContext.nodesKeep_originates ctx _ _
  · exact Expr.everywhere_of_occurs fun bound node inside _ => .supplied ⟨a, bound, isArg, inside⟩

end QueryTree

/-!
## Texts that constants keep

The text that a constant keeps spells its value, be the constant read from a literal or from the
text that another constant keeps.
-/

namespace QueryTree

open QueryTree.Expr (SpelledBy)

/-- A value that is neither a text nor an integer is spelled by every text. -/
theorem Expr.SpelledBy.of_other {value : Value} (text : String) (noText : value.string? = none)
    (noInteger : value.toInt? = none) : SpelledBy value text := by
  refine ⟨?_, ?_⟩
  · rintro s rfl
    cases noText
  · rintro i m rfl
    cases noInteger

namespace Literal

/-- An integer is spelled by its digits, with or without letters that choose its width. -/
theorem spelledBy_digits {i : Integer} {qualifier : List Char}
    (isQualifier : qualifier ∈ qualifiers) :
    SpelledBy (.integral i) (toString i.val ++ String.ofList qualifier) := by
  refine ⟨nofun, ?_⟩
  rintro _ m ⟨⟩ spelled
  by_cases qualified : qualifier = []
  · subst qualified
    rw [String.ofList_nil, String.append_empty, int?_toString] at spelled
    exact (Option.some.inj spelled).symm
  · rw [int?_qualified isQualifier qualified] at spelled
    cases spelled

theorem fitting?_eq_some {kinds : List IntKind} {z : Int} {value : Value}
    (fits : fitting? kinds z = some value) : ∃ i : Integer, value = .integral i ∧ i.val = z := by
  obtain ⟨kind, inRange, -, found⟩ | ⟨-, missing⟩ := fitting?_cases kinds z
  · exact ⟨_, Option.some.inj (fits.symm.trans found), rfl⟩
  · cases fits.symm.trans missing

theorem natural?_eq_some {qualifier : List Char} {n : Nat} {value : Value}
    (fits : natural? qualifier n = some value) :
    qualifier ∈ qualifiers ∧ ∃ i : Integer, value = .integral i ∧ i.val = n := by
  unfold natural? at fits
  split at fits
  case h_6 => cases fits
  all_goals exact ⟨by decide, fitting?_eq_some fits⟩

/-- The letters of a literal with a minus sign. -/
theorem mem_qualifiers_of_signed {letters : List Char}
    (signed : ¬ (String.ofList letters != "" && String.ofList letters != "L") = true) :
    letters ∈ qualifiers := by
  simp only [Bool.and_eq_true, bne_iff_ne, ne_eq, not_and_or, not_not] at signed
  obtain none | long := signed
  · obtain rfl : letters = [] := String.ofList_injective none
    decide
  · obtain rfl : letters = ['L'] := String.ofList_injective long
    decide

/-- The text that is kept with a real number spells it as every text does. -/
theorem real_spelled {text kept : String} {separator : Char} {position : Nat} {type : Ty}
    {value : Value}
    (outcome : real text separator position = .ok (.constant type value (some kept))) :
    SpelledBy value kept := by
  rw [real] at outcome
  simp only at outcome
  split at outcome
  next => cases outcome
  next found read =>
    obtain ⟨-, rfl, -⟩ := Expr.constant.inj (Except.ok.inj outcome)
    split at read
    next =>
      obtain ⟨x, rfl⟩ := finiteSingle?_eq_some read
      exact .of_other kept rfl rfl
    next =>
      obtain ⟨d, -, rfl⟩ := Option.map_eq_some_iff.mp read
      exact .of_other kept rfl rfl
    next =>
      obtain ⟨x, rfl⟩ := finiteDouble?_eq_some read
      exact .of_other kept rfl rfl

/-- The text that is kept with an integer spells this integer or none. -/
theorem integer_spelled {text kept : String} {position : Nat} {type : Ty} {value : Value}
    (outcome : integer text position = .ok (.constant type value (some kept))) :
    SpelledBy value kept := by
  rw [integer] at outcome
  simp only at outcome
  generalize IntegerParts.ofChars text.toList = parts at outcome
  split at outcome
  next =>
    split at outcome
    next => exact real_spelled outcome
    next => cases outcome
  next =>
    split at outcome
    next => cases outcome
    next n _ =>
      split at outcome
      next => cases outcome
      next =>
        split at outcome
        next =>
          split at outcome
          next => cases outcome
          next plain =>
            split at outcome
            next found fits =>
              obtain ⟨-, rfl, same⟩ := Expr.constant.inj (Except.ok.inj outcome)
              obtain ⟨i, rfl, val⟩ := fitting?_eq_some fits
              rw [← val] at same
              exact Option.some.inj same ▸ spelledBy_digits (mem_qualifiers_of_signed plain)
            next => cases outcome
        next =>
          split at outcome
          next found fits =>
            obtain ⟨-, rfl, same⟩ := Expr.constant.inj (Except.ok.inj outcome)
            obtain ⟨isQualifier, i, rfl, val⟩ := natural?_eq_some fits
            have digits : toString n = toString i.val := by rw [val]; rfl
            rw [digits] at same
            exact Option.some.inj same ▸ spelledBy_digits isQualifier
          next => cases outcome

/-- The text of a character or text literal is kept as it is decoded. -/
theorem quoted_spelled {token : Token} {kept : String} {type : Ty} {value : Value}
    (outcome : quoted token = .ok (.constant type value (some kept))) : SpelledBy value kept := by
  obtain ⟨decoded, -, outcome⟩ := bind_eq_ok_iff.mp outcome
  split at outcome
  next =>
    split at outcome
    next c =>
      obtain ⟨-, rfl, -⟩ := Expr.constant.inj (pure_eq_ok_iff.mp outcome)
      refine ⟨?_, ?_⟩
      · rintro s ⟨⟩
      · rintro i m ⟨⟩
    next => cases outcome
  next =>
    obtain ⟨-, rfl, same⟩ := Expr.constant.inj (pure_eq_ok_iff.mp outcome)
    obtain rfl := Option.some.inj same
    refine ⟨fun s isText => (Value.string.inj isText).symm, ?_⟩
    rintro i m ⟨⟩

/-- A literal is of the type of its value and keeps a text that spells it. -/
theorem ReadFrom.spelled {tokens : List Token} {type : Ty} {value : Value} {kept : String}
    (read : ReadFrom tokens (.constant type value (some kept))) :
    value.HasKind type.core ∧ SpelledBy value kept := by
  constructor
  · obtain ⟨value', text, same, isLiteral⟩ := read.isLiteral
    obtain ⟨rfl, rfl, -⟩ := Expr.constant.inj same
    cases value with
    | char | string | integral | single | double | decimal => exact ⟨rfl, BEq.rfl⟩
    | _ => cases isLiteral
  · cases read with
    | quoted _ outcome => exact quoted_spelled outcome
    | integer _ outcome => exact integer_spelled outcome
    | real _ outcome => exact real_spelled outcome

end Literal

/-- A text that is read again as a value of another type spells this value. -/
theorem Expr.reread?_spelled {source target : Ty} {text : String} {value : Value}
    (read : reread? source text target = some value) : SpelledBy value text := by
  refine ⟨?_, ?_⟩
  · rintro s rfl
    cases string?_of_reread? read
  · rintro i m rfl spelled
    obtain rfl : target = .integral i.kind := Ty.eq_atom_of_beq (reread?_kind read).2
    have number (read : Literal.number? text (.integral i.kind) = some (.integral i)) :
        m = i.val := by
      obtain ⟨n, isText, made⟩ := Option.bind_eq_some_iff.mp read
      obtain ⟨j, fits, same⟩ := Option.map_eq_some_iff.mp made
      obtain rfl := Value.integral.inj same
      obtain rfl := Option.some.inj (isText.symm.trans spelled)
      exact (Integer.val_of_ofInt? fits).symm
    cases reread read with
    | integer _ read => exact number read
    | real _ isTarget => obtain isTarget | isTarget := isTarget <;> cases isTarget

/-- A constant that was not supplied as it is keeps a text that spells its value, unless it is
null. -/
theorem CompileContext.Origin.spelled {ctx : CompileContext} {tokens : List Token}
    {supplied : Expr → Prop} {type : Ty} {value : Value} {kept : String}
    (origin : ctx.Origin tokens supplied (.constant type value (some kept)))
    (isValue : value ≠ .null) :
    supplied (.constant type value (some kept)) ∨
      value.HasKind type.core ∧ SpelledBy value kept := by
  generalize node : Expr.constant type value (some kept) = e at origin
  cases origin with
  | supplied isSupplied => exact .inl isSupplied
  | literal read =>
      subst node
      exact .inr read.spelled
  | null =>
      obtain ⟨-, rfl, -⟩ := Expr.constant.inj node
      exact absurd rfl isValue
  | reread _ _ outcome =>
      obtain ⟨rfl, rfl, same⟩ := Expr.constant.inj node
      obtain rfl := Option.some.inj same
      exact .inr ⟨Expr.reread?_kind outcome, Expr.reread?_spelled outcome⟩
  | taken _ taken =>
      obtain ⟨op, outcome, -⟩ := taken
      obtain ⟨enum, n, -, rfl⟩ := Expr.enumConstant_eq_ok outcome
      cases node
  | value | type | member | name | read | integer => cases node

end QueryTree
