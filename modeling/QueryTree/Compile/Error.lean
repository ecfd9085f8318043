import QueryTree.Type.Basic

/-!
# Compile errors

Everything that can be wrong with an expression text, with the position at which it was found.
-/

namespace QueryTree

/-- What could have followed in a text. -/
inductive Expectation where
  | expression | identifier | colon | openParen | openCurly | closeBracket
  | openParenOrIdentifier | closeParenOrOperator | closeParenOrComma | closeBracketOrComma
deriving DecidableEq

namespace Expectation

/-- The words for what is expected. -/
def text : Expectation → String
  | expression => "Expression"
  | identifier => "Identifier"
  | colon => "':'"
  | openParen => "'('"
  | openCurly => "'\x7b'"
  | closeBracket => "']'"
  | openParenOrIdentifier => "'(' or identifier"
  | closeParenOrOperator => "')' or operator"
  | closeParenOrComma => "')' or ','"
  | closeBracketOrComma => "']' or ','"

end Expectation

/-- The parameters of the current scope that have a name of their own. -/
inductive ContextName where
  | it | parent | root
deriving DecidableEq

/-- The word for a parameter of the scope. -/
def ContextName.word : ContextName → String
  | it => "it"
  | parent => "parent"
  | root => "root"

/-- Why a text does not compile. -/
inductive CompileFault where
  | invalidCharacter (c : Char)
  | unterminatedString
  | invalidCharacterLiteral
  | invalidEscape (c : Char)
  | hexDigitExpected
  | invalidInteger (text : String)
  | invalidReal (text : String)
  | minusOnUnsigned
  | malformed
  | expected (what : Expectation)
  | nullPropagationOperator
  | duplicateIdentifier (name : String)
  | unknownIdentifier (name : String)
  | notInScope (name : ContextName)
  | unknownMember (name : String) (type : Ty)
  | noApplicableMethod (name : String) (type : Ty)
  | ambiguousMethod (name : String) (type : Ty)
  | inaccessibleMethods (declaringType : String)
  | methodWithoutResult (name : String) (type : Ty)
  | noApplicableAggregate (name : String)
  | noApplicableIndexer (type : Ty)
  | ambiguousIndexer (type : Ty)
  | severalArrayIndices
  | invalidArrayIndex
  | noMatchingConstructor (type : Ty)
  | ambiguousConstructor (type : Ty)
  | cannotConvert (source target : Ty)
  | typeNotFound (name : String)
  | noNullableForm (type : Ty)
  | typeExpected (type : Ty)
  | incompatibleOperand (symbol : String) (type : Ty)
  | incompatibleOperands (symbol : String) (left right : Ty)
  | testNotBoolean
  | bothBranchesConvert (left right : String)
  | neitherBranchConverts (left right : String)
  | iifArguments
  | isnullArguments
  | npArguments
  | npTarget
  | oneOrTwoArguments (function : String)
  | typeArgumentExpected (function : String)
  | asOfValueType (type : Ty)
  | coalesceOfValueType (type : Ty)
  | missingName
  | duplicateMember (name : String)
  | enumValueNotDefined (value enumName : String)
  | enumerableExpected
  | argumentCount (expected : Nat)
  | incompatibleArguments

namespace CompileFault

/-- The message of a fault. -/
def message : CompileFault → String
  | invalidCharacter c => "Syntax error '" ++ String.singleton c ++ "'"
  | unterminatedString => "Unterminated string literal"
  | invalidCharacterLiteral => "Character literal must contain exactly one character"
  | invalidEscape c => "Invalid escape sequence '\\" ++ String.singleton c ++ "'"
  | hexDigitExpected => "Hexadecimal digit expected"
  | invalidInteger text => "Invalid integer literal '" ++ text ++ "'"
  | invalidReal text => "Invalid real literal '" ++ text ++ "'"
  | minusOnUnsigned => "Operator '-' cannot be applied to an unsigned integer literal"
  | malformed => "Syntax error"
  | expected what => what.text ++ " expected"
  | nullPropagationOperator =>
    "An expression tree lambda may not contain a null propagating operator. "
      ++ "Use the 'np()' function instead"
  | duplicateIdentifier name => "The identifier '" ++ name ++ "' was defined more than once"
  | unknownIdentifier name => "Unknown identifier '" ++ name ++ "'"
  | notInScope name => "No '" ++ name.word ++ "' is in scope"
  | unknownMember name type =>
    "No property or field '" ++ name ++ "' exists in type '" ++ type.display ++ "'"
  | noApplicableMethod name type =>
    "No applicable method '" ++ name ++ "' exists in type '" ++ type.display ++ "'"
  | ambiguousMethod name type =>
    "Ambiguous invocation of method '" ++ name ++ "' in type '" ++ type.display ++ "'"
  | inaccessibleMethods declaringType =>
    "Methods on type '" ++ declaringType ++ "' are not accessible"
  | methodWithoutResult name type =>
    "Method '" ++ name ++ "' in type '" ++ type.display ++ "' does not return a value"
  | noApplicableAggregate name => "No applicable aggregate method '" ++ name ++ "' exists"
  | noApplicableIndexer type => "No applicable indexer exists in type '" ++ type.display ++ "'"
  | ambiguousIndexer type => "Ambiguous invocation of indexer in type '" ++ type.display ++ "'"
  | severalArrayIndices => "Indexing of multi-dimensional arrays is not supported"
  | invalidArrayIndex => "Array index must be an integer expression"
  | noMatchingConstructor type => "No matching constructor in type '" ++ type.display ++ "'"
  | ambiguousConstructor type => "Ambiguous invocation of '" ++ type.display ++ "' constructor"
  | cannotConvert source target =>
    "A value of type '" ++ source.display ++ "' cannot be converted to type '"
      ++ target.display ++ "'"
  | typeNotFound name => "Type '" ++ name ++ "' not found"
  | noNullableForm type => "Type '" ++ type.display ++ "' has no nullable form"
  | typeExpected type => "Expression of type '" ++ type.display ++ "' expected"
  | incompatibleOperand symbol type =>
    "Operator '" ++ symbol ++ "' incompatible with operand type '" ++ type.display ++ "'"
  | incompatibleOperands symbol left right =>
    "Operator '" ++ symbol ++ "' incompatible with operand types '" ++ left.display ++ "' and '"
      ++ right.display ++ "'"
  | testNotBoolean => "The first expression must be of type 'Boolean'"
  | bothBranchesConvert left right =>
    "Both of the types '" ++ left ++ "' and '" ++ right ++ "' convert to the other"
  | neitherBranchConverts left right =>
    "Neither of the types '" ++ left ++ "' and '" ++ right ++ "' converts to the other"
  | iifArguments => "The 'iif' function requires three arguments"
  | isnullArguments => "The 'isnull' function requires two arguments"
  | npArguments => "The 'np' (null-propagation) function requires 1 or 2 arguments"
  | npTarget =>
    "The 'np' (null-propagation) function requires the first argument to be a member access "
      ++ "expression"
  | oneOrTwoArguments function =>
    "The '" ++ function ++ "' function requires one or two arguments"
  | typeArgumentExpected function =>
    "The '" ++ function ++ "' function requires the type argument to be a string or a type"
  | asOfValueType type =>
    "The 'as' function requires a reference or nullable type, but '" ++ type.display
      ++ "' is a value type"
  | coalesceOfValueType type =>
    "The left operand of '??' must be a reference or nullable type, found '" ++ type.display ++ "'"
  | missingName => "Expression is missing an 'as' clause"
  | duplicateMember name => "The member '" ++ name ++ "' is projected more than once"
  | enumValueNotDefined value enumName =>
    "Enum value '" ++ value ++ "' is not defined in enum type '" ++ enumName ++ "'"
  | enumerableExpected => "Identifier implementing interface 'IEnumerable' expected"
  | argumentCount count => "Lambda expects " ++ toString count ++ " argument(s)"
  | incompatibleArguments => "Argument list incompatible with lambda expression"

end CompileFault

/-- A fault and the position, in characters, at which it was found. -/
structure CompileError where
  position : Nat
  fault : CompileFault

/-- The message of an error. -/
def CompileError.message (error : CompileError) : String := error.fault.message

end QueryTree
