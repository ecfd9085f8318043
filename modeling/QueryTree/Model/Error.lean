import QueryTree.Compile.Error
import QueryTree.Evaluate.Error
import QueryTree.Json.Basic

/-!
# Failures

What can go wrong between a schema, an expression text and an input document.
-/

namespace QueryTree

/-- Why a schema describes no model. -/
inductive SchemaFault where
  | declaredTwice (name : String)
  | underlyingType (enumName : String) (type : Ty)
  | noNullableForm (type : Ty)
  | unbalanced (text : String)
  | unknownGeneric (name : String)
  | unknownType (name : String)
  | noElementType
  /-- The value after a member of an enumeration does not fit its 64 bits.  This is no refusal of
  the schema: the load is abandoned in the middle of a computation, and the words are not shown. -/
  | enumExhausted (enumName : String)

/-- The words for a fault of a schema. -/
def SchemaFault.message : SchemaFault → String
  | declaredTwice name => "type '" ++ name ++ "' is declared twice"
  | underlyingType enumName type =>
    "enum '" ++ enumName ++ "' needs an integral underlying type, not " ++ type.display
  | noNullableForm type => "type '" ++ type.display ++ "' has no nullable form"
  | unbalanced text => "unbalanced '<' in '" ++ text ++ "'"
  | unknownGeneric name => "unknown generic type '" ++ name ++ "'"
  | unknownType name => "unknown type '" ++ name ++ "'"
  | noElementType => "no element type: pass --it or set \"it\" in the schema"
  | enumExhausted enumName => "the values of enum '" ++ enumName ++ "' are exhausted"

/-- Why a document is no value of a type. -/
inductive InputFault where
  | mismatch (type : Ty) (found : Json)
  | notMember (text : String) (type : Ty)
  | notValid (text : String) (type : Ty)

/-- The words for a fault of an input. -/
def InputFault.message : InputFault → String
  | mismatch type found => "expected " ++ type.display ++ " but found " ++ found.text
  | notMember text type => "'" ++ text ++ "' is not a member of " ++ type.display
  | notValid text type => "'" ++ text ++ "' is not a valid " ++ type.display

/-- Why a command fails. -/
inductive Failure where
  | compile (error : CompileError)
  | evaluate (error : EvalError)
  /-- A text is no document, or the document has a wrong shape. -/
  | document
  | schema (fault : SchemaFault)
  | input (fault : InputFault)
  | noInput

/-- The message of a failure. -/
def Failure.message : Failure → String
  | compile error =>
    "Parse error: " ++ error.message ++ " (at index " ++ toString error.position ++ ")"
  | evaluate error => "Evaluation error: " ++ error.message
  | document => "Invalid JSON"
  | schema fault => "Invalid schema: " ++ fault.message
  | input fault => "Invalid input: " ++ fault.message
  | noInput => "No input provided. Use --input or pipe JSON to stdin."

end QueryTree
