import QueryTree.Overload.Resolution

/-!
# Calls of declared members

The methods, indexers and constructors of a type that suit some arguments.
-/

namespace QueryTree.Ty

/-- Whether a method is called by a name, ASCII letters in either case. -/
def answersTo (method : Method) (name : String) : Bool :=
  Text.sameIgnoringAsciiCase method.name name

/-- Whether a type has a method with a name. -/
def hasMethod (table : ClassTable) (type : Ty) (name : String) : Bool :=
  (type.methods table).any (answersTo · name)

/-- The method with a name that suits the arguments best. -/
def resolveMethod (table : ClassTable) (type : Ty) (name : String) (isStatic : Bool)
    (args : List Expr) : Resolution Method :=
  Resolution.choose table .argument args
    (((type.methods table).filter fun m => m.isStatic == isStatic && answersTo m name).map
      fun m => (m, m.params))

/-- The indexer that suits the arguments best. -/
def resolveIndexer (table : ClassTable) (type : Ty) (args : List Expr) : Resolution Indexer :=
  Resolution.choose table .argument args
    ((type.indexers table).map fun indexer => (indexer, indexer.params))

/-- The parameter types of the constructor that suits the arguments best. -/
def resolveConstructor (table : ClassTable) (type : Ty) (args : List Expr) :
    Resolution (List Ty) :=
  Resolution.choose table .argument args
    ((type.constructors table).map fun params => (params, params))

end QueryTree.Ty
