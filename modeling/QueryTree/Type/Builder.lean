import QueryTree.Type.Class

/-!
# Building classes

Classes put together declaration by declaration.
-/

namespace QueryTree

/-- A class before it gets its place in a table. -/
structure ClassBuilder where
  name : String
  qualifier : Option String
  isValue : Bool
  body : ClassBody

namespace ClassBuilder

/-- A class with a name and nothing else. -/
def named (name : String) : ClassBuilder := ⟨name, none, false, .empty⟩

/-- The class in a namespace. -/
def inNamespace (builder : ClassBuilder) (space : String) : ClassBuilder :=
  { builder with qualifier := some space }

/-- The class with value semantics. -/
def asValue (builder : ClassBuilder) : ClassBuilder := { builder with isValue := true }

/-- The class with a base type. -/
def withBase (builder : ClassBuilder) (base : Ty) : ClassBuilder :=
  { builder with body := { builder.body with base := some base } }

/-- The class with one more member. -/
def withMember (builder : ClassBuilder) (member : Member) : ClassBuilder :=
  { builder with body := { builder.body with members := builder.body.members ++ [member] } }

/-- The class with one more method. -/
def withMethod (builder : ClassBuilder) (name : String) (params : List Ty) (result : Option Ty)
    (isStatic : Bool) : ClassBuilder :=
  let method : Method := ⟨name, builder.name, params, result, isStatic⟩
  { builder with body := { builder.body with methods := builder.body.methods ++ [method] } }

/-- The class with one more constructor. -/
def withConstructor (builder : ClassBuilder) (params : List Ty) : ClassBuilder :=
  { builder with
    body := { builder.body with constructors := builder.body.constructors ++ [params] } }

/-- The class with one more indexer. -/
def withIndexer (builder : ClassBuilder) (params : List Ty) (type : Ty) : ClassBuilder :=
  { builder with
    body := { builder.body with indexers := builder.body.indexers ++ [⟨params, type⟩] } }

/-- The class with one more operator or conversion method. -/
def withOperator (builder : ClassBuilder) (name : String) (params : List Ty) (result : Ty) :
    ClassBuilder :=
  let method := Method.staticMethod builder.name name params result
  { builder with body := { builder.body with operators := builder.body.operators ++ [method] } }

/-- The class with elements. -/
def withElements (builder : ClassBuilder) (element : Ty) : ClassBuilder :=
  { builder with body := { builder.body with element := some element } }

/-- The type of the class, which gets a place in the table. -/
def build (builder : ClassBuilder) (table : ClassTable) : Ty × ClassTable :=
  let (c, table) := table.declare builder.name builder.qualifier builder.isValue
  (.cls c, (table.define? c builder.body).getD table)

end ClassBuilder

end QueryTree
