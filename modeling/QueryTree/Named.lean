/-!
# Named parts

Lists of parts with names, sorted by name and with different names.
-/

namespace QueryTree.Named

/-- A part put in its place by name, or put instead of the one that has its name. -/
def insert {α : Type} (name : String) (part : α) : List (String × α) → List (String × α)
  | [] => [(name, part)]
  | (other, held) :: rest =>
    if name = other then (name, part) :: rest
    else if name < other then (name, part) :: (other, held) :: rest
    else (other, held) :: insert name part rest

/-- Parts sorted by name; of several with one name the last counts. -/
def sort {α : Type} (parts : List (String × α)) : List (String × α) :=
  parts.foldl (fun held part => insert part.1 part.2 held) []

end QueryTree.Named
