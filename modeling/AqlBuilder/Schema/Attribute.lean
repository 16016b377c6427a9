import AqlBuilder.Statement.Compiled

/-!
# Attributes of a collection

The documents of a collection have no fixed attributes, so an attribute is looked for, renamed or
removed in every document. The collection and the names of the attributes are bound values.
-/

namespace AqlBuilder.Schema

/-- The bound values of a statement about a collection. -/
def collectionBindings (collection : String) : Bindings := [("@collection", .string collection)]

/-- The bound names of the attributes, numbered from `start`. -/
def attributeBindings : Nat → List String → Bindings
  | _, [] => []
  | start, name :: rest =>
    ("attribute_" ++ toString start, .string name) :: attributeBindings (start + 1) rest

/-- A statement about some attributes of a collection, of which there has to be one. The text is
made from the names under which the attributes are bound. -/
def attributeStatement (collection : String) (attributes : List String)
    (text : List String → String) : Except Error Compiled :=
  if attributes.isEmpty then .error (.invalidArgument .attributeRequired)
  else
    let bound := attributeBindings 1 attributes
    .ok ⟨text bound.keys, collectionBindings collection ++ bound⟩

/-- The statement that asks whether a document has all of some attributes. -/
def hasAttributes (collection : String) (attributes : List String) : Except Error Compiled :=
  attributeStatement collection attributes fun names =>
    "RETURN LENGTH((FOR doc IN @@collection FILTER "
      ++ " AND ".intercalate (names.map fun name => "HAS(doc, @" ++ name ++ ")")
      ++ " LIMIT 1 RETURN true)) > 0"

/-- The statement that removes attributes from every document. -/
def dropAttributes (collection : String) (attributes : List String) : Except Error Compiled :=
  attributeStatement collection attributes fun names =>
    "FOR doc IN @@collection UPDATE doc WITH \x7b"
      ++ ", ".intercalate (names.map fun name => "[@" ++ name ++ "]: null")
      ++ "\x7d IN @@collection OPTIONS \x7bkeepNull: false\x7d"

/-- The statement that renames an attribute in every document that has it. -/
def renameAttribute (collection source target : String) : Except Error Compiled :=
  if source.isEmpty || target.isEmpty then .error (.invalidArgument .emptyAttributeName)
  else .ok ⟨"FOR doc IN @@collection FILTER HAS(doc, @from) UPDATE doc WITH "
      ++ "\x7b[@from]: null, [@to]: doc[@from]\x7d IN @@collection OPTIONS \x7bkeepNull: false\x7d",
    collectionBindings collection ++ [("from", .string source), ("to", .string target)]⟩

end AqlBuilder.Schema
