import AqlBuilder.Aql.Collect

/-!
# Projections

The last clause of a statement says what is returned: the result of an aggregate, the value of a
single attribute, whole documents, an object of attributes, or documents merged with attributes.
-/

namespace AqlBuilder.Aql

/-- What a projection is put together from. -/
structure Projected where
  documents : List String
  /-- Attributes with their expressions. -/
  attributes : List (String × String)

/-- The main document and the joined ones. -/
def allDocuments (c : Clauses Fragment) : List String :=
  c.docVar.toList ++ c.joins.map fun j => j.query.docVar

/-- What a query returns if nothing is selected: its documents, or the keys of its groups. -/
def unselected (c : Clauses Fragment) (keys : List String) : Projected :=
  if !c.columns.isEmpty then ⟨[], []⟩
  else if keys.isEmpty then ⟨allDocuments c, []⟩
  else ⟨[], keys.map fun key => (key, key)⟩

/-- The projection with one more part. -/
def Projected.select (scope : Scope) (p : Projected) : Selector Fragment → Projected
  | .column name =>
    { p with attributes := p.attributes ++ [(Column.attributeName name, scope.resolve name)] }
  | .aliased name asName => { p with attributes := p.attributes ++ [(asName, scope.resolve name)] }
  | .documents table =>
    { p with documents := p.documents ++
      if table.isEmpty then scope.docVar.toList
      else [(scope.aliases.tableVariable? table).getD table] }
  | .raw aql (some asName) => { p with attributes := p.attributes ++ [(asName, aql)] }
  | .raw aql none => { p with documents := p.documents ++ [aql] }
  | .sub _ asName => { p with attributes := p.attributes ++ [(asName, asName)] }

/-- The expression of a projection. -/
def Projected.text (p : Projected) : String :=
  match p.documents with
  | [] => objectLiteral p.attributes
  | [document] =>
    if p.attributes.isEmpty then document
    else "MERGE(" ++ document ++ ", " ++ objectLiteral p.attributes ++ ")"
  | documents =>
    let all := if p.attributes.isEmpty then documents else documents ++ [objectLiteral p.attributes]
    "MERGE(" ++ ", ".intercalate all ++ ")"

/-- The expression of a projection whose only attribute is returned as a value. -/
def Projected.valueText (p : Projected) (singleValue : Bool) : String :=
  match p.documents, p.attributes with
  | [], [(_, expression)] => if singleValue then expression else p.text
  | _, _ => p.text

/-- The clause that returns the rows of a query in the scope behind its groups. -/
def returnText (c : Clauses Fragment) (scope : Scope) (keys : List String) : String :=
  if c.aggregate.isSome then "RETURN \x7baggregate: " ++ aggregateVariable ++ "\x7d"
  else
    let projected := c.columns.foldl (Projected.select scope) (unselected c keys)
    "RETURN " ++ (if c.distinct then "DISTINCT " else "") ++ projected.valueText c.singleValue

/-- The variables of the selected sub-queries. -/
def selectedQueries : List (Selector Fragment) → Outcome (List String)
  | [] => pure []
  | .sub query asName :: rest => do
    let value ← query.value
    let rest ← selectedQueries rest
    pure (("LET " ++ asName ++ " = " ++ value) :: rest)
  | _ :: rest => selectedQueries rest

end AqlBuilder.Aql
