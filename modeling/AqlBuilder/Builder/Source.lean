import AqlBuilder.Builder.Condition

/-!
# Sources

The main source of a query, its joins and its unions. A source is a collection, a view or the rows
of a sub-query. A join is a query over the joined source whose filter holds the conditions of the
join, so its columns belong to the joined source unless they say otherwise.
-/

namespace AqlBuilder.Builder

variable [Naming]

/-- Set the prefix of collection names. -/
def withPrefix (b : Builder) (tablePrefix : String) : Builder :=
  { b with tablePrefix := tablePrefix }

/-- Register a collection written as `name` or `name as alias`. -/
def register (b : Builder) (table : String) : String × String × Builder :=
  let (name, asName) := tableAndAlias table
  let (docVar, aliases) := b.aliases.registerTable name asName
  (name, docVar, { b with aliases := aliases })

/-- Register the rows of a sub-query under an alias, or under its number if the alias is empty. -/
def registerQuery (b query : Builder) (asName : String) : String × Builder :=
  let (docVar, aliases) :=
    if asName.isEmpty then b.aliases.registerSubQuery query.id
    else b.aliases.registerTable asName (some asName)
  (docVar, { b with aliases := aliases })

/-- Iterate over a collection. -/
def fromCollection (b : Builder) (table : String) : Builder :=
  let (name, docVar, b) := b.register table
  { b with source := some (.collection name docVar) }

/-- A query over a collection without an alias iterates under the variable of its documents. -/
theorem fromCollection_unnamed {table docVar : String} (hname : tableAndAlias table = (table, none))
    (hvariable : Alias.documentVariable table = docVar) (id : Nat) :
    fromCollection (Clauses.empty id) table =
      { Clauses.empty id with
        aliases := { Registry.empty with tables := [(table, docVar)] }
        source := some (.collection table docVar) } := by
  have hregistered : Registry.empty.registerTable table none =
      (docVar, { Registry.empty with tables := [(table, docVar)] }) := by
    rw [← hvariable]
    rfl
  have haliases : (Clauses.empty id : Builder).aliases = Registry.empty := rfl
  simp only [fromCollection, register, hname, haliases, hregistered]

/-- Iterate over a view. -/
def fromView (b : Builder) (view : String) : Builder :=
  let (name, docVar, b) := b.register view
  { b with source := some (.view name docVar) }

/-- Iterate over the rows of a sub-query. -/
def fromQuery (b : Builder) (sub : SubQuery) (asName : String) : Supply Builder :=
  b.unlessFailedM fun b => do
    let (query, b) ← b.adopt sub .source
    let (docVar, b) := b.registerQuery query asName
    pure { b with source := some (.derived (.of query) docVar) }

/-- Add a join whose conditions are complete. -/
def pushJoin (b : Builder) (kind : JoinKind) (joined : Builder) : Builder :=
  let b := b.absorb joined .join
  { b with joins := b.joins ++ [⟨kind, .of joined⟩] }

/-- Join a collection under the conditions that a function adds. -/
def joinWith (b : Builder) (kind : JoinKind) (table : String)
    (restrict : Builder → Supply Builder) : Supply Builder :=
  b.unlessFailedM fun b => do
    let (name, docVar, b) := b.register table
    let joined ← b.forSubQuery
    let joined ← restrict { joined with source := some (.collection name docVar) }
    pure (b.pushJoin kind joined)

/-- Join a collection where two columns compare. -/
def join (b : Builder) (kind : JoinKind) (table first : String)
    (operator : Except Error Operator) (second : String) : Supply Builder :=
  b.joinWith kind table fun joined => pure (joined.compareColumns .and first operator second)

/-- Join every document of a collection. -/
def crossJoin (b : Builder) (table : String) : Supply Builder :=
  b.joinWith .cross table fun joined => pure joined

/-- Join the rows of a sub-query where two columns compare. -/
def joinQuery (b : Builder) (kind : JoinKind) (sub : SubQuery) (asName first : String)
    (operator : Except Error Operator) (second : String) : Supply Builder :=
  b.unlessFailedM fun b => do
    let (query, b) ← b.adopt sub .join
    let (docVar, b) := b.registerQuery query asName
    let joined ← b.forSubQuery
    let joined : Builder := { joined with source := some (.derived (.of query) docVar) }
    pure (b.pushJoin kind (joined.compareColumns .and first operator second))

/-- A join that keeps joined documents without a partner is not supported. -/
def rightJoin (b : Builder) : Builder := b.fail (.unsupported .rightJoin)

/-- A join that keeps rows of a sub-query without a partner is not supported. -/
def rightJoinQuery (b : Builder) : Builder := b.fail (.unsupported .rightJoinOfQuery)

/-- Combine the rows with those of another query. -/
def union (b : Builder) (all : Bool) (sub : SubQuery) : Supply Builder :=
  b.unlessFailedM fun b => do
    let (query, b) ← b.adopt sub .union
    let (own, other) := b.aliases.exchangeTables query.aliases
    pure { b with
      aliases := own
      unions := b.unions ++ [⟨.of { query with aliases := other }, all⟩] }

/-- The analyzer of a full-text search that names none. -/
def defaultAnalyzer : String := "text_en"

/-- Search for a text in attributes of a view. -/
def fullTextSearch (b : Builder) (fields : List (Selector Query)) (text : Value)
    (analyzer : Option String) : Builder :=
  b.unlessFailed fun b =>
    match b.source with
    | some (.view _ _) =>
      let fields := fields.filterMap Selector.column?
      if fields.isEmpty then b.fail (.invalidArgument .searchWithoutAttribute)
      else
        let (text, b) := b.bindValue text .search
        let (analyzer, b) := b.bindValue (.string (analyzer.getD defaultAnalyzer)) .search
        { b with search := some ⟨fields, text, analyzer⟩ }
    | _ => b.fail (.unsupported .searchOutsideView)

end AqlBuilder.Builder
