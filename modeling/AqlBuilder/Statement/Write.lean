import AqlBuilder.Statement.Row
import AqlBuilder.Statement.Compiled

/-!
# Writing statements

Statements that insert, update and remove documents. They write to the collection of the main loop;
a view and the rows of a sub-query cannot be written to. Rows are bound as one array, so the text of
an insert does not depend on them.

- `Entry` lists all ways to compile a builder, reading ones included, and `Builder.compile` runs
  one of them.
-/

namespace AqlBuilder

namespace Builder

/-- The collection that a statement writes to. -/
def target (b : Builder) : Except Error String :=
  match b.source with
  | some (.collection name _) => .ok (Aql.collectionName b.tablePrefix name)
  | some (.view name _) => .error (.compilation (.readOnlyView name))
  | some (.derived _ _) => .error (.compilation .derivedTarget)
  | none => .error (.compilation .noSource)

/-- The loops of a query with its order and its limit. -/
def selection (b : Builder) : Outcome (List String) := do
  let c := b.compiled
  let loops ← Aql.loops c
  pure (loops ++ Aql.sortIn c.scope c.orders ++ Aql.limitText c.limit c.offset)

/-- The documents with keys under the server's name, as one value. -/
def storedRows (documents : List Document) : Value :=
  .array (documents.map fun document => (Value.object document).idToKey)

/-- The statement that inserts documents. -/
def insertStatement (b : Builder) (rows : List Row) (ignoreErrors : Bool) : Outcome Compiled := do
  Outcome.ofExcept b.check
  let documents ← Outcome.ofExcept (Row.documents rows)
  if documents.isEmpty then .fail (.invalidArgument .insertWithoutDocument)
  else b.onCopy fun copy => do
    let collection ← Outcome.ofExcept copy.target
    let (name, bindings) := copy.bindings.add (storedRows documents) .insert
    let options := if ignoreErrors then " OPTIONS \x7bignoreErrors: true\x7d" else ""
    pure (.ofStore
      (Aql.loop "doc" ("@" ++ name) ++ " INSERT doc INTO " ++ collection ++ options
        ++ " RETURN NEW._key") bindings)

/-- An attribute by which documents are told apart or that is updated, under the server's name. -/
def storedAttribute (name : String) : String := renamed idAttribute keyAttribute name

/-- An object with attributes of the iterated row. -/
def fromRow (attributes : List String) : String :=
  Aql.objectLiteral (attributes.map fun a => (a, "doc." ++ Column.attributeText a.toList))

/-- The attributes that an upsert updates if none are named: those of the first document that do not
tell documents apart. -/
def updatedByDefault (documents : List Document) (unique : List String) : List String :=
  (((documents.head?.map Entries.keys).getD []).map storedAttribute).filter fun a =>
    !unique.contains a

/-- What an upsert updates by default is an attribute of one of the documents. -/
theorem mem_updatedByDefault {documents : List Document} {unique : List String} {a : String}
    (h : a ∈ updatedByDefault documents unique) :
    ∃ document ∈ documents, ∃ name ∈ Entries.keys document, storedAttribute name = a := by
  obtain ⟨name, hname, rfl⟩ := List.mem_map.mp (List.mem_filter.mp h).1
  cases documents with
  | nil => cases hname
  | cons first rest => exact ⟨first, List.mem_cons_self, name, hname, rfl⟩

/-- The statement that inserts documents or updates those that are there. -/
def upsertStatement (b : Builder) (rows : List Row) (uniqueBy : List String)
    (update : Option (List String)) : Outcome Compiled := do
  Outcome.ofExcept b.check
  if uniqueBy.isEmpty then .fail (.invalidArgument .upsertWithoutUnique)
  else
    let documents ← Outcome.ofExcept (Row.documents rows)
    if documents.isEmpty then .fail (.invalidArgument .upsertWithoutDocument)
    else
      let unique := uniqueBy.map storedAttribute
      let updated := match update with
        | some names => names.map storedAttribute
        | none => updatedByDefault documents unique
      b.onCopy fun copy => do
        let collection ← Outcome.ofExcept copy.target
        let (name, bindings) := copy.bindings.add (storedRows documents) .upsert
        pure (.ofStore
          (Aql.loop "doc" ("@" ++ name) ++ " UPSERT " ++ fromRow unique ++ " INSERT doc UPDATE "
            ++ fromRow updated ++ " IN " ++ collection) bindings)

/-- An operand as an update stores it. -/
def storedOperand : Operand Builder → Operand Builder
  | .value value => .value value.idToKey
  | other => other

variable [Naming]

/-- The text of an operand of an update, with the builder that holds its value. -/
def boundForUpdate (b : Builder) (operand : Operand Builder) : Outcome (String × Builder) :=
  match storedOperand operand with
  | .value value =>
    let (bound, b) := b.bindValue value .update
    pure (bound.text b.scope, b)
  | .expression aql => pure (aql, b)
  | .column name => pure (b.scope.resolve name, b)
  | .query query => do
    let query := b.rescoped query
    let aql ← query.embedded
    pure (aql, b.absorb query .update)

/-- The assigned attributes of an update, with the builder that holds their values. -/
def assigned (b : Builder) (fields : Entries Assigned) :
    List (String × Operand Builder) → Outcome (Entries Assigned × Builder)
  | [] => pure (fields, b)
  | (key, operand) :: rest => do
    let (aql, b) ← b.boundForUpdate operand
    assigned b (Assigned.assign fields key aql) rest

/-- The statement that assigns attributes of every document. -/
def updateText (b : Builder) (assignments : List (String × Operand Builder)) :
    Outcome Compiled := do
  let collection ← Outcome.ofExcept b.target
  let docVar := b.docVar.getD ""
  let (fields, b) ← b.assigned [] assignments
  let selection ← b.selection
  let update :=
    "UPDATE " ++ docVar ++ " WITH " ++ (Assigned.nested fields).text ++ " IN " ++ collection
  pure (.ofStore (" ".intercalate (selection ++ [update])) b.bindings)

/-- The statement that updates every document. -/
def updateStatement (b : Builder) (changes : Changes Builder) : Outcome Compiled := do
  Outcome.ofExcept b.check
  let assignments ← Outcome.ofExcept changes.assignments
  if assignments.isEmpty then .fail (.invalidArgument .updateWithoutAttribute)
  else b.onCopy fun copy => copy.updateText assignments

/-- Whether an amount is added or subtracted. -/
inductive Adjustment
  | increment
  | decrement
  deriving DecidableEq

/-- The sign of an adjustment. -/
def Adjustment.sign : Adjustment → String
  | increment => "+"
  | decrement => "-"

/-- The statement that adjusts an attribute of every document by an amount. -/
def adjustStatement (b : Builder) (adjustment : Adjustment) (column : String) (amount : Value) :
    Outcome Compiled := do
  Outcome.ofExcept b.check
  if !amount.isNumber then .fail (.invalidArgument .amountNotNumeric)
  else b.onCopy fun copy =>
    let current := copy.scope.resolve column
    let (name, bindings) := copy.bindings.add amount .update
    let adjusted := current ++ " " ++ adjustment.sign ++ " @" ++ name
    updateText { copy with bindings := bindings } [(column, .expression adjusted)]

/-- The condition that the key of a document is a bound value. -/
def keyCondition (name : String) : Condition Query :=
  ⟨.compare idAttribute .equal (.placeholder name), .and⟩

/-- The statement that removes every document of a query. -/
def removeText (b : Builder) (collection : String) : Outcome Compiled := do
  let selection ← b.selection
  let remove := "REMOVE " ++ b.docVar.getD "" ++ " IN " ++ collection
  pure (.ofStore (" ".intercalate (selection ++ [remove])) b.bindings)

/-- The statement that removes documents, only the one with a key if it is given. A key without
other conditions needs no loop. -/
def deleteStatement (b : Builder) (key : Option Value) : Outcome Compiled := do
  Outcome.ofExcept b.check
  b.onCopy fun copy => do
    let collection ← Outcome.ofExcept copy.target
    match key with
    | none => copy.removeText collection
    | some key =>
      let (name, bindings) := copy.bindings.add key .filter
      if copy.filters.isEmpty && copy.joins.isEmpty then
        pure (.ofStore ("REMOVE \x7b_key: @" ++ name ++ "\x7d IN " ++ collection) bindings)
      else
        removeText { copy with
          bindings := bindings
          filters := copy.filters ++ [keyCondition name] } collection

/-- The statement that removes every document of a collection. -/
def truncateStatement (b : Builder) : Outcome Compiled := do
  Outcome.ofExcept b.check
  b.onCopy fun copy => do
    let collection ← Outcome.ofExcept copy.target
    pure (.ofStore (Aql.loop "doc" collection ++ " REMOVE doc IN " ++ collection) copy.bindings)

end Builder

/-- A way to compile a builder, with operands whose queries have the type `Q`. -/
inductive Entry (Q : Type)
  | select
  | existence
  | aggregate (function : AggregateFunction) (column : Option String)
  | insert (rows : List Row) (ignoreErrors : Bool)
  | upsert (rows : List Row) (uniqueBy : List String) (update : Option (List String))
  | update (changes : Changes Q)
  | adjust (adjustment : Builder.Adjustment) (column : String) (amount : Value)
  | delete (key : Option Value)
  | truncate

variable [Naming]

/-- Compile a builder. -/
def Builder.compile (b : Builder) : Entry Builder → Outcome Compiled
  | .select => b.toCompiled
  | .existence => b.existsStatement
  | .aggregate function column => b.aggregateStatement function column
  | .insert rows ignoreErrors => b.insertStatement rows ignoreErrors
  | .upsert rows uniqueBy update => b.upsertStatement rows uniqueBy update
  | .update changes => b.updateStatement changes
  | .adjust adjustment column amount => b.adjustStatement adjustment column amount
  | .delete key => b.deleteStatement key
  | .truncate => b.truncateStatement

end AqlBuilder
