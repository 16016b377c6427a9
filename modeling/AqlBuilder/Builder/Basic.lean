import AqlBuilder.Aql.Statement
import AqlBuilder.Query.Clause

/-!
# Builders

The parts that all methods of a builder share. A method that gets arguments it cannot express
records an error; the first error stays, and most methods leave a builder with an error as it is.

Sub-queries are given as finished builders or as functions of a builder that already knows the
collections and query variables around it. Taking over a sub-query means that its bound values go
to the parent and that its first error becomes the parent's, if the parent has none. A sub-query
that runs inside the parent's loop must not use the parent's document variables for its own loop;
if its variable was generated and is in use, its number is added to it.

- `Builder.adopt` takes over a sub-query.
- `Builder.bind` turns an operand into its text, filing plain values in the store.
-/

namespace AqlBuilder

variable [Naming]

/-- A sub-query as an argument of a method. -/
inductive SubQuery
  /-- A query that was built before. -/
  | finished (b : Builder)
  /-- A function that is applied to a new builder when the method needs it. -/
  | closure (make : Builder → Supply Builder)

namespace Builder

/-- A new builder with the next number. -/
def fresh : Supply Builder := do pure (Clauses.empty (← Supply.fresh))

/-- Record an error unless there is one. -/
def fail (b : Builder) (e : Error) : Builder := { b with error := b.error.or (some e) }

/-- Change a builder that has no error. -/
def unlessFailed (b : Builder) (change : Builder → Builder) : Builder :=
  if b.error.isSome then b else change b

/-- Change a builder that has no error, taking numbers. -/
def unlessFailedM (b : Builder) (change : Builder → Supply Builder) : Supply Builder :=
  if b.error.isSome then pure b else change b

/-- The error of a builder, if it has one. -/
def check (b : Builder) : Except Error Unit :=
  match b.error with
  | some e => .error e
  | none => .ok ()

/-- A new builder that knows the collections and variables of this one. -/
def forSubQuery (b : Builder) : Supply Builder := do
  let query ← fresh
  pure { query with
    tablePrefix := b.tablePrefix
    aliases := (query.aliases.importTables b.aliases).importVariables b.aliases }

/-- A new builder over the same source, for a group of conditions. A sub-query in the source is
copied. -/
def forNested (b : Builder) : Supply Builder := do
  let query ← fresh
  let source ← runSource (b.source.map (Source.map Query.copyOf))
  pure { query with tablePrefix := b.tablePrefix, source := source, aliases := b.aliases }

/-- Take over the bound values and the error of a sub-query. -/
def absorb (b sub : Builder) (category : Category) : Builder :=
  { b with
    bindings := b.bindings.merge sub.bindings (some category)
    error := b.error.or sub.error }

/-- The variable that a sub-query over a collection gets inside the loop of this builder, if it
cannot keep its own. -/
def scopedVariable? (b sub : Builder) (name docVar : String) : Option String :=
  if b.aliases.isTableVariable docVar && docVar = Alias.documentVariable name then
    some (docVar ++ toString sub.id)
  else none

/-- The sub-query with its document variable renamed if this builder already uses it. -/
def rescoped (b sub : Builder) : Builder :=
  match sub.source with
  | some (.collection name docVar) =>
    match b.scopedVariable? sub name docVar with
    | some v => { sub with
        source := some (.collection name v)
        aliases := (sub.aliases.registerTable name (some v)).2 }
    | none => sub
  | some (.view name docVar) =>
    match b.scopedVariable? sub name docVar with
    | some v => { sub with
        source := some (.view name v)
        aliases := (sub.aliases.registerTable name (some v)).2 }
    | none => sub
  | _ => sub

/-- The sub-query with its document variable renamed where it runs inside the loop. -/
def scopedFor (b sub : Builder) (category : Category) : Builder :=
  if category.insideLoop then b.rescoped sub else sub

/-- The builder of a sub-query that is given to this one. -/
def subBuilder (b : Builder) : SubQuery → Supply Builder
  | .finished sub => pure { sub with aliases := sub.aliases.importTables b.aliases }
  | .closure make => do make (← b.forSubQuery)

/-- Take over a sub-query. The result is the sub-query and this builder. -/
def adopt (b : Builder) (sub : SubQuery) (category : Category) : Supply (Builder × Builder) := do
  let query := b.scopedFor (← b.subBuilder sub) category
  pure (query, b.absorb query category)

/-- File a value. Text that is the reference of a bound value stands for itself. -/
def bindValue (b : Builder) (value : Value) (category : Category) : Bound × Builder :=
  let file :=
    let (name, bindings) := b.bindings.add value category
    (.placeholder name, { b with bindings := bindings })
  match value with
  | .string text => if isPlaceholder text then (.raw text, b) else file
  | _ => file

/-- Turn an operand into its text. A sub-query is compiled at once. -/
def bind (b : Builder) (operand : Operand Builder) (category : Category) :
    Supply (Bound × Builder) :=
  match operand with
  | .value value => pure (b.bindValue value category)
  | .expression aql => pure (.raw aql, b)
  | .column name => pure (.column name, b)
  | .query query => do
    let query := b.scopedFor query category
    match ← query.embedded.run with
    | .ok aql => pure (.raw aql, b.absorb query category)
    | .error e => pure (.raw "", b.fail e)

end Builder

/-!
## Bound values of a builder

Callers may file values themselves, replace those of a category or take over the values of another
builder. Only values are filed; trusted text and sub-queries among the operands are left out.
-/

/-- The values among some operands. -/
def Operand.values {Q : Type} (operands : List (Operand Q)) : List Value :=
  operands.filterMap fun
    | .value v => some v
    | _ => none

namespace Builder

/-- File a value under the category with a name. -/
def addBinding (b : Builder) (value : Value) (category : String) : Builder :=
  b.unlessFailed fun b =>
    match Category.ofName category with
    | .ok c => { b with bindings := (b.bindings.add value c).2 }
    | .error e => b.fail e

/-- File several values under the category with a name. -/
def addBindings (b : Builder) (operands : List (Operand Builder)) (category : String) : Builder :=
  b.unlessFailed fun b =>
    (Operand.values operands).foldl (fun b value => b.addBinding value category) b

/-- Replace the values of a category. -/
def setBindings (b : Builder) (values : Bindings) (category : Category) : Builder :=
  { b with bindings := b.bindings.set values category }

/-- Take over the values of another builder, under one category if it is given. -/
def mergeBindings (b other : Builder) (category : Option Category) : Builder :=
  { b with bindings := b.bindings.merge other.bindings category }

end Builder

end AqlBuilder
