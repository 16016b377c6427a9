import AqlBuilder.Connection.Terminal

/-!
# Operations

Everything that can be asked of a connection, as data. Local operations do not wait for the server,
and a callback of a transaction consists of them; it stops at its first error.

- `LocalOperation.perform` and `Operation.perform` carry out an operation.
-/

namespace AqlBuilder

variable [Naming]

/-- A query for a connection: a collection, if any, and the calls that follow. -/
structure QueryScript where
  table : Option String
  script : Script

/-- Where a statement comes from. -/
inductive StatementScript
  | given (statement : Compiled)
  | query (query : QueryScript) (entry : Entry (Subject Script))

/-- An operation that does not wait for the server. -/
inductive LocalOperation
  | start (collections : Collections)
  | enqueue (statement : StatementScript) (collections : Option Collections)
  | rollback
  /-- Fail with a message of the caller. -/
  | fail (text : String)
  | failClient (source : ClientError)
  | enableLog
  | disableLog
  | flushLog
  | showLog
  | startPretending
  | finishPretending
  | aggregate (query : QueryScript) (function : AggregateFunction) (column : Option String)

/-- What is wanted of a statement. -/
inductive Use
  | select
  | characters
  | selectOne
  | statement
  | affecting
  | returning
  | explain

/-- An operation of a connection. -/
inductive Operation
  | locally (operation : LocalOperation)
  | query (query : QueryScript) (terminal : Terminal (Subject Script))
  | send (use : Use) (statement : StatementScript)
  | commit
  | transaction (collections : Collections) (attempts : Nat) (callback : List LocalOperation)

/-- Build a query for a connection, with the text that the connection puts in front of the names of
collections. -/
def QueryScript.build (q : QueryScript) (c : Connection) : Supply Builder := do
  let b := (← Builder.fresh).withPrefix c.config.tablePrefix
  match q.table with
  | some table => q.script.action (b.fromCollection table)
  | none => q.script.action b

/-- Make a statement. -/
def StatementScript.make (c : Connection) : StatementScript → Supply (Except Error Compiled)
  | given statement => pure (.ok statement)
  | query q entry => do (← q.build c).statementFor entry

/-- Make a statement and use it on the connection. -/
def Session.making {α : Type} (statement : StatementScript)
    (use : Connection → Compiled → Answered α) : Session α := fun c => do
  match ← statement.make c with
  | .ok compiled => pure (use c compiled)
  | .error e => pure (.error e, c)

/-- An operation that changes the connection and has no answer. -/
def Session.change (f : Connection → Connection) : Session Answer :=
  fun c => pure (.ok .nothing, f c)

/-- Carry out an operation that does not wait for the server. -/
def LocalOperation.perform : LocalOperation → Session Answer
  | start collections => .change fun c => c.start collections
  | enqueue statement collections => .making statement fun c s =>
      (c.enqueue s collections).map fun _ => .nothing
  | rollback => fun c => pure (c.rollback.map fun _ => .nothing)
  | fail text => fun c => pure (.error (.transaction (.other text)), c)
  | failClient source => fun c => pure (.error (.client source), c)
  | enableLog => .change Connection.enableLog
  | disableLog => .change Connection.disableLog
  | flushLog => .change Connection.flushLog
  | showLog => fun c => pure (.ok (.events c.log), c)
  | startPretending => .change Connection.startPretending
  | finishPretending => fun c =>
      let (events, c) := c.finishPretending
      pure (.ok (.events events), c)
  | aggregate q function column => .making (.query q (.aggregate function column)) fun c s =>
      (.ok (.statement s), c)

/-- Carry out operations one after another, up to the first error. -/
def LocalOperation.performAll : List LocalOperation → Session (List Answer)
  | [] => fun c => pure (.ok [], c)
  | operation :: rest => fun c => do
    match ← operation.perform c with
    | (.error e, c) => pure (.error e, c)
    | (.ok answer, c) =>
      let answered ← performAll rest c
      pure (answered.map (answer :: ·))

/-- Run a callback inside a transaction level and close the level. -/
def Session.transaction {α : Type} (collections : Collections) (attempts : Nat)
    (callback : Session α) : Session α := fun c => do
  let (result, c) ← callback (c.start collections)
  pure (c.settle attempts result)

/-- Use a statement on a connection. -/
def Use.apply : Use → Connection → Compiled → Answered Answer
  | select, c, s => (c.select s).map .rows
  | characters, c, s => (c.selectAs Character.ofRow? s).map .characters
  | selectOne, c, s => (c.selectOne s).map .row
  | statement, c, s => (c.statement s).map .truth
  | affecting, c, s => (c.affecting s).map .number
  | returning, c, s => (c.returning s).map .rows
  | explain, c, s => (c.explain s).map .json

/-- Carry out an operation. -/
def Operation.perform : Operation → Session Answer
  | locally operation => operation.perform
  | query q terminal => fun c => do
    let b ← q.build c
    b.perform (← terminal.run b) c
  | send use statement => .making statement use.apply
  | commit => fun c => pure (c.commit.map .row)
  | transaction collections attempts callback => fun c => do
    let answered ← Session.transaction collections attempts (LocalOperation.performAll callback) c
    pure (answered.map .several)

/-- Carry out operations one after another, whatever their results. -/
def Operation.performAll : List Operation → Connection → Supply Connection
  | [], c => pure c
  | operation :: rest, c => do
    let (_, c) ← operation.perform c
    performAll rest c

end AqlBuilder
