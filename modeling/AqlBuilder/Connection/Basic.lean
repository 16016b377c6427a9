import AqlBuilder.Connection.Config
import AqlBuilder.Connection.Server
import AqlBuilder.Value.Keys

/-!
# Connections

A connection sends statements to a server. A statement that failed because the connection dropped is
sent once more after a reconnect; a statement that takes too long is given up. Every statement that
succeeded is announced to the listeners and, if wanted, kept in a log. A connection that pretends
keeps statements in its log and sends nothing.

- `Connection.attempt` sends a statement once.
- `Connection.run` treats a dropped connection and announces the statement.
- `Connection.select` and its kin say which part of the result is wanted.
-/

namespace AqlBuilder

/-- A statement that was executed. -/
structure Event where
  /-- The name of the connection. -/
  connection : String
  aql : String
  bindings : Bindings

/-- A connection and the server behind it. -/
structure Connection where
  config : Config
  server : Server
  /-- The open transaction levels. -/
  levels : Levels
  listeners : Nat
  /-- What the listeners have been told, one entry for each listener and event. -/
  heard : List Event
  log : List Event
  logging : Bool
  pretending : Bool

/-- What an operation on a connection yields, and the connection afterwards. -/
abbrev Answered (α : Type) := Except Error α × Connection

namespace Answered

variable {α β : Type}

/-- Change what was yielded. -/
def map (f : α → β) : Answered α → Answered β
  | (.ok a, c) => (.ok (f a), c)
  | (.error e, c) => (.error e, c)

/-- Change what was yielded, which may fail. -/
def andThen (f : α → Except Error β) : Answered α → Answered β
  | (.ok a, c) => (f a, c)
  | (.error e, c) => (.error e, c)

end Answered

namespace Connection

/-- A connection to a server. -/
def ofConfig (config : Config) (server : Server) (listeners : Nat) : Connection where
  config := config
  server := server
  levels := []
  listeners := listeners
  heard := []
  log := []
  logging := config.logQueries
  pretending := false

/-- The name of a connection. -/
def name (c : Connection) : String := c.config.name

/-- Announce a statement. -/
def record (c : Connection) (statement : Compiled) : Connection :=
  let event : Event := ⟨c.name, statement.aql, statement.bindings⟩
  { c with
    heard := c.heard ++ List.replicate c.listeners event
    log := if c.logging || c.pretending then c.log ++ [event] else c.log }

/-- The error of a statement that failed on the server. -/
def failure (c : Connection) (statement : Compiled) (source : ClientError) : Error :=
  .query c.name statement.aql statement.bindings source

/-- What a reply to a statement comes to under the time limit of the connection. -/
def received {α : Type} (c : Connection) (statement : Compiled) (delayed : Delayed α) :
    Except Error α :=
  let reply := match delayed.reply with
    | .ok result => .ok result
    | .error source => .error (c.failure statement source)
  match c.config.timeLimit with
  | some limit => if limit.nanoseconds < delayed.delay.nanoseconds then .error (.timeout limit)
    else reply
  | none => reply

/-- Send a statement once. -/
def attempt (c : Connection) (statement : Compiled) : Answered Cursor :=
  match c.server.prepare statement with
  | (.error source, server) => (.error (c.failure statement source), { c with server := server })
  | (.ok _, server) =>
    let (execution, server) := server.execute
    (c.received statement execution, { c with server := server })

/-- Announce a statement that succeeded. -/
def announced (statement : Compiled) : Answered Cursor → Answered Cursor
  | (.ok cursor, c) => (.ok cursor, c.record statement)
  | (.error e, c) => (.error e, c)

/-- Connect again and send a statement once more. -/
def retry (c : Connection) (statement : Compiled) : Answered Cursor :=
  match c.server.reconnect with
  | (.error source, server) => (.error (c.failure statement source), { c with server := server })
  | (.ok _, server) => attempt { c with server := server } statement

/-- Send a statement, a second time if the connection dropped. -/
def run (c : Connection) (statement : Compiled) : Answered Cursor :=
  if c.pretending then (.ok ⟨[], 0⟩, c.record statement)
  else
    let (result, c) := c.attempt statement
    match result with
    | .error e =>
      if e.isLostConnection && c.config.reconnect then
        announced statement (c.retry statement)
      else (.error e, c)
    | .ok cursor => (.ok cursor, c.record statement)

/-- Send a reading statement and return its rows, with the keys of documents under the callers'
name. -/
def select (c : Connection) (statement : Compiled) : Answered (List Json) :=
  (c.run statement).map fun cursor => cursor.rows.map Json.keyToId

/-- Send a reading statement and return its first row. -/
def selectOne (c : Connection) (statement : Compiled) : Answered (Option Json) :=
  (c.select statement).map List.head?

/-- All rows as a reader understands them. -/
def readRows {α : Type} (read : Json → Option α) (rows : List Json) : Except Error (List α) :=
  match rows.mapM read with
  | some values => .ok values
  | none => .error .serialization

/-- Send a reading statement and read its rows. -/
def selectAs {α : Type} (read : Json → Option α) (c : Connection) (statement : Compiled) :
    Answered (List α) :=
  (c.select statement).andThen (readRows read)

/-- Send a writing statement. Inside a transaction it is queued instead and has no result. -/
def write (c : Connection) (statement : Compiled) : Answered (Option Cursor) :=
  if c.levels.isEmpty then (c.run statement).map some
  else match c.levels.addStatement statement none with
    | .ok levels => (.ok none, { c with levels := levels })
    | .error e => (.error e, c)

/-- Send a writing statement and say that it succeeded. -/
def statement (c : Connection) (statement : Compiled) : Answered Bool :=
  (c.write statement).map fun _ => true

/-- Send a writing statement and return the number of modified documents, none if it is queued. -/
def affecting (c : Connection) (statement : Compiled) : Answered Nat :=
  (c.write statement).map fun cursor => (cursor.map Cursor.writes).getD 0

/-- Send a writing statement and return its rows, none if it is queued. -/
def returning (c : Connection) (statement : Compiled) : Answered (List Json) :=
  (c.write statement).map fun cursor => (cursor.map Cursor.rows).getD []

/-- Ask for the plan of a statement, under the time limit too. It is neither announced nor sent
again. -/
def explain (c : Connection) (statement : Compiled) : Answered Json :=
  match c.server.prepare statement with
  | (.error source, server) => (.error (c.failure statement source), { c with server := server })
  | (.ok _, server) =>
    let (explanation, server) := server.explain
    (c.received statement explanation, { c with server := server })

/-- Keep executed statements. -/
def enableLog (c : Connection) : Connection := { c with logging := true }

/-- Keep no further statements. -/
def disableLog (c : Connection) : Connection := { c with logging := false }

/-- Forget the kept statements. -/
def flushLog (c : Connection) : Connection := { c with log := [] }

/-- Keep statements without sending them. -/
def startPretending (c : Connection) : Connection := { c.flushLog with pretending := true }

/-- Send statements again. The result are the statements kept so far. -/
def finishPretending (c : Connection) : List Event × Connection :=
  (c.log, { c with pretending := false, log := [] })

end Connection

end AqlBuilder
