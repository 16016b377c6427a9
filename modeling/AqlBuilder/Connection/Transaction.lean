import AqlBuilder.Connection.Basic

/-!
# Transactions of a connection

The outermost commit sends one transaction to the server. A transaction that conflicts with another
one, or whose connection dropped, is sent again, up to a number of attempts. A dropped connection
ends every open level.

- `Connection.send` is the loop over the attempts.
- `Connection.commit` closes a level.
- `Connection.settle` closes the level of a callback according to the callback's result.
-/

namespace AqlBuilder

/-- The action of a transaction as a statement. -/
def Transaction.statement (t : Transaction) : Compiled := ⟨t.action, []⟩

namespace Connection

/-- Drop all levels. -/
def dropLevels (c : Connection) : Connection := { c with levels := [] }

/-- Give up a transaction. A dropped connection takes the open levels with it. -/
def giveUp (c : Connection) (t : Transaction) (source : ClientError) : Answered Json :=
  (.error (c.failure t.statement source), if source.isLostConnection then c.dropLevels else c)

/-- Send a transaction, and again up to some times if it fails in a way that can be cured. -/
def send (t : Transaction) : Nat → Connection → Answered Json
  | again, c =>
    match c.server.transact t with
    | (.ok result, server) => (.ok result, { c with server := server }.record t.statement)
    | (.error source, server) =>
      let c := { c with server := server }
      match again with
      | 0 => c.giveUp t source
      | again + 1 =>
        if source.isConcurrency then send t again c
        else if source.isLostConnection && c.config.reconnect then
          let c := c.dropLevels
          match c.server.reconnect with
          | (.error source, server) =>
            (.error (c.failure t.statement source), { c with server := server })
          | (.ok _, server) => send t again { c with server := server }
        else c.giveUp t source

/-- Run a transaction with a number of attempts; there is always one. -/
def execute (c : Connection) (t : Transaction) (attempts : Nat) : Answered Json :=
  if c.pretending then (.ok .null, c.record t.statement)
  else send t (max attempts 1 - 1) c

/-- Open a transaction level. -/
def start (c : Connection) (collections : Collections) : Connection :=
  { c with levels := c.levels.start collections }

/-- Queue a statement on the open transaction. -/
def enqueue (c : Connection) (statement : Compiled) (collections : Option Collections) :
    Answered Unit :=
  match c.levels.addStatement statement collections with
  | .ok levels => (.ok (), { c with levels := levels })
  | .error e => (.error e, c)

/-- Drop the innermost level. -/
def rollback (c : Connection) : Answered Unit :=
  match c.levels.rollback with
  | .ok levels => (.ok (), { c with levels := levels })
  | .error e => (.error e, c)

/-- Close the innermost level with a number of attempts. The outermost one is run, and the result
is what the server returned. -/
def close (c : Connection) (attempts : Nat) : Answered (Option Json) :=
  match c.levels.commit with
  | (.error e, levels) => (.error e, { c with levels := levels })
  | (.ok none, levels) => (.ok none, { c with levels := levels })
  | (.ok (some t), levels) => (execute { c with levels := levels } t attempts).map some

/-- Close the innermost level with the configured number of attempts. -/
def commit (c : Connection) : Answered (Option Json) := c.close c.config.transactionAttempts

/-- Close the level of a callback: commit it if the callback succeeded, otherwise drop it, and all
levels if the connection dropped. -/
def settle {α : Type} (c : Connection) (attempts : Nat) : Except Error α → Answered α
  | .ok value => (c.close attempts).map fun _ => value
  | .error e =>
    if e.isLostConnection then (.error e, c.dropLevels)
    else match c.rollback with
      | (.ok _, c) => (.error e, c)
      | (.error fault, c) => (.error fault, c)

end Connection

end AqlBuilder
