import AqlBuilder.Duration
import AqlBuilder.Error
import AqlBuilder.Statement.Compiled
import AqlBuilder.Transaction.Levels

/-!
# Servers

A server as a connection sees it: the replies that it is going to give, and the requests that it has
got. Replies of each kind are taken in order; when none is left the request succeeds with nothing.
A statement is prepared, and a prepared statement is executed or explained. The reply to an
execution or to an explanation may come with a delay.
-/

namespace AqlBuilder

/-- What an executed statement returns. -/
structure Cursor where
  rows : List Json
  /-- How many documents were modified. -/
  writes : Nat

/-- A reply that may come late. -/
structure Delayed (α : Type) where
  delay : Duration
  reply : Except ClientError α

/-- The reply to an execution. -/
abbrev Execution := Delayed Cursor

/-- The reply to an explanation. -/
abbrev Explanation := Delayed Json

/-- A request to a server. -/
inductive Request
  | prepare (statement : Compiled)
  | transaction (transaction : Transaction)
  | reconnect

/-- The replies and the requests of a server. -/
structure Server where
  executions : List Execution
  preparations : List (Except ClientError Unit)
  explanations : List Explanation
  transactions : List (Except ClientError Json)
  reconnects : List (Except ClientError Unit)
  /-- All requests so far, the first one first. -/
  requests : List Request

namespace Server

/-- The next reply of a queue, and the queue without it. -/
def next {α : Type} (standard : α) : List α → α × List α
  | [] => (standard, [])
  | reply :: rest => (reply, rest)

/-- Prepare a statement. -/
def prepare (server : Server) (statement : Compiled) : Except ClientError Unit × Server :=
  let (reply, rest) := next (.ok ()) server.preparations
  (reply, { server with
    preparations := rest
    requests := server.requests ++ [.prepare statement] })

/-- Execute a prepared statement. -/
def execute (server : Server) : Execution × Server :=
  let (reply, rest) := next ⟨⟨0⟩, .ok ⟨[], 0⟩⟩ server.executions
  (reply, { server with executions := rest })

/-- Explain a prepared statement. -/
def explain (server : Server) : Explanation × Server :=
  let (reply, rest) := next ⟨⟨0⟩, .ok .null⟩ server.explanations
  (reply, { server with explanations := rest })

/-- Run a transaction. -/
def transact (server : Server) (transaction : Transaction) : Except ClientError Json × Server :=
  let (reply, rest) := next (.ok .null) server.transactions
  (reply, { server with
    transactions := rest
    requests := server.requests ++ [.transaction transaction] })

/-- Connect again. -/
def reconnect (server : Server) : Except ClientError Unit × Server :=
  let (reply, rest) := next (.ok ()) server.reconnects
  (reply, { server with
    reconnects := rest
    requests := server.requests ++ [.reconnect] })

end Server

end AqlBuilder
