import AqlBuilder.Duration
import AqlBuilder.Json.Printer
import AqlBuilder.Json.Record

/-!
# Configuration

How to reach a server and how to treat its failures. A configuration is read from a JSON object in
which every field may be left out; it is written without the password.
-/

namespace AqlBuilder

/-- The settings of a connection. -/
structure Config where
  /-- The name of the connection in errors and events. -/
  name : String := "arangodb"
  endpoint : String := "http://localhost:8529"
  database : String := "_system"
  username : String := "root"
  password : Option String := none
  /-- Text in front of every collection name. -/
  tablePrefix : String := ""
  /-- Whether executed statements are kept. -/
  logQueries : Bool := false
  /-- Whether a statement is sent once more after the connection dropped. -/
  reconnect : Bool := true
  /-- Milliseconds after which a statement is given up. -/
  timeoutMilliseconds : Option Nat := none
  /-- How often a transaction is sent while it conflicts with others. -/
  transactionAttempts : Nat := 1

namespace Config

/-- The configuration under a name. -/
def named (c : Config) (name : String) : Config := { c with name := name }

/-- The configuration for a server. -/
def reaching (c : Config) (endpoint : String) : Config := { c with endpoint := endpoint }

/-- The configuration for a database. -/
def within (c : Config) (database : String) : Config := { c with database := database }

/-- The configuration with the name and the password of a user. -/
def credentials (c : Config) (username password : String) : Config :=
  { c with username := username, password := some password }

/-- The configuration with a text in front of every collection name. -/
def prefixed (c : Config) (tablePrefix : String) : Config := { c with tablePrefix := tablePrefix }

/-- The configuration that keeps executed statements. -/
def logging (c : Config) : Config := { c with logQueries := true }

/-- The configuration that fails when the connection drops. -/
def withoutReconnect (c : Config) : Config := { c with reconnect := false }

/-- The configuration with a time limit, in whole milliseconds of 64 bits. -/
def limitedTo (c : Config) (limit : Duration) : Config :=
  { c with timeoutMilliseconds := some (min limit.milliseconds Json.greatest64) }

/-- The configuration with a number of attempts, at least one. -/
def attempting (c : Config) (attempts : Nat) : Config :=
  { c with transactionAttempts := max attempts 1 }

/-- The time limit of a statement. -/
def timeLimit (c : Config) : Option Duration := c.timeoutMilliseconds.map Duration.ofMilliseconds

/-- The fields of a configuration, in order. -/
def recordFields : List String :=
  ["name", "endpoint", "database", "username", "password", "prefix", "log_queries", "reconnect",
    "query_timeout_ms", "transaction_attempts"]

/-- The configuration in a JSON text. -/
def read? (text : String) : Option Config := do
  let r ← Json.Record.read? recordFields text
  let standard : Config := {}
  return {
    name := ← r.fieldOr? "name" standard.name Json.Tree.text?
    endpoint := ← r.fieldOr? "endpoint" standard.endpoint Json.Tree.text?
    database := ← r.fieldOr? "database" standard.database Json.Tree.text?
    username := ← r.fieldOr? "username" standard.username Json.Tree.text?
    password := ← r.fieldOr? "password" standard.password (Json.Tree.optional? Json.Tree.text?)
    tablePrefix := ← r.fieldOr? "prefix" standard.tablePrefix Json.Tree.text?
    logQueries := ← r.fieldOr? "log_queries" standard.logQueries Json.Tree.truth?
    reconnect := ← r.fieldOr? "reconnect" standard.reconnect Json.Tree.truth?
    timeoutMilliseconds := ← r.fieldOr? "query_timeout_ms" standard.timeoutMilliseconds
      (Json.Tree.optional? (Json.Tree.natural? Json.greatest64))
    transactionAttempts := ← r.fieldOr? "transaction_attempts" standard.transactionAttempts
      (Json.Tree.natural? Json.greatest32) }

/-- The JSON value of the time limit. -/
def timeoutJson (c : Config) : Json :=
  match c.timeoutMilliseconds with
  | some n => .int n
  | none => .null

/-- The JSON object of a configuration, without the password. -/
def toJson (c : Config) : Json :=
  .object [
    ("name", .string c.name), ("endpoint", .string c.endpoint), ("database", .string c.database),
    ("username", .string c.username), ("prefix", .string c.tablePrefix),
    ("log_queries", .bool c.logQueries), ("reconnect", .bool c.reconnect),
    ("query_timeout_ms", c.timeoutJson), ("transaction_attempts", .int c.transactionAttempts)]

/-- The JSON text of a configuration. -/
def text (c : Config) : String := c.toJson.text

end Config

end AqlBuilder
