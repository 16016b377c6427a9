import AqlBuilder.Duration
import AqlBuilder.Text.Case
import AqlBuilder.Text.Split
import AqlBuilder.Value

/-!
# Errors

Every operation of the library fails with one of the errors below. Errors are grouped by kind, and
within a kind there is one constructor for each cause the library knows; `other` carries the words
of a caller who raises an error of that kind.

- `ClientError` is a failure that the client of a server reports: the status of the response, the
  server's error number and a message. Two kinds of failure can be cured by trying again, a dropped
  connection and a conflict between concurrent transactions. They are recognised by the error number
  or by a phrase in the message, in any case.
- `Error.message` is the text shown to the user.
- `Error.isLostConnection` and `Error.isConcurrency` classify errors that came from a client.
-/

namespace AqlBuilder

/-- A failure reported by the client of a server. -/
structure ClientError where
  /-- Status of the response, zero if none arrived. -/
  code : Nat
  /-- Error number of the server. -/
  number : Int
  message : String
  deriving DecidableEq, Inhabited

namespace ClientError

/-- Error numbers of a deadlock, a conflict of writes and a lock timeout. -/
def concurrencyNumbers : List Int := [29, 1200, 18]

/-- Phrases that mark a conflict between transactions. -/
def concurrencyPhrases : List String :=
  ["deadlock detected", "write-write conflict", "conflict", "lock timeout",
    "timeout waiting to lock"]

/-- Phrases that mark a dropped connection. -/
def lostConnectionPhrases : List String :=
  ["server has gone away", "no connection to the server", "lost connection", "connection refused",
    "connection reset", "broken pipe", "error while sending", "could not connect to server"]

/-- Whether the message holds one of the phrases, in any case. -/
def mentions (e : ClientError) (phrases : List String) : Bool :=
  let message := Text.lowerChars e.message.toList
  phrases.any fun phrase => Text.occursIn phrase.toList message

/-- Whether the connection dropped underneath the request. -/
def isLostConnection (e : ClientError) : Bool := e.mentions lostConnectionPhrases

/-- Whether the failure is a deadlock, a conflict of writes or a lock timeout. -/
def isConcurrency (e : ClientError) : Bool :=
  concurrencyNumbers.contains e.number || e.mentions concurrencyPhrases

/-- The text of a client error. -/
def text (e : ClientError) : String :=
  s!"[{e.code}/{e.number}] {e.message}"

end ClientError

/-- Arguments that a method cannot express. -/
inductive ArgumentFault
  | unknownCategory (name : String)
  | illegalOperator (text : String)
  | operatorWithNull
  | listRequired (operator : String)
  | twoBoundsRequired
  | illegalDirection
  | searchWithoutAttribute
  | aggregateWithoutColumn (function : String)
  | insertWithoutDocument
  | upsertWithoutUnique
  | upsertWithoutDocument
  | updateWithoutAttribute
  | amountNotNumeric
  | notAnObject (typeName : String)
  | attributeRequired
  | emptyAttributeName
  | other (text : String)

/-- Operations that the query language lacks. -/
inductive UnsupportedFeature
  | rightJoin
  | rightJoinOfQuery
  | searchOutsideView
  | other (text : String)

/-- Clauses that cannot be compiled. -/
inductive CompilationFault
  | noSource
  | readOnlyView (name : String)
  | derivedTarget
  | joinWithoutSource
  | notBitwise (operator : String)
  | groupKeyWithoutName (text : String)
  | aggregateWithoutColumn (function : String)
  | other (text : String)

/-- Misuse of transactions. -/
inductive TransactionFault
  | noneToQueueOn
  | noneToCommit
  | noneToRollBack
  | nothingToCommit
  | other (text : String)

/-- A failure of an operation. -/
inductive Error
  | invalidArgument (fault : ArgumentFault)
  | unsupported (feature : UnsupportedFeature)
  | compilation (fault : CompilationFault)
  /-- A statement that failed on the server. -/
  | query (connection aql : String) (bindings : Bindings) (source : ClientError)
  | transaction (fault : TransactionFault)
  /-- A client failure outside of a statement. -/
  | client (source : ClientError)
  /-- A statement that did not finish in time. -/
  | timeout (limit : Duration)
  /-- Data that does not have the expected form. -/
  | serialization

/-- The words for an argument fault. -/
def ArgumentFault.text : ArgumentFault → String
  | unknownCategory name => s!"Invalid binding type: {name}."
  | illegalOperator text =>
    s!"Illegal operator '{text}'. "
      ++ "Use the Operator constants or Operator::custom for other AQL operators."
  | operatorWithNull => "Illegal operator and value combination."
  | listRequired operator => s!"The {operator} operator requires an array or a sub-query."
  | twoBoundsRequired => "Between conditions require exactly two values."
  | illegalDirection => "Order direction must be \"asc\" or \"desc\"."
  | searchWithoutAttribute => "Search requires at least one attribute."
  | aggregateWithoutColumn function => s!"The {function} aggregate requires a column."
  | insertWithoutDocument => "Insert requires at least one document."
  | upsertWithoutUnique => "Upsert requires at least one unique attribute."
  | upsertWithoutDocument => "Upsert requires at least one document."
  | updateWithoutAttribute => "Update requires at least one attribute."
  | amountNotNumeric => "Non-numeric value passed to increment method."
  | notAnObject typeName => s!"Expected a JSON object, got {typeName}."
  | attributeRequired => "At least one attribute is required."
  | emptyAttributeName => "Attribute names must not be empty."
  | other text => text

/-- The words for a feature that is missing. -/
def UnsupportedFeature.text : UnsupportedFeature → String
  | rightJoin => "right join: swap the collections and use left_join"
  | rightJoinOfQuery => "right join: swap the collections and use left_join_sub"
  | searchOutsideView => "search: full-text search requires a view, call from_view() first"
  | other text => text

/-- The words for a compilation fault. -/
def CompilationFault.text : CompilationFault → String
  | noSource => "No collection to query; call from() first."
  | readOnlyView name => s!"'{name}' is a view; views are read-only."
  | derivedTarget => "Cannot write to the result of a sub-query."
  | joinWithoutSource => "Join without a source collection."
  | notBitwise operator => s!"'{operator}' is not a bitwise operator."
  | groupKeyWithoutName text =>
    s!"Raw group key '{text}' must have the form \x60variable = expression\x60."
  | aggregateWithoutColumn function => s!"The {function} aggregate requires a column."
  | other text => text

/-- The words for misuse of transactions. -/
def TransactionFault.text : TransactionFault → String
  | noneToQueueOn => "There is no active transaction."
  | noneToCommit => "There is no active transaction to commit."
  | noneToRollBack => "There is no active transaction to roll back."
  | nothingToCommit => "Cannot commit a transaction without commands."
  | other text => text

namespace Error

/-- The text shown to the user. -/
def message : Error → String
  | invalidArgument fault => "Invalid argument: " ++ fault.text
  | unsupported feature => "Unsupported operation: " ++ feature.text
  | compilation fault => "AQL compilation error: " ++ fault.text
  | query connection aql _ source =>
    s!"Query failed on connection '{connection}': {source.text} (AQL: {aql})"
  | transaction fault => "Transaction error: " ++ fault.text
  | client source => "Client error: " ++ source.text
  | timeout limit => "Query timed out after " ++ limit.text
  | serialization => "Serialization error"

/-- The client error behind an error, if there is one. -/
def clientError? : Error → Option ClientError
  | query _ _ _ source => some source
  | client source => some source
  | _ => none

/-- Whether the connection dropped. -/
def isLostConnection (e : Error) : Bool :=
  (e.clientError?.map ClientError.isLostConnection).getD false

/-- Whether the error is a conflict between concurrent transactions. -/
def isConcurrency (e : Error) : Bool :=
  (e.clientError?.map ClientError.isConcurrency).getD false

end Error

end AqlBuilder
