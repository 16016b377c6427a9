import AqlBuilder.Statement.Compiled
import AqlBuilder.Transaction.Collections
import AqlBuilder.Value.Printer

/-!
# Transaction levels

Inside a transaction statements are not sent but queued as commands. Transactions can be nested:
each level has its own commands and its own declared collections. Committing a level appends it to
the one around it; committing the outermost level yields one transaction for the server, whose
action is a function that runs all commands in order. Rolling back a level drops it.

- `Levels.start`, `Levels.addCommand`, `Levels.rollback` change the stack of levels.
- `Levels.commit` closes a level; one without commands is dropped with an error.
- `Level.toTransaction` is what the outermost level is sent as.
-/

namespace AqlBuilder

/-- One statement of a transaction. -/
structure Command where
  name : String
  /-- The statement in the language of the action. -/
  code : String
  collections : Collections

/-- A transaction as the server gets it. -/
structure Transaction where
  collections : Collections
  /-- The function that the server calls. -/
  action : String

/-- A level of a transaction that has not been committed. -/
structure Level where
  collections : Collections
  commands : List Command

/-- The open levels, the innermost first. -/
abbrev Levels := List Level

/-- The call that runs a statement with its bound values. -/
def Compiled.call (statement : Compiled) : String :=
  let aql := Json.quote statement.aql
  if statement.bindings.isEmpty then "db._query(" ++ aql ++ ");"
  else "db._query(" ++ aql ++ ", " ++ Json.objectText (Value.memberTexts statement.bindings) ++ ");"

/-- The command that runs a statement. If no collections are declared for it they are inferred. -/
def Command.ofStatement (statement : Compiled) (collections : Option Collections) : Command :=
  ⟨"aqlQuery", statement.call, collections.getD (.inferred statement.aql)⟩

/-- The function that runs commands in order. -/
def actionOf (commands : List Command) : String :=
  "function () \x7b var db = require('@arangodb').db; "
    ++ " ".intercalate (commands.map Command.code) ++ " \x7d"

namespace Level

/-- The collections of a level and of its commands. -/
def allCollections (level : Level) : Collections :=
  level.commands.foldl (fun c command => c.merge command.collections) level.collections

/-- The transaction that carries out a level. -/
def toTransaction (level : Level) : Transaction :=
  ⟨level.allCollections.normalized, actionOf level.commands⟩

/-- A level with a committed inner level behind it. -/
def append (level inner : Level) : Level :=
  ⟨level.collections.merge inner.collections, level.commands ++ inner.commands⟩

end Level

namespace Levels

/-- Open a level. -/
def start (collections : Collections) (levels : Levels) : Levels := ⟨collections, []⟩ :: levels

/-- Queue a command on the innermost level. -/
def addCommand (command : Command) : Levels → Except Error Levels
  | [] => .error (.transaction .noneToQueueOn)
  | level :: outer => .ok ({ level with commands := level.commands ++ [command] } :: outer)

/-- Queue a statement on the innermost level. -/
def addStatement (statement : Compiled) (collections : Option Collections) (levels : Levels) :
    Except Error Levels :=
  levels.addCommand (.ofStatement statement collections)

/-- The commands of the innermost level. -/
def commands : Levels → List Command
  | [] => []
  | level :: _ => level.commands

/-- Drop the innermost level. -/
def rollback : Levels → Except Error Levels
  | [] => .error (.transaction .noneToRollBack)
  | _ :: outer => .ok outer

/-- Close the innermost level. The result is the transaction to be sent, if it was the only one. -/
def commit : Levels → Except Error (Option Transaction) × Levels
  | [] => (.error (.transaction .noneToCommit), [])
  | level :: outer =>
    if level.commands.isEmpty then (.error (.transaction .nothingToCommit), outer)
    else match outer with
      | [] => (.ok (some level.toTransaction), [])
      | parent :: rest => (.ok none, parent.append level :: rest)

end Levels

end AqlBuilder
