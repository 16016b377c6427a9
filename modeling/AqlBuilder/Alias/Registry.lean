import AqlBuilder.Entries
import AqlBuilder.Text.Split

/-!
# Alias registry

Each query keeps three tables of names. The first gives the variable of each collection, the second
the name of each column in the projection, the third the expression of each reference to a query
variable.

A collection that is registered without a variable keeps the one it has, or gets a generated one.
Tables of another query are imported without overriding what is already registered.
-/

/-!
## Names of document variables

A collection is iterated under a variable named after one of its documents, with a postfix. How the
document is named is left open; the rules of the program are one way to do it.
-/

namespace AqlBuilder

/-- A way to name one document of a collection. Nothing is asked of the name but that no blank and
no mark of a bound value is in it. -/
class Naming where
  /-- The name of one document. -/
  element : String → String
  clean : ∀ table, ∀ c ∈ (element table).toList, c ≠ '@' ∧ Text.isBlank c = false

variable [Naming]

namespace Alias

/-- The postfix of document variables. -/
def defaultPostfix : String := "Doc"

/-- The variable of one document of a collection, with a postfix. -/
def elementVariable (table tag : String) : String := Naming.element table ++ tag

/-- The document variable of a collection. -/
def documentVariable (table : String) : String := elementVariable table defaultPostfix

end Alias

/-- The names that one query can see. -/
structure Registry where
  /-- The document variable of each collection. -/
  tables : Entries String
  /-- The projection alias of each column. -/
  columns : Entries String
  /-- The expression of each reference to a query variable. -/
  definitions : Entries String
  deriving DecidableEq, Inhabited

namespace Registry

/-- A registry without names. -/
def empty : Registry := ⟨[], [], []⟩

/-- The variable that a collection is registered under when an alias may be given. -/
def variableFor (r : Registry) (table : String) : Option String → String
  | some asName => asName
  | none => (r.tables.get? table).getD (Alias.documentVariable table)

/-- Register a collection, with its variable if one is given. -/
def registerTable (r : Registry) (table : String) (asName : Option String) : String × Registry :=
  let docVar := r.variableFor table asName
  (docVar, { r with tables := r.tables.put table docVar })

/-- The variable of a sub-query, which is named after its number. -/
def subQueryVariable (id : Nat) : String := "subQuery" ++ toString id ++ Alias.defaultPostfix

/-- Register a sub-query as a source under its number. -/
def registerSubQuery (r : Registry) (id : Nat) : String × Registry :=
  r.registerTable (subQueryVariable id) (some (subQueryVariable id))

/-- The variable of a collection. -/
def tableVariable? (r : Registry) (table : String) : Option String := r.tables.get? table

/-- Whether a name is the variable of a collection. -/
def isTableVariable (r : Registry) (name : String) : Bool :=
  r.tables.any fun entry => entry.2 = name

/-- Register the name of a column in the projection. -/
def registerColumn (r : Registry) (column asName : String) : Registry :=
  { r with columns := r.columns.put column asName }

/-- The name of a column in the projection. -/
def columnAlias? (r : Registry) (column : String) : Option String := r.columns.get? column

/-- The first column with a name in the projection. -/
def columnFor? (r : Registry) (asName : String) : Option String :=
  (r.columns.find? fun entry => entry.2 = asName).map (·.1)

/-- Register the expression that a reference stands for. -/
def registerVariable (r : Registry) (reference expression : String) : Registry :=
  { r with definitions := r.definitions.put reference expression }

/-- The expression that a reference stands for. -/
def expressionOf? (r : Registry) (reference : String) : Option String :=
  r.definitions.get? reference

/-- Whether a name is a reference to a query variable or such a variable itself. -/
def isVariable (r : Registry) (name : String) : Bool :=
  r.definitions.any fun entry => entry.1 = name || entry.2 = name

/-- The entries with those of another table that have new keys. -/
def imported (own others : Entries String) : Entries String :=
  others.foldl (fun acc (key, value) => if acc.has key then acc else acc.put key value) own

/-- Import the collections of another registry. -/
def importTables (r other : Registry) : Registry :=
  { r with tables := imported r.tables other.tables }

/-- Import the query variables of another registry. -/
def importVariables (r other : Registry) : Registry :=
  { r with definitions := imported r.definitions other.definitions }

/-- Make two registries aware of each other's collections. -/
def exchangeTables (r other : Registry) : Registry × Registry :=
  let other := other.importTables r
  (r.importTables other, other)

/-- Whether two tables have the same entries in any order. -/
def sameEntries (first second : Entries String) : Bool :=
  first.length == second.length && first.all fun entry => second.get? entry.1 == some entry.2

/-- Whether two registries hold the same names in any order. -/
def same (r other : Registry) : Bool :=
  sameEntries r.tables other.tables && sameEntries r.columns other.columns
    && sameEntries r.definitions other.definitions

end Registry

end AqlBuilder
