import AqlBuilder.Error
import AqlBuilder.Text.Case

/-!
# Names of bound values

Every bound value has a name, and the name says which clause of which query introduced it.
-/

/-!
## Categories of bound values

A bound value belongs to the clause that introduced it. The categories are listed in the order in
which the clauses are emitted, and bound values are always reported in that order.
-/

namespace AqlBuilder

/-- The clause that a bound value belongs to. -/
inductive Category
  | definitions
  | source
  | search
  | join
  | filter
  | groupBy
  | having
  | order
  | union
  | unionOrder
  | select
  | insert
  | update
  | upsert
  deriving DecidableEq, Inhabited

namespace Category

/-- All categories in the order of emission. -/
def all : List Category :=
  [definitions, source, search, join, filter, groupBy, having, order, union, unionOrder, select,
    insert, update, upsert]

/-- The name of a category. -/
def name : Category → String
  | definitions => "variable"
  | source => "from"
  | search => "search"
  | join => "join"
  | filter => "where"
  | groupBy => "groupBy"
  | having => "having"
  | order => "order"
  | union => "union"
  | unionOrder => "unionOrder"
  | select => "select"
  | insert => "insert"
  | update => "update"
  | upsert => "upsert"

/-- The category with a name. -/
def ofName? (name : String) : Option Category := all.find? fun category => category.name = name

/-- The category with a name, or the error that there is none. -/
def ofName (name : String) : Except Error Category :=
  match ofName? name with
  | some category => .ok category
  | none => .error (.invalidArgument (.unknownCategory name))

/-- Whether a sub-query of this category is evaluated inside the main loop of its parent. -/
def insideLoop : Category → Bool
  | definitions => false
  | source => false
  | union => false
  | _ => true

end Category

/-!
## Placeholders

A bound value is written in a statement as `@` and a name. The names that this library gives are
the number of a query, a category and an ordinal, joined by underscores.

- `placeholderName` is the name for a query, a category and an ordinal.
- `isPlaceholder` recognises such names after an `@`.
- `mentions` says whether a statement refers to a name.
-/

/-- The name of the bound value with an ordinal in a category of a query. -/
def placeholderName (query : Nat) (category : Category) (ordinal : Nat) : String :=
  toString query ++ "_" ++ category.name ++ "_" ++ toString ordinal

/-- Whether the text is one or more digits. -/
def isDigits (text : List Char) : Bool := !text.isEmpty && text.all Text.isAsciiDigit

/-- Whether the text is a query number, a category and an ordinal, joined by underscores. -/
def isPlaceholderName (name : List Char) : Bool :=
  match Text.cutAt '_' name with
  | none => false
  | some (query, rest) =>
    match Text.cutAt '_' rest with
    | none => false
    | some (category, ordinal) =>
      isDigits query && (Category.ofName? (String.ofList category)).isSome && isDigits ordinal

/-- Whether the text is a reference to a bound value as this library writes it. -/
def isPlaceholder (text : String) : Bool :=
  match text.toList with
  | '@' :: name => isPlaceholderName name
  | _ => false

/-- Whether a name ends here: no letter, digit or underscore follows. -/
def nameEnds : List Char → Bool
  | [] => true
  | c :: _ => !Text.isNameChar c

/-- Whether a needle occurs in a text with the end of a name behind it. After an occurrence the
search goes on behind it; `skip` counts the characters of it that are still to be passed. -/
def occursAsName (needle : List Char) : Nat → List Char → Bool
  | _, [] => false
  | skip + 1, _ :: rest => occursAsName needle skip rest
  | 0, c :: rest =>
    match Text.dropStart? needle (c :: rest) with
    | some after => nameEnds after || occursAsName needle (needle.length - 1) rest
    | none => occursAsName needle 0 rest

/-- Whether a statement refers to the bound value with a name. -/
def mentions (aql name : String) : Bool := occursAsName ('@' :: name.toList) 0 aql.toList

end AqlBuilder
