import AqlBuilder.Query.Copy

/-!
# Outcomes of compiling

Compiling a query gives a text or an error. Each query is compiled on a copy of its own, and a copy
takes query numbers, so compiling also moves the counter on, whether it succeeds or not.

- `Outcome.ofSupply` runs a computation that only takes numbers.
- `Outcome.each` compiles the items of a list in order, up to the first failure.
-/

namespace AqlBuilder

/-- A computation that takes query numbers and may fail. -/
def Outcome (α : Type) := Nat → Except Error α × Nat

namespace Outcome

variable {α β : Type}

/-- A result that takes no number. -/
def ofExcept (result : Except Error α) : Outcome α := fun next => (result, next)

/-- A failure. -/
def fail (e : Error) : Outcome α := ofExcept (.error e)

/-- A computation that cannot fail. -/
def ofSupply (x : Supply α) : Outcome α := fun next => (.ok (x next).1, (x next).2)

instance : Monad Outcome where
  pure a := fun next => (.ok a, next)
  bind x f := fun next =>
    match x next with
    | (.error e, next) => (.error e, next)
    | (.ok a, next) => f a next

/-- Compile each item in order, up to the first failure. -/
def each (f : α → Outcome β) : List α → Outcome (List β)
  | [] => pure []
  | item :: items => do
    let first ← f item
    let rest ← each f items
    pure (first :: rest)

/-- Take the numbers of an outcome from the counter. -/
def run (x : Outcome α) : Supply (Except Error α) := x

end Outcome

end AqlBuilder

/-!
## Fragments

What a query contributes to the text of the query around it. A query may appear there as a whole
statement in parentheses, as a group of conditions, or as the source of a join; a fragment has the
text for each of these. The grammar is written over queries whose sub-queries are fragments.
-/

namespace AqlBuilder

/-- What is known about a compiled query. -/
structure Fragment where
  /-- The whole statement, compiled on a copy. -/
  statement : Outcome String
  /-- The conditions, if there are any. -/
  conditions : Outcome (Option String)
  /-- The variable of the main loop and what it iterates over. -/
  source : Option (String × Outcome String)
  /-- Whether at most one row is returned. -/
  singleRow : Bool
  /-- The error that was made in building the query. -/
  error : Option Error

namespace Fragment

/-- The statement as an expression. A query with an error is not compiled. -/
def embedded (f : Fragment) : Outcome String :=
  match f.error with
  | some e => .fail e
  | none => do
    let statement ← f.statement
    pure ("(" ++ statement ++ ")")

/-- The statement as the value of an expression: its only row if it is limited to one. -/
def value (f : Fragment) : Outcome String := do
  let embedded ← f.embedded
  pure (if f.singleRow then "FIRST(" ++ embedded ++ ")" else embedded)

/-- The variable of the main loop, empty if there is no source. -/
def docVar (f : Fragment) : String := (f.source.map Prod.fst).getD ""

end Fragment

end AqlBuilder
