import AqlBuilder.Aql.Condition

/-!
# Loops

The part of a statement that produces documents: query variables, the main loop with its full-text
search, a further loop for each join, and the filter. A left join first collects the partners of a
document and then iterates over them, or over one empty document if there are none.
-/

namespace AqlBuilder.Aql

/-- The variable of a query variable and its value. -/
def definition (scope : Scope) (v : LetVariable Fragment) : Outcome String := do
  let value ← match v.value with
    | .bound b => pure (b.text scope)
    | .query q => q.value
  pure ("LET " ++ v.name ++ " = " ++ value)

/-- The variable of a source and what is iterated. -/
def sourceText (tablePrefix : String) : Source Fragment → String × Outcome String
  | .collection name v => (v, pure (collectionName tablePrefix name))
  | .view name v => (v, pure (collectionName tablePrefix name))
  | .derived query v => (v, query.embedded)

/-- A loop over a source. -/
def loop (docVar source : String) : String := "FOR " ++ docVar ++ " IN " ++ source

/-- The main loop. -/
def mainLoop (c : Clauses Fragment) : Outcome String :=
  match c.source.map (sourceText c.tablePrefix) with
  | some (docVar, source) => do pure (loop docVar (← source))
  | none => .fail (.compilation .noSource)

/-- A full-text search in the attributes of a view. -/
def searchText (scope : Scope) (s : Search) : String :=
  let analyzer := s.analyzer.text scope
  let condition (field : String) :=
    scope.resolve field ++ " IN TOKENS(" ++ s.text.text scope ++ ", " ++ analyzer ++ ")"
  "SEARCH ANALYZER(" ++ " OR ".intercalate (s.fields.map condition) ++ ", " ++ analyzer ++ ")"

/-- The loop of a join that keeps documents without a partner. -/
def leftLoop (docVar source filter : String) : String :=
  let found := docVar ++ "List"
  "LET " ++ found ++ " = (" ++ loop docVar source ++ filter ++ " RETURN " ++ docVar ++ ") "
    ++ loop docVar ("(LENGTH(" ++ found ++ ") > 0) ? " ++ found ++ " : [\x7b\x7d]")

/-- The loop of a join. -/
def joinLoop (j : Join Fragment) : Outcome String :=
  match j.query.source with
  | none => .fail (.compilation .joinWithoutSource)
  | some (docVar, source) => do
    let source ← source
    let filter := match ← j.query.conditions with
      | some conditions => " FILTER " ++ conditions
      | none => ""
    pure <| match j.kind with
      | .left => leftLoop docVar source filter
      | _ => loop docVar source ++ filter

/-- Everything up to the filter of the main loop. -/
def loops (c : Clauses Fragment) : Outcome (List String) := do
  let definitions ← Outcome.each (definition c.scope) c.definitions
  let main ← mainLoop c
  let search := (c.search.map (searchText c.scope)).toList
  let joins ← Outcome.each joinLoop c.joins
  let filters ← filter c.scope c.filters
  pure (definitions ++ [main] ++ search ++ joins ++ filters)

/-- The number and the offset of the rows to be returned. An offset alone has no effect. -/
def limitText (limit offset : Option Nat) : List String :=
  match limit, offset with
  | some count, some skipped =>
    if 0 < skipped then ["LIMIT " ++ toString skipped ++ ", " ++ toString count]
    else ["LIMIT " ++ toString count]
  | some count, none => ["LIMIT " ++ toString count]
  | none, _ => []

/-- A criterion of an order, where `resolve` writes a column and `docVar` is what is ranked. -/
def criterion (resolve : String → String) (docVar : String) : Order → String
  | .column name direction => resolve name ++ " " ++ direction.text
  | .raw aql => aql
  | .random => "RAND()"
  | .bestMatching => "BM25(" ++ docVar ++ ") DESC"

/-- An order, if there are criteria. -/
def sortText (resolve : String → String) (docVar : String) : List Order → List String
  | [] => []
  | orders => ["SORT " ++ ", ".intercalate (orders.map (criterion resolve docVar))]

/-- The order of a query in a scope. -/
def sortIn (scope : Scope) (orders : List Order) : List String :=
  sortText scope.resolve (scope.docVar.getD "") orders

end AqlBuilder.Aql
