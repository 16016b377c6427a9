import AqlBuilder.Aql.Loop

/-!
# Groups and aggregates

After a `COLLECT` only its own variables can be seen: one for each key, the result of an aggregate,
and an array with the selected columns that are not keys. The columns of later clauses are resolved
against a registry in which these variables stand for the columns they were made from.
-/

namespace AqlBuilder.Aql

/-- The variable of an aggregate. -/
def aggregateVariable : String := "aggregateResult"

/-- The variable of the columns that are kept beside the keys. -/
def groupsVariable : String := "groupsVariable"

/-- A grouping with what is known after it. -/
structure Collected where
  clause : String
  /-- The variables of the keys. -/
  keys : List String
  /-- The names that later clauses can see. -/
  aliases : Registry

/-- A key of a grouping: its variable, its expression and the reference it is known by. -/
structure CollectKey where
  docVar : String
  expression : String
  reference : String

/-- A reference with dots for arrows. -/
def dotted (reference : String) : String := String.ofList (Text.dotArrows reference.toList)

/-- The key for a column or a written assignment. -/
def collectKey (scope : Scope) : GroupKey → Outcome CollectKey
  | .column name => pure ⟨Column.attributeName name, scope.resolve name, dotted name⟩
  | .raw aql =>
    match Text.cutAt '=' aql.toList with
    | some (name, expression) =>
      let name := String.ofList (Text.trimBlanks name)
      pure ⟨name, String.ofList (Text.trimBlanks expression), dotted name⟩
    | none => .fail (.compilation (.groupKeyWithoutName aql))

/-- The aggregate of a grouping. -/
def aggregateText (scope : Scope) (a : Aggregate) : Outcome String :=
  match a.column, a.function with
  | none, .count => pure ("WITH COUNT INTO " ++ aggregateVariable)
  | some column, function =>
    pure ("AGGREGATE " ++ aggregateVariable ++ " = " ++ function.text ++ "("
      ++ scope.resolve column ++ ")")
  | none, function => .fail (.compilation (.aggregateWithoutColumn function.text))

/-- A selected column: its name, the key it is kept under and its expression. -/
structure KeptColumn where
  column : String
  key : String
  expression : String

/-- The selected columns of a query. -/
def candidates (scope : Scope) (columns : List (Selector Fragment)) : List KeptColumn :=
  columns.filterMap fun
    | .column name => some ⟨name, Column.attributeName name, scope.resolve name⟩
    | .aliased name asName => some ⟨name, asName, scope.resolve name⟩
    | _ => none

/-- The registry in which each key stands for its reference. -/
def withKeys (aliases : Registry) (keys : List CollectKey) : Registry :=
  keys.foldl (fun r key => r.registerVariable key.reference key.docVar) aliases

/-- The registry in which each kept column stands for the array of its values. -/
def withKept (aliases : Registry) (kept : List KeptColumn) : Registry :=
  kept.foldl
    (fun r k => r.registerVariable (dotted k.column)
      (groupsVariable ++ "[*]." ++ Column.attributeText k.key.toList))
    aliases

/-- The assignments of the keys behind the keyword. -/
def collectText (keys : List CollectKey) : String :=
  if keys.isEmpty then "COLLECT"
  else "COLLECT " ++ ", ".intercalate (keys.map fun key => key.docVar ++ " = " ++ key.expression)

/-- The grouping of a query, if it has keys or an aggregate. -/
def collect (c : Clauses Fragment) : Outcome (Option Collected) :=
  if c.groups.isEmpty && c.aggregate.isNone then pure none
  else do
    let scope := c.scope
    let keys ← Outcome.each (collectKey scope) c.groups
    let names := keys.map CollectKey.docVar
    let aliases := withKeys c.aliases keys
    match c.aggregate with
    | some a =>
      let aggregate ← aggregateText scope a
      pure (some ⟨collectText keys ++ " " ++ aggregate, names,
        aliases.registerVariable aggregateVariable aggregateVariable⟩)
    | none =>
      let after : Scope := ⟨aliases, c.docVar⟩
      let kept := (candidates scope c.columns).filter fun k =>
        !names.contains (after.resolve k.column)
      if kept.isEmpty then pure (some ⟨collectText keys, names, aliases⟩)
      else
        let object := objectLiteral (kept.map fun k => (k.key, k.expression))
        pure (some ⟨collectText keys ++ " INTO " ++ groupsVariable ++ " = " ++ object, names,
          withKept aliases kept⟩)

end AqlBuilder.Aql
