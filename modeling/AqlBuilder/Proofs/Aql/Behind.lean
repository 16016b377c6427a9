import AqlBuilder.Proofs.Aql.Within
import AqlBuilder.Proofs.Aql.Steady
import AqlBuilder.Proofs.Column.Origin

/-!
# What columns stand for behind groups

Groups announce names to the clauses behind them: the variable of each key under the column that the
key is made from, the result of an aggregate, and the array of each selected column that is kept
beside the keys. The query variables from in front of the loop stay. A column that leads to none of
these names, and does not begin with one, is still written as an attribute of a document, though
there is no document any more.

- `Aql.behind` is the registry behind the groups of a query, and `Aql.yields_collectsBy` says that
  the grammar has this one.
- `Aql.yields_of_grouped`: a statement with groups, cut behind them.
- `Aql.Announced` are the names with their expressions; `Aql.announced_of_mem` and
  `Aql.exists_mem_of_announced` say that the registry has these names and no others.
- `Aql.accounted`: what each column stands for.
-/

namespace AqlBuilder

open Outcome

namespace Aql

variable {c : Clauses Fragment} {keys : List CollectKey} {reference expression column : String}

/-- The selected columns that are not written as one of the keys. -/
def keptColumns (c : Clauses Fragment) (keys : List CollectKey) : List KeptColumn :=
  (candidates c.scope c.columns).filter fun k =>
    !(keys.map CollectKey.docVar).contains
      ((⟨withKeys c.aliases keys, c.docVar⟩ : Scope).resolve k.column)

/-- The names that groups announce, in the order in which they are entered. -/
def entries (c : Clauses Fragment) (keys : List CollectKey) : Entries String :=
  keys.map (fun key => (key.reference, key.docVar)) ++
    match c.aggregate with
    | some _ => [(aggregateVariable, aggregateVariable)]
    | none => (keptColumns c keys).map fun k =>
        (dotted k.column, groupsVariable ++ "[*]." ++ Column.attributeText k.key.toList)

/-- The registry behind groups with the given keys. -/
def behind (c : Clauses Fragment) (keys : List CollectKey) : Registry :=
  { c.aliases with definitions := c.aliases.definitions.putAll (entries c keys) }

/-- The scope behind groups. -/
def scopeBehind (c : Clauses Fragment) (keys : List CollectKey) : Scope := ⟨behind c keys, c.docVar⟩

/-- A query that collects its rows. -/
def Grouped {Q : Type} (c : Clauses Q) : Prop := c.groups ≠ [] ∨ c.aggregate.isSome = true

/-- What stands behind the keys of a grouping: its aggregate, or the columns that are kept. -/
def collectTail (c : Clauses Fragment) (keys : List CollectKey) : Outcome String :=
  match c.aggregate with
  | some a => do pure (" " ++ (← aggregateText c.scope a))
  | none => pure <|
    if (keptColumns c keys).isEmpty then ""
    else " INTO " ++ groupsVariable ++ " = " ++
      objectLiteral ((keptColumns c keys).map fun k => (k.key, k.expression))

/-- The groups of a query have these keys, behind the keyword, and the registry behind them. -/
structure CollectsBy (c : Clauses Fragment) (keys : List CollectKey) (g : Collected) : Prop where
  gives : (each (collectKey c.scope) c.groups).Gives keys
  clause : ∃ tail, (collectTail c keys).Gives tail ∧ g.clause = collectText keys ++ tail
  aliases : g.aliases = behind c keys

/-- The registry with keys has one more definition for each of them. -/
theorem withKeys_eq (r : Registry) (keys : List CollectKey) :
    withKeys r keys = { r with
      definitions := r.definitions.putAll (keys.map fun key => (key.reference, key.docVar)) } := by
  unfold withKeys Entries.putAll
  rw [Registry.registerVariables_eq, List.foldl_map]

/-- Behind an aggregate its keys and its result are known. -/
theorem behind_of_aggregate (h : c.aggregate.isSome = true) : behind c keys =
    (withKeys c.aliases keys).registerVariable aggregateVariable aggregateVariable := by
  obtain ⟨a, ha⟩ := Option.isSome_iff_exists.mp h
  rw [behind, entries, ha, Entries.putAll_append, withKeys_eq]
  rfl

/-- Behind groups without an aggregate the keys and the kept columns are known. -/
theorem behind_of_plain (h : c.aggregate = none) :
    behind c keys = withKept (withKeys c.aliases keys) (keptColumns c keys) := by
  rw [behind, entries, h, Entries.putAll_append, withKeys_eq]
  unfold withKept Entries.putAll
  rw [Registry.registerVariables_eq, List.foldl_map]

/-- A query without keys and aggregate has no groups. -/
theorem collect_of_plain (h : ¬ Grouped c) : collect c = pure none := by
  have hplain : (c.groups.isEmpty && c.aggregate.isNone) = true := by
    rw [Bool.and_eq_true, List.isEmpty_iff, Option.isNone_iff_eq_none]
    unfold Grouped at h
    rw [not_or, not_not, Bool.not_eq_true, Option.isSome_eq_false_iff,
      Option.isNone_iff_eq_none] at h
    exact h
  unfold collect
  rw [if_pos hplain]

/-- The groups of a query are its keys, what stands behind them, and the names that they
announce. -/
theorem collect_of_grouped (h : Grouped c) : collect c = (do
    let keys ← each (collectKey c.scope) c.groups
    let tail ← collectTail c keys
    pure (some ⟨collectText keys ++ tail, keys.map CollectKey.docVar, behind c keys⟩)) := by
  have hgrouped : ¬ (c.groups.isEmpty && c.aggregate.isNone) = true := by
    rw [Bool.and_eq_true, List.isEmpty_iff, Option.isNone_iff_eq_none]
    rintro ⟨hnone, haggregate⟩
    rcases h with h | h
    · exact h hnone
    · rw [haggregate] at h
      cases h
  unfold collect
  rw [if_neg hgrouped]
  refine congrArg (_ >>= ·) (funext fun keys => ?_)
  unfold collectTail
  cases haggregate : c.aggregate with
  | some a =>
      have hbehind : behind c keys =
          (withKeys c.aliases keys).registerVariable aggregateVariable aggregateVariable :=
        behind_of_aggregate (by rw [haggregate]; rfl)
      dsimp only
      rw [bind_bind, hbehind]
      refine congrArg (_ >>= ·) (funext fun aggregate => ?_)
      rw [String.append_assoc]
      rfl
  | none =>
      have hbehind : behind c keys =
          withKept (withKeys c.aliases keys) (keptColumns c keys) := behind_of_plain haggregate
      have hkept : keptColumns c keys = (candidates c.scope c.columns).filter fun k =>
          !(keys.map CollectKey.docVar).contains
            ((⟨withKeys c.aliases keys, c.docVar⟩ : Scope).resolve k.column) := rfl
      dsimp only
      rw [← hkept]
      change _ = (pure (some _) : Outcome (Option Collected))
      split
      case isTrue hempty =>
        rw [hbehind, List.isEmpty_iff.mp hempty, String.append_empty]
        rfl
      case isFalse hsome =>
        rw [hbehind]
        simp only [String.append_assoc]

/-- What stands behind the keys takes no numbers. -/
theorem steady_collectTail (c : Clauses Fragment) (keys : List CollectKey) :
    (collectTail c keys).Steady := by
  unfold collectTail
  cases c.aggregate with
  | some a => exact (steady_aggregateText c.scope a).map
  | none => exact steady_pure _

/-- Groups are collected by the keys that the grammar makes of them. -/
theorem yields_collectsBy (h : Grouped c) :
    (collect c).Yields fun result => ∃ keys, ∃ g ∈ result, CollectsBy c keys g := by
  have hkeys : (each (collectKey c.scope) c.groups).Steady :=
    steady_each fun key _ => steady_collectKey c.scope key
  rw [collect_of_grouped h]
  refine hkeys.yields.bind fun keys hkeys => ?_
  refine (steady_collectTail c keys).yields.map fun tail htail => ?_
  exact ⟨keys, _, rfl, hkeys, ⟨tail, htail, rfl⟩, rfl⟩

/-- What follows the groups of a statement, with the names that are known there. -/
def finish (c : Clauses Fragment) (r : Registry) (keys front : List String) : Outcome String := do
  let havings ← filter ⟨r, c.docVar⟩ c.havings
  let queries ← selectedQueries c.columns
  pure (" ".intercalate (front ++ havings ++ sortIn ⟨r, c.docVar⟩ c.orders
    ++ limitText c.limit c.offset ++ queries ++ [returnText c ⟨r, c.docVar⟩ keys]))

/-- A statement without unions consists of its loops, its groups and what comes behind them. -/
theorem simpleStatement_eq (c : Clauses Fragment) :
    simpleStatement c = (do
      let loops ← loops c
      let collected ← collect c
      finish c ((collected.map Collected.aliases).getD c.aliases)
        ((collected.map Collected.keys).getD [])
        (loops ++ (collected.map Collected.clause).toList)) := rfl

/-- A statement with groups has what is finished behind its keys and what follows them. -/
theorem yields_of_grouped {p : String → Prop} (h : Grouped c)
    (hfinish : ∀ loops keys tail, (each (collectKey c.scope) c.groups).Gives keys →
      (collectTail c keys).Gives tail →
      (finish c (behind c keys) (keys.map CollectKey.docVar)
        (loops ++ [collectText keys ++ tail])).Yields p) : (simpleStatement c).Yields p := by
  have hkeys : (each (collectKey c.scope) c.groups).Steady :=
    steady_each fun key _ => steady_collectKey c.scope key
  rw [simpleStatement_eq, collect_of_grouped h]
  refine (yields_any _).bind fun loops _ => ?_
  rw [bind_bind]
  refine hkeys.yields.bind fun keys hkeys => ?_
  rw [bind_bind]
  refine (steady_collectTail c keys).yields.bind fun tail htail => ?_
  exact hfinish loops keys tail hkeys htail

/-- A name that a query with groups announces, with the expression that it stands for. -/
inductive Announced (c : Clauses Fragment) (keys : List CollectKey) : String → String → Prop
  /-- A variable from in front of the loop. -/
  | defined {name expression : String} (h : (name, expression) ∈ c.aliases.definitions) :
      Announced c keys name expression
  | key {key : CollectKey} (h : key ∈ keys) : Announced c keys key.reference key.docVar
  | aggregate (h : c.aggregate.isSome = true) :
      Announced c keys aggregateVariable aggregateVariable
  | kept {k : KeptColumn} (h : c.aggregate = none) (hkept : k ∈ keptColumns c keys) :
      Announced c keys (dotted k.column)
        (groupsVariable ++ "[*]." ++ Column.attributeText k.key.toList)

/-- A name is announced behind groups if it was announced before or the groups announce it. -/
theorem announced_iff : Announced c keys reference expression ↔
    (reference, expression) ∈ c.aliases.definitions ∨ (reference, expression) ∈ entries c keys := by
  unfold entries
  constructor
  · rintro (h | h | h | ⟨h, hkept⟩)
    · exact .inl h
    · exact .inr (List.mem_append_left _ (List.mem_map_of_mem h))
    · obtain ⟨a, ha⟩ := Option.isSome_iff_exists.mp h
      rw [ha]
      exact .inr (List.mem_append_right _ List.mem_cons_self)
    · rw [h]
      exact .inr (List.mem_append_right _ (List.mem_map.mpr ⟨_, hkept, rfl⟩))
  · rintro (h | h)
    · exact .defined h
    rcases List.mem_append.mp h with h | h
    · obtain ⟨key, hkey, h⟩ := List.mem_map.mp h
      obtain ⟨rfl, rfl⟩ := Prod.mk.inj h
      exact .key hkey
    cases haggregate : c.aggregate with
    | some a =>
        rw [haggregate] at h
        obtain ⟨rfl, rfl⟩ := Prod.mk.inj (List.mem_singleton.mp h)
        exact .aggregate (by rw [haggregate]; rfl)
    | none =>
        rw [haggregate] at h
        obtain ⟨k, hk, h⟩ := List.mem_map.mp h
        obtain ⟨rfl, rfl⟩ := Prod.mk.inj h
        exact .kept haggregate hk

/-- Behind groups nothing else is known, -/
theorem announced_of_mem (h : (reference, expression) ∈ (behind c keys).definitions) :
    Announced c keys reference expression :=
  announced_iff.mpr (Entries.mem_putAll h)

/-- and each name is known, though a later one may stand for something else. -/
theorem exists_mem_of_announced (h : Announced c keys reference expression) :
    ∃ other, (reference, other) ∈ (behind c keys).definitions := by
  have hkey : reference ∈ Entries.keys (behind c keys).definitions :=
    Entries.mem_keys_putAll.mpr ((announced_iff.mp h).imp (List.mem_map_of_mem (f := Prod.fst))
      (List.mem_map_of_mem (f := Prod.fst)))
  obtain ⟨⟨name, other⟩, hmem, rfl⟩ := List.mem_map.mp hkey
  exact ⟨other, hmem⟩

/-- What a column stands for behind groups: the expression of an announced name, an announced name
or an attribute of it, or an attribute of a document; the last, if no announced name is where the
column leads to, nor its first attribute. -/
inductive Accounted (c : Clauses Fragment) (keys : List CollectKey)
    (column : String) : Origin → Prop
  | expression {text : String}
      (h : Announced c keys (String.ofList ((scopeBehind c keys).target column)) text) :
      Accounted c keys column (.expression text)
  | defined {name other : String} {path : List (List Char)}
      (hpath : Column.segments ((scopeBehind c keys).target column) = name.toList :: path)
      (h : Announced c keys name other ∨ Announced c keys other name) :
      Accounted c keys column (.defined name path)
  | document {docVar : String} {path : List (List Char)}
      (htarget : ∀ text,
        ¬ Announced c keys (String.ofList ((scopeBehind c keys).target column)) text)
      (hfirst : ∀ first ∈ (Column.segments ((scopeBehind c keys).target column)).head?, ∀ text,
        ¬ Announced c keys (String.ofList first) text)
      (hdocVar : docVar = c.docVar.getD "" ∨ c.aliases.isTableVariable docVar = true) :
      Accounted c keys column (.document docVar path)

/-- Behind groups every column is accounted for. -/
theorem accounted (c : Clauses Fragment) (keys : List CollectKey) (column : String) :
    Accounted c keys column ((scopeBehind c keys).origin column) := by
  unfold Scope.origin Scope.originAt
  cases htarget : (scopeBehind c keys).aliases.expressionOf?
      (String.ofList ((scopeBehind c keys).target column)) with
  | some text => exact .expression (announced_of_mem (Entries.mem_of_get? htarget))
  | none =>
      have hunknown : ∀ text,
          ¬ Announced c keys (String.ofList ((scopeBehind c keys).target column)) text := by
        intro text h
        obtain ⟨other, hmem⟩ := exists_mem_of_announced h
        exact Registry.expressionOf?_eq_none_iff.mp htarget other hmem
      unfold Scope.directOrigin
      cases hpath : Column.segments ((scopeBehind c keys).target column) with
      | nil => exact absurd hpath (Text.splitBy_ne_nil _ _)
      | cons first rest =>
          dsimp only
          by_cases hvariable : (scopeBehind c keys).aliases.isVariable (String.ofList first) = true
          · rw [if_pos hvariable]
            have hpath' : Column.segments ((scopeBehind c keys).target column) =
                (String.ofList first).toList :: rest := by rw [hpath, String.toList_ofList]
            rcases Registry.isVariable_iff.mp hvariable with h | h
            · exact .defined hpath' (.inl (announced_of_mem h))
            · exact .defined hpath' (.inr (announced_of_mem h))
          · rw [if_neg hvariable]
            have hlost : ∀ {docVar path}, docVar = c.docVar.getD "" ∨
                c.aliases.isTableVariable docVar = true →
                Accounted c keys column (.document docVar path) := by
              refine fun hdocVar => .document hunknown (fun other hother text h => ?_) hdocVar
              rw [hpath] at hother
              obtain rfl : first = other := Option.some.inj hother
              obtain ⟨expression, hmem⟩ := exists_mem_of_announced h
              exact hvariable (Registry.isVariable_iff.mpr (.reference hmem))
            by_cases hrest : rest.isEmpty
            · rw [if_pos hrest]
              exact hlost (.inl rfl)
            rw [if_neg hrest]
            cases htable : (scopeBehind c keys).aliases.tableVariable? (String.ofList first) with
            | some docVar =>
                have hmem : (String.ofList first, docVar) ∈ c.aliases.tables :=
                  Entries.mem_of_get? htable
                exact hlost (.inr (Registry.isTableVariable_iff.mpr ⟨_, hmem⟩))
            | none =>
                dsimp only
                split
                case isTrue hused => exact hlost (.inr hused)
                case isFalse => exact hlost (.inl rfl)

end Aql

end AqlBuilder
