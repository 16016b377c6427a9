import AqlBuilder.Alias.Rules
import AqlBuilder.Proofs.Column.LastAttribute
import AqlBuilder.Proofs.Connection.Callback
import AqlBuilder.Proofs.Connection.Keyed
import AqlBuilder.Proofs.Script.Searched
import AqlBuilder.Proofs.Statement.InScope

/-!
# The value of a column

The value of a column is asked for by selecting nothing else and looking for one attribute in the
first row. The statement returns the column under its last attribute, or under its alias. But the
attribute that is looked for is read off the text that was given for the column, the alias included,
and in the row the key of a document has the callers' name already. So some values that a row has
are not found.

- `Selector.Found` are the parts of a projection for which both attributes are the same, by
  `Selector.found_iff`.
- `Script.returnsRows_build`: whatever a script builds returns rows with attributes.
- `Builder.yields_selecting`: the statement of a query that selects one column.
- `Builder.ValueRead` is what comes of asking for a column, and `Builder.value_found_iff` says so of
  whatever a script builds.
-/

namespace AqlBuilder

open Outcome Supply Builder

namespace Selector

variable {Q : Type} {text key : String}

/-- A part of a projection that is found in a row under the attribute that is read off its text: an
attribute that is not the key of documents, or an alias that is the attribute of the column, in
front of an array operator. -/
def Found : Selector Q → Prop
  | column name => Column.attributeName name ≠ keyAttribute
  | aliased name asName => '[' ∈ Column.lastAttribute name ∧
      Column.attributeName name = renamed keyAttribute idAttribute asName
  | _ => False

instance : (s : Selector Q) → Decidable s.Found
  | column _ => inferInstanceAs (Decidable (_ ≠ _))
  | aliased _ _ => inferInstanceAs (Decidable (_ ∧ _))
  | documents _ | raw _ _ | sub _ _ => .isFalse id

/-- What is read as a column with an alias has this name and this alias. -/
theorem nameAndAlias?_of_parse {name asName : String}
    (h : (parse text : Selector Q) = aliased name asName) :
    nameAndAlias? text = some (name, asName) := by
  unfold parse at h
  split at h
  case h_1 hread =>
    cases h
    exact hread
  case h_2 =>
    dsimp only at h
    split at h
    · cases h
    · split at h <;> cases h

/-- The attribute that is read off a text is the one that a row has just if the part is found. -/
theorem found_iff (h : key ∈ (parse text : Selector Q).attribute?) :
    Column.attributeName text = renamed keyAttribute idAttribute key ↔
      (parse text : Selector Q).Found := by
  cases hparse : (parse text : Selector Q) with
  | column name =>
      rw [hparse] at h
      obtain rfl : Column.attributeName name = key := Option.some.inj h
      rw [← Column.attributeName_parsed hparse]
      have hother : idAttribute ≠ keyAttribute := by decide
      unfold Found renamed
      split
      case isTrue hkey => exact iff_of_false (fun heq => hother (heq.symm.trans hkey)) (· hkey)
      case isFalse hkey => exact iff_of_true rfl hkey
  | aliased name asName =>
      rw [hparse] at h
      obtain rfl : asName = key := Option.some.inj h
      exact Column.attributeName_aliased_iff (nameAndAlias?_of_parse hparse)
  | _ =>
      rw [hparse] at h
      cases h

end Selector

/-- What a row with one attribute has under a name, once keys have the callers' name. -/
theorem Json.member?_keyToId (key name : String) (v : Json) :
    (object [(key, v)]).keyToId.member? name =
      if renamed keyAttribute idAttribute key = name then some v.keyToId else none := by
  simp only [keyToId, keyToIdMembers, Entries.ofPairs, Entries.putAll, List.foldl, Entries.put,
    member?, Entries.get?]

section rows

/-- A query that returns a row for each match, with its attributes. -/
def Builder.ReturnsRows (b : Builder) : Prop := b.aggregate = none ∧ b.singleValue = false

namespace Builder

variable {b w : Builder}

/-- Whether a query returns rows depends on its setting alone. -/
theorem returnsRows_of_setting (h : w.setting = b.setting) : w.ReturnsRows ↔ b.ReturnsRows := by
  obtain ⟨-, hrest⟩ := Prod.mk.inj h
  obtain ⟨-, hrest⟩ := Prod.mk.inj hrest
  obtain ⟨haggregate, hsingle⟩ := Prod.mk.inj hrest
  unfold ReturnsRows
  rw [haggregate, hsingle]

/-- A query that returns rows still does with a search. -/
theorem returnsRows_fullTextSearch (fields : List (Selector Query)) (text : Value)
    (analyzer : Option String) (h : b.ReturnsRows) :
    (b.fullTextSearch fields text analyzer).ReturnsRows := by
  refine of_fullTextSearch h h h ?_
  rintro _ _ rfl rfl - -
  have hbound := ((SameClauses.bindValue b text .search).trans
    (SameClauses.bindValue _ (.string (analyzer.getD defaultAnalyzer)) .search)).setting
  exact (returnsRows_of_setting hbound).mpr h

end Builder

/-- No call makes a query return anything else. -/
theorem Call.returnsRows_apply [Naming] {b : Builder} (h : b.ReturnsRows) (call : Call Action) :
    (call.apply b).Always ReturnsRows := by
  by_cases haside : call.Aside
  · exact (Call.setting_apply b haside).mono fun _ hw => (returnsRows_of_setting hw).mpr h
  have hsource : ∀ sub asName, (b.fromQuery sub asName).Always ReturnsRows := by
    intro sub asName
    refine always_unlessFailedM h ((SameClauses.adopt b sub .source).bind fun r hr => ?_)
    have hadopted : r.2.ReturnsRows := (returnsRows_of_setting hr.setting).mpr h
    exact always_pure hadopted
  cases call with
  | fromCollection table => exact always_pure h
  | fromView view => exact always_pure h
  | fromQuery sub asName => exact always_true.bind fun sub _ => hsource sub asName
  | fullTextSearch fields text analyzer =>
      exact always_true.bind fun fields _ =>
        always_pure (returnsRows_fullTextSearch fields text analyzer h)
  | forSubQuery => exact fun _ => ⟨rfl, rfl⟩
  | forNested => exact fun _ => ⟨rfl, rfl⟩
  | restart table => exact fun _ => ⟨rfl, rfl⟩
  | _ => exact (haside trivial).elim

/-- No run of calls keeps a query from returning rows. -/
theorem Call.returnsRows_applyAll [Naming] {b : Builder} (h : b.ReturnsRows)
    (calls : List (Call Action)) :
    (Call.applyAll calls b).Always ReturnsRows := by
  induction calls generalizing b with
  | nil => exact always_pure h
  | cons first rest ih => exact (Call.returnsRows_apply h first).bind fun w hw => ih hw

/-- So whatever a script builds returns rows with attributes. -/
theorem Script.returnsRows_build [Naming] (script : Script) : script.build.Always ReturnsRows := by
  have hfresh : fresh.Always ReturnsRows := fun _ => ⟨rfl, rfl⟩
  refine hfresh.bind fun b hb => ?_
  obtain ⟨calls⟩ := script
  rw [Script.action]
  exact Call.returnsRows_applyAll hb _

end rows

namespace Aql

variable {c : Clauses Fragment} {sc : Scope}

/-- Without groups a statement ends with what is returned in the scope of the query itself. -/
theorem yields_ungrouped (h : ¬ Grouped c) : (simpleStatement c).Yields fun text =>
    ∃ front, text = " ".intercalate (front ++ [returnText c c.scope []]) := by
  rw [simpleStatement_eq, collect_of_plain h]
  refine (yields_any _).bind fun loops _ => ?_
  change (finish c c.aliases [] _).Yields _
  exact (yields_any _).bind fun havings _ => (yields_any _).map fun queries _ => ⟨_, rfl⟩

/-- What is returned of a query that selects one column. -/
theorem returnText_single {s : Selector Fragment} {key column : String} (hcolumns : c.columns = [s])
    (haggregate : c.aggregate = none) (hsingle : c.singleValue = false)
    (hkey : key ∈ s.attribute?) (hcolumn : column ∈ s.column?) :
    returnText c sc [] = "RETURN " ++ (if c.distinct then "DISTINCT " else "") ++
      objectLiteral [(key, sc.resolve column)] := by
  have hprojected : c.columns.foldl (Projected.select sc) (unselected c []) =
      ⟨[], [(key, sc.resolve column)]⟩ := by
    unfold unselected
    rw [hcolumns]
    cases s with
    | column name =>
        obtain rfl : Column.attributeName name = key := Option.some.inj hkey
        obtain rfl : name = column := Option.some.inj hcolumn
        rfl
    | aliased name asName =>
        obtain rfl : asName = key := Option.some.inj hkey
        obtain rfl : name = column := Option.some.inj hcolumn
        rfl
    | _ => cases hkey
  unfold returnText
  rw [haggregate, hprojected, hsingle]
  rfl

end Aql

namespace Builder

variable {b w : Builder}

/-- A query with one selected column and nothing that combines its rows. -/
structure Selects (w : Builder) (s : Selector Query) : Prop where
  columns : w.columns = [s]
  groups : w.groups = []
  unions : w.unions = []
  rows : w.ReturnsRows

/-- The statement of a query that selects one column. -/
theorem yields_selecting {s : Selector Query} {key column : String} (hselects : w.Selects s)
    (hkey : key ∈ s.attribute?) (hcolumn : column ∈ s.column?) :
    w.toCompiled.Yields fun c => ∃ front, c.aql = " ".intercalate (front ++ ["RETURN "
      ++ (if w.distinct then "DISTINCT " else "")
      ++ Aql.objectLiteral [(key, w.scope.resolve column)]]) := by
  refine yields_checked w fun _ => yields_onCopy fun copy hcopy => ?_
  have hunited : w.compiled.unions = [] := List.map_eq_nil_iff.mpr hselects.unions
  have hstatement : copy.statement = Aql.simpleStatement w.compiled := by
    unfold statement Aql.statement
    rw [hcopy, hunited]
    rfl
  have hplain : ¬ Aql.Grouped w.compiled := by
    rintro (h | h)
    · exact h hselects.groups
    · have haggregate : w.compiled.aggregate = none := hselects.rows.1
      rw [haggregate] at h
      cases h
  have hselected : w.compiled.columns = [s.map Query.fragment] := by
    change w.columns.map _ = _
    rw [hselects.columns]
    rfl
  have hkey' : key ∈ (s.map Query.fragment).attribute? := by cases s <;> exact hkey
  have hcolumn' : column ∈ (s.map Query.fragment).column? := by cases s <;> exact hcolumn
  rw [hstatement]
  refine (Aql.yields_ungrouped hplain).map fun aql ⟨front, haql⟩ => ⟨front, ?_⟩
  rw [Aql.returnText_single hselected hselects.rows.1 hselects.rows.2 hkey' hcolumn',
    scope_compiled] at haql
  exact haql

/-- A query without groups and unions selects just what was selected last. -/
theorem selects_select (hgroups : w.groups = []) (hunions : w.unions = []) (hrows : w.ReturnsRows)
    (s : Selector Query) : (w.select [s]).Selects s := by
  have hsetting : (w.select [s]).setting = w.setting := setting_addSelect _ _
  have hsame : (w.select [s]).columns = [s] ∧ (w.select [s]).groups = w.groups ∧
      (w.select [s]).unions = w.unions := by cases s <;> exact ⟨rfl, rfl, rfl⟩
  exact ⟨hsame.1, hsame.2.1.trans hgroups, hsame.2.2.trans hunions,
    (returnsRows_of_setting hsetting).mpr hrows⟩

/-- Selecting does not change whether rows are distinct. -/
theorem distinct_select (w : Builder) (s : Selector Query) :
    (w.select [s]).distinct = w.distinct := by
  cases s <;> rfl

/-- The first row of such a query has the same column. -/
theorem Selects.limitTo {s : Selector Query} (h : w.Selects s) (count : Nat) :
    (w.limitTo count).Selects s ∧ (w.limitTo count).distinct = w.distinct := by
  have hlimited : w.limitTo count = { w with limit := some count } :=
    if_pos (List.isEmpty_iff.mpr h.unions)
  rw [hlimited]
  exact ⟨{ h with }, rfl⟩

/-- The value of a column is asked of a copy that selects it, and of the first row only. -/
theorem selects_columnOfFirst (hunions : b.unions = []) (hgroups : b.groups = [])
    (hrows : b.ReturnsRows) (column : String) (next : Nat) :
    (b.columnOfFirst column next).1.Selects (Selector.parse column) ∧
      (b.columnOfFirst column next).1.distinct = b.distinct := by
  have hcompiled := b.compiled_copyOf next
  have hunited := unions_copyOf hunions next
  have hsetting := b.setting_copyOf next
  change Selects (((b.copyOf next).1.select [Selector.parse column]).limitTo 1) _ ∧
    (((b.copyOf next).1.select [Selector.parse column]).limitTo 1).distinct = _
  generalize (b.copyOf next).1 = copy, Selector.parse column = s at hcompiled hunited hsetting ⊢
  have hgrouped : copy.compiled.groups = b.compiled.groups := by rw [hcompiled]; rfl
  have hdistinct : copy.compiled.distinct = b.compiled.distinct := by rw [hcompiled]; rfl
  have hselects : (copy.select [s]).Selects s := selects_select (hgrouped.trans hgroups) hunited
    ((returnsRows_of_setting hsetting).mpr hrows) s
  obtain ⟨hlimited, hsame⟩ := hselects.limitTo 1
  exact ⟨hlimited, (hsame.trans (distinct_select copy s)).trans hdistinct⟩

/-- The statement that asks for a column of the first row. -/
def valueStatement (b : Builder) (column : String) : Outcome Compiled := do
  let query ← Outcome.ofSupply (b.columnOfFirst column)
  query.toCompiled

/-- In the first row of the result one attribute is looked for. -/
theorem perform_value [Naming] (b : Builder) (column : String) (c : Connection) (next : Nat) :
    (b.perform (.value column) c next).1 =
      match (b.valueStatement column next).1 with
      | .ok s => (c.selectOne s).map fun row : Option Json =>
          .row (row.bind (Json.member? (Column.attributeName column)))
      | .error e => (.error e, c) :=
  Session.compiled_fst (b.valueStatement column)
    (fun c s => (c.selectOne s).map fun row : Option Json =>
      Answer.row (row.bind (Json.member? (Column.attributeName column)))) c next

/-- What comes of asking for the value of a column that is returned under a key. -/
structure ValueRead [Naming] (b : Builder) (column key name : String) (c : Connection)
    (next : Nat) : Prop where
  refused : ∀ e, (b.valueStatement column next).1 = .error e →
    (b.perform (.value column) c next).1 = (.error e, c)
  /-- The statement returns the column under the key and nothing else. -/
  returned : ∀ s, (b.valueStatement column next).1 = .ok s →
    ∃ front, s.aql = " ".intercalate (front ++ ["RETURN "
      ++ (if b.distinct then "DISTINCT " else "")
      ++ Aql.objectLiteral [(key, (b.columnOfFirst column next).1.scope.resolve name)]])
  failed : ∀ s, (b.valueStatement column next).1 = .ok s → ∀ e c', c.run s = (.error e, c') →
    (b.perform (.value column) c next).1 = (.error e, c')
  /-- The row that the server makes for this statement has a value, and this is found or not. -/
  answered : ∀ s, (b.valueStatement column next).1 = .ok s →
    ∀ v rows writes c', c.run s = (.ok ⟨.object [(key, v)] :: rows, writes⟩, c') →
      (b.perform (.value column) c next).1 = (.ok (.row
        (if (Selector.parse column : Selector Query).Found then some v.keyToId else none)), c')

/-- **When the value of a column is found.**  Whatever a script has built without groups and unions,
and for a column with or without an alias: the attribute that is looked for is the one that the row
has after its keys were renamed just if the column is an attribute with another name than the key of
documents, or if its alias is its own attribute behind which there is an array operator. The
statement returns the column under its attribute or alias and nothing else. The value in the row is
the answer if it is found, and otherwise there is no answer, although the row has one. -/
theorem value_found_iff [Naming] (script : Script) (start : Nat) (column : String) :
    let b := (script.build start).1
    b.unions = [] → b.groups = [] →
    ∀ key ∈ (Selector.parse column : Selector Query).attribute?,
    ∀ name ∈ (Selector.parse column : Selector Query).column?,
      (Column.attributeName column = renamed keyAttribute idAttribute key ↔
        (Selector.parse column : Selector Query).Found) ∧
      ∀ c next, b.ValueRead column key name c next := by
  intro b hunions hgroups key hkey name hname
  have hfound := Selector.found_iff hkey
  refine ⟨hfound, fun c next => ?_⟩
  obtain ⟨hselects, hdistinct⟩ := selects_columnOfFirst hunions hgroups
    (script.returnsRows_build start) column next
  have hanswer := b.perform_value column c next
  constructor
  case refused =>
    intro e he
    rw [hanswer, he]
  case returned =>
    intro s hs
    rw [← hdistinct]
    exact yields_selecting hselects hkey hname _ s hs
  case failed =>
    intro s hs e c' hrun
    rw [hanswer, hs]
    simp only [Connection.selectOne, Connection.select, hrun, Answered.map]
  case answered =>
    intro s hs v rows writes c' hrun
    have hmember : (Json.object [(key, v)]).keyToId.member? (Column.attributeName column) =
        if (Selector.parse column : Selector Query).Found then some v.keyToId else none := by
      rw [Json.member?_keyToId]
      exact if_congr (eq_comm.trans hfound) rfl rfl
    rw [hanswer, hs, ← hmember]
    simp only [Connection.selectOne, Connection.select, hrun, Answered.map, List.map_cons,
      List.head?_cons, Option.bind_some]

/-- A column that is given an alias is returned under it and not found. -/
theorem alias_not_found :
    let b := ((Script.of [.fromCollection "characters"]).build 0).1
    let row : Json := .object [("n", .string "Ned")]
    let c := Connection.ofConfig {} ⟨[⟨⟨0⟩, .ok ⟨[row], 0⟩⟩], [], [], [], [], []⟩ 0
    b.unions = [] ∧ b.groups = [] ∧
      (Selector.parse "name as n" : Selector Query).attribute? = some "n" ∧
      Column.attributeName "name as n" = "name as n" ∧
      (b.valueStatement "name as n" 1).1.toOption.map Compiled.aql =
        some "FOR characterDoc IN characters LIMIT 1 RETURN \x7bn: characterDoc.\x60name\x60\x7d" ∧
      (b.perform (.value "name as n") c 1).1.1 = .ok (.row none) := by
  intro b row c
  have hname : Column.attributeName "name as n" = "name as n" := by decide +kernel
  have haql : (b.valueStatement "name as n" 1).1.toOption.map Compiled.aql = some
      "FOR characterDoc IN characters LIMIT 1 RETURN \x7bn: characterDoc.\x60name\x60\x7d" := by
    decide +kernel
  refine ⟨rfl, rfl, by decide +kernel, hname, haql, ?_⟩
  rw [perform_value, hname]
  cases hs : (b.valueStatement "name as n" 1).1 with
  | error e =>
      rw [hs] at haql
      cases haql
  | ok s => rfl

/-- The last attribute of a path is found, and so is an attribute with an array operator under an
alias that is its own name; the key of documents is not found. -/
theorem path_found_key_not :
    let b := ((Script.of [.fromCollection "characters"]).build 0).1
    let path : Selector Query := Selector.parse "house->name"
    let first : Selector Query := Selector.parse "traits[0] as traits"
    let key : Selector Query := Selector.parse "_key"
    b.unions = [] ∧ b.groups = [] ∧ path.Found ∧ first.Found ∧ ¬ key.Found ∧
      ∀ c next, b.ValueRead "house->name" "name" "house->name" c next ∧
        b.ValueRead "traits[0] as traits" "traits" "traits[0]" c next ∧
        b.ValueRead "_key" "_key" "_key" c next := by
  have hread := value_found_iff (.of [.fromCollection "characters"]) 0
  refine ⟨rfl, rfl, by decide +kernel, by decide +kernel, by decide +kernel,
    fun c next => ⟨?_, ?_, ?_⟩⟩
  · exact (hread "house->name" rfl rfl "name" (by decide +kernel) _ (by decide +kernel)).2 c next
  · exact (hread "traits[0] as traits" rfl rfl "traits" (by decide +kernel) _ (by decide +kernel)).2
      c next
  · exact (hread "_key" rfl rfl "_key" (by decide +kernel) _ (by decide +kernel)).2 c next

end Builder

end AqlBuilder
