import AqlBuilder.Alias.Rules
import AqlBuilder.Proofs.Aql.Ticked
import AqlBuilder.Proofs.Builder.Proper
import AqlBuilder.Proofs.Column.LastAttribute
import AqlBuilder.Proofs.Column.Trail
import AqlBuilder.Proofs.Script.Made
import AqlBuilder.Proofs.Statement.CollectedNames
import AqlBuilder.Proofs.Statement.Prefixed
import AqlBuilder.Proofs.Statement.Kept

/-!
# Columns that groups leave in scope

Behind groups the variables of the loops are gone. A selected column is read off the groups instead:
as the variable of a key, or as the array of a column that is kept beside the keys. Which columns
are kept is decided where only the keys are announced; the arrays are announced afterwards, and then
the columns are resolved once more. So it has to be shown that a column that is not kept keeps its
text, whatever arrays are announced. Its text would change if one of the names on its way became an
array; but then the column of this array would have been written as a key, too, and not be kept.

- `GroupKey.Plain` are the keys for which this holds.
- `Aql.origin_of_key`: a column that is written as a key stands for the same behind the groups.
- `Aql.readsGroups`: every selected column reads a key or an array.
- `Script.grouped_columns_in_scope` is the result for whatever a script builds.
-/

namespace AqlBuilder

open Outcome

/-- A column without blanks around it, or an assignment to a variable without a dot. -/
def GroupKey.Plain : GroupKey → Prop
  | column name => Text.Trimmed name.toList
  | raw aql => ∀ v ∈ (raw aql).docVar?, '.' ∉ v.toList

/-- The attribute of a projection that a column is returned under. -/
def Selector.attribute? {Q : Type} : Selector Q → Option String
  | column name => some (Column.attributeName name)
  | aliased _ asName => some asName
  | _ => none

/-- A selected column is returned under its attribute. -/
theorem Selector.exists_returned {Q : Type} {f : Q → Fragment} (sc : Scope) {s : Selector Q}
    {column : String} (h : column ∈ s.column?) :
    ∃ key ∈ s.attribute?, (key, sc.resolve column) ∈ Aql.attributesOf sc (s.map f) := by
  cases s with
  | column name =>
      cases h
      exact ⟨_, rfl, List.mem_cons_self⟩
  | aliased name asName =>
      cases h
      exact ⟨_, rfl, List.mem_cons_self⟩
  | _ => cases h

namespace Column

/-- An attribute without an array operator is quoted as a whole. -/
theorem attributeText_of_plain {key : String} (hempty : key ≠ "") (hstar : key ≠ "*")
    (hoperator : '[' ∉ key.toList) :
    attributeText key.toList = String.ofList (Aql.ticked key.toList) := by
  have hsome : key.toList ≠ [] := fun h => hempty (String.toList_injective h)
  have hother : key.toList ≠ ['*'] := fun h => hstar (String.toList_injective h)
  rw [attributeText, tickedAttribute_plain hsome hother hoperator]

end Column

namespace Scope

variable {sc : Scope} {path first : List Char} {rest : List (List Char)}

/-- A path behind a variable stands for an attribute of it. -/
theorem directOrigin_of_variable (hpath : Column.segments path = first :: rest)
    (h : sc.aliases.isVariable (String.ofList first) = true) :
    sc.directOrigin path = .defined (String.ofList first) rest := by
  unfold directOrigin
  rw [hpath]
  exact if_pos h

/-- What does not begin with a query variable is an attribute of a document. -/
theorem exists_document (hpath : Column.segments path = first :: rest)
    (h : ¬ sc.aliases.isVariable (String.ofList first) = true) :
    ∃ docVar attributes, sc.directOrigin path = .document docVar attributes := by
  unfold directOrigin
  rw [hpath]
  dsimp only
  rw [if_neg h]
  split
  · exact ⟨_, _, rfl⟩
  split
  · exact ⟨_, _, rfl⟩
  split
  · exact ⟨_, _, rfl⟩
  · exact ⟨_, _, rfl⟩

end Scope

namespace Aql

variable {c : Clauses Fragment} {keys : List CollectKey} {column : String} {names : List String}
  {path : List Char}

/-- A key that is looked up without blanks around it, and whose variable has no dot. -/
structure CollectKey.Plain (key : CollectKey) : Prop where
  reference : Text.Trimmed key.reference.toList
  docVar : '.' ∉ key.docVar.toList

/-- A text without blanks around it has none when it is dotted. -/
theorem trimmed_dotted {text : String} (h : Text.Trimmed text.toList) :
    Text.Trimmed (dotted text).toList := by
  rw [dotted, String.toList_ofList]
  exact Text.trimmed_dotArrows.mpr h

/-- A plain key is collected as a plain key. -/
theorem yields_plainKey (sc : Scope) {group : GroupKey} (h : group.Plain) :
    (collectKey sc group).Yields CollectKey.Plain := by
  cases group with
  | column name => exact yields_pure ⟨trimmed_dotted h, Column.dot_notMem_attributeName name⟩
  | raw aql =>
      simp only [GroupKey.Plain, GroupKey.docVar?] at h
      unfold collectKey
      dsimp only
      cases hcut : Text.cutAt '=' aql.toList with
      | none => exact yields_fail _
      | some parts =>
          rw [hcut] at h
          refine yields_pure ⟨trimmed_dotted ?_, h _ rfl⟩
          rw [String.toList_ofList]
          exact Text.trimmed_trimBlanks _

/-- What groups leave in scope for a column: the variable of a key, or the array of a column that is
kept under the same name, with the attribute of that column in quotes. -/
inductive ReadsGroups (c : Clauses Fragment) (keys : List CollectKey) (column : String) :
    String → Prop
  | key {key : CollectKey} (h : key ∈ keys) : ReadsGroups c keys column key.docVar
  | kept {k : KeptColumn} (h : k ∈ keptColumns c keys)
      (hname : Column.name k.column = Column.name column)
      (hquoted : k.key ≠ "" → k.key ≠ "*" → '[' ∉ k.key.toList →
        keptArray k = groupsVariable ++ "[*]." ++ String.ofList (ticked k.key.toList)) :
      ReadsGroups c keys column (keptArray k)

section plain

variable (hproper : c.aliases.Proper) (hplain : ∀ key ∈ keys, key.Plain)

include hproper hplain

/-- A variable that is known where the keys are announced is known behind the groups, too. -/
theorem isVariable_behind (haggregate : c.aggregate = none) {name : String}
    (h : (keyScope c keys).aliases.isVariable name = true) :
    (scopeBehind c keys).aliases.isVariable name = true := by
  rw [scopeBehind_eq haggregate, Registry.isVariable_iff]
  have hreference : ∀ {expression}, (name, expression) ∈ (keyScope c keys).aliases.definitions →
      ((withKeys c.aliases keys).announce (keptEntries c keys)).Knows name := by
    intro expression hmem
    have hkey : name ∈ Entries.keys ((withKeys c.aliases keys).definitions.putAll
        (keptEntries c keys)) :=
      Entries.mem_keys_putAll.mpr (.inl (List.mem_map_of_mem (f := Prod.fst) hmem))
    obtain ⟨⟨_, other⟩, hentry, rfl⟩ := List.mem_map.mp hkey
    exact .reference hentry
  rcases Registry.isVariable_iff.mp h with hmem | @⟨reference, hmem⟩
  · exact hreference hmem
  · have hdefinitions : (keyScope c keys).aliases.definitions = c.aliases.definitions.putAll
        (keys.map fun key => (key.reference, key.docVar)) := by
      rw [keyScope, withKeys_eq]
    rw [hdefinitions] at hmem
    rcases Entries.mem_putAll hmem with hown | hkey
    · -- A query variable is a reference to itself.
      obtain rfl : name = reference := hproper.definitions _ hown
      exact hreference (hdefinitions ▸ hmem)
    · obtain ⟨key, hmemKey, heq⟩ := List.mem_map.mp hkey
      obtain ⟨rfl, rfl⟩ := Prod.mk.inj heq
      have hfound : (keyScope c keys).aliases.expressionOf? key.reference = some key.docVar := by
        rw [Registry.expressionOf?, hdefinitions]
        exact Entries.get?_of_mem (Entries.nodup_putAll hproper.nodup _) hmem
      have hnew := reference_notMem_kept (hplain key hmemKey).reference hfound
        (List.mem_map_of_mem hmemKey)
      have hbehind := (expressionOf?_announce_of_notMem hnew).trans hfound
      exact .expression (Entries.mem_of_get? hbehind)

/-- A column that is written as a key where the keys are announced stands for the same behind the
groups: the arrays are announced under other names. -/
theorem origin_of_key (haggregate : c.aggregate = none) (hloop : ∀ v ∈ c.docVar, v ≠ "")
    (hsource : c.docVar.isSome = true) (htrail : (keyScope c keys).Trail column names path)
    (hkey : (keyScope c keys).resolve column ∈ keys.map CollectKey.docVar) :
    (scopeBehind c keys).origin column = (keyScope c keys).origin column ∧
      ∀ docVar path, (keyScope c keys).origin column ≠ .document docVar path := by
  have hdocument : ∀ docVar path, (keyScope c keys).origin column ≠ .document docVar path := by
    intro docVar path horigin
    have hmain : (keyScope c keys).docVar.getD "" ≠ "" := by
      obtain ⟨v, hv⟩ := Option.isSome_iff_exists.mp hsource
      change c.docVar.getD "" ≠ ""
      rw [hv]
      exact hloop v hv
    have htables : ∀ entry ∈ (keyScope c keys).aliases.tables, entry.2 ≠ "" := by
      rw [keyScope, withKeys_eq]
      exact hproper.tables
    have hdots : ∀ key ∈ keys, '.' ∉ key.docVar.toList := fun key hkey => (hplain key hkey).docVar
    exact resolve_notMem_of_document hdots
      (Scope.docVar_ne_empty htables hmain horigin) horigin hkey
  refine ⟨?_, hdocument⟩
  have hnew := trail_notMem_kept htrail (htrail.resolve_eq ▸ hkey)
  have hbehind : (scopeBehind c keys).Trail column names path := by
    rw [scopeBehind_eq haggregate]
    exact htrail.announce hnew
  have hsame : (scopeBehind c keys).aliases.expressionOf? (String.ofList path) =
      (keyScope c keys).aliases.expressionOf? (String.ofList path) := by
    rw [scopeBehind_eq haggregate]
    exact expressionOf?_announce_of_notMem (hnew _ (.inr rfl))
  unfold Scope.origin at hdocument ⊢
  rw [htrail.target_eq] at hdocument ⊢
  rw [hbehind.target_eq]
  unfold Scope.originAt at hdocument ⊢
  rw [hsame]
  cases hexpression : (keyScope c keys).aliases.expressionOf? (String.ofList path) with
  | some text => rfl
  | none =>
      rw [hexpression] at hdocument
      dsimp only at hdocument ⊢
      rcases hpath : Column.segments path with _ | ⟨first, rest⟩
      · exact absurd hpath (Text.splitBy_ne_nil _ _)
      by_cases hvariable : (keyScope c keys).aliases.isVariable (String.ofList first) = true
      · rw [Scope.directOrigin_of_variable hpath hvariable,
          Scope.directOrigin_of_variable hpath
            (isVariable_behind hproper hplain haggregate hvariable)]
      · obtain ⟨docVar, attributes, horigin⟩ := Scope.exists_document hpath hvariable
        exact absurd horigin (hdocument docVar attributes)

/-- **Every selected column reads what groups leave in scope**, and never an attribute of a
document. -/
theorem readsGroups (haggregate : c.aggregate = none) (hloop : ∀ v ∈ c.docVar, v ≠ "")
    (hsource : c.docVar.isSome = true) (hacyclic : c.aliases.Acyclic)
    (htrimmed : Text.Trimmed column.toList) (h : column ∈ c.columns.filterMap Selector.column?) :
    ReadsGroups c keys column ((scopeBehind c keys).resolve column) ∧
      ∀ docVar path, (scopeBehind c keys).origin column ≠ .document docVar path := by
  by_cases hkey : (keyScope c keys).resolve column ∈ keys.map CollectKey.docVar
  · have hacyclic' : (keyScope c keys).aliases.Acyclic := by
      rw [keyScope, withKeys_eq]
      exact hacyclic.withDefinitions _
    obtain ⟨names, path, htrail⟩ := hacyclic'.exists_trail column
    obtain ⟨horigin, hdocument⟩ :=
      origin_of_key hproper hplain haggregate hloop hsource htrail hkey
    rw [horigin]
    refine ⟨?_, hdocument⟩
    rw [Scope.resolve_eq_origin, horigin, ← Scope.resolve_eq_origin]
    obtain ⟨key, hmem, heq⟩ := List.mem_map.mp hkey
    exact heq ▸ .key hmem
  · obtain ⟨k, hk, hname, horigin⟩ := origin_of_kept haggregate htrimmed h hkey
    rw [Scope.resolve_eq_origin, horigin]
    have hquoted : k.key ≠ "" → k.key ≠ "*" → '[' ∉ k.key.toList →
        keptArray k = groupsVariable ++ "[*]." ++ String.ofList (ticked k.key.toList) := by
      intro hempty hstar hoperator
      rw [keptArray, Column.attributeText_of_plain hempty hstar hoperator]
    exact ⟨.kept hk hname hquoted, fun _ _ => nofun⟩

end plain

/-- The clause of groups without an aggregate: the keys, and the object of the columns that are
kept. -/
def keyClause (c : Clauses Fragment) (keys : List CollectKey) : String :=
  collectText keys ++ if (keptColumns c keys).isEmpty then ""
    else " INTO " ++ groupsVariable ++ " = " ++
      objectLiteral ((keptColumns c keys).map fun k => (k.key, k.expression))

/-- A statement with groups has a main loop, the clause with the keys and at its end what is
returned. -/
theorem yields_keyClause (h : Grouped c) (haggregate : c.aggregate = none) :
    (simpleStatement c).Yields fun text => c.docVar.isSome = true ∧ ∃ keys front middle,
      (each (collectKey c.scope) c.groups).Gives keys ∧ text = " ".intercalate
        (front ++ keyClause c keys :: (middle ++
          [returnText c (scopeBehind c keys) (keys.map CollectKey.docVar)])) := by
  have hmain : (mainLoop c).Yields fun _ => c.docVar.isSome = true := by
    unfold mainLoop Clauses.docVar
    cases c.source with
    | none => exact yields_fail _
    | some s => exact (yields_any _).map fun _ _ => rfl
  have hloops : (loops c).Yields fun _ => c.docVar.isSome = true :=
    (yields_loops_parts (yields_any _) hmain (yields_any _) (yields_any _)).mono
      fun _ ⟨_, _, _, _, _, hsome, _⟩ => hsome
  have hkeys : (each (collectKey c.scope) c.groups).Steady :=
    steady_each fun key _ => steady_collectKey c.scope key
  have htail :
    ∀ keys, (collectTail c keys).Yields fun tail =>
    collectText keys ++ tail = keyClause c keys := by
    intro keys
    unfold collectTail
    rw [haggregate]
    exact yields_pure rfl
  rw [simpleStatement_eq, collect_of_grouped h]
  refine hloops.bind fun loops hsome => ?_
  rw [bind_bind]
  refine hkeys.yields.bind fun keys hkeys => ?_
  rw [bind_bind]
  refine (htail keys).bind fun tail htail => ?_
  change (finish c (behind c keys) (keys.map CollectKey.docVar) _).Yields _
  refine (yields_any _).bind fun havings _ => (yields_any _).map fun queries _ => ?_
  refine ⟨hsome, keys, loops, havings ++ sortIn (scopeBehind c keys) c.orders ++
    limitText c.limit c.offset ++ queries, hkeys, ?_⟩
  rw [← htail]
  simp only [List.append_assoc, List.singleton_append, Option.map_some, Option.toList_some]
  rfl

end Aql

namespace Script

open Aql

/-- **Grouped projections stay in scope.**  Whatever a script has built and however it is compiled:
a query in the statement, at any depth, has groups and no aggregate, no name in its projection leads
back to itself, and its keys are columns without blanks around them or assignments to variables
without a dot. Then the clause with its keys stands in the statement, with the object of the columns
that are kept, and behind it the projection. A column that is selected by a text is returned there
under its attribute, and reads what the groups leave in scope: the variable of a key, or the array
of a column that is kept under the same name. It never stands for an attribute of a document. -/
theorem grouped_columns_in_scope [Naming] (s : Script) : s.build.Always fun b =>
    ∀ entry : Entry (Subject Script), (entry.run b).Always fun e => ∀ c : Builder, e.Compiles b c →
      c.groups ≠ [] → c.aggregate = none → c.aliases.Acyclic → (∀ group ∈ c.groups, group.Plain) →
      (b.compile e).Yields fun compiled => ∃ keys front middle,
        (each (collectKey c.scope) c.groups).Gives keys ∧
        let after := scopeBehind c.compiled keys
        let projected := c.compiled.columns.foldl (Projected.select after)
          (unselected c.compiled (keys.map CollectKey.docVar))
        Stands [] (" ".intercalate (front ++ keyClause c.compiled keys :: (middle ++
          ["RETURN " ++ (if c.distinct then "DISTINCT " else "") ++
            projected.valueText c.singleValue]))) compiled.aql ∧
        ∀ text, Selector.parse text ∈ c.columns →
          ∀ column ∈ (Selector.parse text : Selector Query).column?,
          (∃ key ∈ (Selector.parse text : Selector Query).attribute?,
            (key, after.resolve column) ∈ projected.attributes) ∧
          ReadsGroups c.compiled keys column (after.resolve column) ∧
          ∀ docVar path, after.origin column ≠ .document docVar path := by
  refine s.made_build.mono fun b hb entry => (entry.made_run hb).mono fun e he => ?_
  intro c hc hgroups haggregate hacyclic hplain
  have hproper := (hc.made hb he).proper
  have hgrouped : Grouped c.compiled := .inl hgroups
  have hstatement : c.statement.Yields fun aql => ∃ text, _ ∧ Stands [] text aql :=
    yields_statement_of_simple (yields_keyClause hgrouped haggregate)
  refine (hc.yields hstatement).mono fun compiled haql => ?_
  obtain ⟨aql, ⟨text, ⟨hsource, keys, front, middle, hkeys, rfl⟩, hinner⟩, houter⟩ := haql
  rw [c.scope_compiled] at hkeys
  have hplainKeys : ∀ key ∈ keys, CollectKey.Plain key :=
    yields_each (fun group hgroup => yields_plainKey c.scope (hplain group hgroup)) 0 keys (hkeys 0)
  refine ⟨keys, front, middle, hkeys, ?_, fun selected hselected column hcolumn => ⟨?_, ?_⟩⟩
  · have hreturn := hinner.trans houter
    unfold returnText at hreturn
    have hnone : c.compiled.aggregate = none := haggregate
    rw [hnone] at hreturn
    exact hreturn
  · obtain ⟨key, hkey, hattribute⟩ :=
      Selector.exists_returned (f := Query.fragment) (scopeBehind c.compiled keys) hcolumn
    refine ⟨key, hkey, ?_⟩
    rw [attributes_foldl]
    exact List.mem_append_right _
      (List.mem_flatMap.mpr ⟨_, List.mem_map_of_mem hselected, hattribute⟩)
  · have hmem : column ∈ c.compiled.columns.filterMap Selector.column? := by
      rw [c.selected_compiled]
      exact List.mem_filterMap.mpr ⟨_, hselected, hcolumn⟩
    have hloop : ∀ v ∈ c.compiled.docVar, v ≠ "" := by
      have hdocVar : c.compiled.docVar = c.docVar := congrArg Scope.docVar c.scope_compiled
      rw [hdocVar]
      exact hproper.docVar
    exact readsGroups hproper.aliases hplainKeys haggregate hloop hsource hacyclic
      (Selector.trimmed_parse selected column hcolumn) hmem

/-- Three projections that do not read the groups as they should. A trusted key may assign to a
path, and what is written as this path is not kept, but it becomes an attribute of an array when the
object before it is kept. A key with a blank behind it loses its name to a column with the same
blank. And a column that is selected twice is returned under its last attribute, even with an array
operator in it. -/
theorem projection_escapes_groups :
    let people : Builder := Builder.fromCollection (Clauses.empty 1) "characters as c"
    let houses := (people.groupByRaw "c.\x60house\x60.\x60name\x60 = 1").select
      [.column "house.name", .column "house"]
    let blank := (people.groupBy [.column "house.name "]).select
      [.column "house.name ", .column "name"]
    let twice := (people.groupBy [.column "surname"]).select
      [.column "name", .aliased "name" "names[0]"]
    (houses.toAql 2).1.toOption = some ("FOR c IN characters " ++
        "COLLECT c.\x60house\x60.\x60name\x60 = 1 " ++
        "INTO groupsVariable = \x7bhouse: c.\x60house\x60\x7d " ++
        "RETURN \x7bname: house.\x60name\x60, house: groupsVariable[*].\x60house\x60\x7d") ∧
      (blank.toAql 2).1.toOption = some ("FOR c IN characters " ++
        "COLLECT name = c.\x60house\x60.\x60name\x60 " ++
        "INTO groupsVariable = \x7bname: c.\x60house\x60.\x60name\x60\x7d " ++
        "RETURN \x7bname: c.\x60house\x60.\x60name\x60, name: c.\x60name\x60\x7d") ∧
      (twice.toAql 2).1.toOption =
        some ("FOR c IN characters COLLECT surname = c.\x60surname\x60 " ++
        "INTO groupsVariable = \x7bname: c.\x60name\x60, \"names[0]\": c.\x60name\x60\x7d " ++
        "RETURN \x7bname: groupsVariable[*].\x60names\x60[0], " ++
        "\"names[0]\": groupsVariable[*].\x60names\x60[0]\x7d") := by
  exact ⟨by decide +kernel, by decide +kernel, by decide +kernel⟩

/-- Characters by surname, with their names. -/
def families : Script :=
  .of [.fromCollection "characters as c", .groupBy [.column "surname"],
    .select [.column "surname", .aliased "name" "names"]]

/-- The surname is the variable of the key, and the names are an array. -/
theorem families_in_scope :
    let b := (families.build 0).1
    b.groups ≠ [] ∧ b.aggregate = none ∧ b.aliases.Acyclic ∧ (∀ group ∈ b.groups, group.Plain) ∧
      (b.compile .select).Yields fun compiled => ∃ keys,
        (each (collectKey b.scope) b.groups).Gives keys ∧
        Stands [] "RETURN \x7bsurname: surname, names: groupsVariable[*].\x60names\x60\x7d"
          compiled.aql ∧
        ReadsGroups b.compiled keys "surname" "surname" ∧
        ReadsGroups b.compiled keys "name" "groupsVariable[*].\x60names\x60" := by
  intro b
  have hgroups : b.groups ≠ [] := List.cons_ne_nil _ _
  have hacyclic : b.aliases.Acyclic := by
    have hnames : ∀ {name next}, b.aliases.LeadsTo name next → name = "names" ∧ next = "name" := by
      rintro name next ⟨-, column, hcolumn, -, rfl⟩
      obtain ⟨entry, hentry, rfl⟩ := Option.map_eq_some_iff.mp hcolumn
      have hname : entry.2 = name := by simpa using List.find?_some hentry
      obtain rfl : entry = ("name", "names") :=
        List.mem_singleton.mp (List.mem_of_find?_eq_some hentry)
      exact ⟨hname.symm, by decide⟩
    intro name hcycle
    obtain ⟨next, hfirst, hrest⟩ := Relation.TransGen.head'_iff.mp hcycle
    obtain ⟨rfl, rfl⟩ := hnames hfirst
    rcases Relation.ReflTransGen.cases_head hrest with hsame | ⟨_, hsecond, -⟩
    · exact absurd hsame (by decide)
    · exact absurd (hnames hsecond).1 (by decide)
  have hplain : ∀ group ∈ b.groups, group.Plain :=
    List.forall_mem_singleton.mpr ⟨by decide, by decide⟩
  refine ⟨hgroups, rfl, hacyclic, hplain, ?_⟩
  refine (grouped_columns_in_scope families 0 .select 0 b (.read rfl .refl) hgroups rfl hacyclic
    hplain).mono ?_
  rintro compiled ⟨keys, front, middle, hkeys, htext, hcolumns⟩
  obtain rfl : [⟨"surname", b.scope.resolve "surname", "surname"⟩] = keys := Except.ok.inj (hkeys 0)
  have hkey : (Selector.parse "surname" : Selector Query) = .column "surname" := rfl
  have hkept : (Selector.parse "name as names" : Selector Query) = .aliased "name" "names" := rfl
  have hsurname := hcolumns "surname" (hkey ▸ List.mem_cons_self) "surname" (hkey ▸ rfl)
  have hname := hcolumns "name as names" (hkept ▸ List.mem_cons_of_mem _ List.mem_cons_self) "name"
    (hkept ▸ rfl)
  refine ⟨_, hkeys, ?_, ?_, ?_⟩
  · have hreturn := ((Stands.refl _).listed (List.mem_append_right front
      (List.mem_cons_of_mem _ (List.mem_append_right middle List.mem_cons_self)))).trans htext
    refine Eq.subst (motive := fun text => Stands [] text compiled.aql) ?_ hreturn
    decide +kernel
  · exact Eq.subst (by decide +kernel) hsurname.2.1
  · exact Eq.subst (by decide +kernel) hname.2.1

end Script

end AqlBuilder
