import AqlBuilder.Alias.Rules
import AqlBuilder.Proofs.Column.LastAttribute
import AqlBuilder.Proofs.Column.Trail
import AqlBuilder.Proofs.Statement.Grouped
import AqlBuilder.Proofs.Text.Words
import Mathlib.Data.List.Nodup
import Mathlib.Data.Option.Basic

/-!
# Names that groups assign

Groups assign a variable for each key, and one more for an aggregate or for the columns that are
kept beside the keys. The variable of a key is the last attribute of its column, so attributes of
different objects may be assigned to one name, and an attribute may have the name of the further
variable; what the columns stand for does not matter.

- `Aql.Introduces` says which name is assigned behind the keys.
- `Aql.assignedNames` are the names that groups assign, in their order.
- `Column.name_of_attributeName`: attributes of one object have names of their own.
- `Builder.names_assigned_once_iff` is the result for whole builders.
-/

namespace AqlBuilder

open Outcome

namespace Column

/-- The attributes in front of the last one. -/
def parents (column : String) : List (List Char) := (segments (normalForm column.toList)).dropLast

variable {first second : String}

/-- Different texts are cut differently. -/
theorem segments_injective : Function.Injective segments := by
  intro path other h
  unfold segments at h
  rw [Text.splitBy_eq_splitOnP, Text.splitBy_eq_splitOnP] at h
  have hwhole :
    ∀ path : List Char, ['.'].intercalate (path.splitOnP (· == '.')) = path := fun path =>
    List.intercalate_splitOn '.'
  rw [← hwhole path, h, hwhole other]

/-- Without operators the attributes of one object have names of their own. -/
theorem name_of_attributeName (hparents : parents first = parents second)
    (hfirst : '[' ∉ lastAttribute first) (hsecond : '[' ∉ lastAttribute second)
    (h : attributeName first = attributeName second) : name first = name second := by
  have hcut : ∀ column, '[' ∉ lastAttribute column →
      (lastAttribute column).takeWhile (· != '[') = lastAttribute column :=
    fun _ hplain => Text.takeWhile_of_notMem hplain
  have hwhole : ∀ column, segments (normalForm column.toList) =
      parents column ++ [lastAttribute column] := by
    intro column
    have hne : segments (normalForm column.toList) ≠ [] := Text.splitBy_ne_nil _ _
    unfold parents lastAttribute
    rw [List.getLast?_eq_some_getLast hne, Option.getD_some, List.dropLast_append_getLast hne]
  have hlast : lastAttribute first = lastAttribute second := by
    rw [← hcut first hfirst, ← hcut second hsecond]
    exact String.ofList_injective h
  unfold name
  rw [segments_injective ((hwhole first).trans (by rw [hparents, hlast, hwhole second]))]

end Column

/-- The variable of a key, which a written assignment has in front of its equals sign. -/
def GroupKey.docVar? : GroupKey → Option String
  | column name => some (Column.attributeName name)
  | raw aql => (Text.cutAt '=' aql.toList).map fun parts => String.ofList (Text.trimBlanks parts.1)

namespace Aql

/-- The names that are assigned by what stands behind the keys of a grouping. -/
inductive Introduces : String → List String → Prop
  | nothing : Introduces "" []
  | count (name : String) : Introduces (" WITH COUNT INTO " ++ name) [name]
  | aggregate (name expression : String) :
      Introduces (" AGGREGATE " ++ name ++ " = " ++ expression) [name]
  | kept (name object : String) : Introduces (" INTO " ++ name ++ " = " ++ object) [name]

/-- The name behind the keys, if there is one. -/
def introduced (c : Clauses Fragment) (keys : List CollectKey) : List String :=
  match c.aggregate with
  | some _ => [aggregateVariable]
  | none => if (keptColumns c keys).isEmpty then [] else [groupsVariable]

/-- The names that groups assign. -/
def assignedNames (c : Clauses Fragment) (keys : List CollectKey) : List String :=
  keys.map CollectKey.docVar ++ introduced c keys

variable {c : Clauses Fragment} {keys : List CollectKey}

/-- An aggregate assigns the name of its result. -/
theorem yields_aggregateIntroduces (sc : Scope) (a : Aggregate) :
    (aggregateText sc a).Yields fun text => Introduces (" " ++ text) [aggregateVariable] := by
  unfold aggregateText
  split
  case h_1 =>
    have hcut : " WITH COUNT INTO " = " " ++ "WITH COUNT INTO " := by decide
    refine yields_pure ?_
    rw [← String.append_assoc, ← hcut]
    exact .count aggregateVariable
  case h_2 _ _ column _ =>
    have hcut : " AGGREGATE " = " " ++ "AGGREGATE " := by decide
    have h :=
      Introduces.aggregate aggregateVariable (a.function.text ++ "(" ++ sc.resolve column ++ ")")
    exact yields_pure (by simpa only [hcut, String.append_assoc] using h)
  case h_3 => exact yields_fail _

/-- No name is assigned twice behind the keys. -/
theorem nodup_introduced (c : Clauses Fragment) (keys : List CollectKey) :
    (introduced c keys).Nodup := by
  unfold introduced
  cases c.aggregate with
  | some a => exact List.nodup_singleton _
  | none =>
      dsimp only
      split
      · exact List.nodup_nil
      · exact List.nodup_singleton _

/-- What stands behind the keys assigns one name, if there is something. -/
theorem yields_introduces (c : Clauses Fragment) (keys : List CollectKey) :
    (collectTail c keys).Yields fun tail => Introduces tail (introduced c keys) := by
  unfold collectTail introduced
  cases c.aggregate with
  | some a => exact (yields_aggregateIntroduces c.scope a).map fun text htext => htext
  | none =>
      refine yields_pure ?_
      split
      · exact .nothing
      · exact .kept groupsVariable _

/-- The keys of a grouping are assigned to their variables, in their order. -/
theorem yields_variables (sc : Scope) (groups : List GroupKey) :
    (each (collectKey sc) groups).Yields fun keys =>
      groups.map GroupKey.docVar? = keys.map fun key => some key.docVar := by
  induction groups with
  | nil => exact yields_pure rfl
  | cons group rest ih =>
      have hfirst : (collectKey sc group).Yields fun key => group.docVar? = some key.docVar := by
        cases group with
        | column name => exact yields_pure rfl
        | raw aql =>
            simp only [collectKey, GroupKey.docVar?]
            cases Text.cutAt '=' aql.toList with
            | none => exact yields_fail _
            | some parts => exact yields_pure rfl
      refine hfirst.bind fun key hkey => ih.map fun keys hkeys => ?_
      rw [List.map_cons, List.map_cons, hkey, hkeys]

/-- The statement of a query with groups has them in one clause: the keys, and what assigns the name
behind them. -/
theorem yields_assigned (h : Grouped c) : (simpleStatement c).Yields fun text =>
    ∃ keys tail, (each (collectKey c.scope) c.groups).Gives keys ∧
      Introduces tail (introduced c keys) ∧ Stands [] (collectText keys ++ tail) text := by
  refine yields_of_grouped h fun loops keys tail hkeys htail => ?_
  refine (yields_any _).bind fun havings _ => (yields_any _).map fun queries _ => ?_
  refine ⟨keys, tail, hkeys, yields_introduces c keys 0 tail (htail 0), (Stands.refl _).listed ?_⟩
  simp

end Aql

namespace Builder

open Aql

variable {b w : Builder} {entry : Entry Builder}

/-- **When groups assign every name once.**  A query has groups or an aggregate. However it is
compiled for reading, its statement has one clause that assigns the variables of the keys and one
more name behind them, if there is an aggregate or a kept column. These names are pairwise different
just if the variables of the keys are, and none of them is the further name; the expressions of the
keys do not matter. Keys that are attributes of one object, without operators behind them, have
different variables if they have different expressions. -/
theorem names_assigned_once_iff [Naming] (hread : b.reading entry = some w) (hgrouped : Grouped w) :
    (b.compile entry).Yields fun compiled => ∃ keys tail,
      (each (collectKey w.scope) w.groups).Gives keys ∧
      let further := introduced w.compiled keys
      Stands [] (collectText keys ++ tail) compiled.aql ∧ Introduces tail further ∧
      w.groups.map GroupKey.docVar? = keys.map (fun key => some key.docVar) ∧
      ((assignedNames w.compiled keys).Nodup ↔
        w.groups.Pairwise (fun group other => group.docVar? ≠ other.docVar?) ∧
          ∀ name ∈ further, some name ∉ w.groups.map GroupKey.docVar?) ∧
      ∀ (columns : List String) parents, w.groups = columns.map GroupKey.column →
        (∀ column ∈ columns,
          Column.parents column = parents ∧ '[' ∉ Column.lastAttribute column) →
        columns.Pairwise (fun column other => w.scope.resolve column ≠ w.scope.resolve other) →
          (keys.map CollectKey.docVar).Nodup := by
  have hassigned := yields_assigned (c := w.compiled) hgrouped
  refine (yields_reading hread (yields_statement_of_simple hassigned)).mono fun compiled haql => ?_
  obtain ⟨aql, ⟨text, ⟨keys, tail, hkeys, htail, htext⟩, hinner⟩, houter⟩ := haql
  rw [w.scope_compiled] at hkeys
  have hvariables : w.groups.map GroupKey.docVar? = keys.map fun key => some key.docVar :=
    yields_variables w.scope w.groups 0 keys (hkeys 0)
  have hnames : w.groups.map GroupKey.docVar? = (keys.map CollectKey.docVar).map some := by
    rw [hvariables, List.map_map]
    rfl
  have hnodup : w.groups.Pairwise (fun group other => group.docVar? ≠ other.docVar?) ↔
      (keys.map CollectKey.docVar).Nodup := by
    rw [← List.nodup_map_iff (Option.some_injective String), ← hnames, List.Nodup,
      List.pairwise_map]
  have hmem : ∀ name, some name ∈ w.groups.map GroupKey.docVar? ↔
      name ∈ keys.map CollectKey.docVar := by
    intro name
    rw [hnames, List.mem_map_of_injective (Option.some_injective String)]
  refine ⟨keys, tail, hkeys, htext.trans (hinner.trans houter), htail, hvariables, ?_, ?_⟩
  · unfold assignedNames
    rw [List.nodup_append', hnodup, and_iff_right (nodup_introduced w.compiled keys)]
    refine and_congr_right fun _ => ?_
    simp only [hmem]
    exact ⟨fun h name hname hin => h hin hname, fun h name hin hname => h name hname hin⟩
  · intro columns parents hcolumns hplain hdifferent
    rw [← hnodup, hcolumns, List.pairwise_map]
    refine hdifferent.imp_of_mem fun {column other} hcolumn hother hne heq => hne ?_
    obtain ⟨hparents, hlast⟩ := hplain column hcolumn
    obtain ⟨hparents', hlast'⟩ := hplain other hother
    exact Scope.resolve_of_name (Column.name_of_attributeName (hparents.trans hparents'.symm)
      hlast hlast' (Option.some.inj heq))

/-- Characters by their name and by the name of their house. -/
def namesakes : Builder :=
  (fromCollection (Clauses.empty 1) "characters as c").groupBy
    [.column "name", .column "house.name"]

/-- Both names are assigned to one variable. -/
theorem name_assigned_twice :
    namesakes.scope.resolve "name" = "c.\x60name\x60" ∧
      namesakes.scope.resolve "house.name" = "c.\x60house\x60.\x60name\x60" ∧
      (namesakes.toAql 2).1.toOption =
        some ("FOR c IN characters COLLECT name = c.\x60name\x60, " ++
        "name = c.\x60house\x60.\x60name\x60 RETURN \x7bname: name, name: name\x7d") := by
  exact ⟨by decide +kernel, by decide +kernel, by decide +kernel⟩

/-- The names that these groups assign are not different from each other. -/
theorem names_of_groups_repeated :
    namesakes.reading .select = some namesakes ∧ Grouped namesakes ∧
      (namesakes.compile .select).Yields fun compiled => ∃ keys tail,
        (each (collectKey namesakes.scope) namesakes.groups).Gives keys ∧
        Stands [] (collectText keys ++ tail) compiled.aql ∧
        ¬ (assignedNames namesakes.compiled keys).Nodup := by
  have hgrouped : Grouped namesakes := .inl (List.cons_ne_nil _ _)
  have hsame : ¬ namesakes.groups.Pairwise (fun group other => group.docVar? ≠ other.docVar?) := by
    intro h
    have hfirst := (List.pairwise_cons.mp h).1 _ List.mem_cons_self
    exact hfirst (by decide +kernel)
  refine ⟨rfl, hgrouped, ?_⟩
  refine (names_assigned_once_iff rfl hgrouped).mono fun compiled h => ?_
  obtain ⟨keys, tail, hkeys, htext, -, -, hnodup, -⟩ := h
  exact ⟨keys, tail, hkeys, htext, fun h => hsame (hnodup.mp h).1⟩

end Builder

end AqlBuilder
