import AqlBuilder.Alias.Rules
import AqlBuilder.Proofs.Aql.Stands
import AqlBuilder.Proofs.Column.Trail
import AqlBuilder.Proofs.Text.Pieces

/-!
# Columns behind the keys of a grouping

Behind groups a selected column is either a key or an array. Which of them it is depends on its
spelling. The keys are announced under the spellings that they were made from, and a column that
leads to one of these, or to the bare name of a variable, is written as the variable. Any other
column is kept beside the keys: it is returned as an array, even if it is another spelling of an
attribute that is grouped by.

- `Aql.keyScope` is the scope in which the keys are announced, and nothing else.
- `Aql.resolve_of_reference`, `Aql.resolve_of_variable`: the columns that are written as keys.
- `Aql.resolve_of_kept`: the columns that are written as arrays.
- `Builder.keys_returned_by_spelling` is the result for whole builders.
-/

namespace AqlBuilder

open Outcome

namespace Aql

variable {c : Clauses Fragment} {keys : List CollectKey} {column : String} {names : List String}
  {path : List Char}

/-- The scope in which the keys of groups are announced. -/
def keyScope (c : Clauses Fragment) (keys : List CollectKey) : Scope :=
  ⟨withKeys c.aliases keys, c.docVar⟩

/-- The array of the values of a kept column. -/
def keptArray (k : KeptColumn) : String :=
  groupsVariable ++ "[*]." ++ Column.attributeText k.key.toList

/-- The references that stand for the arrays. -/
def keptEntries (c : Clauses Fragment) (keys : List CollectKey) : Entries String :=
  (keptColumns c keys).map fun k => (dotted k.column, keptArray k)

/-- Behind groups without aggregate the arrays are announced after the keys. -/
theorem scopeBehind_eq (haggregate : c.aggregate = none) : scopeBehind c keys =
    ⟨(withKeys c.aliases keys).announce (keptEntries c keys), c.docVar⟩ := by
  unfold scopeBehind behind entries Registry.announce
  rw [haggregate, Entries.putAll_append, withKeys_eq]
  rfl

/-- A column is kept just if it is selected and not written as one of the keys. -/
theorem mem_keptColumns {k : KeptColumn} : k ∈ keptColumns c keys ↔
    k ∈ candidates c.scope c.columns ∧
      (keyScope c keys).resolve k.column ∉ keys.map CollectKey.docVar := by
  unfold keptColumns keyScope
  rw [List.mem_filter, Bool.not_eq_true', ← Bool.not_eq_true, List.contains_iff_mem]

/-- A selected column may be kept. -/
theorem exists_candidate (h : column ∈ c.columns.filterMap Selector.column?) :
    ∃ k ∈ candidates c.scope c.columns, k.column = column := by
  obtain ⟨s, hs, hcolumn⟩ := List.mem_filterMap.mp h
  cases s with
  | column name =>
      exact ⟨_, List.mem_filterMap.mpr ⟨_, hs, rfl⟩, Option.some.inj hcolumn⟩
  | aliased name asName =>
      exact ⟨_, List.mem_filterMap.mpr ⟨_, hs, rfl⟩, Option.some.inj hcolumn⟩
  | _ => cases hcolumn

/-- Without blanks around it, a column is looked up as it is spelled. -/
theorem name_eq_dotted (h : Text.Trimmed column.toList) : Column.name column = dotted column := by
  unfold Column.name Column.normalForm dotted
  rw [h.trimBlanks_eq]

/-- A reference that is announced stands for one of the expressions it is announced with. -/
theorem exists_expressionOf?_announce {r : Registry} {entries : Entries String} {name : String}
    (h : name ∈ Entries.keys entries) :
    ∃ text, (name, text) ∈ entries ∧ (r.announce entries).expressionOf? name = some text := by
  obtain ⟨text, htext⟩ := Entries.exists_get?.mpr (Entries.mem_keys_ofPairs.mpr h)
  refine ⟨text, Entries.mem_ofPairs (Entries.mem_of_get? htext), ?_⟩
  unfold Registry.expressionOf? Registry.announce
  rw [Entries.get?_putAll, htext, Option.some_or]

/-- Any other reference stands for what it stood for. -/
theorem expressionOf?_announce_of_notMem {r : Registry} {entries : Entries String} {name : String}
    (h : name ∉ Entries.keys entries) :
    (r.announce entries).expressionOf? name = r.expressionOf? name := by
  unfold Registry.expressionOf? Registry.announce
  rw [Entries.get?_putAll, Entries.get?_ofPairs_eq_none.mpr h, Option.none_or]

/-- The spelling of a key stands for the variable of a key with this spelling. -/
theorem exists_key {name : String} (h : name ∈ keys.map CollectKey.reference) : ∃ key ∈ keys,
    key.reference = name ∧ (keyScope c keys).aliases.expressionOf? name = some key.docVar := by
  have hkey : name ∈ Entries.keys (keys.map fun key => (key.reference, key.docVar)) := by
    unfold Entries.keys
    rw [List.map_map]
    exact h
  obtain ⟨text, hmem, htext⟩ := exists_expressionOf?_announce (r := c.aliases) hkey
  obtain ⟨key, hin, heq⟩ := List.mem_map.mp hmem
  obtain ⟨rfl, rfl⟩ := Prod.mk.inj heq
  refine ⟨key, hin, rfl, ?_⟩
  unfold keyScope
  rw [withKeys_eq]
  exact htext

/-- The reference of an array has no blanks around it if no selected column has any. -/
theorem trimmed_of_mem_kept {name : String}
    (htrimmed : ∀ column ∈ c.columns.filterMap Selector.column?, Text.Trimmed column.toList)
    (h : name ∈ Entries.keys (keptEntries c keys)) : Text.Trimmed name.toList := by
  unfold Entries.keys keptEntries at h
  rw [List.map_map] at h
  obtain ⟨k, hk, rfl⟩ := List.mem_map.mp h
  have hcolumn := htrimmed _ (column_of_mem_candidates (mem_keptColumns.mp hk).1)
  change Text.Trimmed (dotted k.column).toList
  rw [dotted, String.toList_ofList, Text.trimmed_dotArrows]
  exact hcolumn

/-- Between no blanks, the reference of an array is the name of a kept column. -/
theorem exists_kept {name : String} (hname : Text.Trimmed name.toList)
    (h : name ∈ Entries.keys (keptEntries c keys)) :
    ∃ k ∈ keptColumns c keys, Column.name k.column = name := by
  unfold Entries.keys keptEntries at h
  rw [List.map_map] at h
  obtain ⟨k, hk, rfl⟩ := List.mem_map.mp h
  have hcolumn : Text.Trimmed k.column.toList := by
    rw [← Text.trimmed_dotArrows, ← String.toList_ofList (l := Text.dotArrows _)]
    exact hname
  exact ⟨k, hk, name_eq_dotted hcolumn⟩

/-- A kept column is not spelled as a key. -/
theorem reference_notMem_kept {name text : String} (htrimmed : Text.Trimmed name.toList)
    (hname : (keyScope c keys).aliases.expressionOf? name = some text)
    (htext : text ∈ keys.map CollectKey.docVar) : name ∉ Entries.keys (keptEntries c keys) := by
  intro hmem
  obtain ⟨k, hk, rfl⟩ := exists_kept htrimmed hmem
  have htrail : (keyScope c keys).Trail k.column [] (Column.normalForm k.column.toList) :=
    .stop (if_pos (by rw [hname]; rfl))
  refine (mem_keptColumns.mp hk).2 ?_
  unfold Column.name at hname
  rw [htrail.resolve_eq, Scope.originAt, hname]
  exact htext

/-- If a column is written as a key where the keys are announced, then nothing that it leads through
is the spelling of a kept column; for that one would have been written as a key, too. -/
theorem trail_notMem_kept (h : (keyScope c keys).Trail column names path)
    (hkey : ((keyScope c keys).originAt path).text ∈ keys.map CollectKey.docVar) :
    ∀ name, name ∈ names ∨ name = String.ofList path →
      name ∉ Entries.keys (keptEntries c keys) := by
  intro name hname hmem
  obtain ⟨k, hk, rfl⟩ := exists_kept (h.trimmed hname) hmem
  obtain ⟨rest, htrail⟩ := h.exists_of_name k.column hname
  refine (mem_keptColumns.mp hk).2 ?_
  rw [htrail.resolve_eq]
  exact hkey

section keys

variable (haggregate : c.aggregate = none)

include haggregate

/-- A column that leads to the spelling of a key is the variable of a key with this spelling. -/
theorem resolve_of_reference
    (h : String.ofList ((keyScope c keys).target column) ∈ keys.map CollectKey.reference) :
    ∃ key ∈ keys, key.reference = String.ofList ((keyScope c keys).target column) ∧
      (scopeBehind c keys).resolve column = key.docVar := by
  obtain ⟨key, hkey, hreference, htext⟩ := exists_key (c := c) h
  refine ⟨key, hkey, hreference, ?_⟩
  obtain ⟨names, htrail⟩ : ∃ names, (keyScope c keys).Trail column names
      ((keyScope c keys).target column) :=
    Scope.Trail.exists_of_reference (by rw [htext]; rfl)
  have horigin : (keyScope c keys).originAt ((keyScope c keys).target column) =
      .expression key.docVar := by
    unfold Scope.originAt
    rw [htext]
  have hnew := trail_notMem_kept htrail (by rw [horigin]; exact List.mem_map_of_mem hkey)
  have hbehind : ((withKeys c.aliases keys).announce (keptEntries c keys)).expressionOf?
      (String.ofList ((keyScope c keys).target column)) = some key.docVar :=
    (expressionOf?_announce_of_notMem (hnew _ (.inr rfl))).trans htext
  rw [scopeBehind_eq haggregate, (htrail.announce hnew).resolve_eq, Scope.originAt, hbehind]
  rfl

/-- So is a column that leads to the bare name of a variable, whatever the key was made from. -/
theorem resolve_of_variable
    (htrimmed : ∀ column ∈ c.columns.filterMap Selector.column?, Text.Trimmed column.toList)
    {key : CollectKey} (hkey : key ∈ keys)
    (hlast : (keyScope c keys).aliases.expressionOf? key.reference = some key.docVar)
    (hbare : '.' ∉ key.docVar.toList)
    (hunknown : (keyScope c keys).aliases.expressionOf? key.docVar = none)
    (h : (keyScope c keys).Trail column names key.docVar.toList) :
    (scopeBehind c keys).resolve column = key.docVar := by
  have hvariable : key.docVar ∈ keys.map CollectKey.docVar := List.mem_map_of_mem hkey
  -- In both scopes the name is that of a variable.
  have horigin : ∀ sc : Scope, sc.aliases.expressionOf? key.docVar = none →
      sc.aliases.expressionOf? key.reference = some key.docVar →
      sc.originAt key.docVar.toList = .defined key.docVar [] := by
    intro sc hnone hsome
    have hknown : sc.aliases.isVariable key.docVar = true :=
      Registry.isVariable_iff.mpr (.expression (Entries.mem_of_get? hsome))
    have hsegments : Column.segments key.docVar.toList = [key.docVar.toList] :=
      Text.splitBy_of_notMem hbare
    unfold Scope.originAt Scope.directOrigin
    rw [String.ofList_toList, hnone, hsegments]
    dsimp only
    rw [String.ofList_toList, if_pos hknown]
  have hnew := trail_notMem_kept h (by rw [horigin _ hunknown hlast]; exact hvariable)
  have hname : key.docVar ∉ Entries.keys (keptEntries c keys) := by
    have hend := hnew _ (.inr rfl)
    rwa [String.ofList_toList] at hend
  have hreference : key.reference ∉ Entries.keys (keptEntries c keys) := fun hmem =>
    reference_notMem_kept (trimmed_of_mem_kept htrimmed hmem) hlast hvariable hmem
  rw [scopeBehind_eq haggregate, (h.announce hnew).resolve_eq, horigin]
  · rfl
  · exact (expressionOf?_announce_of_notMem hname).trans hunknown
  · exact (expressionOf?_announce_of_notMem hreference).trans hlast

/-- A selected column that is not written as a key where the keys are announced stands for an array
behind the groups, that of a kept column with its expression. -/
theorem origin_of_kept (htrimmed : Text.Trimmed column.toList)
    (h : column ∈ c.columns.filterMap Selector.column?)
    (hkept : (keyScope c keys).resolve column ∉ keys.map CollectKey.docVar) :
    ∃ k ∈ keptColumns c keys, Column.name k.column = Column.name column ∧
      (scopeBehind c keys).origin column = .expression (keptArray k) := by
  obtain ⟨k, hcandidate, rfl⟩ := exists_candidate h
  have hk := mem_keptColumns.mpr ⟨hcandidate, hkept⟩
  have hspelled := name_eq_dotted htrimmed
  have hkey : Column.name k.column ∈ Entries.keys (keptEntries c keys) := by
    rw [hspelled]
    exact List.mem_map_of_mem (f := Prod.fst) (List.mem_map_of_mem hk)
  obtain ⟨text, hmem, htext⟩ :=
    exists_expressionOf?_announce (r := withKeys c.aliases keys) hkey
  obtain ⟨k', hk', heq⟩ := List.mem_map.mp hmem
  obtain ⟨hname, rfl⟩ := Prod.mk.inj heq
  have htrimmed' : Text.Trimmed k'.column.toList := by
    have hdotted : dotted k'.column = dotted k.column := hname.trans hspelled
    unfold dotted at hdotted
    rw [← Text.trimmed_dotArrows, String.ofList_injective hdotted, Text.trimmed_dotArrows]
    exact htrimmed
  refine ⟨k', hk', (name_eq_dotted htrimmed').trans hname, ?_⟩
  have htrail : (scopeBehind c keys).Trail k.column [] (Column.normalForm k.column.toList) := by
    rw [scopeBehind_eq haggregate]
    exact .stop (if_pos (by rw [htext]; rfl))
  unfold Column.name at htext
  rw [Scope.origin, htrail.target_eq, scopeBehind_eq haggregate, Scope.originAt, htext]

/-- So it is written as this array. -/
theorem resolve_of_kept (htrimmed : Text.Trimmed column.toList)
    (h : column ∈ c.columns.filterMap Selector.column?)
    (hkept : (keyScope c keys).resolve column ∉ keys.map CollectKey.docVar) :
    ∃ k ∈ keptColumns c keys, Column.name k.column = Column.name column ∧
      (scopeBehind c keys).resolve column = keptArray k := by
  obtain ⟨k, hk, hname, horigin⟩ := origin_of_kept haggregate htrimmed h hkept
  exact ⟨k, hk, hname, by rw [Scope.resolve_eq_origin, horigin, Origin.text]⟩

end keys

/-- An attribute of a document is no key: its text has a dot, and the name of a variable has
none. -/
theorem resolve_notMem_of_document {sc : Scope} {docVar : String} {attributes : List (List Char)}
    (hplain : ∀ key ∈ keys, '.' ∉ key.docVar.toList) (hdocVar : docVar ≠ "")
    (h : sc.origin column = .document docVar attributes) :
    sc.resolve column ∉ keys.map CollectKey.docVar := by
  intro hmem
  obtain ⟨key, hkey, htext⟩ := List.mem_map.mp hmem
  rw [sc.resolve_eq_origin, h, Origin.text,
    Column.pathText_of_ne_empty hdocVar (Scope.path_ne_nil_of_document h)] at htext
  refine hplain key hkey ?_
  rw [htext, String.toList_append, String.toList_append]
  exact List.mem_append_right _ (List.mem_append_left _ List.mem_cons_self)

/-- The statement of a query with groups returns its projection as it is written behind them. -/
theorem yields_returned (h : Grouped c) : (simpleStatement c).Yields fun text =>
    ∃ keys, (each (collectKey c.scope) c.groups).Gives keys ∧
      Stands [] (returnText c (scopeBehind c keys) (keys.map CollectKey.docVar)) text := by
  refine yields_of_grouped h fun loops keys tail hkeys _ => ?_
  refine (yields_any _).bind fun havings _ => (yields_any _).map fun queries _ => ?_
  exact ⟨keys, hkeys, (Stands.refl _).listed (List.mem_append_right _ List.mem_cons_self)⟩

end Aql

namespace Builder

open Aql

variable {b w : Builder} {entry : Entry Builder}

/-- Compiling the sub-queries of a query does not change its selected columns. -/
theorem selected_compiled (w : Builder) : w.compiled.columns.filterMap Selector.column? =
    w.columns.filterMap Selector.column? := by
  have hcolumn : ∀ s : Selector Query, (s.map Query.fragment).column? = s.column? :=
    fun s => by cases s <;> rfl
  change (w.columns.map (Selector.map Query.fragment)).filterMap Selector.column? = _
  rw [List.filterMap_map]
  exact List.filterMap_congr fun s _ => hcolumn s

/-- **Keys are returned by their spelling.**  A query has groups and no aggregate, and its selected
columns are spelled without blanks around them. However it is compiled for reading, its last clause
returns each selected column as it is written behind the groups. A column that leads to the spelling
of a key is the variable of a key with this spelling, and a column that leads to the bare name of a
variable is this variable. But a column that is not written as a variable where the keys are
announced, such as an attribute of a document, is the array of a kept column with the same
expression, whichever keys have this expression, too. -/
theorem keys_returned_by_spelling [Naming] (hread : b.reading entry = some w)
    (hgroups : w.groups ≠ []) (haggregate : w.aggregate = none)
    (htrimmed : ∀ column ∈ w.columns.filterMap Selector.column?, Text.Trimmed column.toList) :
    (b.compile entry).Yields fun compiled =>
      ∃ keys, (each (collectKey w.scope) w.groups).Gives keys ∧
      let before := keyScope w.compiled keys
      let after := scopeBehind w.compiled keys
      let projected := w.compiled.columns.foldl (Projected.select after)
        (unselected w.compiled (keys.map CollectKey.docVar))
      Stands [] ("RETURN " ++ (if w.distinct then "DISTINCT " else "") ++
        projected.valueText w.singleValue) compiled.aql ∧
      ∀ column ∈ w.columns.filterMap Selector.column?,
        (∃ name, (name, after.resolve column) ∈ projected.attributes) ∧
        (String.ofList (before.target column) ∈ keys.map CollectKey.reference →
          ∃ key ∈ keys, key.reference = String.ofList (before.target column) ∧
            after.resolve column = key.docVar) ∧
        (∀ key ∈ keys, '.' ∉ key.docVar.toList →
          before.aliases.expressionOf? key.reference = some key.docVar →
          before.aliases.expressionOf? key.docVar = none →
          ∀ names, before.Trail column names key.docVar.toList →
            after.resolve column = key.docVar) ∧
        (before.resolve column ∉ keys.map CollectKey.docVar →
          ∃ k ∈ keptColumns w.compiled keys, k.expression = w.scope.resolve column ∧
            after.resolve column = keptArray k) ∧
        ((∀ key ∈ keys, '.' ∉ key.docVar.toList) → ∀ docVar path, docVar ≠ "" →
          before.origin column = .document docVar path →
            before.resolve column ∉ keys.map CollectKey.docVar) := by
  have hselected := selected_compiled w
  have haggregate' : w.compiled.aggregate = none := haggregate
  rw [← hselected] at htrimmed
  have hreturned := yields_returned (c := w.compiled) (.inl hgroups)
  refine (yields_reading hread (yields_statement_of_simple hreturned)).mono fun compiled haql => ?_
  obtain ⟨aql, ⟨text, ⟨keys, hkeys, htext⟩, hinner⟩, houter⟩ := haql
  rw [w.scope_compiled] at hkeys
  refine ⟨keys, hkeys, ?_, fun column hcolumn => ⟨?_, ?_, ?_, ?_, ?_⟩⟩
  · unfold returnText at htext
    rw [haggregate'] at htext
    exact htext.trans (hinner.trans houter)
  · obtain ⟨s, hs, hname⟩ := List.mem_filterMap.mp hcolumn
    obtain ⟨name, hmem⟩ :=
      exists_attribute (f := Query.fragment) (scopeBehind w.compiled keys) hname
    refine ⟨name, ?_⟩
    rw [attributes_foldl]
    exact List.mem_append_right _ (List.mem_flatMap.mpr ⟨_, List.mem_map_of_mem hs, hmem⟩)
  · exact resolve_of_reference haggregate'
  · intro key hkey hbare hlast hunknown names htrail
    exact resolve_of_variable haggregate' htrimmed hkey hlast hbare hunknown htrail
  · intro hkept
    obtain ⟨k, hk, hname, harray⟩ :=
      resolve_of_kept haggregate' (htrimmed _ (hselected ▸ hcolumn)) (hselected ▸ hcolumn) hkept
    refine ⟨k, hk, ?_, harray⟩
    rw [expression_of_mem_candidates (mem_keptColumns.mp hk).1, w.scope_compiled,
      Scope.resolve_of_name hname]
  · intro hplain docVar path hdocVar horigin
    exact resolve_notMem_of_document hplain hdocVar horigin

/-- Characters by surname, with two spellings of the surname. -/
def families : Builder :=
  ((fromCollection (Clauses.empty 1) "characters as c").groupBy [.column "surname"]).select
    [.column "surname", .aliased "c.surname" "name"]

/-- The spelling of the key is the variable, and the other one is an array. -/
theorem surname_returned_twice :
    families.reading .select = some families ∧ families.groups ≠ [] ∧ families.aggregate = none ∧
      (∀ column ∈ families.columns.filterMap Selector.column?, Text.Trimmed column.toList) ∧
      (families.compile .select).Yields fun compiled => ∃ keys,
        (each (collectKey families.scope) families.groups).Gives keys ∧
        Stands [] ("RETURN " ++ "\x7bsurname: surname, name: groupsVariable[*].\x60name\x60\x7d")
          compiled.aql ∧
        (scopeBehind families.compiled keys).resolve "surname" = "surname" ∧
        ∃ k ∈ keptColumns families.compiled keys,
          (scopeBehind families.compiled keys).resolve "c.surname" = keptArray k := by
  have hgroups : families.groups ≠ [] := List.cons_ne_nil _ _
  have htrimmed : ∀ column ∈ families.columns.filterMap Selector.column?,
      Text.Trimmed column.toList := by
    have hcolumns : families.columns.filterMap Selector.column? = ["surname", "c.surname"] := by
      decide +kernel
    rw [hcolumns]
    exact List.forall_mem_cons.mpr ⟨⟨by decide, by decide⟩,
      List.forall_mem_singleton.mpr ⟨by decide, by decide⟩⟩
  refine ⟨rfl, hgroups, rfl, htrimmed, ?_⟩
  have hread : families.reading .select = some families := rfl
  refine (keys_returned_by_spelling hread hgroups rfl htrimmed).mono ?_
  rintro compiled ⟨keys, hkeys, htext, hcolumns⟩
  obtain rfl : [⟨Column.attributeName "surname", families.scope.resolve "surname",
      dotted "surname"⟩] = keys := Except.ok.inj (hkeys 0)
  refine ⟨_, hkeys, ?_, ?_, ?_⟩
  · refine Eq.subst (motive := fun text => Stands [] text compiled.aql) ?_ htext
    decide +kernel
  · obtain ⟨-, hkey, -⟩ := hcolumns "surname" (by decide +kernel)
    obtain ⟨key, hmem, -, hresolve⟩ := hkey (by decide +kernel)
    rw [hresolve, List.mem_singleton.mp hmem]
    decide
  · obtain ⟨-, -, -, hkept, hdocument⟩ := hcolumns "c.surname" (by decide +kernel)
    have horigin : (keyScope families.compiled [⟨Column.attributeName "surname",
        families.scope.resolve "surname", dotted "surname"⟩]).origin "c.surname" =
          .document "c" ["surname".toList] := by decide +kernel
    obtain ⟨k, hk, -, harray⟩ :=
      hkept (hdocument (by decide +kernel) "c" _ (by decide) horigin)
    exact ⟨k, hk, harray⟩

/-- A key that is selected by a path behind the variable of its collection is returned as an
array. -/
theorem qualified_key_returned_as_array :
    let grouped := (fromCollection (Clauses.empty 1) "characters as c").groupBy [.column "surname"]
    let b := grouped.select [.column "c.surname"]
    b.scope.resolve "c.surname" = b.scope.resolve "surname" ∧
      (b.toAql 2).1.toOption = some ("FOR c IN characters COLLECT surname = c.\x60surname\x60 " ++
        "INTO groupsVariable = \x7bsurname: c.\x60surname\x60\x7d " ++
        "RETURN \x7bsurname: groupsVariable[*].\x60surname\x60\x7d") := by
  exact ⟨by decide +kernel, by decide +kernel⟩

end Builder

end AqlBuilder
