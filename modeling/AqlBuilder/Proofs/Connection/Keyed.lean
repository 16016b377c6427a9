import AqlBuilder.Alias.Rules
import AqlBuilder.Proofs.Aql.Reading
import AqlBuilder.Proofs.Binding.Growth
import AqlBuilder.Proofs.Builder.Reference
import AqlBuilder.Proofs.Connection.Failed
import AqlBuilder.Proofs.Statement.Copied
import AqlBuilder.Value

/-!
# Documents selected by their key

A removal and a lookup may be given the key of a document. The key is filed as a value, and a
comparison with it is put behind the conditions of the query with `AND`. A removal without other
conditions needs no loop and names the document itself.

The conditions of the query are written in front of the comparison without parentheses around them,
each taken as one condition here. So the comparison restricts all of them just if none of them is
connected by `OR`.

- `Builder.yields_removed`, `Builder.yields_looked_up`: the statements of a removal and of a lookup.
- `Builder.confined_iff`: when they select no document with another key.
-/

namespace AqlBuilder

open Outcome

/-- A registry in which a name stands for nothing. -/
structure Registry.Lacks (r : Registry) (name : String) : Prop where
  expression : r.expressionOf? name = none
  column : r.columnFor? name = none
  definition : r.isVariable name = false

/-- Where `id` stands for nothing else, it is the key of the main document. -/
theorem Scope.resolve_idAttribute {scope : Scope} (h : scope.aliases.Lacks idAttribute) :
    scope.resolve idAttribute = Column.onDocument (scope.docVar.getD "") keyAttribute := by
  have hpath : Column.normalForm idAttribute.toList = idAttribute.toList := by decide
  have hname : String.ofList idAttribute.toList = idAttribute := rfl
  have hsegments : Column.segments idAttribute.toList = [idAttribute.toList] := by decide
  have hkey : Column.segments (Column.normalForm keyAttribute.toList) = [keyAttribute.toList] := by
    decide
  have hdirect : scope.resolveDirect idAttribute.toList =
      Column.onDocument (scope.docVar.getD "") keyAttribute := by
    unfold resolveDirect Column.onDocument
    rw [hsegments, hkey]
    simp only [hname, h.definition]
    rfl
  unfold resolve resolveWithin
  simp only [hpath, hname, h.expression, h.column]
  rw [hdirect]
  exact ite_self _

/-- The comparison of the key of a document with the bound value of a name. -/
def keyTest (docVar name : String) : String :=
  Aql.comparison (Column.onDocument docVar keyAttribute) .equal ("@" ++ name)

/-- A statement binds a name to a key, unless the name stands for another value of the builder. -/
def Compiled.Binds (b : Builder) (name : String) (key : Value) (c : Compiled) : Prop :=
  ¬ b.bindings.Named name → (name, key.cast) ∈ c.bindings

/-- A statement that removes the document with a key and does not look at any other. -/
structure Compiled.RemovesKey (b : Builder) (key : Value) (c : Compiled) : Prop where
  filters : b.filters = []
  joins : b.joins = []
  names : ∃ name collection, c.Binds b name key ∧
    c.aql = "REMOVE \x7b_key: @" ++ name ++ "\x7d IN " ++ collection

/-- Parts of a statement with a filter that consists of the conditions of a builder and, connected
by `AND` behind them, a comparison of the key of the document with the bound value of a name. -/
def KeyFiltered (b : Builder) (name : String) (texts : List String) : Prop :=
  ∃ front parts back, List.Forall₂ (Aql.Renders b.compiled.scope) b.compiled.filters parts ∧
    texts = front ++ ["FILTER " ++ Aql.connected
      (parts ++ [(.and, keyTest (b.docVar.getD "") name)])] ++ back

/-- A statement with such a filter that binds the name to a key. -/
def Compiled.FiltersKey (b : Builder) (key : Value) (c : Compiled) : Prop :=
  ∃ name texts, c.Binds b name key ∧ KeyFiltered b name texts ∧ c.aql = " ".intercalate texts

section filing

/-- A name that is new in a store stands for the value that is filed under it. -/
theorem Store.mem_bindings_add {s : Store} {category : Category} (v : Value) {aql : String}
    (hnew : ¬ s.Named (s.nextName category)) (haql : s.nextName category ∈ references aql) :
    (s.nextName category, v.cast) ∈ (Compiled.ofStore aql (s.add v category).2).bindings := by
  have hkey : s.nextName category ∈ (s.add v category).2.flatten.keys :=
    mem_keys_flatten.mpr ⟨category, s.nextName_mem_add v category⟩
  obtain ⟨⟨name, w⟩, hmem, hname⟩ := List.mem_map.mp hkey
  dsimp only at hname
  subst hname
  obtain ⟨c, -, hbound⟩ := List.mem_flatMap.mp (Entries.mem_ofPairs hmem)
  have hw : w = v.cast := by
    rcases holds_add ⟨c, hbound⟩ with hold | ⟨-, hw⟩
    · exact absurd hold.named hnew
    · exact hw
  rw [← hw]
  exact List.mem_filter.mpr ⟨hmem, (mentions_iff (s.isName_nextName category)).mpr haql⟩

end filing

variable {b w : Builder} {key : Value} {name : String}

/-- The filter is still there with further pieces behind it. -/
theorem KeyFiltered.append {texts : List String} (h : KeyFiltered b name texts)
    (more : List String) : KeyFiltered b name (texts ++ more) := by
  obtain ⟨front, parts, back, hparts, htexts⟩ := h
  exact ⟨front, parts, back ++ more, hparts, by rw [htexts, List.append_assoc (front ++ _)]⟩

/-- A statement with the condition on the key in its filter refers to the name of the key. -/
theorem KeyFiltered.mem_references {texts : List String} (h : KeyFiltered b name texts)
    (hname : IsName name) : name ∈ references (" ".intercalate texts) := by
  obtain ⟨front, parts, back, -, htexts⟩ := h
  obtain ⟨before, hbefore⟩ := Aql.connected_append parts .and (keyTest (b.docVar.getD "") name)
  have hfilter : "FILTER " ++ Aql.connected (parts ++ [(.and, keyTest (b.docVar.getD "") name)]) =
      "FILTER " ++ before ++ Column.onDocument (b.docVar.getD "") keyAttribute ++ " "
        ++ Operator.equal.text ++ " " ++ "@" ++ name := by
    rw [hbefore]
    simp only [keyTest, Aql.comparison, String.append_assoc]
  have hlast : name ∈ references ("FILTER " ++ Aql.connected
      (parts ++ [(.and, keyTest (b.docVar.getD "") name)])) := by
    rw [hfilter]
    exact mem_references_of_last hname
  exact mem_references_intercalate separator_blank (by simp [htexts]) hlast

namespace Builder

/-- A builder with the clauses of another one and the condition on the key behind its conditions. -/
structure WithKey (b : Builder) (name : String) (w : Builder) : Prop where
  scope : w.compiled.scope = b.compiled.scope
  filters : w.compiled.filters = b.compiled.filters ++ [(keyCondition name).map Query.fragment]

/-- The loops of a builder with a condition on the key. -/
theorem WithKey.yields_loops (h : WithKey b name w) (hid : b.aliases.Lacks idAttribute) :
    (Aql.loops w.compiled).Yields (KeyFiltered b name) := by
  have hvar : b.compiled.scope.docVar = b.docVar := Clauses.docVar_map Query.fragment b
  have hresolve : b.compiled.scope.resolve idAttribute =
      Column.onDocument (b.docVar.getD "") keyAttribute := by
    rw [← hvar]
    exact Scope.resolve_idAttribute hid
  have htest : (((keyCondition name).map Query.fragment).test.text w.compiled.scope).Yields
      (· = keyTest (b.docVar.getD "") name) := by
    rw [h.scope]
    refine yields_pure ?_
    rw [keyTest, ← hresolve]
    rfl
  refine (Aql.yields_loops_last h.filters htest).mono fun texts ⟨front, parts, hparts, htexts⟩ => ?_
  rw [h.scope] at hparts
  exact ⟨front, parts, [], hparts, by rw [htexts, List.append_nil]; rfl⟩

/-- Filing a key for a removal that names the document itself. -/
theorem removesKey (hfilters : b.filters = []) (hjoins : b.joins = []) (key : Value)
    (collection : String) :
    (Compiled.ofStore ("REMOVE \x7b_key: @" ++ b.bindings.nextName .filter ++ "\x7d IN "
      ++ collection) (b.bindings.add key .filter).2).RemovesKey b key := by
  refine ⟨hfilters, hjoins, b.bindings.nextName .filter, collection, fun hnew => ?_, rfl⟩
  refine Store.mem_bindings_add key hnew ?_
  have htext : ("REMOVE \x7b_key: @" ++ b.bindings.nextName .filter ++ "\x7d IN "
      ++ collection).toList = "REMOVE \x7b_key: ".toList ++ '@' ::
        (b.bindings.nextName .filter).toList ++ ("\x7d IN ".toList ++ collection.toList) := by
    simp
  rw [references, htext]
  exact mem_referencesIn_of_ends (b.bindings.isName_nextName .filter) rfl

/-- Filing a key for a statement whose filter ends with the condition on it. -/
theorem filtersKey {store : Store} {v : Value} {texts : List String}
    (hstore : store.bound = b.bindings.bound) (hv : v.cast = key.cast)
    (h : KeyFiltered b (store.nextName .filter) texts) :
    (Compiled.ofStore (" ".intercalate texts) (store.add v .filter).2).FiltersKey b key := by
  refine ⟨store.nextName .filter, texts, fun hnew => ?_, h, rfl⟩
  have hunnamed : ¬ store.Named (store.nextName .filter) := by
    unfold Store.Named
    rw [hstore]
    exact hnew
  rw [← hv]
  exact Store.mem_bindings_add v hunnamed (h.mem_references (store.isName_nextName .filter))

/-- The statement of a removal with a key. -/
theorem yields_removed (hid : b.aliases.Lacks idAttribute) (key : Value) :
    (b.deleteStatement (some key)).Yields fun c => c.RemovesKey b key ∨ c.FiltersKey b key := by
  refine yields_checked b fun _ => yields_onCopy fun w hw => ?_
  refine (yields_any _).bind fun collection _ => ?_
  have hbindings := bindings_of_compiled hw
  dsimp only
  split
  · rename_i hempty
    rw [Bool.and_eq_true, List.isEmpty_iff, List.isEmpty_iff] at hempty
    have hremoves := removesKey ((filters_eq_nil_of_compiled hw).mp hempty.1)
      ((joins_eq_nil_of_compiled hw).mp hempty.2) key collection
    rw [hbindings]
    exact yields_pure (Or.inl hremoves)
  · have hkey : WithKey b (b.bindings.nextName .filter) { w with
        bindings := (w.bindings.add key .filter).2
        filters := w.filters ++ [keyCondition (w.bindings.add key .filter).1] } := by
      constructor
      · have hscope : w.compiled.scope = b.compiled.scope := congrArg Clauses.scope hw
        exact hscope
      · have hfilters : w.compiled.filters = b.compiled.filters := congrArg Clauses.filters hw
        rw [← hfilters, ← hbindings]
        exact List.map_append
    refine ((hkey.yields_loops hid).map fun texts htexts =>
      (htexts.append _).append _).bind fun selection hselection => ?_
    have hfilters := filtersKey rfl (Eq.refl key.cast) (hselection.append
      ["REMOVE " ++ w.docVar.getD "" ++ " IN " ++ collection])
    rw [hbindings]
    exact yields_pure (Or.inr hfilters)

/-- A lookup without an error comes from a builder without an error. -/
theorem error_of_rowWithKey [Naming] {next : Nat} (h : (b.rowWithKey key next).1.error = none) :
    b.error = none := by
  cases herror : b.error with
  | none => rfl
  | some e => exact absurd ((error_rowWithKey herror key next).symm.trans h) (Option.some_ne_none e)

/-- A copy of a query without unions has none. -/
theorem unions_copyOf (hunions : b.unions = []) (next : Nat) : (b.copyOf next).1.unions = [] := by
  have hempty : (b.copyOf next).1.compiled.unions = b.compiled.unions := by
    rw [b.compiled_copyOf next]
    rfl
  have hnone : b.compiled.unions = [] := List.map_eq_nil_iff.mpr hunions
  rw [hnone] at hempty
  exact List.map_eq_nil_iff.mp hempty

/-- The copy of a builder that is compiled to look a key up. -/
def lookup (copy : Builder) (key : Value) : Builder :=
  { copy with
    bindings := (copy.bindings.add key .filter).2
    filters := copy.filters ++ [keyCondition (copy.bindings.nextName .filter)]
    limit := some 1 }

/-- A lookup puts the condition on the key behind the conditions of a copy. -/
theorem rowWithKey_eq [Naming] (hunions : b.unions = []) (hnull : key.cast ≠ .null)
    (href : key.cast.reference? = none) (herror : b.error = none) (next : Nat) :
    (b.rowWithKey key next).1 = (b.copyOf next).1.lookup key.cast := by
  have hcondition : (b.copyOf next).1.condition .filters .and idAttribute (.ok .equal)
      (.value key) = pure (((b.copyOf next).1.file key.cast .filter).push .filters .and
        (keyCondition ((b.copyOf next).1.bindings.nextName .filter)).test) := by
    unfold condition unlessFailedM
    rw [error_copyOf, herror]
    change Builder.addComparison _ _ _ _ _ _ = _
    rw [addComparison_value _ _ _ _ _ hnull, bindValue_of_none href]
    rfl
  have hunited : (((b.copyOf next).1.file key.cast .filter).push .filters .and
      (keyCondition ((b.copyOf next).1.bindings.nextName .filter)).test).unions.isEmpty = true :=
    List.isEmpty_iff.mpr (unions_copyOf hunions next)
  change (((b.copyOf next).1.condition .filters .and idAttribute (.ok .equal)
    (.value key)) (b.copyOf next).2).1.limitTo 1 = _
  rw [hcondition]
  exact if_pos hunited

/-- The statement of a lookup. -/
theorem yields_looked_up [Naming] (hid : b.aliases.Lacks idAttribute) (hunions : b.unions = [])
    (hnull : key.cast ≠ .null) (href : key.cast.reference? = none) (next : Nat) :
    (b.rowWithKey key next).1.toCompiled.Yields (Compiled.FiltersKey b key) := by
  refine yields_checked _ fun herror => yields_onCopy fun w hw => ?_
  rw [rowWithKey_eq hunions hnull href (error_of_rowWithKey herror) next] at hw
  have hcopy := b.compiled_copyOf next
  have hkey : WithKey b ((b.copyOf next).1.bindings.nextName .filter) w := by
    constructor
    · have hscope : (b.copyOf next).1.compiled.scope = b.compiled.scope := by
        rw [hcopy]
        rfl
      rw [hw, ← hscope]
      rfl
    · have hfilters : (b.copyOf next).1.compiled.filters = b.compiled.filters := by
        rw [hcopy]
        rfl
      rw [hw, ← hfilters]
      exact List.map_append
  have hstatement : w.statement = Aql.simpleStatement w.compiled := by
    have hwunions : w.compiled.unions = [] := by
      rw [hw]
      exact List.map_eq_nil_iff.mpr (unions_copyOf hunions next)
    unfold statement Aql.statement
    rw [hwunions]
    rfl
  have hbindings : w.bindings = ((b.copyOf next).1.bindings.add key.cast .filter).2 :=
    bindings_of_compiled hw
  have hbound : (b.copyOf next).1.bindings.bound = b.bindings.bound := by
    rw [b.copyOf_bindings next]
    rfl
  rw [hstatement]
  refine (Aql.yields_simpleStatement_loops (hkey.yields_loops hid)).map
    fun aql ⟨texts, back, htexts, haql⟩ => ?_
  rw [haql, hbindings]
  exact filtersKey hbound key.cast_cast (htexts.append back)

/-- **When a key confines a statement.**  Without unions, and where `id` stands for nothing but the
key of the document, a removal with a key names the document or filters by its key, and so does a
lookup; the condition on the key stands behind all others. If the document has another key, then the
filter is false for all truth values of the other conditions just if none of these is connected with
those before it by `OR`. -/
theorem confined_iff [Naming] (hid : b.aliases.Lacks idAttribute) (hunions : b.unions = [])
    (hnull : key.cast ≠ .null) (href : key.cast.reference? = none) :
    (b.deleteStatement (some key)).Yields (fun c => c.RemovesKey b key ∨ c.FiltersKey b key) ∧
    (∀ next, (b.rowWithKey key next).1.toCompiled.Yields (Compiled.FiltersKey b key)) ∧
    (Aql.Confines (b.filters.map Condition.connector) ↔
      ∀ x ∈ b.filters.tail, x.connector = .and) := by
  refine ⟨yields_removed hid key, yields_looked_up hid hunions hnull href, ?_⟩
  rw [Aql.confines_iff, ← List.map_tail]
  exact List.forall_mem_map

/-- A query for users without a name or without an age. -/
def incomplete : Builder :=
  { Clauses.empty 1 with
    source := some (.collection "users" "u")
    filters := [⟨.isNull "name" false, .and⟩, ⟨.isNull "age" false, .or⟩] }

/-- Removing one incomplete user removes all users without a name. -/
theorem incomplete_not_confined :
    (incomplete.deleteStatement (some (.string "NedStark")) 2).1.isOk = true ∧
    (∀ next, (incomplete.rowWithKey (.string "NedStark") next).1.toCompiled.Yields
      (Compiled.FiltersKey incomplete (.string "NedStark"))) ∧
    ¬ Aql.Confines (incomplete.filters.map Condition.connector) := by
  have hid : incomplete.aliases.Lacks idAttribute := ⟨rfl, rfl, rfl⟩
  have hnull : (Value.string "NedStark").cast ≠ .null := by simp [Value.cast]
  have href : (Value.string "NedStark").cast.reference? = none := by decide
  obtain ⟨-, hlooked, hconfined⟩ := confined_iff hid rfl hnull href
  refine ⟨by decide +kernel, hlooked, fun h => ?_⟩
  have hlast := hconfined.mp h ⟨.isNull "age" false, .or⟩ (by simp [incomplete])
  cases hlast

end Builder

end AqlBuilder
