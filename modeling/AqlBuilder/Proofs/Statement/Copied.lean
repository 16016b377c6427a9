import AqlBuilder.Proofs.Aql.Within
import AqlBuilder.Proofs.Builder.Alike
import AqlBuilder.Statement.Write

/-!
# Compiling on a copy

A builder is checked for errors and then compiled on a working copy. The copy compiles to the same
texts as the builder, so what holds of all such builders holds of the copy.

- `Builder.yields_checked` and `Builder.yields_onCopy` leave the check and the copy behind.
- `Builder.toAql_ok_iff`: a builder compiles to the text of its statement.
- `Builder.yields_deleteKey`: a removal by key, for a query with the condition on the key.
-/

namespace AqlBuilder.Builder

open Outcome

variable {α : Type} {p : α → Prop} {b : Builder}

/-- A builder with an error compiles to nothing. -/
theorem yields_checked (b : Builder) {f : Unit → Outcome α}
    (h : b.error = none → (f ()).Yields p) : (ofExcept b.check >>= f).Yields p := by
  unfold check
  cases herror : b.error with
  | none => exact h herror
  | some e => exact yields_fail e

/-- A working copy is a builder that compiles to the same texts. -/
theorem yields_onCopy {f : Builder → Outcome α}
    (h : ∀ w : Builder, w.compiled = b.compiled → (f w).Yields p) : (b.onCopy f).Yields p :=
  (yields_ofSupply fun n => b.compiled_workingCopy n).bind h

/-- What is done with a working copy may be said of any builder that compiles to the same texts. -/
theorem onCopy_congr {f g : Builder → Outcome α}
    (h : ∀ w : Builder, w.compiled = b.compiled → f w = g w) : b.onCopy f = b.onCopy g := by
  funext n
  exact congrFun (h _ (b.compiled_workingCopy n)) _

section fields

variable {w : Builder} (h : w.compiled = b.compiled)

include h

/-- Builders that compile to the same clauses have the same values. -/
theorem bindings_of_compiled : w.bindings = b.bindings := by
  have hbindings : w.compiled.bindings = b.compiled.bindings := congrArg Clauses.bindings h
  exact hbindings

/-- Builders that compile to the same clauses iterate under the same variable. -/
theorem docVar_of_compiled : w.docVar = b.docVar := by
  have hvar := congrArg Clauses.docVar h
  unfold compiled at hvar
  rwa [Clauses.docVar_map, Clauses.docVar_map] at hvar

/-- Builders that compile to the same clauses have conditions both or neither. -/
theorem filters_eq_nil_of_compiled : w.filters = [] ↔ b.filters = [] := by
  have hfilters : w.compiled.filters = b.compiled.filters := congrArg Clauses.filters h
  rw [← List.map_eq_nil_iff (f := Condition.map Query.fragment),
    ← List.map_eq_nil_iff (f := Condition.map Query.fragment)]
  exact Eq.congr_left hfilters

/-- Builders that compile to the same clauses have joins both or neither. -/
theorem joins_eq_nil_of_compiled : w.joins = [] ↔ b.joins = [] := by
  have hjoins : w.compiled.joins = b.compiled.joins := congrArg Clauses.joins h
  rw [← List.map_eq_nil_iff (f := Join.map Query.fragment),
    ← List.map_eq_nil_iff (f := Join.map Query.fragment)]
  exact Eq.congr_left hjoins

/-- Builders that compile to the same clauses write to the same collection. -/
theorem target_of_compiled : w.target = b.target := by
  have hfront : w.compiled.tablePrefix = b.compiled.tablePrefix := congrArg Clauses.tablePrefix h
  have hsource : w.compiled.source = b.compiled.source := congrArg Clauses.source h
  change w.tablePrefix = b.tablePrefix at hfront
  change w.source.map (Source.map Query.fragment) = b.source.map (Source.map Query.fragment)
    at hsource
  unfold target
  rw [hfront]
  rcases hw : w.source with _ | ⟨name, v⟩ | ⟨name, v⟩ | ⟨q, v⟩ <;>
    rcases hb : b.source with _ | ⟨name', v'⟩ | ⟨name', v'⟩ | ⟨q', v'⟩ <;>
    rw [hw, hb] at hsource <;> cases hsource <;> rfl

/-- A builder over a collection writes to it. -/
theorem target_of_source {table docVar : String}
    (hsource : b.source = some (.collection table docVar)) :
    w.target = .ok (Aql.collectionName b.tablePrefix table) := by
  rw [target_of_compiled h, target, hsource]

/-- Copies stay alike when an aggregate takes the place of their projections, -/
theorem compiled_aggregated (function : AggregateFunction) (column : Option String) :
    (w.aggregated function column).compiled = (b.aggregated function column).compiled :=
  congrArg (fun c : Clauses Fragment => { c with
    aggregate := some ⟨function, column.filter fun name => name != "*"⟩
    columns := []
    distinct := false }) h

/-- and when only the first row is asked for. -/
theorem compiled_probe : w.probe.compiled = b.probe.compiled := by
  have hunions : w.unions.isEmpty = b.unions.isEmpty := by
    have hmap : w.compiled.unions = b.compiled.unions := congrArg Clauses.unions h
    have hempty := congrArg List.isEmpty hmap
    change (w.unions.map _).isEmpty = (b.unions.map _).isEmpty at hempty
    rwa [List.isEmpty_map, List.isEmpty_map] at hempty
  unfold probe
  rw [hunions]
  cases b.unions.isEmpty with
  | true => exact congrArg (fun c : Clauses Fragment => { c with
      limit := some 1, offset := none, columns := [.raw "1" none], distinct := false }) h
  | false => exact congrArg (fun c : Clauses Fragment => { c with
      unionLimit := some 1, unionOffset := none }) h

end fields

section statement

/-- Compiling a copy after a change is compiling the changed builder after the numbers of the
copy. -/
theorem onCopy_statement {f : Builder → Builder}
    (h : ∀ w : Builder, w.compiled = b.compiled → (f w).compiled = (f b).compiled) :
    (b.onCopy fun w => (f w).statement >>= fun aql => pure (Compiled.ofStore aql w.bindings)) =
      .after (Query.of b).count (do pure (.ofStore (← (f b).statement) b.bindings)) := by
  have hcopy : (b.onCopy fun w =>
        (f w).statement >>= fun aql => pure (Compiled.ofStore aql w.bindings)) =
      b.onCopy fun _ => (f b).statement >>= fun aql => pure (Compiled.ofStore aql b.bindings) :=
    onCopy_congr fun w hw => by rw [statement, statement, h w hw, bindings_of_compiled hw]
  rw [hcopy]
  funext n
  change ((f b).statement >>= fun aql => pure (Compiled.ofStore aql b.bindings))
    (b.workingCopy n).2 = _
  rw [workingCopy_run]
  rfl

/-- Checking a builder without an error and compiling its copy is compiling the builder after the
numbers of the copy. -/
theorem toCompiled_eq (herror : b.error = none) :
    b.toCompiled =
      .after (Query.of b).count (do pure (.ofStore (← b.statement) b.bindings)) := by
  have hcheck : b.toCompiled =
      b.onCopy fun w => w.statement >>= fun aql => pure (Compiled.ofStore aql w.bindings) := by
    unfold toCompiled check
    rw [herror]
    rfl
  rw [hcheck]
  exact onCopy_statement (f := id) fun _ h => h

/-- A builder without an error is compiled to its statement and its values. -/
theorem toCompiled_gives {aql : String} (herror : b.error = none) (h : b.statement.Gives aql) :
    b.toCompiled.Gives (.ofStore aql b.bindings) := by
  rw [toCompiled_eq herror]
  exact (h.map _).after _

/-- A builder compiles just if it has no error and has a statement, and to this statement. -/
theorem toCompiled_ok_iff {compiled : Compiled} {n : Nat} :
    (b.toCompiled n).1 = .ok compiled ↔
      b.error = none ∧ ∃ aql, b.statement.Gives aql ∧ compiled = .ofStore aql b.bindings := by
  constructor
  · intro h
    cases herror : b.error with
    | some e =>
        unfold toCompiled check at h
        rw [herror] at h
        cases h
    | none =>
        rw [toCompiled_eq herror] at h
        obtain ⟨aql, haql, rfl⟩ := map_ok_iff.mp h
        exact ⟨rfl, aql, b.steady_statement.gives haql, rfl⟩
  · rintro ⟨herror, aql, haql, rfl⟩
    exact toCompiled_gives herror haql n

/-- A builder compiles to a text just if it has no error and its statement is this text. -/
theorem toAql_ok_iff {aql : String} {n : Nat} :
    (b.toAql n).1 = .ok aql ↔ b.error = none ∧ b.statement.Gives aql := by
  constructor
  · intro h
    obtain ⟨compiled, hcompiled, rfl⟩ := map_ok_iff.mp h
    obtain ⟨herror, text, htext, rfl⟩ := toCompiled_ok_iff.mp hcompiled
    exact ⟨herror, htext⟩
  · rintro ⟨herror, h⟩
    exact ((toCompiled_gives herror h).map Compiled.aql) n

/-- A builder with a statement is embedded in parentheses. -/
theorem gives_embedded {aql : String} (herror : b.error = none) (h : b.statement.Gives aql) :
    b.embedded.Gives ("(" ++ aql ++ ")") := by
  have hfragment : (Query.of b).fragment.error = none := by
    rw [Query.fragment_of]
    exact herror
  unfold embedded Fragment.embedded
  rw [hfragment, Query.fragment_of]
  exact (h.after _).map _

end statement

/-- One more condition is compiled behind the others. -/
theorem compiled_filtered (w : Builder) (bindings : Store) (x : Condition Query) :
    compiled { w with bindings := bindings, filters := w.filters ++ [x] } =
      { w.compiled with
        bindings := bindings
        filters := w.compiled.filters ++ [x.map Query.fragment] } := by
  unfold compiled Clauses.map
  rw [List.map_append]
  rfl

/-- The query of a removal by key: the condition on the key is behind the others. -/
def keyed (b : Builder) (key : Value) : Builder :=
  { b with
    bindings := (b.bindings.add key .filter).2
    filters := b.filters ++ [keyCondition (b.bindings.nextName .filter)] }

/-- Working copies with a condition on a key compile as the builder does with the condition. -/
theorem keyed_of_compiled {w : Builder} (h : w.compiled = b.compiled) (key : Value) :
    (w.keyed key).compiled = (b.keyed key).compiled := by
  unfold keyed
  rw [compiled_filtered, h, bindings_of_compiled h, ← compiled_filtered]

/-- A removal by key is one of all documents of the query with the key, unless the key is all that
it looks at. -/
theorem yields_deleteKey {p : Compiled → Prop} (hany : b.filters ≠ [] ∨ b.joins ≠ []) {key : Value}
    (h : ∀ w : Builder, w.compiled = (b.keyed key).compiled →
      ∀ collection, (w.removeText collection).Yields p) :
    (b.deleteStatement (some key)).Yields p := by
  refine yields_checked b fun _ => yields_onCopy fun w hw => ?_
  refine (yields_any _).bind fun collection _ => ?_
  dsimp only
  split
  case isTrue hnone =>
    rw [Bool.and_eq_true, List.isEmpty_iff, List.isEmpty_iff, filters_eq_nil_of_compiled hw,
      joins_eq_nil_of_compiled hw] at hnone
    rcases hany with hfilters | hjoins
    · exact absurd hnone.1 hfilters
    · exact absurd hnone.2 hjoins
  case isFalse => exact h _ (keyed_of_compiled hw key) collection

end AqlBuilder.Builder
