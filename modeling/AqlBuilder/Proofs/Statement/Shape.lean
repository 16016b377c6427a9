import AqlBuilder.Proofs.Aql.Reading
import AqlBuilder.Proofs.Builder.Narrowing
import AqlBuilder.Proofs.Statement.Copied

/-!
# The shape of updates and removals

An update and a removal begin like the query that they come from, with its loops, its order and its
limit, and end with one piece that says what is done with each document. Binding the operands of an
update files values and may fail, but it leaves the clauses of the query alone.

- `Builder.SameClauses.loops` and its neighbours: what a builder shares with one over other values.
- `Builder.yields_updateText`, `Builder.yields_removeText`: the pieces of the statements.
-/

namespace AqlBuilder.Builder

open Outcome

/-- The pieces that order and limit the rows of a query. -/
def ordering (b : Builder) : List String :=
  Aql.sortIn b.compiled.scope b.orders ++ Aql.limitText b.limit b.offset

/-- The piece that updates a document. -/
def updatePiece (b : Builder) (fields : Entries Assigned) (collection : String) : String :=
  "UPDATE " ++ b.docVar.getD "" ++ " WITH " ++ (Assigned.nested fields).text ++ " IN " ++ collection

/-- The piece that removes a document. -/
def removePiece (b : Builder) (collection : String) : String :=
  "REMOVE " ++ b.docVar.getD "" ++ " IN " ++ collection

namespace SameClauses

variable {b w : Builder}

/-- The same clauses have the same loops. -/
theorem loops (h : b.SameClauses w) : Aql.loops w.compiled = Aql.loops b.compiled := by
  obtain ⟨bindings, error, rfl⟩ := h
  rfl

/-- The same clauses have the same order and the same limit. -/
theorem ordering (h : b.SameClauses w) : w.ordering = b.ordering := by
  obtain ⟨bindings, error, rfl⟩ := h
  rfl

/-- The same clauses have the same scope. -/
theorem scope (h : b.SameClauses w) : w.scope = b.scope := by
  obtain ⟨bindings, error, rfl⟩ := h
  rfl

end SameClauses

variable {w : Builder} {assignments : List (String × Operand Builder)}

/-- Binding an operand leaves the clauses alone. -/
theorem yields_boundForUpdate [Naming] (w : Builder) (operand : Operand Builder) :
    (w.boundForUpdate operand).Yields fun result => w.SameClauses result.2 := by
  unfold boundForUpdate
  cases storedOperand operand with
  | value value => exact yields_pure (SameClauses.bindValue w value .update)
  | expression aql => exact yields_pure (.refl w)
  | column name => exact yields_pure (.refl w)
  | query q => exact (yields_any _).map fun _ _ => ⟨_, _, rfl⟩

/-- Assignments leave the clauses. -/
theorem yields_assigned_same [Naming] (w : Builder) (fields : Entries Assigned) :
    (w.assigned fields assignments).Yields fun result => w.SameClauses result.2 := by
  induction assignments generalizing w fields with
  | nil => exact yields_pure (.refl w)
  | cons first rest ih =>
      refine (w.yields_boundForUpdate first.2).bind fun bound hbound => ?_
      exact (ih bound.2 _).mono fun _ hrest => hbound.trans hrest

/-- The documents are selected by the loops, the order and the limit. -/
theorem yields_selection {p : List String → Prop} (h : (Aql.loops w.compiled).Yields p) :
    w.selection.Yields fun texts => ∃ loops, p loops ∧ texts = loops ++ w.ordering :=
  h.map fun loops hloops => ⟨loops, hloops, List.append_assoc ..⟩

/-- An update is the loops, the order and the limit of a query with one piece behind them. -/
theorem yields_updateText [Naming] {p : List String → Prop} {q : Entries Assigned → Prop}
    (hloops : (Aql.loops w.compiled).Yields p)
    (hassigned : (w.assigned [] assignments).Yields fun result => q result.1) :
    (w.updateText assignments).Yields fun c => ∃ loops fields collection, p loops ∧ q fields ∧
      w.target = .ok collection ∧
      c.aql = " ".intercalate (loops ++ w.ordering ++ [w.updatePiece fields collection]) := by
  refine (yields_ofExcept fun _ hcollection => hcollection).bind fun collection hcollection => ?_
  refine (hassigned.and (w.yields_assigned_same [])).bind fun result ⟨hfields, hsame⟩ => ?_
  rw [← hsame.loops] at hloops
  refine (yields_selection hloops).map fun texts ⟨loops, hp, htexts⟩ => ?_
  refine ⟨loops, result.1, collection, hp, hfields, hcollection, ?_⟩
  rw [htexts, hsame.ordering]
  rfl

/-- A removal is the loops, the order and the limit of a query with one piece behind them. -/
theorem yields_removeText {p : List String → Prop} (hloops : (Aql.loops w.compiled).Yields p)
    (collection : String) : (w.removeText collection).Yields fun c => ∃ loops, p loops ∧
      c.aql = " ".intercalate (loops ++ w.ordering ++ [w.removePiece collection]) := by
  refine (yields_selection hloops).map fun texts ⟨loops, hp, htexts⟩ => ⟨loops, hp, ?_⟩
  rw [htexts]
  rfl

end AqlBuilder.Builder
