import AqlBuilder.Proofs.Aql.Formula
import AqlBuilder.Proofs.Query.Fragment
import AqlBuilder.Query.Induction

/-!
# Conditions as formulas

The conditions of a query and the groups among them are a formula over the other tests. A group has
a query of its own, so its conditions are written in the scope of that query, but they are written
as part of the conditions around it.

- `Test.formula` and `Condition.formulas` are the formula of a test and those of a list of
  conditions.
- `Condition.yields_isWritten`: a list of conditions in which no group is empty is written as the
  tokens of its formulas.
-/

namespace AqlBuilder

open Outcome

/-- An atomic condition: a test, and the scope that its columns are resolved in. -/
structure Atom where
  scope : Scope
  test : Test Query

/-- A text that an atomic condition is written as. -/
def Atom.Writes (a : Atom) (text : String) : Prop :=
  ((a.test.map Query.fragment).text a.scope).Gives text

mutual
/-- A test as a formula. A group has the conditions of its query, in the scope of this query. -/
def Test.formula (sc : Scope) : Test Query → Formula Atom
  | .nested
    (.of ⟨_, source, _, _, filters, _, _, _, _, _, _, _, _, _, _, _, _, _, _, _, aliases, _⟩) =>
    .group (Condition.formulas ⟨aliases, source.map Source.docVar⟩ filters)
  | t => .atom ⟨sc, t⟩

/-- A list of conditions as the parts of a formula. -/
def Condition.formulas (sc : Scope) : List (Condition Query) → List (Connector × Formula Atom)
  | [] => []
  | ⟨test, connector⟩ :: rest => (connector, test.formula sc) :: Condition.formulas sc rest
end

/-- What holds of atomic conditions, and of a group if it holds of the conditions in it, holds of
every test: by induction on the queries of the groups. -/
theorem Test.groupInduction {motive : Scope → Test Query → Prop}
    (atomic : ∀ sc t, (∀ q, t ≠ .nested q) → motive sc t)
    (group : ∀ sc (c : Builder), (∀ x ∈ c.filters, motive c.scope x.test) →
      motive sc (.nested (.of c)))
    (sc : Scope) (t : Test Query) : motive sc t := by
  have hnested : ∀ q : Query, ∀ sc, motive sc (.nested q) := by
    intro q
    induction q with
    | of c ih =>
        refine fun sc => group sc c fun x hx => ?_
        by_cases hx' : ∃ q, x.test = .nested q
        · obtain ⟨q, hq⟩ := hx'
          have hmem : q ∈ c.filters.flatMap fun x => x.test.queries :=
            List.mem_flatMap.mpr ⟨x, hx, by rw [hq]; exact List.mem_cons_self⟩
          rw [hq]
          exact ih q (by simp [Clauses.queries, hmem]) c.scope
        · exact atomic _ _ fun q hq => hx' ⟨q, hq⟩
  by_cases ht : ∃ q, t = .nested q
  · obtain ⟨q, rfl⟩ := ht
    exact hnested q sc
  · exact atomic sc t fun q hq => ht ⟨q, hq⟩

variable {sc : Scope} {t : Test Query} {list : List (Condition Query)}

/-- A group is the formula of its conditions in its own scope. -/
theorem Test.formula_nested (sc : Scope) (b : Builder) :
    Test.formula sc (.nested (.of b)) = .group (Condition.formulas b.scope b.filters) := by
  cases b
  rw [Test.formula]
  rfl

/-- A test that is no group is an atomic condition. -/
theorem Test.formula_of_atomic (h : ∀ q, t ≠ .nested q) : t.formula sc = .atom ⟨sc, t⟩ := by
  rw [Test.formula]
  intros
  exact h _ ‹_›

/-- The parts of a formula are those of its conditions, with their connectors. -/
theorem Condition.formulas_eq_map (sc : Scope) (list : List (Condition Query)) :
    Condition.formulas sc list = list.map fun x => (x.connector, x.test.formula sc) := by
  induction list with
  | nil => rw [Condition.formulas]; rfl
  | cons first rest ih => rw [Condition.formulas, ih]; rfl

/-- A group is filled if it has parts and all of them are filled. -/
theorem Formula.filled_group {α : Type} {parts : List (Connector × Formula α)} :
    (Formula.group parts).Filled ↔ parts ≠ [] ∧ ∀ part ∈ parts, part.2.Filled := by
  constructor
  · rintro (_ | ⟨hne, h⟩)
    exact ⟨hne, h⟩
  · rintro ⟨hne, h⟩
    exact .group hne h

/-- A test is written as one text. -/
theorem Test.steady_fragment (sc : Scope) (t : Test Query) :
    ((t.map Query.fragment).text sc).Steady := by
  refine Test.steady_text sc fun f hf => ?_
  rw [Test.queries_map] at hf
  obtain ⟨q, -, rfl⟩ := List.mem_map.mp hf
  exact q.steady_fragment

/-- And so is a list of conditions. -/
theorem Condition.steady_fragment (sc : Scope) (list : List (Condition Query)) :
    (Aql.conditions sc (list.map (Condition.map Query.fragment))).Steady := by
  refine Aql.steady_conditions sc fun f hf => ?_
  obtain ⟨_, hx, hf⟩ := List.mem_flatMap.mp hf
  obtain ⟨x, -, rfl⟩ := List.mem_map.mp hx
  rw [Condition.map, Test.queries_map] at hf
  obtain ⟨q, -, rfl⟩ := List.mem_map.mp hf
  exact q.steady_fragment

/-- A test is written as the tokens of its formula. -/
def Test.IsSpelled (sc : Scope) (t : Test Query) : Prop :=
  ((t.map Query.fragment).text sc).Yields (Token.Spell Atom.Writes (t.formula sc).tokens)

namespace Condition

/-- Behind the first condition, each one is written with its connector in front of it. -/
theorem yields_spelled_further (h : ∀ x ∈ list, x.test.IsSpelled sc) :
    (Aql.furtherConditions sc (list.map (Condition.map Query.fragment))).Yields
      (Token.Spell Atom.Writes (Formula.furtherTokens (Condition.formulas sc list))) := by
  rw [Condition.formulas_eq_map]
  induction list with
  | nil => exact yields_pure .nil
  | cons first rest ih =>
      obtain ⟨hfirst, hrest⟩ := List.forall_mem_cons.mp h
      refine Yields.bind hfirst fun text htext => (ih hrest).map fun further hfurther => ?_
      rw [List.map_cons, Formula.furtherTokens, String.append_assoc]
      exact .cons (.connector first.connector) (htext.append hfurther)

/-- A list of conditions is written as the tokens of its formula. -/
theorem yields_spelled (hne : list ≠ []) (h : ∀ x ∈ list, x.test.IsSpelled sc) :
    (Aql.conditions sc (list.map (Condition.map Query.fragment))).Yields fun written =>
      ∃ text ∈ written,
        Token.Spell Atom.Writes (Formula.listTokens (Condition.formulas sc list)) text := by
  cases list with
  | nil => exact absurd rfl hne
  | cons first rest =>
      obtain ⟨hfirst, hrest⟩ := List.forall_mem_cons.mp h
      refine Yields.bind hfirst fun text htext =>
        (yields_spelled_further hrest).map fun further hfurther => ?_
      refine ⟨_, rfl, ?_⟩
      rw [Condition.formulas, Formula.listTokens]
      exact htext.append hfurther

end Condition

namespace Test

/-- An atomic condition is one token. -/
theorem isSpelled_of_atomic (h : ∀ q, t ≠ .nested q) : t.IsSpelled sc := by
  unfold Test.IsSpelled
  rw [formula_of_atomic h, Formula.tokens]
  exact (t.steady_fragment sc).yields.mono fun text htext => .single (.atom htext)

/-- A group is written as its conditions in parentheses. -/
theorem isSpelled_nested {b : Builder} (hne : b.filters ≠ [])
    (h : ∀ x ∈ b.filters, x.test.IsSpelled b.scope) : (Test.nested (.of b)).IsSpelled sc := by
  have hconditions := Condition.yields_spelled hne h
  rw [← b.scope_compiled, ← Query.conditions_fragment, b.scope_compiled] at hconditions
  unfold Test.IsSpelled
  rw [formula_nested, Formula.tokens]
  refine hconditions.bind fun written hwritten => ?_
  obtain ⟨text, rfl, hspelled⟩ := hwritten
  refine yields_pure ?_
  rw [String.append_assoc]
  exact .cons .opening (hspelled.append (.single .closing))

/-- **A test without empty groups is written as the tokens of its formula.** -/
theorem isSpelled (h : (t.formula sc).Filled) : t.IsSpelled sc := by
  induction sc, t using Test.groupInduction with
  | atomic sc t hatomic => exact isSpelled_of_atomic hatomic
  | group sc c ih =>
      rw [formula_nested, Formula.filled_group, Condition.formulas_eq_map] at h
      obtain ⟨hne, hparts⟩ := h
      exact isSpelled_nested (fun hnone => hne (by rw [hnone]; rfl)) fun x hx =>
        ih x hx (List.forall_mem_map.mp hparts x hx)

end Test

/-- A text that a list of conditions is written as, which consists of the tokens of its formulas. -/
structure Condition.IsWritten (sc : Scope) (list : List (Condition Query))
    (text : String) : Prop where
  gives : (Aql.conditions sc (list.map (Condition.map Query.fragment))).Gives (some text)
  spelled : Token.Spell Atom.Writes (Formula.listTokens (Condition.formulas sc list)) text

/-- **A list of conditions without empty groups is written as the tokens of its formulas.** -/
theorem Condition.yields_isWritten (hne : list ≠ []) (h : ∀ x ∈ list, (x.test.formula sc).Filled) :
    (Aql.conditions sc (list.map (Condition.map Query.fragment))).Yields fun written =>
      ∃ text ∈ written, Condition.IsWritten sc list text := by
  have hspelled := Condition.yields_spelled hne fun x hx => Test.isSpelled (h x hx)
  refine ((Condition.steady_fragment sc list).yields.and hspelled).mono ?_
  rintro written ⟨hgives, text, rfl, htext⟩
  exact ⟨text, rfl, hgives, htext⟩

end AqlBuilder
