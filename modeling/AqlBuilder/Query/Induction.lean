import AqlBuilder.Query.Basic

/-!
# Induction on queries

Queries hold further queries inside lists of clauses, so the recursor that comes with `Query` is of
little use. `Query.induction` is the principle that fits: what passes from the sub-queries of every
query to the query itself holds of all queries. The clauses of a query enter only through
`Clauses.queries`.
-/

namespace AqlBuilder.Query

/-- A property that a query has as soon as its sub-queries have it. -/
def Hereditary (motive : Query → Prop) : Prop :=
  ∀ c : Clauses Query, (∀ q ∈ c.queries, motive q) → motive (.of c)

variable {motive : Query → Prop}

mutual
/-- A hereditary property holds of every query. -/
theorem holds (h : Hereditary motive) : (q : Query) → motive q
  | .of c => h c (holds_in_clauses h c)

/-- A hereditary property holds of every query in the clauses of a query. -/
theorem holds_in_clauses (h : Hereditary motive) :
    (c : Clauses Query) → ∀ q ∈ c.queries, motive q
  | ⟨_, source, columns, _, filters, joins, _, havings, _, _, _, _, unions, _, _, _, _,
      definitions, _, _, _, _⟩ => by
    intro q member
    simp only [Clauses.queries, List.mem_append] at member
    rcases member with (((((member | member) | member) | member) | member) | member) | member
    · exact holds_in_source h source q member
    · exact holds_in_selectors h columns q member
    · exact holds_in_conditions h filters q member
    · exact holds_in_joins h joins q member
    · exact holds_in_conditions h havings q member
    · exact holds_in_branches h unions q member
    · exact holds_in_variables h definitions q member

/-- A hereditary property holds of the query that is iterated over. -/
theorem holds_in_source (h : Hereditary motive) :
    (source : Option (Source Query)) → ∀ q ∈ (source.map Source.queries).getD [], motive q
  | none => by simp
  | some (.collection _ _) => by simp [Source.queries]
  | some (.view _ _) => by simp [Source.queries]
  | some (.derived q _) => by simpa [Source.queries] using holds h q

/-- A hereditary property holds of the selected queries. -/
theorem holds_in_selectors (h : Hereditary motive) :
    (columns : List (Selector Query)) → ∀ q ∈ columns.flatMap Selector.queries, motive q
  | [] => by simp
  | .column _ :: rest => by simpa [Selector.queries] using holds_in_selectors h rest
  | .aliased _ _ :: rest => by simpa [Selector.queries] using holds_in_selectors h rest
  | .documents _ :: rest => by simpa [Selector.queries] using holds_in_selectors h rest
  | .raw _ _ :: rest => by simpa [Selector.queries] using holds_in_selectors h rest
  | .sub q _ :: rest => by
    have first := holds h q
    have others := holds_in_selectors h rest
    grind [Selector.queries]

/-- A hereditary property holds of the queries in conditions. -/
theorem holds_in_conditions (h : Hereditary motive) :
    (conditions : List (Condition Query)) →
      ∀ q ∈ conditions.flatMap (fun c => c.test.queries), motive q
  | [] => by simp
  | ⟨test, _⟩ :: rest => by
    have first := holds_in_test h test
    have others := holds_in_conditions h rest
    grind

/-- A hereditary property holds of the queries in a test. -/
theorem holds_in_test (h : Hereditary motive) : (test : Test Query) → ∀ q ∈ test.queries, motive q
  | .memberOfQuery _ q _ => by simpa [Test.queries] using holds h q
  | .compareQuery _ _ q => by simpa [Test.queries] using holds h q
  | .hasRows q _ => by simpa [Test.queries] using holds h q
  | .nested q => by simpa [Test.queries] using holds h q
  | .compare _ _ _ => by simp [Test.queries]
  | .between _ _ _ _ => by simp [Test.queries]
  | .member _ _ _ => by simp [Test.queries]
  | .memberOf _ _ _ => by simp [Test.queries]
  | .isNull _ _ => by simp [Test.queries]
  | .compareColumns _ _ _ => by simp [Test.queries]
  | .raw _ => by simp [Test.queries]
  | .contains _ _ _ _ => by simp [Test.queries]
  | .length _ _ _ => by simp [Test.queries]
  | .date _ _ _ _ => by simp [Test.queries]
  | .bits _ _ _ => by simp [Test.queries]

/-- A hereditary property holds of the joined queries. -/
theorem holds_in_joins (h : Hereditary motive) :
    (joins : List (Join Query)) → ∀ q ∈ joins.map Join.query, motive q
  | [] => by simp
  | ⟨_, q⟩ :: rest => by
    have first := holds h q
    have others := holds_in_joins h rest
    grind

/-- A hereditary property holds of the queries of a union. -/
theorem holds_in_branches (h : Hereditary motive) :
    (unions : List (UnionBranch Query)) → ∀ q ∈ unions.map UnionBranch.query, motive q
  | [] => by simp
  | ⟨q, _⟩ :: rest => by
    have first := holds h q
    have others := holds_in_branches h rest
    grind

/-- A hereditary property holds of the queries that variables stand for. -/
theorem holds_in_variables (h : Hereditary motive) :
    (definitions : List (LetVariable Query)) →
      ∀ q ∈ definitions.flatMap (fun v => v.value.queries), motive q
  | [] => by simp
  | ⟨_, .bound _⟩ :: rest => by simpa [Definition.queries] using holds_in_variables h rest
  | ⟨_, .query q⟩ :: rest => by
    have first := holds h q
    have others := holds_in_variables h rest
    grind [Definition.queries]
end

/-- To show something of every query, show it of a query whose sub-queries have it. -/
@[elab_as_elim, induction_eliminator]
theorem induction (of : ∀ c : Clauses Query, (∀ q ∈ c.queries, motive q) → motive (.of c))
    (q : Query) : motive q :=
  holds of q

end AqlBuilder.Query
