import AqlBuilder.Query.Basic

/-!
# Replacing sub-queries

`Clauses.map` replaces the sub-queries of a query and nothing else. The laws below say what that
means: two replacements in a row are one, and only the values at the sub-queries of a query count.

- `Clauses.map_map` composes two replacements.
- `Clauses.map_congr` compares two replacements at the sub-queries of a query.
- `Clauses.withBindings` replaces the bound values, which no replacement of sub-queries looks at.
-/

namespace AqlBuilder

variable {P Q R : Type}

section composition

variable (g : Q → R) (f : P → Q)

theorem Source.map_map (s : Source P) : (s.map f).map g = s.map (g ∘ f) := by
  cases s <;> rfl

theorem Selector.map_map (s : Selector P) : (s.map f).map g = s.map (g ∘ f) := by
  cases s <;> rfl

theorem Test.map_map (t : Test P) : (t.map f).map g = t.map (g ∘ f) := by
  cases t <;> rfl

theorem Definition.map_map (d : Definition P) : (d.map f).map g = d.map (g ∘ f) := by
  cases d <;> rfl

/-- Two replacements in a row are one. -/
theorem Clauses.map_map (c : Clauses P) : (c.map f).map g = c.map (g ∘ f) := by
  simp [Clauses.map, Function.comp_def, Condition.map, Join.map, UnionBranch.map, LetVariable.map,
    Source.map_map, Selector.map_map, Test.map_map, Definition.map_map]

end composition

/-- The operands of a test, and the text of a test that is one. -/
def Test.operands {Q : Type} : Test Q → List Bound
  | .compare _ _ value => [value]
  | .between _ low high _ => [low, high]
  | .member _ values _ => [values]
  | .raw aql => [.raw aql]
  | .contains _ value _ _ => [value]
  | .length _ _ value => [value]
  | .date _ _ _ value => [value]
  | .bits _ _ value => [value]
  | _ => []

theorem Test.operands_map (f : P → Q) (t : Test P) : (t.map f).operands = t.operands := by
  cases t <;> rfl

section congruence

variable {f g : P → Q}

/-- Two changes that do the same to the query in a source do the same to the source. -/
theorem Source.map_congr {s : Source P} (h : ∀ q ∈ s.queries, f q = g q) :
    s.map f = s.map g := by
  cases s with
  | derived q v => simp [Source.map, h q (by simp [Source.queries])]
  | _ => rfl

/-- Two changes that do the same to the query in a selector do the same to the selector. -/
theorem Selector.map_congr {s : Selector P} (h : ∀ q ∈ s.queries, f q = g q) :
    s.map f = s.map g := by
  cases s with
  | sub q asName => simp [Selector.map, h q (by simp [Selector.queries])]
  | _ => rfl

/-- Two changes that do the same to the queries in a test do the same to the test. -/
theorem Test.map_congr {t : Test P} (h : ∀ q ∈ t.queries, f q = g q) : t.map f = t.map g := by
  cases t with
  | memberOfQuery c q n => simp [Test.map, h q (by simp [Test.queries])]
  | compareQuery c o q => simp [Test.map, h q (by simp [Test.queries])]
  | hasRows q n => simp [Test.map, h q (by simp [Test.queries])]
  | nested q => simp [Test.map, h q (by simp [Test.queries])]
  | _ => rfl

/-- Two changes that do the same to the query in a definition do the same to the definition. -/
theorem Definition.map_congr {d : Definition P} (h : ∀ q ∈ d.queries, f q = g q) :
    d.map f = d.map g := by
  cases d with
  | query q => simp [Definition.map, h q (by simp [Definition.queries])]
  | bound b => rfl

/-- Two replacements that agree on the sub-queries of a query have the same result. -/
theorem Clauses.map_congr {c : Clauses P} (h : ∀ q ∈ c.queries, f q = g q) :
    c.map f = c.map g := by
  simp only [Clauses.queries, List.mem_append, or_imp, forall_and] at h
  obtain ⟨⟨⟨⟨⟨⟨hsource, hcolumns⟩, hfilters⟩, hjoins⟩, hhavings⟩, hunions⟩, hdefinitions⟩ := h
  have source : c.source.map (Source.map f) = c.source.map (Source.map g) := by
    cases hs : c.source with
    | none => rfl
    | some s => exact congrArg some (Source.map_congr fun q hq => hsource q (by simp [hs, hq]))
  have columns : c.columns.map (Selector.map f) = c.columns.map (Selector.map g) :=
    List.map_congr_left fun s hs =>
      Selector.map_congr fun q hq => hcolumns q (List.mem_flatMap.mpr ⟨s, hs, hq⟩)
  have conditions : ∀ list : List (Condition P),
      (∀ q ∈ list.flatMap (fun x => x.test.queries), f q = g q) →
        list.map (Condition.map f) = list.map (Condition.map g) := fun list hlist =>
    List.map_congr_left fun x hx => by
      rw [Condition.map, Condition.map,
        Test.map_congr fun q hq => hlist q (List.mem_flatMap.mpr ⟨x, hx, hq⟩)]
  have joins : c.joins.map (Join.map f) = c.joins.map (Join.map g) :=
    List.map_congr_left fun j hj => by
      rw [Join.map, Join.map, hjoins j.query (List.mem_map.mpr ⟨j, hj, rfl⟩)]
  have unions : c.unions.map (UnionBranch.map f) = c.unions.map (UnionBranch.map g) :=
    List.map_congr_left fun u hu => by
      rw [UnionBranch.map, UnionBranch.map, hunions u.query (List.mem_map.mpr ⟨u, hu, rfl⟩)]
  have definitions : c.definitions.map (LetVariable.map f) =
      c.definitions.map (LetVariable.map g) :=
    List.map_congr_left fun v hv => by
      rw [LetVariable.map, LetVariable.map,
        Definition.map_congr fun q hq => hdefinitions q (List.mem_flatMap.mpr ⟨v, hv, hq⟩)]
  simp only [Clauses.map, source, columns, conditions _ hfilters, joins, conditions _ hhavings,
    unions, definitions]

end congruence

namespace Clauses

/-- The variable of a query does not depend on the queries inside. -/
theorem docVar_map (f : P → Q) (c : Clauses P) : (c.map f).docVar = c.docVar := by
  unfold docVar map
  cases c.source with
  | none => rfl
  | some s => cases s <;> rfl

theorem scope_map (f : P → Q) (c : Clauses P) : (c.map f).scope = c.scope := by
  rw [scope, docVar_map]
  rfl

/-- The query with other bound values. -/
def withBindings (c : Clauses Q) (bindings : Store) : Clauses Q := { c with bindings := bindings }

@[simp] theorem map_withBindings (f : P → Q) (c : Clauses P) (bindings : Store) :
    (c.withBindings bindings).map f = (c.map f).withBindings bindings := rfl

end Clauses

end AqlBuilder
