import AqlBuilder.Proofs.Query.Mentions

/-!
# Queries with a definition for every variable

A query is closed in the variables around it if each variable that it knows is one of these or is
defined by the query itself. What is known to a query inside must be known around it or be defined
by the query that it is in; the value of a variable may only know those that were defined before it.
A group of conditions and a joined source are not written as statements of their own, so their
definitions would be lost, and they must not have any.

- `Clauses.Closed` is the condition on one query, with its sub-queries left open.
- `Query.closed_of` closes the recursion; `Query.Closed.mono`: more variables may be around a query.
- `Mentions.declared`: a closed query mentions only variables that are around it, and variables that
  are defined on the way to where they are mentioned or beside the way.
-/

namespace AqlBuilder

variable {P Q : Type}

/-- A test whose query has a property; a group of conditions is not written as a statement. -/
def Test.Closed (p : Bool → List String → Q → Prop) (outer : List String) : Test Q → Prop
  | .nested q => p false outer q
  | t => ∀ q ∈ t.queries, p true outer q

/-- Definitions without columns, each with a property in what was defined before it. -/
def LetVariable.InOrder (p : Bool → List String → Q → Prop) :
    List String → List (LetVariable Q) → Prop
  | _, [] => True
  | outer, v :: rest =>
      (v.value.columns = [] ∧ ∀ q ∈ v.value.queries, p true outer q) ∧
        InOrder p (outer ++ [v.name]) rest

/-- A query that knows the variables around it and those that it defines. It defines variables only
if it is written as a statement. -/
structure Clauses.Closed (p : Bool → List String → Q → Prop) (written : Bool) (outer : List String)
    (c : Clauses Q) : Prop where
  known : ∀ name, (name, name) ∈ c.aliases.definitions → name ∈ outer ++ c.definedNames
  unwritten : written = false → c.definitions = []
  source : ∀ s ∈ c.source, ∀ q ∈ s.queries, p true (outer ++ c.definedNames) q
  columns : ∀ s ∈ c.columns, ∀ q ∈ s.queries, p true (outer ++ c.definedNames) q
  filters : ∀ x ∈ c.filters, x.test.Closed p (outer ++ c.definedNames)
  joins : ∀ j ∈ c.joins, p false (outer ++ c.definedNames) j.query
  havings : ∀ x ∈ c.havings, x.test.Closed p (outer ++ c.definedNames)
  unions : ∀ u ∈ c.unions, p true (outer ++ c.definedNames) u.query
  definitions : LetVariable.InOrder p outer c.definitions

section map

variable {f : P → Q} {p : Bool → List String → Q → Prop} {written : Bool} {outer : List String}

theorem Test.closed_map {t : Test P} :
    (t.map f).Closed p outer ↔ t.Closed (fun w o q => p w o (f q)) outer := by
  cases t <;> simp [Test.Closed, Test.map, Test.queries]

/-- Definitions with other queries are in order if their queries are when they are changed. -/
theorem LetVariable.inOrder_map {list : List (LetVariable P)} :
    InOrder p outer (list.map (LetVariable.map f)) ↔
      InOrder (fun w o q => p w o (f q)) outer list := by
  induction list generalizing outer with
  | nil => rfl
  | cons v rest ih =>
      have hqueries : (∀ q ∈ (v.map f).value.queries, p true outer q) ↔
          ∀ q ∈ v.value.queries, p true outer (f q) := by
        unfold LetVariable.map
        rw [Definition.queries_map, List.forall_mem_map]
      have hcolumns : (v.map f).value.columns = v.value.columns := Definition.columns_map f v.value
      rw [List.map_cons, InOrder, InOrder, hcolumns, hqueries, ih]
      rfl

/-- Replacing sub-queries moves into their property. -/
theorem Clauses.closed_map {c : Clauses P} :
    (c.map f).Closed p written outer ↔ c.Closed (fun w o q => p w o (f q)) written outer := by
  have hnames := c.definedNames_map f
  have hunwritten : (c.map f).definitions = [] ↔ c.definitions = [] := List.map_eq_nil_iff
  have hdefinitions : LetVariable.InOrder p outer (c.map f).definitions ↔
      LetVariable.InOrder (fun w o q => p w o (f q)) outer c.definitions :=
    LetVariable.inOrder_map
  constructor
  · intro h
    have hsource := h.source
    have hcolumns := h.columns
    have hfilters := h.filters
    have hjoins := h.joins
    have hhavings := h.havings
    have hunions := h.unions
    rw [hnames] at hsource hcolumns hfilters hjoins hhavings hunions
    simp only [map, Option.mem_def, Option.map_eq_some_iff, List.mem_map, forall_exists_index,
      and_imp, forall_apply_eq_imp_iff₂, Source.queries_map, Selector.queries_map, Condition.map,
      Test.closed_map, Join.map, UnionBranch.map]
      at hsource hcolumns hfilters hjoins hhavings hunions
    exact ⟨hnames ▸ h.known, fun hw => hunwritten.mp (h.unwritten hw), hsource, hcolumns, hfilters,
      hjoins, hhavings, hunions, hdefinitions.mp h.definitions⟩
  · intro h
    refine ⟨hnames ▸ h.known, fun hw => hunwritten.mpr (h.unwritten hw), ?_, ?_, ?_, ?_, ?_, ?_,
      hdefinitions.mpr h.definitions⟩ <;> rw [hnames] <;>
    simp only [map, Option.mem_def, Option.map_eq_some_iff, List.mem_map, forall_exists_index,
      and_imp, forall_apply_eq_imp_iff₂, Source.queries_map, Selector.queries_map, Condition.map,
      Test.closed_map, Join.map, UnionBranch.map]
    · exact h.source
    · exact h.columns
    · exact h.filters
    · exact h.joins
    · exact h.havings
    · exact h.unions

end map

section monotonicity

variable {p p' : Bool → List String → Q → Prop} {written : Bool} {outer outer' : List String}

/-- More names around a query are more names with its own ones, too. -/
theorem append_subset (h : outer ⊆ outer') (names : List String) :
    outer ++ names ⊆ outer' ++ names := by
  intro name hname
  rcases List.mem_append.mp hname with hname | hname
  · exact List.mem_append_left _ (h hname)
  · exact List.mem_append_right _ hname

/-- A closed test stays so if its queries do. -/
theorem Test.Closed.mono {t : Test Q} (h : t.Closed p outer)
    (hp : ∀ q ∈ t.queries, ∀ w, p w outer q → p' w outer' q) : t.Closed p' outer' := by
  cases t with
  | nested q => exact hp q List.mem_cons_self false h
  | _ => exact fun q hq => hp q hq true (h q hq)

/-- Definitions in order stay so if their queries do. -/
theorem LetVariable.InOrder.mono {list : List (LetVariable Q)} (h : InOrder p outer list)
    (houter : outer ⊆ outer')
    (hp : ∀ q ∈ list.flatMap (fun v => v.value.queries), ∀ {o o' : List String}, o ⊆ o' →
      p true o q → p' true o' q) : InOrder p' outer' list := by
  induction list generalizing outer outer' with
  | nil => trivial
  | cons v rest ih =>
      obtain ⟨⟨hcolumns, hqueries⟩, hrest⟩ := h
      simp only [List.flatMap_cons, List.mem_append] at hp
      refine ⟨⟨hcolumns, fun q hq => hp q (.inl hq) houter (hqueries q hq)⟩, ih hrest ?_ ?_⟩
      · exact append_subset houter [v.name]
      · exact fun q hq => hp q (.inr hq)

/-- More definitions are in order if they are so behind the others. -/
theorem LetVariable.inOrder_append {first second : List (LetVariable Q)} :
    InOrder p outer (first ++ second) ↔
      InOrder p outer first ∧ InOrder p (outer ++ first.map LetVariable.name) second := by
  induction first generalizing outer with
  | nil => simp [InOrder]
  | cons v rest ih =>
      have hnames : outer ++ (v :: rest).map LetVariable.name =
          outer ++ [v.name] ++ rest.map LetVariable.name := by simp
      rw [List.cons_append, InOrder, InOrder, ih, hnames, ← and_assoc]

/-- More variables may be around a query, and its definitions may be more of them. -/
theorem Clauses.Closed.mono {c : Clauses Q} (h : c.Closed p written outer)
    (houter : outer ⊆ outer')
    (hp : ∀ q ∈ c.queries, ∀ w {o o' : List String}, o ⊆ o' → p w o q → p' w o' q) :
    c.Closed p' written outer' := by
  simp only [queries, List.mem_append, or_imp, forall_and] at hp
  obtain ⟨⟨⟨⟨⟨⟨hsource, hcolumns⟩, hfilters⟩, hjoins⟩, hhavings⟩, hunions⟩, hdefinitions⟩ := hp
  have hall := append_subset houter c.definedNames
  refine ⟨fun name hname => hall (h.known name hname), h.unwritten, ?_, ?_, ?_, ?_, ?_, ?_, ?_⟩
  · exact fun s hs q hq => hsource q (by rw [hs]; exact hq) true hall (h.source s hs q hq)
  · exact fun s hs q hq =>
      hcolumns q (List.mem_flatMap.mpr ⟨s, hs, hq⟩) true hall (h.columns s hs q hq)
  · exact fun x hx => (h.filters x hx).mono fun q hq w =>
      hfilters q (List.mem_flatMap.mpr ⟨x, hx, hq⟩) w hall
  · exact fun j hj => hjoins j.query (List.mem_map_of_mem hj) false hall (h.joins j hj)
  · exact fun x hx => (h.havings x hx).mono fun q hq w =>
      hhavings q (List.mem_flatMap.mpr ⟨x, hx, hq⟩) w hall
  · exact fun u hu => hunions u.query (List.mem_map_of_mem hu) true hall (h.unions u hu)
  · exact h.definitions.mono houter fun q hq => hdefinitions q hq true

end monotonicity

/-- One level of the recursion. -/
def Query.closedLevel (c : Clauses (Bool → List String → Prop)) (written : Bool)
    (outer : List String) : Prop :=
  c.Closed (fun w o closed => closed w o) written outer

/-- A query that is closed with all its sub-queries. -/
def Query.Closed (written : Bool) (outer : List String) (q : Query) : Prop :=
  q.fold closedLevel written outer

/-- A builder that is closed with all its sub-queries. -/
abbrev Builder.Closed (written : Bool) (outer : List String) (b : Builder) : Prop :=
  Clauses.Closed Query.Closed written outer b

namespace Query

variable {written : Bool} {outer outer' : List String} {c : Builder}

/-- A query is closed if its clauses are. -/
theorem closed_of : Closed written outer (.of c) ↔ c.Closed written outer := by
  unfold Closed
  rw [fold_of]
  exact Clauses.closed_map

/-- A copy knows what the original knows. -/
theorem closed_copyOf (q : Query) :
    q.copyOf.Always fun copy => copy.fold closedLevel = q.fold closedLevel := by
  refine fold_copyOf (fun c id => ?_) q
  funext written outer
  refine propext ⟨fun h => { h with }, fun h => { h with }⟩

/-- What is closed in some variables is closed in more of them. -/
theorem Closed.mono {q : Query} (h : q.Closed written outer) (houter : outer ⊆ outer') :
    q.Closed written outer' := by
  induction q generalizing written outer outer' with
  | of c ih =>
      exact closed_of.mpr ((closed_of.mp h).mono houter fun q hq _ _ _ ho h => ih q hq h ho)

end Query

/-- What is known in a part of a query is around it, or defined by it. -/
def Site.Closed (outer : List String) : Site → Prop
  | statement b => Builder.Closed true outer b
  | simple b => Builder.Closed true outer b
  | loops b => Builder.Closed true outer b
  | selection b => Builder.Closed true outer b
  | source _ s => ∀ q ∈ s.queries, q.Closed true outer
  | conditions known _ list => (∀ name, (name, name) ∈ known.definitions → name ∈ outer) ∧
      ∀ x ∈ list, x.test.Closed Query.Closed outer
  | test known _ t => (∀ name, (name, name) ∈ known.definitions → name ∈ outer) ∧
      t.Closed Query.Closed outer

namespace Builder.Closed

variable {written : Bool} {outer : List String} {c : Builder}

/-- A query that is not written as a statement defines nothing. -/
theorem definedNames_eq_nil (h : c.Closed false outer) : c.definedNames = [] := by
  unfold Clauses.definedNames
  rw [h.unwritten rfl]
  rfl

/-- The conditions of a closed query are closed in its variables. -/
theorem filter (h : c.Closed written outer) (sc : Scope) :
    (Site.conditions c.aliases sc c.filters).Closed (outer ++ c.definedNames) :=
  ⟨h.known, h.filters⟩

/-- The conditions of a query that is not written as a statement. -/
theorem group (h : (Query.of c).Closed false outer) (sc : Scope) :
    (Site.conditions c.aliases sc c.filters).Closed outer := by
  have hclosed := Query.closed_of.mp h
  have hfilter := hclosed.filter sc
  rwa [hclosed.definedNames_eq_nil, List.append_nil] at hfilter

end Builder.Closed

/-- **A closed query mentions only variables that are defined.**  They are around it, they have a
`LET` on the way to where they are mentioned, or they belong to a query that is combined with one on
the way. -/
theorem Mentions.declared {site : Site} {lets beside : List String} {v ref : String}
    (h : Mentions site lets beside v ref) {outer : List String} (hclosed : site.Closed outer) :
    v ∈ outer ∨ v ∈ lets ∨ v ∈ beside := by
  induction h generalizing outer with
  | column _ hreads => exact .inl (hclosed.1 _ hreads.known)
  | member _ ih => exact ih (Query.closed_of.mp (hclosed.2 _ List.mem_cons_self))
  | compared _ ih => exact ih (Query.closed_of.mp (hclosed.2 _ List.mem_cons_self))
  | rows _ ih => exact ih (Query.closed_of.mp (hclosed.2 _ List.mem_cons_self))
  | nested _ ih => exact ih (Builder.Closed.group hclosed.2 _)
  | condition hmem _ ih => exact ih ⟨hclosed.1, hclosed.2 _ hmem⟩
  | derived _ ih => exact ih (Query.closed_of.mp (hclosed _ List.mem_cons_self))
  | definedBy hsplit _ ih =>
      have hdefinitions := hclosed.definitions
      rw [hsplit, LetVariable.inOrder_append] at hdefinitions
      have hmentioned := ih (Query.closed_of.mp (hdefinitions.2.1.2 _ List.mem_cons_self))
      grind
  | definedAs hsplit _ =>
      have hdefinitions := hclosed.definitions
      rw [hsplit, LetVariable.inOrder_append] at hdefinitions
      cases hdefinitions.2.1.1
  | main hsource _ ih =>
      have hmentioned := ih (hclosed.source _ hsource)
      grind
  | searched _ _ hreads =>
      have hknown := hclosed.known _ hreads.known
      grind
  | joined hmem hsource _ ih =>
      have hjoin := Query.closed_of.mp (hclosed.joins _ hmem)
      have hmentioned := ih (hjoin.source _ hsource)
      rw [hjoin.definedNames_eq_nil] at hmentioned
      grind
  | restricted hmem _ ih =>
      have hmentioned := ih (Builder.Closed.group (hclosed.joins _ hmem) _)
      grind
  | filtered _ ih =>
      have hmentioned := ih (hclosed.filter _)
      grind
  | chosen _ ih => exact ih hclosed
  | sorted _ hreads =>
      have hknown := hclosed.known _ hreads.known
      grind
  | looped _ ih => exact ih hclosed
  | grouped _ hreads =>
      have hknown := hclosed.known _ hreads.known
      grind
  | aggregated _ hreads =>
      have hknown := hclosed.known _ hreads.known
      grind
  | kept _ _ _ _ hreads =>
      have hknown := hclosed.known _ hreads.known
      grind
  | having _ _ ih =>
      have hmentioned := ih ⟨hclosed.known, hclosed.havings⟩
      grind
  | ordered _ _ hreads =>
      have hknown := hclosed.known _ hreads.known
      grind
  | selected hsplit _ ih =>
      have hquery := hclosed.columns _ (hsplit ▸ List.mem_append_right _ List.mem_cons_self)
      have hmentioned := ih (Query.closed_of.mp (hquery _ List.mem_cons_self))
      grind
  | projected _ _ _ _ hreads =>
      have hknown := hclosed.known _ hreads.known
      grind
  | returned _ hmem =>
      exact .inr (.inl (List.mem_append_right _ (List.mem_filterMap.mpr ⟨_, hmem, rfl⟩)))
  | first _ ih => exact ih hclosed
  | branch hmem _ ih =>
      have hmentioned := ih (Query.closed_of.mp (hclosed.unions _ hmem))
      grind

end AqlBuilder
