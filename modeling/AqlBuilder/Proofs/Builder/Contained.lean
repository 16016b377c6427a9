import AqlBuilder.Proofs.Builder.Made
import AqlBuilder.Proofs.Statement.Prefixed

/-!
# The queries inside a builder that is made

The queries in the parts of a builder are made by methods as the builder is, and so are those inside
of them. So whatever the rules of `Builder.Made` keep holds of every query that is compiled with a
builder.

- `Builder.Contains`: a query is inside another one, at any depth.
- `Builder.Made.contained`: the queries inside a builder that is made are made.
- `Entry.Made`, `Entry.Compiles.made`: so are the queries whose statements are part of a compiled
  statement.
-/

namespace AqlBuilder

open Supply

/-- A query is inside another one, at any depth, or it is this one. -/
def Builder.Contains : Builder → Builder → Prop :=
  Relation.ReflTransGen fun b c => Query.of c ∈ Clauses.queries b

/-- A way to compile whose queries are made. -/
def Entry.Made [Naming] : Entry Builder → Prop
  | .update changes => ∀ assignments, changes.assignments = .ok assignments →
      ∀ a ∈ assignments, a.2.Made
  | _ => True

/-- What holds of all queries of a query, part by part. -/
theorem Clauses.forall_queries {Q : Type} {c : Clauses Q} {p : Q → Prop} : (∀ q ∈ c.queries, p q) ↔
    (∀ s ∈ c.source, ∀ q ∈ s.queries, p q) ∧ (∀ s ∈ c.columns, ∀ q ∈ s.queries, p q) ∧
      (∀ x ∈ c.filters, ∀ q ∈ x.test.queries, p q) ∧ (∀ j ∈ c.joins, p j.query) ∧
      (∀ x ∈ c.havings, ∀ q ∈ x.test.queries, p q) ∧ (∀ u ∈ c.unions, p u.query) ∧
      ∀ v ∈ c.definitions, ∀ q ∈ v.value.queries, p q := by
  have hsource : (∀ q ∈ (c.source.map Source.queries).getD [], p q) ↔
      ∀ s ∈ c.source, ∀ q ∈ s.queries, p q := by
    cases c.source <;> simp
  simp only [queries, List.forall_mem_append, hsource, List.forall_mem_flatMap, List.forall_mem_map,
    and_assoc]

variable {b c w : Builder} {e : Entry Builder} {t : Test Query} {list : ConditionList}
  {connector : Connector}

namespace Builder

/-- What holds of the queries of a builder and of a test holds of those of the two together. -/
theorem forall_queries_push {p : Query → Prop} (hb : ∀ q ∈ Clauses.queries b, p q)
    (ht : ∀ q ∈ t.queries, p q) : ∀ q ∈ Clauses.queries (b.push list connector t), p q := by
  have hadded :
    ∀ {conditions : List (Condition Query)}, (∀ x ∈ conditions, ∀ q ∈ x.test.queries, p q) →
      ∀ x ∈ conditions ++ [⟨t, connector⟩], ∀ q ∈ x.test.queries, p q := fun h =>
    List.forall_mem_append.mpr ⟨h, List.forall_mem_singleton.mpr ht⟩
  rw [Clauses.forall_queries] at hb ⊢
  obtain ⟨hsource, hcolumns, hfilters, hjoins, hhavings, hunions, hdefinitions⟩ := hb
  cases list with
  | filters => exact ⟨hsource, hcolumns, hadded hfilters, hjoins, hhavings, hunions, hdefinitions⟩
  | havings => exact ⟨hsource, hcolumns, hfilters, hjoins, hadded hhavings, hunions, hdefinitions⟩

namespace Made

variable [Naming]

/-- A copy of a query that is made is made. -/
theorem always_copyOf_query {q : Query} (h : Builder.Made q.clauses) :
    q.copyOf.Always fun copy => Builder.Made copy.clauses := by
  obtain ⟨c⟩ := q
  exact fun next => h.copied next

/-- The copies of queries that are made are made. -/
theorem queries_copyOf (h : ∀ q ∈ Clauses.queries b, Builder.Made q.clauses) (next : Nat) :
    ∀ q ∈ Clauses.queries (b.copyOf next).1, Builder.Made q.clauses := by
  have hcopied : ∀ q ∈ Clauses.queries b, q.copyOf.Always fun copy =>
      Builder.Made copy.clauses = Builder.Made q.clauses := fun q hq =>
    (always_copyOf_query (h q hq)).mono fun _ hcopy => propext (iff_of_true hcopy (h q hq))
  have hread := congrArg Clauses.queries
    (map_copyOf (g := fun q => Builder.Made q.clauses) b hcopied next)
  have hsame : (Clauses.queries (b.copyOf next).1).map (fun q => Builder.Made q.clauses) =
      (Clauses.queries b).map fun q => Builder.Made q.clauses := by
    rw [← Clauses.queries_map, ← Clauses.queries_map]
    exact hread
  intro q hq
  have hmem : Builder.Made q.clauses ∈ (Clauses.queries b).map fun q => Builder.Made q.clauses :=
    hsame ▸ List.mem_map_of_mem (f := fun q => Builder.Made q.clauses) hq
  obtain ⟨q', hq', heq⟩ := List.mem_map.mp hmem
  exact heq ▸ h q' hq'

/-- A builder for a group has no queries but those of the copied source. -/
theorem queries_forNested (h : ∀ q ∈ Clauses.queries b, Builder.Made q.clauses) (next : Nat) :
    ∀ q ∈ Clauses.queries (b.forNested next).1, Builder.Made q.clauses := by
  have hrun : (runSource (b.source.map (Source.map Query.copyOf))).Always fun source =>
      ∀ s ∈ source, ∀ q ∈ s.queries, Builder.Made q.clauses := by
    have hqueries := (Clauses.forall_queries.mp h).1
    cases hsource : b.source with
    | none => exact always_pure fun _ hs => nomatch hs
    | some s =>
        have hs :
          (s.map Query.copyOf).run.Always fun s => ∀ q ∈ s.queries, Builder.Made q.clauses := by
          cases s with
          | derived q v =>
              exact (always_copyOf_query (hqueries _ hsource q List.mem_cons_self)).map
                fun _ hcopy => List.forall_mem_singleton.mpr hcopy
          | _ => exact always_pure fun _ hq => nomatch hq
        exact hs.map fun _ hcopy _ hs => Option.some.inj hs ▸ hcopy
  have hgroup : b.forNested.Always fun c => ∀ q ∈ Clauses.queries c, Builder.Made q.clauses := by
    have hfresh : fresh.Always fun start => ∃ id, start = Clauses.empty id :=
      fun next => ⟨next, rfl⟩
    refine hfresh.bind fun start ⟨id, hstart⟩ => hrun.map fun source hs => ?_
    rw [hstart, Clauses.forall_queries]
    exact ⟨hs, by simp [Clauses.empty]⟩
  exact hgroup next

/-- **The queries of a builder that is made are made**: by induction on how it is made. -/
theorem queries (h : b.Made) : ∀ q ∈ Clauses.queries b, Builder.Made q.clauses := by
  induction h with
  | empty id => exact fun _ hq => nomatch hq
  | changed _ hparts ih =>
      rw [Clauses.forall_queries] at ih ⊢
      rw [hparts.source, hparts.columns, hparts.filters, hparts.joins, hparts.havings,
        hparts.unions, hparts.definitions]
      exact ih
  | registered _ _ _ ih => exact ih
  | informed _ _ ih => exact ih
  | acquainted _ _ ih => exact ih
  | announced _ _ ih => exact ih
  | projected _ _ _ ih => exact ih
  | sourced _ _ hs ih =>
      rw [Clauses.forall_queries] at ih ⊢
      exact ⟨fun s hsource => Option.some.inj hsource ▸ hs, ih.2⟩
  | unselected _ ih =>
      rw [Clauses.forall_queries] at ih ⊢
      exact ⟨ih.1, fun _ hs => (nomatch hs), ih.2.2⟩
  | selected _ hs ih =>
      rw [Clauses.forall_queries] at ih ⊢
      exact ⟨ih.1, List.forall_mem_append.mpr ⟨ih.2.1, List.forall_mem_singleton.mpr hs⟩, ih.2.2⟩
  | conditioned _ list connector ht _ ih => exact forall_queries_push ih ht
  | joined _ kind hc ih =>
      rw [Clauses.forall_queries] at ih ⊢
      obtain ⟨hsource, hcolumns, hfilters, hjoins, hrest⟩ := ih
      exact ⟨hsource, hcolumns, hfilters,
        List.forall_mem_append.mpr ⟨hjoins, List.forall_mem_singleton.mpr hc⟩, hrest⟩
  | united _ all hc ih =>
      rw [Clauses.forall_queries] at ih ⊢
      obtain ⟨hsource, hcolumns, hfilters, hjoins, hhavings, hunions, hdefinitions⟩ := ih
      exact ⟨hsource, hcolumns, hfilters, hjoins, hhavings,
        List.forall_mem_append.mpr ⟨hunions, List.forall_mem_singleton.mpr hc⟩, hdefinitions⟩
  | defined _ hv ih =>
      rw [Clauses.forall_queries] at ih ⊢
      obtain ⟨hsource, hcolumns, hfilters, hjoins, hhavings, hunions, hdefinitions⟩ := ih
      exact ⟨hsource, hcolumns, hfilters, hjoins, hhavings, hunions,
        List.forall_mem_append.mpr ⟨hdefinitions, List.forall_mem_singleton.mpr hv⟩⟩
  | copied _ next ih => exact queries_copyOf ih next
  | grouping _ next ih => exact queries_forNested ih next

/-- What is inside a builder that is made is made. -/
theorem contained (h : b.Made) (hc : b.Contains c) : c.Made := by
  induction hc with
  | refl => exact h
  | tail _ hstep ih => exact ih.queries _ hstep

/-- The query that finds out whether there is a row is made. -/
theorem probe (h : b.Made) : b.probe.Made := by
  unfold Builder.probe
  split
  · have hselected := h.unselected.selected (s := .raw "1" none) fun _ hq => nomatch hq
    exact hselected.changed ⟨rfl, rfl, rfl, rfl, rfl, rfl, rfl, rfl⟩
  · exact h.changed ⟨rfl, rfl, rfl, rfl, rfl, rfl, rfl, rfl⟩

/-- The query of an aggregate is made if its builder is. -/
theorem aggregated (h : b.Made) (function : AggregateFunction) (column : Option String) :
    (b.aggregated function column).Made :=
  h.unselected.changed ⟨rfl, rfl, rfl, rfl, rfl, rfl, rfl, rfl⟩

/-- The query that is read by an entry is made if its builder is. -/
theorem reading (h : b.Made) (hread : b.reading e = some w) : w.Made := by
  cases e with
  | select => exact Option.some.inj hread ▸ h
  | existence => exact Option.some.inj hread ▸ h.probe
  | aggregate function column => exact Option.some.inj hread ▸ h.aggregated function column
  | _ => cases hread

end Made

end Builder

/-! ### Statements inside statements -/

/-- A query that is written in a test is made if the queries of the test are. -/
theorem Test.Encloses.made [Naming] (h : t.Encloses c)
    (ht : ∀ q ∈ t.queries, Builder.Made q.clauses) :
    c.Made := by
  induction h with
  | member => exact ht _ List.mem_cons_self
  | compared => exact ht _ List.mem_cons_self
  | rows => exact ht _ List.mem_cons_self
  | nested hx _ ih =>
      have hgroup := (ht _ List.mem_cons_self).queries
      exact ih ((Clauses.forall_queries.mp hgroup).2.2.1 _ hx)

namespace Builder

variable [Naming]

/-- A query that is written among the loops is made if the query around it is. -/
theorem LoopsEnclose.made (h : b.LoopsEnclose c) (hb : b.Made) : c.Made := by
  obtain ⟨hsource, -, hfilters, hjoins, -, -, hdefinitions⟩ := Clauses.forall_queries.mp hb.queries
  cases h with
  | derived heq => exact hsource _ heq _ List.mem_cons_self
  | defined hmem => exact hdefinitions _ hmem _ List.mem_cons_self
  | joined hmem heq =>
      exact (Clauses.forall_queries.mp (hjoins _ hmem).queries).1 _ heq _ List.mem_cons_self
  | restricted hmem hx hc =>
      exact hc.made ((Clauses.forall_queries.mp (hjoins _ hmem).queries).2.2.1 _ hx)
  | filtered hx hc => exact hc.made (hfilters _ hx)

/-- A query that is written in the statement of another one is made if that one is. -/
theorem Encloses.made (h : b.Encloses c) (hb : b.Made) : c.Made := by
  obtain ⟨-, hcolumns, -, -, hhavings, hunions, -⟩ := Clauses.forall_queries.mp hb.queries
  cases h with
  | looped h => exact h.made hb
  | having hx hc => exact hc.made (hhavings _ hx)
  | selected hmem => exact hcolumns _ hmem _ List.mem_cons_self
  | combined hmem => exact hunions _ hmem

/-- A query that is compiled with another one is made if that one is. -/
theorem Compiles.made (h : b.Compiles c) (hb : b.Made) : c.Made := by
  induction h with
  | refl => exact hb
  | tail _ hstep ih => exact hstep.made ih

end Builder

/-- The queries whose statements are part of a compiled statement are made. -/
theorem Entry.Compiles.made [Naming] (h : e.Compiles b c) (hb : b.Made) (he : e.Made) : c.Made := by
  cases h with
  | read hread hc => exact hc.made (hb.reading hread)
  | selected _ hfirst hc => exact hc.made (hfirst.made hb)
  | assigned hchanges hassigns hc =>
      obtain ⟨front, back, rfl, -⟩ := hassigns
      have hq := he _ hchanges _ (List.mem_append_right _ List.mem_cons_self) _ rfl
      exact hc.made (hq.rescoped b)

end AqlBuilder
