import AqlBuilder.Alias.Rules
import AqlBuilder.Proofs.Builder.Proper
import AqlBuilder.Proofs.Script.Made
import AqlBuilder.Proofs.Statement.Prefixed

/-!
# Conditions read back from statements

A compiled statement has lists of conditions in its filters: those of its queries, those of their
joins and those on groups, and inside of the filters those of nested groups. Each of them is written
with its structure. A reader who takes the atomic conditions as they are, `AND` as tighter than
`OR`, and parentheses as groups, reads from the text what the list means.

- `Entry.Lists` are the lists of conditions in a compiled statement, and `Entry.Lists.shown` says
  that they are there.
- `Script.conditions_read_back`: whatever a script builds, its conditions are read as they are
  meant.
-/

namespace AqlBuilder

open Outcome

/-- The lists of conditions in the filters among the loops of a query. -/
inductive Builder.LoopLists (b : Builder) : Scope → List (Condition Query) → Prop
  | filtered : LoopLists b b.scope b.filters
  | joined {c : Builder} {kind : JoinKind} :
      ⟨kind, .of c⟩ ∈ b.joins → LoopLists b c.scope c.filters

/-- A compiled statement has a list of conditions, written in a scope and behind a text: the word
`FILTER`, or the parenthesis of a group. -/
inductive Entry.Lists [Naming] (b : Builder) (e : Entry Builder) :
    String → Scope → List (Condition Query) → Prop
  | looped {c : Builder} {sc : Scope} {list : List (Condition Query)} :
      e.Compiles b c → c.LoopLists sc list → Lists b e "FILTER " sc list
  | selected {w : Builder} {sc : Scope} {list : List (Condition Query)} :
      e.Selection b w → w.LoopLists sc list → Lists b e "FILTER " sc list
  | having {c : Builder} {sc : Scope} :
      e.Compiles b c → c.Later sc → Lists b e "FILTER " sc c.havings
  | group {c : Builder} {lead : String} {sc : Scope} {list : List (Condition Query)}
      {x : Condition Query} :
      Lists b e lead sc list → x ∈ list → x.test = .nested (.of c) →
        Lists b e "(" c.scope c.filters

variable {b c w : Builder} {e : Entry Builder} {sc : Scope} {list : List (Condition Query)}
  {lead ref : String}

/-- What stands in a list of conditions behind a text. -/
def StandsBehind (lead ref : String) (sc : Scope) (list : List (Condition Query)) : Prop :=
  (Aql.conditions sc (list.map (Condition.map Query.fragment))).Yields fun written =>
    ∃ text ∈ written, Stands [] ref (lead ++ text)

/-- What stands in the conditions of a query stands in its fragment. -/
theorem StandsBehind.fragment (h : StandsBehind lead ref c.scope c.filters) :
    (Query.of c).fragment.conditions.Yields fun written =>
      ∃ text ∈ written, Stands [] ref (lead ++ text) := by
  rw [Query.conditions_fragment, c.scope_compiled]
  exact h

/-- What stands in a list among the loops is shown by the loops. -/
theorem Builder.LoopLists.shows (h : w.LoopLists sc list)
    (hlist : StandsBehind "FILTER " ref sc list) :
    (Site.loops w).Shows [] ref := by
  cases h with
  | filtered => exact (Site.shows_filter (Site.yields_filter hlist)).unmarked
  | joined hmem => exact (Site.shows_join hmem (Site.yields_join_filter hlist.fragment)).unmarked

/-- A group is written in the conditions around it. -/
theorem StandsBehind.group (h : StandsBehind "(" ref c.scope c.filters) {x : Condition Query}
    (hx : x ∈ list) (hgroup : x.test = .nested (.of c)) : StandsBehind lead ref sc list := by
  have htest : (Site.test .empty sc x.test).Shows [] ref := by
    rw [hgroup]
    refine h.fragment.bind fun written ⟨text, hwritten, htext⟩ => ?_
    cases hwritten
    exact yields_pure (htext.before ")")
  exact (Site.shows_condition hx htest).mono fun written ⟨text, hwritten, htext⟩ =>
    ⟨text, hwritten, htext.behind lead⟩

namespace Entry

/-- **The lists of conditions stand in the compiled statement.** -/
theorem Lists.shown [Naming] (h : e.Lists b lead sc list) (hlist : StandsBehind lead ref sc list) :
    (b.compile e).Yields fun s => Stands [] ref s.aql := by
  induction h with
  | looped hc hloops => exact hc.shown (Site.shows_first (Site.shows_looped (hloops.shows hlist)))
  | selected hw hloops => exact hw.shown (hloops.shows hlist)
  | having hc hlater =>
      exact hc.shown (Site.shows_first
        (Site.shows_groupFilter hlater (Site.yields_filter hlist)).unmarked)
  | group _ hx hgroup ih => exact ih (hlist.group hx hgroup)

/-- The query that selects the documents of a change is made if its builder is. -/
theorem Selection.made [Naming] (h : e.Selection b w) (hb : b.Made) : w.Made := by
  cases h with
  | @removedKey key _ =>
      have hkey : (Builder.keyCondition (b.bindings.nextName .filter)).test.Made := .of_bare rfl
      exact (hb.withBindings (b.bindings.add key .filter).2).push .filters .and hkey
  | _ => exact hb

end Entry

/-- A list among the loops is the filter of a builder that is made. -/
theorem Builder.LoopLists.made [Naming] (h : w.LoopLists sc list) (hw : w.Made) :
    ∃ c : Builder, c.Made ∧ c.filters = list := by
  cases h with
  | filtered => exact ⟨w, hw, rfl⟩
  | joined hmem =>
      exact ⟨_, (Clauses.forall_queries.mp hw.queries).2.2.2.1 _ hmem, rfl⟩

/-- Every list of conditions is one of a query that is made. -/
theorem Entry.Lists.made [Naming] (h : e.Lists b lead sc list) (hb : b.Made) (he : e.Made) :
    ∃ c : Builder, c.Made ∧ list ⊆ c.filters ++ c.havings := by
  have hfilters : ∀ {list : List (Condition Query)}, (∃ c : Builder, c.Made ∧ c.filters = list) →
      ∃ c : Builder, c.Made ∧ list ⊆ c.filters ++ c.havings := by
    rintro list ⟨c, hc, rfl⟩
    exact ⟨c, hc, List.subset_append_left _ _⟩
  induction h with
  | looped hc hloops => exact hfilters (hloops.made (hc.made hb he))
  | selected hw hloops => exact hfilters (hloops.made (hw.made hb))
  | having hc hlater => exact ⟨_, hc.made hb he, List.subset_append_right _ _⟩
  | @group c _ _ _ _ _ hx hgroup ih =>
      obtain ⟨d, hd, hsubset⟩ := ih
      have hmem : Query.of c ∈ Test.queries (.nested (.of c)) := List.mem_cons_self
      rw [← hgroup] at hmem
      exact ⟨c, hd.queries_of_condition (hsubset hx) _ hmem, List.subset_append_left _ _⟩

/-- What may be written of a list of conditions stands in the statement. -/
theorem Entry.Lists.yields [Naming] (h : e.Lists b lead sc list) (hb : b.Made) (he : e.Made)
    (hne : list ≠ []) : (b.compile e).Yields fun compiled => ∃ text,
      Condition.IsWritten sc list text ∧ Stands [] (lead ++ text) compiled.aql := by
  obtain ⟨c, hc, hsubset⟩ := h.made hb he
  have hwritten :
    (Aql.conditions sc (list.map (Condition.map Query.fragment))).Yields fun written =>
      ∃ shown, (∃ text, Condition.IsWritten sc list text ∧ lead ++ text = shown) ∧
        ∃ text ∈ written, Stands [] shown (lead ++ text) := by
    refine (Condition.yields_isWritten hne fun x hx => hc.formula (hsubset hx) sc).mono ?_
    exact fun written ⟨text, hmem, htext⟩ => ⟨_, ⟨text, htext, rfl⟩, text, hmem, .refl _⟩
  refine (yields_of_shows (Condition.steady_fragment sc list) hwritten fun shown hshown =>
    h.shown hshown).mono ?_
  rintro compiled ⟨_, ⟨text, htext, rfl⟩, hstands⟩
  exact ⟨text, htext, hstands⟩

/-- A group in a builder that is made is written with conditions. -/
theorem Builder.Made.yields_group [Naming] (h : c.Made) (hne : c.filters ≠ []) :
    (Query.of c).fragment.conditions.Yields fun written => written.isSome := by
  rw [Query.conditions_fragment, c.scope_compiled]
  refine (Condition.yields_isWritten hne fun x hx =>
    h.formula (List.mem_append_left _ hx) c.scope).mono ?_
  rintro written ⟨text, rfl, -⟩
  rfl

namespace Script

/-- **Conditions are read back as they are meant.**  Whatever a script has built: every group of
conditions in it, at any depth, has conditions, and these are written. And however it is compiled, a
list of conditions in the statement is written as the tokens of its formulas. Whichever of the
atomic conditions hold, the tokens are read as what the list means, the disjunction of its runs.
Between the conditions of a list there are their connectors, all but the first. -/
theorem conditions_read_back [Naming] (s : Script) : s.build.Always fun b =>
    (∀ c : Builder, b.Contains c → ∀ x ∈ c.filters ++ c.havings, ∀ group : Builder,
      x.test = .nested (.of group) → group.filters ≠ [] ∧
        (Query.of group).fragment.conditions.Yields fun written => written.isSome) ∧
    ∀ entry : Entry (Subject Script), (entry.run b).Always fun e =>
      ∀ lead sc list, e.Lists b lead sc list → list ≠ [] →
        let parts := Condition.formulas sc list
        let tokens := Formula.listTokens parts
        (∀ v, Token.read v tokens = some (Aql.someRun (Formula.values v parts))) ∧
        Token.connectors 0 tokens = (list.map Condition.connector).tail ∧
        (b.compile e).Yields fun compiled => ∃ text,
          Condition.IsWritten sc list text ∧ Stands [] (lead ++ text) compiled.aql := by
  refine s.made_build.mono fun b hb => ⟨?_, fun entry => (entry.made_run hb).mono ?_⟩
  · intro c hc x hx group hgroup
    have hne := (hb.contained hc).group_ne_nil hx hgroup
    have hmem : Query.of group ∈ x.test.queries := by rw [hgroup]; exact List.mem_cons_self
    have hmade : Builder.Made group := (hb.contained hc).queries_of_condition hx _ hmem
    exact ⟨hne, hmade.yields_group hne⟩
  · intro e he lead sc list hlists hne parts tokens
    obtain ⟨c, hc, hsubset⟩ := hlists.made hb he
    have hparts : parts = list.map fun x => (x.connector, x.test.formula sc) :=
      Condition.formulas_eq_map sc list
    have hsome : parts ≠ [] := fun hnone => hne (List.map_eq_nil_iff.mp (hparts.symm.trans hnone))
    have hfilled : ∀ part ∈ parts, part.2.Filled := by
      rw [hparts]
      exact List.forall_mem_map.mpr fun x hx => hc.formula (hsubset hx) sc
    refine ⟨Formula.read_listTokens hsome hfilled, ?_, hlists.yields hb he hne⟩
    rw [Formula.connectors_listTokens hfilled, hparts, List.map_map]
    rfl

/-- Characters that are alive, or have a title or land and took no vow. -/
def heirs : Script :=
  .of [.fromCollection "characters as c",
    .isNull .filters .or false "death",
    .nested .or (.of [.isNull .filters .or true "title", .isNull .filters .or true "land"]),
    .isNull .filters .and false "vow"]

/-- Which of the conditions on an heir hold. -/
def heritage (death title land vow : Bool) (a : Atom) : Bool :=
  match a.test with
  | .isNull "death" _ => death
  | .isNull "title" _ => title
  | .isNull "land" _ => land
  | .isNull "vow" _ => vow
  | _ => false

/-- The group is read as one condition, and `AND` as tighter than `OR`. -/
theorem heirs_read_back :
    let b := (heirs.build 0).1
    let tokens := Formula.listTokens (Condition.formulas b.scope b.filters)
    b.filters ≠ [] ∧
      (∀ death title land vow, Token.read (heritage death title land vow) tokens =
        some (death || (title || land) && vow)) ∧
      Token.connectors 0 tokens = [.or, .and] ∧
      (b.compile .select).Yields fun compiled =>
        Stands [] ("FILTER c.\x60death\x60 == null OR " ++
          "(c.\x60title\x60 != null OR c.\x60land\x60 != null) AND c.\x60vow\x60 == null")
          compiled.aql := by
  have hmeant : ∀ death title land vow, Aql.someRun (Formula.values (heritage death title land vow)
      (Condition.formulas (heirs.build 0).1.scope (heirs.build 0).1.filters)) =
        (death || (title || land) && vow) := by decide +kernel
  have hconnected : ((heirs.build 0).1.filters.map Condition.connector).tail = [.or, .and] := by
    decide +kernel
  have htext : ((Aql.conditions (heirs.build 0).1.scope ((heirs.build 0).1.filters.map
      (Condition.map Query.fragment))) 0).1.toOption = some (some ("c.\x60death\x60 == null OR " ++
        "(c.\x60title\x60 != null OR c.\x60land\x60 != null) AND c.\x60vow\x60 == null")) := by
    decide +kernel
  have hne : (heirs.build 0).1.filters ≠ [] := by
    rw [← List.isEmpty_eq_false_iff]
    decide +kernel
  obtain ⟨-, hentry⟩ := conditions_read_back heirs 0
  obtain ⟨hread, hconnectors, hwritten⟩ := hentry .select 0 "FILTER " _ _
    (.looped (.read rfl .refl) .filtered) hne
  intro b tokens
  refine ⟨hne, fun death title land vow => ?_, hconnectors.trans hconnected, hwritten.mono ?_⟩
  · rw [hread, hmeant]
  · rintro compiled ⟨text, hwritten, hstands⟩
    rw [hwritten.gives 0] at htext
    obtain rfl := Option.some.inj (Option.some.inj htext)
    exact hstands

end Script

end AqlBuilder
