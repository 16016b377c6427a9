import AqlBuilder.Proofs.Aql.Within
import AqlBuilder.Proofs.Query.Fragment
import AqlBuilder.Proofs.Query.Sound
import Mathlib.Data.Set.Lattice

/-!
# Why queries do not compile

A sound query does not compile if an error was made in building it, if it has no source, or if one
of its group keys is a text without an equals sign; or if this is true of a query inside that is
written as a statement. There is no other reason.

Which error it fails with depends on the order in which things are done, and is left open. So a
sequence of computations fails by the errors of all of them, provided that the errors of the later
ones do not depend on the results of the earlier ones.

- `Outcome.FailsAmong` speaks about the errors of a computation, as `Outcome.Yields` does about its
  results, and `Outcome.FailsBy` says when there are errors, too.
- `Outcome.FailsBy.bind` is the rule for two computations, and `Outcome.failsBy_each` the rule for
  the items of a list.
- `Builder.Faults` are the faults of one query, and `Builder.Faulty` those of all queries that are
  compiled with it.
- `Query.failsByFaults`: a query is compiled unless there is a fault, and fails with one of them.
- `Builder.Sound.possible`: the faults of a sound query are errors that can be made.
-/

/-! ### When computations fail -/

namespace AqlBuilder.Outcome

variable {α β : Type} {E F : Set Error} {x : Outcome α}

/-- A computation that fails only with the given errors. -/
def FailsAmong (E : Set Error) (x : Outcome α) : Prop := ∀ n e, (x n).1 = .error e → e ∈ E

theorem failsAmong_pure (a : α) : FailsAmong E (pure a) := fun _ _ h => nomatch h

/-- A result that is there already fails with its error at most. -/
theorem failsAmong_ofExcept {x : Except Error α} (h : ∀ e, x = .error e → e ∈ E) :
    (ofExcept x).FailsAmong E :=
  fun _ e he => h e he

/-- A failure has its error. -/
theorem failsAmong_fail {e : Error} (he : e ∈ E) : FailsAmong E (fail e : Outcome α) :=
  failsAmong_ofExcept fun e' h => by
    cases h
    exact he

theorem failsAmong_ofSupply (x : Supply α) : (ofSupply x).FailsAmong E := fun _ _ h => nomatch h

theorem FailsAmong.mono (hx : x.FailsAmong E) (h : E ⊆ F) : x.FailsAmong F :=
  fun n e he => h (hx n e he)

/-- The second computation may depend on what is known of the result of the first one. -/
theorem FailsAmong.bind_of {f : α → Outcome β} (hx : x.FailsAmong E)
    (hf : x.Yields fun a => (f a).FailsAmong E) : (x >>= f).FailsAmong E := by
  intro n e he
  rcases hrun : x n with ⟨e' | a, n'⟩
  · rw [bind_error hrun] at he
    cases he
    exact hx n e (by rw [hrun])
  · rw [bind_ok hrun] at he
    exact hf n a (by rw [hrun]) n' e he

theorem FailsAmong.bind {f : α → Outcome β} (hx : x.FailsAmong E) (hf : ∀ a, (f a).FailsAmong E) :
    (x >>= f).FailsAmong E :=
  hx.bind_of fun _ a _ => hf a

theorem FailsAmong.map (hx : x.FailsAmong E) (f : α → β) :
    FailsAmong E (do pure (f (← x))) :=
  hx.bind fun a => failsAmong_pure (f a)

/-- A computation that fails only with the given errors, and that fails if there is one of them. -/
structure FailsBy (E : Set Error) (x : Outcome α) : Prop where
  among : x.FailsAmong E
  fails : E.Nonempty → ∀ n, ∃ e, (x n).1 = .error e

theorem FailsBy.congr (h : x.FailsBy E) (heq : ∀ e, e ∈ E ↔ e ∈ F) : x.FailsBy F :=
  Set.ext heq ▸ h

theorem failsBy_pure (a : α) : FailsBy ∅ (pure a) :=
  ⟨failsAmong_pure a, fun h => absurd h Set.not_nonempty_empty⟩

theorem failsBy_fail {e : Error} (he : e ∈ E) : FailsBy E (fail e : Outcome α) :=
  ⟨failsAmong_fail he, fun _ _ => ⟨e, rfl⟩⟩

/-- A computation fails by the errors of its first part and those of the rest, as far as it gets
there. -/
theorem FailsBy.bind_of {f : α → Outcome β} (hx : x.FailsBy E)
    (hf : x.Yields fun a => (f a).FailsBy F) : (x >>= f).FailsBy (E ∪ F) := by
  have hsecond := hf.mono fun _ h => h.among.mono (Set.subset_union_right (s := E))
  refine ⟨(hx.among.mono Set.subset_union_left).bind_of hsecond, fun hany n => ?_⟩
  rcases hrun : x n with ⟨e' | a, n'⟩
  · exact ⟨e', by rw [bind_error hrun]⟩
  · rw [bind_ok hrun]
    have hnone : ¬E.Nonempty := fun hE => by
      obtain ⟨e, he⟩ := hx.fails hE n
      rw [hrun] at he
      cases he
    obtain ⟨e, he | he⟩ := hany
    · exact absurd ⟨e, he⟩ hnone
    · exact (hf n a (by rw [hrun])).fails ⟨e, he⟩ n'

theorem FailsBy.bind {f : α → Outcome β} (hx : x.FailsBy E) (hf : ∀ a, (f a).FailsBy F) :
    (x >>= f).FailsBy (E ∪ F) :=
  hx.bind_of fun _ a _ => hf a

theorem FailsBy.map (hx : x.FailsBy E) (f : α → β) : FailsBy E (do pure (f (← x))) :=
  (hx.bind fun a => failsBy_pure (f a)).congr fun e => by simp

theorem FailsBy.after (hx : x.FailsBy E) (count : Nat) : (x.after count).FailsBy E :=
  ⟨fun n => hx.among (n + count), fun h n => hx.fails h (n + count)⟩

/-- The items of a list fail by the errors of all of them. -/
theorem failsBy_each {ι : Type} {f : α → Outcome β} {g : ι → α} {items : List ι}
    {E : ι → Error → Prop} (h : ∀ i ∈ items, (f (g i)).FailsBy {e | E i e}) :
    (each f (items.map g)).FailsBy {e | ∃ i ∈ items, E i e} := by
  induction items with
  | nil => exact (failsBy_pure []).congr fun e => by simp
  | cons item items ih =>
      have hrest := ih fun i hi => h i (List.mem_cons_of_mem item hi)
      have hfirst := h item List.mem_cons_self
      refine (hfirst.bind fun first => hrest.map (first :: ·)).congr fun e => ?_
      simp

/-- There is an error if there is one of those by which the computation fails. -/
theorem FailsBy.error_iff (hx : x.FailsBy E) (n : Nat) :
    (∃ e, (x n).1 = .error e) ↔ ∃ e, e ∈ E :=
  ⟨fun ⟨e, he⟩ => ⟨e, hx.among n e he⟩, fun h => hx.fails h n⟩

end AqlBuilder.Outcome

/-! ### Faults -/

namespace AqlBuilder

open Outcome

/-- What a query needs to be compiled and does not have. -/
inductive Builder.Lacks (b : Builder) : Error → Prop
  | source : b.source = none → Lacks b (.compilation .noSource)
  | keyName {aql : String} : .raw aql ∈ b.groups → '=' ∉ aql.toList →
      Lacks b (.compilation (.groupKeyWithoutName aql))
  | aggregateColumn {function : AggregateFunction} : b.aggregate = some ⟨function, none⟩ →
      function ≠ .count → Lacks b (.compilation (.aggregateWithoutColumn function.text))

/-- An error that is recorded in a query, or that is made when it is compiled. -/
inductive Builder.Faults (b : Builder) : Error → Prop
  | recorded {e : Error} : b.error = some e → Faults b e
  | lacking {e : Error} : b.Lacks e → Faults b e

/-- A fault of a query, or of one that is compiled with it. -/
def Builder.Faulty (b : Builder) (e : Error) : Prop := ∃ c, b.Compiles c ∧ c.Faults e

/-- A fault of a query, or of one that is compiled with it. -/
def Query.Faulty (q : Query) (e : Error) : Prop := Builder.Faulty q.clauses e

/-- A fault of a query that is written as a statement in a test. -/
def Test.Faulty (t : Test Query) (e : Error) : Prop := ∃ c, t.Encloses c ∧ (Query.of c).Faulty e

/-- A fault of a query that is joined, or that is written as a statement in its conditions. -/
def Join.Faulty (j : Join Query) (e : Error) : Prop :=
  (∃ s ∈ j.query.clauses.source, ∃ q ∈ s.queries, q.Faulty e) ∨
    ∃ x ∈ j.query.clauses.filters, x.test.Faulty e

variable {b c : Builder} {e : Error} {words : Vocabulary} {joined : Bool}

/-- What a grouping needs and does not have. -/
def Builder.GroupingLacks (b : Builder) (e : Error) : Prop :=
  (∃ aql, .raw aql ∈ b.groups ∧ '=' ∉ aql.toList ∧ e = .compilation (.groupKeyWithoutName aql)) ∨
    ∃ function, b.aggregate = some ⟨function, none⟩ ∧ function ≠ .count ∧
      e = .compilation (.aggregateWithoutColumn function.text)

/-- What a query lacks is a source, or something that its grouping needs. -/
theorem Builder.lacks_iff :
    b.Lacks e ↔ (b.source = none ∧ e = .compilation .noSource) ∨ b.GroupingLacks e := by
  constructor
  · rintro (hsource | ⟨hkey, hname⟩ | ⟨haggregate, hfunction⟩)
    · exact .inl ⟨hsource, rfl⟩
    · exact .inr (.inl ⟨_, hkey, hname, rfl⟩)
    · exact .inr (.inr ⟨_, haggregate, hfunction, rfl⟩)
  · rintro (⟨hsource, rfl⟩ | ⟨aql, hkey, hname, rfl⟩ | ⟨function, haggregate, hfunction, rfl⟩)
    · exact .source hsource
    · exact .keyName hkey hname
    · exact .aggregateColumn haggregate hfunction

/-- The faults of a query are its own and those of the queries inside. -/
theorem Builder.faulty_iff : b.Faulty e ↔ b.Faults e ∨ ∃ c, b.Encloses c ∧ c.Faulty e := by
  constructor
  · rintro ⟨c, hc, he⟩
    rcases Relation.ReflTransGen.cases_head hc with rfl | ⟨first, hfirst, hrest⟩
    · exact .inl he
    · exact .inr ⟨first, hfirst, c, hrest, he⟩
  · rintro (he | ⟨first, hfirst, c, hc, he⟩)
    · exact ⟨b, .refl, he⟩
    · exact ⟨c, .head hfirst hc, he⟩

/-- Without a recorded error, the faults of a query are what it lacks and those of the queries
inside. -/
theorem Builder.faulty_iff_of_error_none (herror : b.error = none) :
    b.Faulty e ↔ b.Lacks e ∨ ∃ c, b.Encloses c ∧ c.Faulty e := by
  have hfaults : b.Faults e ↔ b.Lacks e := by
    refine ⟨fun he => ?_, .lacking⟩
    cases he with
    | recorded he => rw [herror] at he; cases he
    | lacking he => exact he
  rw [faulty_iff, hfaults]

/-- The faults of a sound query are errors that can be made. -/
theorem Builder.Sound.possible (h : b.Sound words false) (he : b.Faulty e) : e.Possible := by
  obtain ⟨c, hc, he⟩ := he
  cases he with
  | recorded he => exact (h.compiles hc).error e he
  | lacking he => cases he <;> trivial

section tests

variable {q : Query}

/-- A membership in the rows of a query has the faults of the query. -/
theorem Test.faulty_memberOfQuery {column : String} {negated : Bool} :
    (Test.memberOfQuery column q negated).Faulty e ↔ q.Faulty e := by
  constructor
  · rintro ⟨_, ⟨⟩, he⟩
    exact he
  · obtain ⟨c⟩ := q
    exact fun he => ⟨c, .member, he⟩

/-- A comparison with the value of a query has the faults of the query. -/
theorem Test.faulty_compareQuery {column : String} {operator : Operator} :
    (Test.compareQuery column operator q).Faulty e ↔ q.Faulty e := by
  constructor
  · rintro ⟨_, ⟨⟩, he⟩
    exact he
  · obtain ⟨c⟩ := q
    exact fun he => ⟨c, .compared, he⟩

/-- A test whether a query has rows has the faults of the query. -/
theorem Test.faulty_hasRows {negated : Bool} :
    (Test.hasRows q negated).Faulty e ↔ q.Faulty e := by
  constructor
  · rintro ⟨_, ⟨⟩, he⟩
    exact he
  · obtain ⟨c⟩ := q
    exact fun he => ⟨c, .rows, he⟩

/-- The faults of a group are those of its conditions. -/
theorem Test.faulty_nested :
    (Test.nested q).Faulty e ↔ ∃ x ∈ q.clauses.filters, x.test.Faulty e := by
  constructor
  · rintro ⟨inside, ⟨⟩, he⟩
    rename_i group x hx hinside
    exact ⟨x, hx, inside, hinside, he⟩
  · obtain ⟨c⟩ := q
    rintro ⟨x, hx, inside, hinside, he⟩
    exact ⟨inside, .nested hx hinside, he⟩

/-- A test without queries has no faults. -/
theorem Test.not_faulty {t : Test Query} (h : t.queries = []) : ¬t.Faulty e := by
  rintro ⟨c, hc, -⟩
  cases hc <;> cases h

end tests

/-- The texts of a compiled query fail by the faults of the queries in them. -/
structure Query.FailsByFaults (q : Query) : Prop where
  embedded : q.fragment.embedded.FailsBy {e | q.Faulty e}
  conditions : q.fragment.conditions.FailsBy {e | ∃ x ∈ q.clauses.filters, x.test.Faulty e}
  source : ∀ s ∈ q.fragment.source,
    s.2.FailsBy {e | ∃ s ∈ q.clauses.source, ∃ q ∈ s.queries, q.Faulty e}

section grammar

open Aql

variable {sc : Scope}

/-- A query that fails by its faults does so where it is used as a value. -/
theorem Query.FailsByFaults.value {q : Query} (h : q.FailsByFaults) :
    q.fragment.value.FailsBy {e | q.Faulty e} :=
  h.embedded.map _

/-- A test fails by the faults of its query. -/
theorem Test.failsBy_text {t : Test Query} (ht : t.Sound words.texts (Query.Sound words false))
    (h : ∀ q ∈ t.queries, q.FailsByFaults) (sc : Scope) :
    ((t.map Query.fragment).text sc).FailsBy {e | t.Faulty e} := by
  have hplain : ∀ {t : Test Query} {text : String}, t.queries = [] →
      FailsBy {e | t.Faulty e} (pure text) := fun hnone =>
    (failsBy_pure _).congr fun e => ⟨fun he => (nomatch he), fun he => (not_faulty hnone he).elim⟩
  cases t with
  | memberOfQuery column q negated =>
      exact ((h _ List.mem_cons_self).embedded.map _).congr fun e => faulty_memberOfQuery.symm
  | compareQuery column operator q =>
      exact ((h _ List.mem_cons_self).value.map _).congr fun e => faulty_compareQuery.symm
  | hasRows q negated =>
      exact ((h _ List.mem_cons_self).embedded.map _).congr fun e => faulty_hasRows.symm
  | nested q =>
      refine ((h _ List.mem_cons_self).conditions.bind (F := ∅) fun text => ?_).congr fun e => ?_
      · cases text <;> exact failsBy_pure _
      · rw [Set.union_empty]
        exact faulty_nested.symm
  | bits column operator value =>
      obtain ⟨function, hfunction⟩ :=
        Option.isSome_iff_exists.mp (ht.bitwise column operator value rfl)
      simp only [map, text, hfunction]
      exact hplain rfl
  | _ => exact hplain rfl

section conditions

variable {list : List (Condition Query)}
  (hlist : ∀ x ∈ list, x.test.Sound words.texts (Query.Sound words false))
  (h : ∀ x ∈ list, ∀ q ∈ x.test.queries, q.FailsByFaults)

include hlist h

/-- Further conditions fail by the faults of their tests. -/
theorem failsBy_furtherConditions (sc : Scope) :
    (furtherConditions sc (list.map (Condition.map Query.fragment))).FailsBy
      {e | ∃ x ∈ list, x.test.Faulty e} := by
  induction list with
  | nil => exact (failsBy_pure _).congr fun e => by simp
  | cons x rest ih =>
      have hfirst := x.test.failsBy_text (hlist x List.mem_cons_self) (h x List.mem_cons_self) sc
      have hrest := ih (fun y hy => hlist y (List.mem_cons_of_mem x hy))
        fun y hy => h y (List.mem_cons_of_mem x hy)
      refine (hfirst.bind fun first => hrest.map _).congr fun e => ?_
      simp

/-- Conditions fail by the faults of their tests. -/
theorem failsBy_conditions (sc : Scope) :
    (conditions sc (list.map (Condition.map Query.fragment))).FailsBy
      {e | ∃ x ∈ list, x.test.Faulty e} := by
  cases list with
  | nil => exact (failsBy_pure _).congr fun e => by simp
  | cons x rest =>
      have hfirst := x.test.failsBy_text (hlist x List.mem_cons_self) (h x List.mem_cons_self) sc
      have hrest := failsBy_furtherConditions (fun y hy => hlist y (List.mem_cons_of_mem x hy))
        (fun y hy => h y (List.mem_cons_of_mem x hy)) sc
      refine (hfirst.bind fun first => hrest.map _).congr fun e => ?_
      simp

/-- A filter fails by the faults of its tests. -/
theorem failsBy_filter (sc : Scope) :
    (filter sc (list.map (Condition.map Query.fragment))).FailsBy
      {e | ∃ x ∈ list, x.test.Faulty e} := by
  refine ((failsBy_conditions hlist h sc).bind (F := ∅) fun text => ?_).congr fun e => by simp
  cases text <;> exact failsBy_pure _

end conditions

section loops

/-- A definition fails by the faults of its query. -/
theorem LetVariable.failsBy_definition {v : LetVariable Query}
    (h : ∀ q ∈ v.value.queries, q.FailsByFaults) (sc : Scope) :
    (definition sc (v.map Query.fragment)).FailsBy {e | ∃ q ∈ v.value.queries, q.Faulty e} := by
  obtain ⟨name, value⟩ := v
  cases value with
  | bound bound =>
      exact ((failsBy_pure (bound.text sc)).map _).congr fun e => by simp [Definition.queries]
  | query q =>
      exact ((h q List.mem_cons_self).value.map _).congr fun e => by simp [Definition.queries]

/-- A source fails by the faults of its query. -/
theorem Source.failsBy_text {s : Source Query} (h : ∀ q ∈ s.queries, q.FailsByFaults)
    (tablePrefix : String) :
    (sourceText tablePrefix (s.map Query.fragment)).2.FailsBy
      {e | ∃ q ∈ s.queries, q.Faulty e} := by
  cases s with
  | derived q docVar => exact (h q List.mem_cons_self).embedded.congr fun e => by simp [queries]
  | _ => exact (failsBy_pure _).congr fun e => by simp [queries]

/-- A main loop fails without a source, or by the faults of its query. -/
theorem Builder.failsBy_mainLoop (h : ∀ s ∈ b.source, ∀ q ∈ s.queries, q.FailsByFaults) :
    (mainLoop b.compiled).FailsBy {e | (b.source = none ∧ e = .compilation .noSource) ∨
      ∃ s ∈ b.source, ∃ q ∈ s.queries, q.Faulty e} := by
  have hsource : b.compiled.source = b.source.map (Source.map Query.fragment) := rfl
  unfold mainLoop
  rw [hsource]
  cases hs : b.source with
  | none => exact failsBy_fail (.inl ⟨rfl, rfl⟩)
  | some s => exact ((s.failsBy_text (h s hs) b.tablePrefix).map _).congr fun e => by simp

/-- A joined source with its restriction. -/
theorem Join.failsBy_loop {j : Join Query} (h : j.query.FailsByFaults)
    (hsource : j.query.clauses.source.isSome = true) :
    (joinLoop (j.map Query.fragment)).FailsBy {e | j.Faulty e} := by
  obtain ⟨kind, ⟨c⟩⟩ := j
  have hsome : (Query.of c).fragment.source.isSome = true := by
    rw [Query.source_fragment, Option.isSome_map, Option.isSome_map]
    exact hsource
  obtain ⟨s, hs⟩ := Option.isSome_iff_exists.mp hsome
  unfold joinLoop Join.map
  rw [hs]
  exact (h.source s hs).bind fun source => h.conditions.map _

/-- The faults in the loops of a query, clause by clause. -/
theorem Builder.loopsEnclose_faulty_iff : (∃ c, b.LoopsEnclose c ∧ c.Faulty e) ↔
    (∃ v ∈ b.definitions, ∃ q ∈ v.value.queries, q.Faulty e) ∨
      (∃ s ∈ b.source, ∃ q ∈ s.queries, q.Faulty e) ∨
      (∃ j ∈ b.joins, j.Faulty e) ∨ ∃ x ∈ b.filters, x.test.Faulty e := by
  constructor
  · rintro ⟨c, hc, he⟩
    cases hc with
    | defined hmem => exact .inl ⟨_, hmem, _, List.mem_cons_self, he⟩
    | derived hsource => exact .inr (.inl ⟨_, hsource, _, List.mem_cons_self, he⟩)
    | joined hmem hsource =>
        exact .inr (.inr (.inl ⟨_, hmem, .inl ⟨_, hsource, _, List.mem_cons_self, he⟩⟩))
    | restricted hmem hx hc =>
        exact .inr (.inr (.inl ⟨_, hmem, .inr ⟨_, hx, _, hc, he⟩⟩))
    | filtered hx hc => exact .inr (.inr (.inr ⟨_, hx, _, hc, he⟩))
  · rintro (⟨⟨name, value⟩, hv, ⟨c⟩, hq, he⟩ | ⟨s, hs, ⟨c⟩, hq, he⟩ |
      ⟨⟨kind, ⟨joined⟩⟩, hj, ⟨s, hs, ⟨c⟩, hq, he⟩ | ⟨x, hx, c, hc, he⟩⟩ | ⟨x, hx, c, hc, he⟩)
    · cases value with
      | bound bound => cases hq
      | query q =>
          cases List.mem_singleton.mp hq
          exact ⟨c, .defined hv, he⟩
    · cases s with
      | derived q docVar =>
          cases List.mem_singleton.mp hq
          exact ⟨c, .derived hs, he⟩
      | _ => cases hq
    · cases s with
      | derived q docVar =>
          cases List.mem_singleton.mp hq
          exact ⟨c, .joined hj hs, he⟩
      | _ => cases hq
    · exact ⟨c, .restricted hj hx hc, he⟩
    · exact ⟨c, .filtered hx hc, he⟩

/-- The loops of a query fail without a source, and by the faults in them. -/
theorem Builder.failsBy_loops (hb : Builder.Sound words joined { b with aggregate := none })
    (h : ∀ q ∈ b.queries, q.FailsByFaults) :
    (loops b.compiled).FailsBy {e | (b.source = none ∧ e = .compilation .noSource) ∨
      ∃ c, b.LoopsEnclose c ∧ c.Faulty e} := by
  simp only [Clauses.queries, List.mem_append, or_imp, forall_and] at h
  obtain ⟨⟨⟨⟨⟨⟨hsource, -⟩, hfilters⟩, hjoins⟩, -⟩, -⟩, hdefinitions⟩ := h
  have hdefinitions := failsBy_each (g := LetVariable.map Query.fragment)
    fun v hv => LetVariable.failsBy_definition
      (fun q hq => hdefinitions q (List.mem_flatMap.mpr ⟨v, hv, hq⟩)) b.compiled.scope
  have hmain := b.failsBy_mainLoop fun s hs q hq => hsource q (by rw [hs]; exact hq)
  have hjoins : (each joinLoop (b.joins.map (Join.map Query.fragment))).FailsBy
      {e | ∃ j ∈ b.joins, j.Faulty e} := failsBy_each fun j hj => by
    obtain ⟨kind, ⟨c⟩⟩ := j
    have hsource := (hb.joinedQuery hj).joinedSource rfl
    exact Join.failsBy_loop (hjoins _ (List.mem_map_of_mem hj)) hsource
  have hfilter := failsBy_filter hb.filters
    (fun x hx q hq => hfilters q (List.mem_flatMap.mpr ⟨x, hx, hq⟩)) b.compiled.scope
  refine (hdefinitions.bind fun definitions => hmain.bind fun main => hjoins.bind fun joins =>
    hfilter.map _).congr fun e => ?_
  simp only [Set.mem_union, Set.mem_ofPred_eq, loopsEnclose_faulty_iff, or_assoc]
  exact or_left_comm

end loops

section groups

/-- A mark is found in a text that has it. -/
theorem Text.cutAt_eq_none {mark : Char} {text : List Char} :
    Text.cutAt mark text = none ↔ mark ∉ text := by
  induction text with
  | nil => simp [Text.cutAt]
  | cons c rest ih =>
      unfold Text.cutAt
      split
      · rename_i hc
        simp [hc]
      · rename_i hc
        simp [ih, Ne.symm hc]

/-- A key fails only if it is an expression without a name. -/
theorem GroupKey.failsBy_collectKey (sc : Scope) (g : GroupKey) :
    (collectKey sc g).FailsBy {e | ∃ aql, g = .raw aql ∧ '=' ∉ aql.toList ∧
      e = .compilation (.groupKeyWithoutName aql)} := by
  cases g with
  | column name => exact (failsBy_pure _).congr fun e => by simp
  | raw aql =>
      unfold collectKey
      dsimp only
      cases hcut : Text.cutAt '=' aql.toList with
      | none =>
          have hname := Text.cutAt_eq_none.mp hcut
          exact failsBy_fail ⟨aql, rfl, hname, rfl⟩
      | some parts =>
          have hname : '=' ∈ aql.toList := by
            by_contra hnone
            rw [Text.cutAt_eq_none.mpr hnone] at hcut
            cases hcut
          refine (failsBy_pure _).congr fun e => ?_
          simp [hname]

/-- An aggregate fails only if it lacks the column that it needs. -/
theorem Aggregate.failsBy_text (sc : Scope) (a : Aggregate) :
    (aggregateText sc a).FailsBy {e | ∃ function, a = ⟨function, none⟩ ∧ function ≠ .count ∧
      e = .compilation (.aggregateWithoutColumn function.text)} := by
  obtain ⟨function, column⟩ := a
  cases column with
  | some column => exact (failsBy_pure _).congr fun e => by simp
  | none =>
      cases function with
      | count => exact (failsBy_pure _).congr fun e => by simp
      | _ => exact failsBy_fail ⟨_, rfl, nofun, rfl⟩

/-- Grouping fails by keys without a name, and by an aggregate that needs a column. -/
theorem Builder.failsBy_collect (b : Builder) :
    (collect b.compiled).FailsBy {e | b.GroupingLacks e} := by
  have hgroups : b.compiled.groups = b.groups := rfl
  have haggregate : b.compiled.aggregate = b.aggregate := rfl
  have hkeys := failsBy_each (f := collectKey b.compiled.scope) (g := id)
    fun g (_ : g ∈ b.groups) => g.failsBy_collectKey b.compiled.scope
  rw [List.map_id] at hkeys
  have hnames : ∀ e : Error, (∃ g ∈ b.groups, ∃ aql, g = .raw aql ∧ '=' ∉ aql.toList ∧
      e = .compilation (.groupKeyWithoutName aql)) ↔ ∃ aql, .raw aql ∈ b.groups ∧
        '=' ∉ aql.toList ∧ e = .compilation (.groupKeyWithoutName aql) := by
    intro e
    constructor
    · rintro ⟨_, hg, aql, rfl, haql⟩
      exact ⟨aql, hg, haql⟩
    · rintro ⟨aql, hg, haql⟩
      exact ⟨_, hg, aql, rfl, haql⟩
  unfold collect
  rw [hgroups, haggregate]
  split
  · rename_i hempty
    rw [Bool.and_eq_true, List.isEmpty_iff, Option.isNone_iff_eq_none] at hempty
    exact (failsBy_pure _).congr fun e => by simp [GroupingLacks, hempty.1, hempty.2]
  · cases ha : b.aggregate with
    | some a =>
        refine (hkeys.bind fun keys => (a.failsBy_text _).map _).congr fun e => ?_
        rw [Set.mem_union, Set.mem_ofPred_eq, hnames]
        simp [GroupingLacks, ha]
    | none =>
        refine (hkeys.bind (F := ∅) fun keys => ?_).congr fun e => ?_
        · dsimp only
          split <;> exact failsBy_pure _
        · rw [Set.union_empty, Set.mem_ofPred_eq, hnames]
          simp [GroupingLacks, ha]

end groups

section statements

/-- Selected queries fail by their faults. -/
theorem failsBy_selectedQueries {columns : List (Selector Query)}
    (h : ∀ s ∈ columns, ∀ q ∈ s.queries, q.FailsByFaults) :
    (selectedQueries (columns.map (Selector.map Query.fragment))).FailsBy
      {e | ∃ s ∈ columns, ∃ q ∈ s.queries, q.Faulty e} := by
  induction columns with
  | nil => exact (failsBy_pure _).congr fun e => by simp
  | cons first rest ih =>
      have hrest := ih fun s hs => h s (List.mem_cons_of_mem first hs)
      cases first with
      | sub q asName =>
          have hfirst := (h _ List.mem_cons_self q List.mem_cons_self).value
          refine (hfirst.bind fun value => hrest.map _).congr fun e => ?_
          simp [Selector.queries]
      | _ => exact hrest.congr fun e => by simp [Selector.queries]

/-- Combined rows fail by the faults of the queries. -/
theorem failsBy_combined {unions : List (UnionBranch Query)}
    (h : ∀ u ∈ unions, u.query.FailsByFaults) (rows : String) :
    (combined rows (unions.map (UnionBranch.map Query.fragment))).FailsBy
      {e | ∃ u ∈ unions, u.query.Faulty e} := by
  induction unions generalizing rows with
  | nil => exact (failsBy_pure _).congr fun e => by simp
  | cons first rest ih =>
      have hrest := ih fun u hu => h u (List.mem_cons_of_mem _ hu)
      refine ((h _ List.mem_cons_self).embedded.bind fun others => hrest _).congr fun e => ?_
      simp

/-- The faults in the statement of a query, clause by clause. -/
theorem Builder.encloses_faulty_iff : (∃ c, b.Encloses c ∧ c.Faulty e) ↔
    (∃ c, b.LoopsEnclose c ∧ c.Faulty e) ∨ (∃ x ∈ b.havings, x.test.Faulty e) ∨
      (∃ s ∈ b.columns, ∃ q ∈ s.queries, q.Faulty e) ∨ ∃ u ∈ b.unions, u.query.Faulty e := by
  constructor
  · rintro ⟨c, hc, he⟩
    cases hc with
    | looped hc => exact .inl ⟨c, hc, he⟩
    | having hx hc => exact .inr (.inl ⟨_, hx, _, hc, he⟩)
    | selected hmem => exact .inr (.inr (.inl ⟨_, hmem, _, List.mem_cons_self, he⟩))
    | combined hmem => exact .inr (.inr (.inr ⟨_, hmem, he⟩))
  · rintro (⟨c, hc, he⟩ | ⟨x, hx, c, hc, he⟩ | ⟨s, hs, ⟨c⟩, hq, he⟩ | ⟨⟨⟨c⟩, all⟩, hu, he⟩)
    · exact ⟨c, .looped hc, he⟩
    · exact ⟨c, .having hx hc, he⟩
    · cases s with
      | sub q asName =>
          cases List.mem_singleton.mp hq
          exact ⟨c, .selected hs, he⟩
      | _ => cases hq
    · exact ⟨c, .combined hu, he⟩

/-- The statement of a query fails by what the query lacks, and by the faults inside. -/
theorem Builder.failsBy_statement (hb : Builder.Sound words joined { b with aggregate := none })
    (h : ∀ q ∈ b.queries, q.FailsByFaults) :
    b.statement.FailsBy {e | b.Lacks e ∨ ∃ c, b.Encloses c ∧ c.Faulty e} := by
  have hloops := b.failsBy_loops hb h
  simp only [Clauses.queries, List.mem_append, or_imp, forall_and] at h
  obtain ⟨⟨⟨⟨⟨⟨-, hcolumns⟩, -⟩, -⟩, hhavings⟩, hunions⟩, -⟩ := h
  have hcollect := b.failsBy_collect
  have hfilter := failsBy_filter hb.havings
    (fun x hx q hq => hhavings q (List.mem_flatMap.mpr ⟨x, hx, hq⟩))
  have hqueries := failsBy_selectedQueries
    fun s hs q hq => hcolumns q (List.mem_flatMap.mpr ⟨s, hs, hq⟩)
  have hcombined := failsBy_combined fun u hu => hunions _ (List.mem_map_of_mem hu)
  have hsimple : (simpleStatement b.compiled).FailsBy _ :=
    hloops.bind fun loops => hcollect.bind fun collected => (hfilter _).bind fun havings =>
      hqueries.map _
  have hunion : (unionStatement b.compiled).FailsBy _ :=
    hsimple.bind fun first => (hcombined _).map _
  have hempty : b.compiled.unions.isEmpty = b.unions.isEmpty := List.isEmpty_map
  unfold Builder.statement Aql.statement
  rw [hempty]
  split
  · rename_i hnone
    refine hsimple.congr fun e => ?_
    simp only [Set.mem_union, Set.mem_ofPred_eq, lacks_iff, encloses_faulty_iff,
      List.isEmpty_iff.mp hnone, List.not_mem_nil, false_and, exists_false, or_false]
    refine iff_of_eq ?_
    ac_rfl
  · refine hunion.congr fun e => ?_
    simp only [Set.mem_union, Set.mem_ofPred_eq, lacks_iff, encloses_faulty_iff]
    refine iff_of_eq ?_
    ac_rfl

/-- A query with an error is not compiled. -/
theorem Builder.Sound.failsBy_embedded (hb : b.Sound words joined)
    (h : ∀ q ∈ b.queries, q.FailsByFaults) :
    (Query.of b).fragment.embedded.FailsBy {e | b.Faulty e} := by
  have herrors : (Query.of b).fragment.error = b.error := by
    rw [Query.fragment_of]
    rfl
  unfold Fragment.embedded
  rw [herrors]
  cases herror : b.error with
  | some e => exact failsBy_fail (faulty_iff.mpr (.inl (.recorded herror)))
  | none =>
      rw [Query.fragment_of]
      have hstatement := failsBy_statement hb.unaggregated h
      refine ((hstatement.after _).map _).congr fun e => ?_
      rw [Set.mem_ofPred_eq, Set.mem_ofPred_eq, faulty_iff_of_error_none herror]

/-- **A query fails by its faults**, whatever of it is asked for. -/
theorem Query.failsByFaults (q : Query) (h : q.Sound words joined) : q.FailsByFaults := by
  induction q generalizing joined with
  | of b ih =>
      have hb := Query.sound_of.mp h
      have hqueries : ∀ q ∈ b.queries, q.FailsByFaults := fun q hq => by
        obtain ⟨joined, hsound⟩ := hb.exists_queries hq
        exact ih q hq hsound
      refine ⟨hb.failsBy_embedded hqueries, ?_, fun s hs => ?_⟩
      · rw [Query.conditions_fragment]
        refine failsBy_conditions hb.filters (fun x hx q hq => hqueries q ?_) _
        have hmem : q ∈ b.filters.flatMap fun x => x.test.queries :=
          List.mem_flatMap.mpr ⟨x, hx, hq⟩
        simp [Clauses.queries, hmem]
      · rw [Query.source_fragment] at hs
        rw [Option.map_map, Option.mem_def, Option.map_eq_some_iff] at hs
        obtain ⟨s, hsource, rfl⟩ := hs
        refine (s.failsBy_text (fun q hq => hqueries q ?_) b.tablePrefix).congr fun e => ?_
        · simp [Clauses.queries, hsource, hq]
        · simp [Query.clauses, hsource]

end statements

end grammar

end AqlBuilder
