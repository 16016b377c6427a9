import AqlBuilder.Proofs.Query.Fragment
import AqlBuilder.Proofs.Query.Sound

/-!
# Full names in the place of prefixes

The prefix of a query stands in front of the names of its collections and views, and nowhere else in
its statement. So a query compiles to the same text if the prefix is taken away and the full names
are given. If one of the queries inside had lost its prefix, its names would not be the full ones.

- `Query.named` has the full names, in a query and in all queries inside.
- `Query.Sound.fragment_named`: it is compiled to the same texts.
- `Builder.Sound.statement_named`, `Builder.Sound.loops_named`: so are the statement of a builder
  and its loops.
-/

namespace AqlBuilder

variable {P Q : Type} {tablePrefix : String}

/-- A source with a prefix in front of its name. -/
def Source.named (tablePrefix : String) : Source Q → Source Q
  | .collection name docVar => .collection (tablePrefix ++ name) docVar
  | .view name docVar => .view (tablePrefix ++ name) docVar
  | .derived query docVar => .derived query docVar

/-- A query that has no prefix, but the full name of its source. -/
def Clauses.withFullName (tablePrefix : String) (c : Clauses Q) : Clauses Q :=
  { c with
    tablePrefix := ""
    source := c.source.map (Source.named tablePrefix) }

/-- A query with full names, in the queries inside as well. -/
def Query.named (tablePrefix : String) (q : Query) : Query :=
  q.fold fun c => .of (c.withFullName tablePrefix)

/-- A builder with full names, in the queries inside as well. -/
def Builder.named (tablePrefix : String) (b : Builder) : Builder :=
  Clauses.withFullName tablePrefix (b.map (Query.named tablePrefix))

theorem Query.named_of (b : Builder) : (Query.of b).named tablePrefix = .of (b.named tablePrefix) :=
  fold_of _ b

/-- The queries inside may be changed before the source is named in full or after it. -/
theorem Clauses.map_withFullName (f : P → Q) (c : Clauses P) :
    (c.withFullName tablePrefix).map f = (c.map f).withFullName tablePrefix := by
  have hsource : ∀ s : Source P, (s.named tablePrefix).map f = (s.map f).named tablePrefix :=
    fun s => by cases s <;> rfl
  simp only [map, withFullName, Option.map_map, Function.comp_def, hsource]

/-- A source that is named in full has the same queries inside. -/
theorem Clauses.queries_withFullName (c : Clauses Q) :
    (c.withFullName tablePrefix).queries = c.queries := by
  have hsource : ∀ s : Source Q, (s.named tablePrefix).queries = s.queries :=
    fun s => by cases s <;> rfl
  simp only [queries, withFullName, Option.map_map, Function.comp_def, hsource]

/-- A query that is named in full takes as many numbers. -/
theorem Query.count_named (q : Query) : (q.named tablePrefix).count = q.count := by
  induction q with
  | of b ih =>
      have hcounts : b.queries.map (count ∘ named tablePrefix) = b.queries.map count :=
        List.map_congr_left ih
      rw [named_of, count_of, count_of, Builder.named, Clauses.queries_withFullName,
        Clauses.queries_map, List.map_map, hcounts]

section grammar

open Aql

variable {c : Clauses Fragment}

/-- A full name is written as the name with its prefix. -/
theorem Aql.collectionName_named (tablePrefix name : String) :
    collectionName "" (tablePrefix ++ name) = collectionName tablePrefix name := by
  unfold collectionName
  rw [String.empty_append]

/-- A source that is named in full is written as the one with its prefix. -/
theorem Aql.sourceText_named (s : Source Fragment) :
    sourceText "" (s.named tablePrefix) = sourceText tablePrefix s := by
  cases s with
  | collection name docVar =>
      simp only [Source.named, sourceText, collectionName_named tablePrefix name]
  | view name docVar => simp only [Source.named, sourceText, collectionName_named tablePrefix name]
  | derived query docVar => rfl

/-- A query that is named in full has the same variable. -/
theorem Clauses.docVar_withFullName (c : Clauses Q) :
    (c.withFullName tablePrefix).docVar = c.docVar := by
  have hvar : ∀ s : Source Q, (s.named tablePrefix).docVar = s.docVar := fun s => by cases s <;> rfl
  simp only [docVar, withFullName, Option.map_map, Function.comp_def, hvar]

/-- A query that is named in full has the same scope. -/
theorem Clauses.scope_withFullName (c : Clauses Q) :
    (c.withFullName tablePrefix).scope = c.scope := by
  unfold scope
  rw [docVar_withFullName]
  rfl

/-- The clauses behind the loops do not look at names of sources. -/
theorem Aql.collect_named (c : Clauses Fragment) :
    collect (c.withFullName tablePrefix) = collect c := by
  obtain ⟨_, source, _⟩ := c
  rcases source with _ | ⟨_ | _ | _⟩ <;> rfl

/-- A query that is named in full returns the same. -/
theorem Aql.returnText_named (c : Clauses Fragment) (sc : Scope) (keys : List String) :
    returnText (c.withFullName tablePrefix) sc keys = returnText c sc keys := by
  obtain ⟨_, source, _⟩ := c
  rcases source with _ | ⟨_ | _ | _⟩ <;> rfl

variable (hpre : c.tablePrefix = tablePrefix)

include hpre

/-- The source of a query that is named in full is written the same. -/
theorem Aql.source_named : (c.withFullName tablePrefix).source.map (sourceText "") =
    c.source.map (sourceText c.tablePrefix) := by
  simp only [Clauses.withFullName, Option.map_map, Function.comp_def, sourceText_named, hpre]

/-- The main loop of a query that is named in full is the same. -/
theorem Aql.mainLoop_named : mainLoop (c.withFullName tablePrefix) = mainLoop c := by
  have hempty : (c.withFullName tablePrefix).tablePrefix = "" := rfl
  unfold mainLoop
  rw [hempty, source_named hpre]

/-- The loops of a query that is named in full are the same. -/
theorem Aql.loops_named : loops (c.withFullName tablePrefix) = loops c := by
  unfold loops
  rw [mainLoop_named hpre, Clauses.scope_withFullName]
  rfl

/-- The statement of a query that is named in full is the same, without its unions. -/
theorem Aql.simpleStatement_named :
    simpleStatement (c.withFullName tablePrefix) = simpleStatement c := by
  unfold simpleStatement
  simp only [loops_named hpre, collect_named, returnText_named, Clauses.docVar_withFullName]
  rfl

/-- The statement of a query that is named in full is the same. -/
theorem Aql.statement_named : statement (c.withFullName tablePrefix) = statement c := by
  unfold statement unionStatement
  rw [simpleStatement_named hpre]
  rfl

/-- So a query with its full name contributes the same texts. -/
theorem Aql.fragment_named (statement : Outcome String) :
    Aql.fragment (c.withFullName tablePrefix) statement = Aql.fragment c statement := by
  unfold Aql.fragment
  have hempty : (c.withFullName tablePrefix).tablePrefix = "" := rfl
  rw [hempty, source_named hpre, Clauses.scope_withFullName]
  rfl

end grammar

section queries

variable {words : Vocabulary} {joined : Bool} {b : Builder}

/-- Sub-queries that contribute the same with full names leave it to the query itself. -/
theorem Builder.compiled_named
    (h : ∀ q ∈ b.queries, (q.named tablePrefix).fragment = q.fragment) :
    (b.named tablePrefix).compiled = b.compiled.withFullName tablePrefix := by
  have hparts : Clauses.map (Query.fragment ∘ Query.named tablePrefix) b = b.compiled :=
    Clauses.map_congr h
  rw [compiled, named, Clauses.map_withFullName, Clauses.map_map, hparts]

variable (hwords : ∀ known ∈ words.prefixes, known = tablePrefix)

include hwords

/-- **A sound query contributes the same texts with full names**, by induction on its queries. -/
theorem Query.Sound.fragment_named {q : Query} (h : q.Sound words joined) :
    (q.named tablePrefix).fragment = q.fragment := by
  induction q generalizing joined with
  | of b ih =>
      have hb := sound_of.mp h
      have hcompiled : (Builder.named tablePrefix b).compiled =
          (Builder.compiled b).withFullName tablePrefix := Builder.compiled_named fun q hq => by
        obtain ⟨joined, hsound⟩ := hb.exists_queries hq
        exact ih q hq hsound
      have hpre : (Builder.compiled b).tablePrefix = tablePrefix := hwords _ hb.tablePrefix
      have hcount : ((Query.of b).named tablePrefix).count = (Query.of b).count :=
        Query.count_named _
      rw [named_of] at hcount ⊢
      rw [fragment_of, fragment_of, fragmentOver, fragmentOver, hcount]
      change Aql.fragment (Builder.named tablePrefix b).compiled
        (.after _ (Aql.statement (Builder.named tablePrefix b).compiled)) = _
      rw [hcompiled, Aql.fragment_named hpre, Aql.statement_named hpre]
      rfl

namespace Builder

variable (h : Builder.Sound words joined { b with aggregate := none })

include h

/-- A builder that is named in full compiles to a query that is. -/
theorem Sound.compiled_named :
    (b.named tablePrefix).compiled = b.compiled.withFullName tablePrefix :=
  Builder.compiled_named fun q hq => by
    obtain ⟨joined, hsound⟩ := h.exists_queries hq
    exact hsound.fragment_named hwords

/-- With full names the statement is the same, -/
theorem Sound.statement_named : (b.named tablePrefix).statement = b.statement := by
  unfold Builder.statement
  rw [compiled_named hwords h, Aql.statement_named (hwords _ h.tablePrefix)]

/-- and so are the loops. -/
theorem Sound.loops_named : Aql.loops (b.named tablePrefix).compiled = Aql.loops b.compiled := by
  rw [compiled_named hwords h, Aql.loops_named (hwords _ h.tablePrefix)]

end Builder

end queries

end AqlBuilder
