import AqlBuilder.Proofs.Query.Copy
import AqlBuilder.Query.Basic
import Mathlib.Logic.Relation

/-!
# Queries as their methods build them

What all methods of a builder preserve, in a query and in every query inside: each query has one of
certain prefixes, operands are no texts but certain ones, each joined query has a source, bitwise
tests have bitwise operators, there is no aggregate, and two of the errors are never recorded.

- `Builder.Encloses` is one step from a statement to a statement inside it, and `Builder.Compiles`
  any number of steps: the queries that are compiled with a query.
- `Vocabulary` has the prefixes and the texts.
- `Clauses.Sound` is the condition on one query, with its sub-queries left open.
- `Query.sound_of` closes the recursion, and `Query.sound_copyOf` says that copies are sound, too.
- `Builder.Sound.compiles`: what is compiled with a sound query is sound.
-/

/-!
## Statements inside statements

Most sub-queries of a query are written as statements of their own inside its statement. A group of
conditions and a joined source are not: the statements in them belong to the query around them.
-/

namespace AqlBuilder

/-- A query is written as a statement in a test, be it in a group of conditions. -/
inductive Test.Encloses : Test Query → Builder → Prop
  | member {column : String} {c : Builder} {negated : Bool} :
      Encloses (.memberOfQuery column (.of c) negated) c
  | compared {column : String} {operator : Operator} {c : Builder} :
      Encloses (.compareQuery column operator (.of c)) c
  | rows {c : Builder} {negated : Bool} : Encloses (.hasRows (.of c) negated) c
  | nested {group c : Builder} {x : Condition Query} :
      x ∈ group.filters → Encloses x.test c → Encloses (.nested (.of group)) c

/-- A query is written as a statement among the query variables, the loops and the filter of another
one. -/
inductive Builder.LoopsEnclose (b : Builder) : Builder → Prop
  | derived {c : Builder} {docVar : String} :
      b.source = some (.derived (.of c) docVar) → LoopsEnclose b c
  | defined {c : Builder} {name : String} :
      ⟨name, .query (.of c)⟩ ∈ b.definitions → LoopsEnclose b c
  | joined {joined c : Builder} {kind : JoinKind} {docVar : String} :
      ⟨kind, .of joined⟩ ∈ b.joins → joined.source = some (.derived (.of c) docVar) →
        LoopsEnclose b c
  | restricted {joined c : Builder} {kind : JoinKind} {x : Condition Query} :
      ⟨kind, .of joined⟩ ∈ b.joins → x ∈ joined.filters → x.test.Encloses c → LoopsEnclose b c
  | filtered {c : Builder} {x : Condition Query} :
      x ∈ b.filters → x.test.Encloses c → LoopsEnclose b c

/-- A query is written as a statement in the statement of another one, with no statement between the
two. -/
inductive Builder.Encloses (b : Builder) : Builder → Prop
  | looped {c : Builder} : b.LoopsEnclose c → Encloses b c
  | having {c : Builder} {x : Condition Query} :
      x ∈ b.havings → x.test.Encloses c → Encloses b c
  | selected {c : Builder} {asName : String} : .sub (.of c) asName ∈ b.columns → Encloses b c
  | combined {c : Builder} {all : Bool} : ⟨.of c, all⟩ ∈ b.unions → Encloses b c

/-- A query is compiled with another one: it is the query itself, or its statement is inside. -/
def Builder.Compiles : Builder → Builder → Prop := Relation.ReflTransGen Builder.Encloses

/-- What a query encloses does not depend on an aggregate. -/
theorem Builder.Encloses.withAggregate {b c : Builder} (h : b.Encloses c)
    (aggregate : Option Aggregate) :
    Builder.Encloses { b with aggregate := aggregate } c := by
  have hloops : ∀ {c : Builder}, b.LoopsEnclose c →
      Builder.LoopsEnclose { b with aggregate := aggregate } c := by
    intro c h
    cases h with
    | derived hsource => exact .derived hsource
    | defined hmem => exact .defined hmem
    | joined hmem hsource => exact .joined hmem hsource
    | restricted hmem hx hc => exact .restricted hmem hx hc
    | filtered hx hc => exact .filtered hx hc
  cases h with
  | looped h => exact .looped (hloops h)
  | having hx hc => exact .having hx hc
  | selected hmem => exact .selected hmem
  | combined hmem => exact .combined hmem

end AqlBuilder

/-! ## Sound queries -/

namespace AqlBuilder

variable {P Q : Type}

/-- An error that can be made by the methods of a builder, or in compiling what they built. -/
def Error.Possible : Error → Prop
  | .compilation .joinWithoutSource => False
  | .compilation (.notBitwise _) => False
  | _ => True

/-- What queries may be made of. -/
structure Vocabulary where
  /-- The texts in front of the names of collections. -/
  prefixes : Set String
  /-- The texts that stand for operands. -/
  texts : Set String

/-- An operand that is no text but one of the given ones. -/
def Bound.Among (texts : Set String) (v : Bound) : Prop := ∀ aql, v = .raw aql → aql ∈ texts

/-- A test that is bitwise only with a bitwise operator, with operands among certain texts, and
whose queries have a property. -/
structure Test.Sound (texts : Set String) (p : Q → Prop) (t : Test Q) : Prop where
  bitwise : ∀ column operator value, t = .bits column operator value →
    operator.bitFunction?.isSome = true
  operands : ∀ v ∈ t.operands, v.Among texts
  queries : ∀ q ∈ t.queries, p q

/-- The value of a query variable: an operand among certain texts, or a query with a property. -/
structure Definition.Sound (texts : Set String) (p : Q → Prop) (d : Definition Q) : Prop where
  operand : ∀ v, d = .bound v → v.Among texts
  queries : ∀ q ∈ d.queries, p q

/-- A query with one of the prefixes, whose sub-queries have a property. It has a source if it is
joined; that is the first argument of the property. -/
structure Clauses.Sound (words : Vocabulary) (p : Bool → Q → Prop) (joined : Bool)
    (c : Clauses Q) : Prop where
  tablePrefix : c.tablePrefix ∈ words.prefixes
  joinedSource : joined = true → c.source.isSome = true
  source : ∀ s ∈ c.source, ∀ q ∈ s.queries, p false q
  columns : ∀ s ∈ c.columns, ∀ q ∈ s.queries, p false q
  filters : ∀ x ∈ c.filters, x.test.Sound words.texts (p false)
  joins : ∀ j ∈ c.joins, p true j.query
  havings : ∀ x ∈ c.havings, x.test.Sound words.texts (p false)
  aggregate : c.aggregate = none
  unions : ∀ u ∈ c.unions, p false u.query
  definitions : ∀ v ∈ c.definitions, v.value.Sound words.texts (p false)
  error : ∀ e ∈ c.error, e.Possible

section map

variable {f : P → Q} {words : Vocabulary} {p : Bool → Q → Prop} {joined : Bool}

/-- A test with other queries is sound if its queries are when they are changed. -/
theorem Test.sound_map {texts : Set String} {p : Q → Prop} {t : Test P} :
    (t.map f).Sound texts p ↔ t.Sound texts fun q => p (f q) := by
  have hbits : ∀ column operator value,
      t.map f = .bits column operator value ↔ t = .bits column operator value := by
    cases t <;> simp [map]
  have hqueries : (∀ q ∈ (t.map f).queries, p q) ↔ ∀ q ∈ t.queries, p (f q) := by
    rw [queries_map, List.forall_mem_map]
  have hoperands := t.operands_map f
  constructor
  · intro h
    exact ⟨fun c o v heq => h.bitwise c o v ((hbits c o v).mpr heq), hoperands ▸ h.operands,
      hqueries.mp h.queries⟩
  · intro h
    exact ⟨fun c o v heq => h.bitwise c o v ((hbits c o v).mp heq), hoperands ▸ h.operands,
      hqueries.mpr h.queries⟩

/-- A definition with another query is sound if its query is when it is changed. -/
theorem Definition.sound_map {texts : Set String} {p : Q → Prop} {d : Definition P} :
    (d.map f).Sound texts p ↔ d.Sound texts fun q => p (f q) := by
  have hbound : ∀ v, d.map f = .bound v ↔ d = .bound v := by
    cases d <;> simp [map]
  have hqueries : (∀ q ∈ (d.map f).queries, p q) ↔ ∀ q ∈ d.queries, p (f q) := by
    rw [queries_map, List.forall_mem_map]
  constructor
  · intro h
    exact ⟨fun v heq => h.operand v ((hbound v).mpr heq), hqueries.mp h.queries⟩
  · intro h
    exact ⟨fun v heq => h.operand v ((hbound v).mp heq), hqueries.mpr h.queries⟩

/-- Replacing sub-queries moves into their property. -/
theorem Clauses.sound_map {c : Clauses P} :
    (c.map f).Sound words p joined ↔ c.Sound words (fun j q => p j (f q)) joined := by
  have hsourced : (c.map f).source.isSome = c.source.isSome := Option.isSome_map
  constructor
  · intro h
    have hsource := h.source
    have hcolumns := h.columns
    have hfilters := h.filters
    have hjoins := h.joins
    have hhavings := h.havings
    have hunions := h.unions
    have hdefinitions := h.definitions
    simp only [map, Option.mem_def, Option.map_eq_some_iff, List.mem_map, forall_exists_index,
      and_imp, forall_apply_eq_imp_iff₂, Source.queries_map, Selector.queries_map, Condition.map,
      Test.sound_map, Join.map, UnionBranch.map, LetVariable.map, Definition.sound_map]
      at hsource hcolumns hfilters hjoins hhavings hunions hdefinitions
    exact ⟨h.tablePrefix, fun hj => hsourced ▸ h.joinedSource hj, hsource, hcolumns, hfilters,
      hjoins, hhavings, h.aggregate, hunions, hdefinitions, h.error⟩
  · intro h
    refine ⟨h.tablePrefix, fun hj => hsourced ▸ h.joinedSource hj, ?_, ?_, ?_, ?_, ?_, h.aggregate,
      ?_, ?_, h.error⟩ <;>
    simp only [map, Option.mem_def, Option.map_eq_some_iff, List.mem_map, forall_exists_index,
      and_imp, forall_apply_eq_imp_iff₂, Source.queries_map, Selector.queries_map, Condition.map,
      Test.sound_map, Join.map, UnionBranch.map, LetVariable.map, Definition.sound_map]
    · exact h.source
    · exact h.columns
    · exact h.filters
    · exact h.joins
    · exact h.havings
    · exact h.unions
    · exact h.definitions

end map

/-- One level of the recursion. -/
def Query.soundLevel (words : Vocabulary) (c : Clauses (Bool → Prop)) (joined : Bool) : Prop :=
  c.Sound words (fun j sound => sound j) joined

/-- A query that is sound with all its sub-queries. -/
def Query.Sound (words : Vocabulary) (joined : Bool) (q : Query) : Prop :=
  q.fold (soundLevel words) joined

/-- A builder that is sound with all its sub-queries. -/
abbrev Builder.Sound (words : Vocabulary) (joined : Bool) (b : Builder) : Prop :=
  Clauses.Sound words (Query.Sound words) joined b

variable {words : Vocabulary} {joined : Bool} {b c : Builder}

namespace Query

/-- A query is sound if its clauses are. -/
theorem sound_of : Sound words joined (.of c) ↔ c.Sound words joined := by
  unfold Sound
  rw [fold_of]
  exact Clauses.sound_map

/-- A copy is as sound as the original. -/
theorem sound_copyOf (words : Vocabulary) (q : Query) :
    q.copyOf.Always fun copy => copy.fold (soundLevel words) = q.fold (soundLevel words) := by
  refine fold_copyOf (fun c id => ?_) q
  funext joined
  exact propext ⟨fun h => { h with }, fun h => { h with }⟩

end Query

/-- A query that is written in a sound test is sound. -/
theorem Test.Sound.encloses {t : Test Query} (h : t.Sound words.texts (Query.Sound words false))
    (hc : t.Encloses c) : c.Sound words false := by
  induction hc with
  | member => exact Query.sound_of.mp (h.queries _ List.mem_cons_self)
  | compared => exact Query.sound_of.mp (h.queries _ List.mem_cons_self)
  | rows => exact Query.sound_of.mp (h.queries _ List.mem_cons_self)
  | nested hmem _ ih =>
      exact ih ((Query.sound_of.mp (h.queries _ List.mem_cons_self)).filters _ hmem)

namespace Builder.Sound

/-- Whether there is an aggregate is seen at the query itself. -/
theorem unaggregated (h : b.Sound words joined) :
    Builder.Sound words joined { b with aggregate := none } := { h with aggregate := rfl }

theorem joinedQuery {kind : JoinKind} (h : b.Sound words joined) (hmem : ⟨kind, .of c⟩ ∈ b.joins) :
    c.Sound words true := Query.sound_of.mp (h.joins _ hmem)

/-- Every sub-query of a sound query is sound. -/
theorem exists_queries {q : Query} (h : b.Sound words joined) (hq : q ∈ b.queries) :
    ∃ joined, q.Sound words joined := by
  simp only [Clauses.queries, List.mem_append, List.mem_flatMap, List.mem_map] at hq
  rcases hq with (((((hq | ⟨s, hs, hq⟩) | ⟨x, hx, hq⟩) | ⟨j, hj, rfl⟩) | ⟨x, hx, hq⟩) |
    ⟨u, hu, rfl⟩) | ⟨v, hv, hq⟩
  · cases hsource : b.source with
    | none => simp [hsource] at hq
    | some s => exact ⟨false, h.source s hsource q (by simpa [hsource] using hq)⟩
  · exact ⟨false, h.columns s hs q hq⟩
  · exact ⟨false, (h.filters x hx).queries q hq⟩
  · exact ⟨true, h.joins j hj⟩
  · exact ⟨false, (h.havings x hx).queries q hq⟩
  · exact ⟨false, h.unions u hu⟩
  · exact ⟨false, (h.definitions v hv).queries q hq⟩

/-- A query that is written among the loops of a sound query is sound. -/
theorem loopsEnclose (h : b.Sound words joined) (hc : b.LoopsEnclose c) :
    c.Sound words false := by
  cases hc with
  | derived hsource => exact Query.sound_of.mp (h.source _ hsource _ List.mem_cons_self)
  | defined hmem => exact Query.sound_of.mp ((h.definitions _ hmem).queries _ List.mem_cons_self)
  | joined hmem hsource =>
      exact Query.sound_of.mp ((h.joinedQuery hmem).source _ hsource _ List.mem_cons_self)
  | restricted hmem hx hc => exact ((h.joinedQuery hmem).filters _ hx).encloses hc
  | filtered hx hc => exact (h.filters _ hx).encloses hc

/-- A query that is written in the statement of a sound query is sound. -/
theorem encloses (h : b.Sound words joined) (hc : b.Encloses c) : c.Sound words false := by
  cases hc with
  | looped hc => exact h.loopsEnclose hc
  | having hx hc => exact (h.havings _ hx).encloses hc
  | selected hmem => exact Query.sound_of.mp (h.columns _ hmem _ List.mem_cons_self)
  | combined hmem => exact Query.sound_of.mp (h.unions _ hmem)

/-- What is compiled with a sound query is sound. -/
theorem compiles (h : b.Sound words false) (hc : b.Compiles c) : c.Sound words false := by
  induction hc with
  | refl => exact h
  | tail _ hstep ih => exact ih.encloses hstep

/-- Only the query itself may have an aggregate. -/
theorem compiles_unaggregated (h : Builder.Sound words false { b with aggregate := none })
    (hc : b.Compiles c) : Builder.Sound words false { c with aggregate := none } := by
  rcases Relation.ReflTransGen.cases_head hc with rfl | ⟨first, hfirst, hrest⟩
  · exact h
  · exact ((h.encloses (hfirst.withAggregate none)).compiles hrest).unaggregated

end Builder.Sound

end AqlBuilder
