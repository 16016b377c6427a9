import AqlBuilder.Alias.Rules
import AqlBuilder.Connection.Operation
import AqlBuilder.Proofs.Script.Sound
import AqlBuilder.Proofs.Statement.Prefixed

/-!
# Queries of a connection keep its prefix

A connection puts its prefix in front of the names of collections and views, to keep apart what
belongs to different users of a database. A query that is built for a connection, with sub-queries
that are built from it or for the same connection, reads and writes nothing without the prefix,
whatever it is compiled to.

- `Spelled`: a text that stands for an operand comes from the caller, or it is the text of a query
  with the prefix.
- `Entry.KeepsPrefix` says in what places of a compiled statement names of collections stand, and
  that the prefix is in front of all of them.
- `QueryScript.keepsPrefix`: this holds of all queries of a connection.
-/

namespace AqlBuilder

open Outcome

/-- A text that stands for an operand: an expression of the caller, the reference of a bound value,
or the text of a query that is sound with one prefix and with such texts. No text stands for a
sub-query that does not compile. -/
inductive Spelled (tablePrefix : String) (given : Set String) : String → Prop
  | empty : Spelled tablePrefix given ""
  | given {aql : String} : aql ∈ given → Spelled tablePrefix given aql
  | reference {text : String} : isPlaceholder text = true → Spelled tablePrefix given text
  | query {texts : Set String} {q : Builder} {n : Nat} {aql : String} :
      (∀ text ∈ texts, Spelled tablePrefix given text) → q.Sound ⟨{tablePrefix}, texts⟩ false →
        (q.embedded n).1 = .ok aql → Spelled tablePrefix given aql

/-- One prefix, and the texts that are made with it. -/
def Vocabulary.spelled (tablePrefix : String) (given : Set String) : Vocabulary :=
  ⟨{tablePrefix}, {aql | Spelled tablePrefix given aql}⟩

/-- A statement has the prefix in all places where the name of a collection or a view stands. -/
structure Entry.KeepsPrefix [Naming] (tablePrefix : String) (given : Set String) (b : Builder)
    (e : Entry Builder) : Prop where
  /-- Each loop over a collection or a view has the full name. -/
  loops {docVar name : String} : e.LoopsOver b docVar name → (b.compile e).Yields fun s =>
    Stands [] (Aql.loop docVar (Aql.collectionName tablePrefix name)) s.aql
  /-- A change names its target by the full name. -/
  target {around : String × String} : e.writing = some around → (b.compile e).Yields fun s =>
    ∃ name docVar front, b.source = some (.collection name docVar) ∧
      s.aql = front ++ around.1 ++ Aql.collectionName tablePrefix name ++ around.2
  /-- No other name is written: the texts are those of the queries with full names and no prefix. -/
  named {c : Builder} : e.Compiles b c → c.statement = (c.named tablePrefix).statement
  namedLoops : Aql.loops b.compiled = Aql.loops (b.named tablePrefix).compiled
  /-- Texts for operands bring in no other name either, unless the caller wrote it. -/
  quoted {c : Builder} {aql : String} :
    e.Compiles b c → c.Quotes aql → Spelled tablePrefix given aql
  quotedLoops {aql : String} : b.Quotes aql → Spelled tablePrefix given aql

variable {tablePrefix : String} {given : Set String} {words larger : Vocabulary} {b : Builder}

section vocabulary

/-- The texts that are made with a prefix are a closed vocabulary. -/
theorem Vocabulary.closed_spelled : (Vocabulary.spelled tablePrefix given).Closed where
  empty := .empty
  reference := .reference
  query hq hn := .query (fun _ h => h) hq hn

/-- A script keeps to a vocabulary if its calls do, each with such scripts inside. -/
theorem Script.Prefixed.of_forall {calls : List (Call Script)}
    (h : calls.Forall fun call =>
      call.Prefixed words ∧ ∀ part ∈ call.parts, part.2.Prefixed words part.1) :
    Script.Prefixed words false (.of calls) :=
  .further (fun _ _ h => h) (List.forall_iff_forall_mem.mp h)

/-- A larger vocabulary allows more. -/
theorem Script.Prefixed.mono {opens : Bool} {s : Script} (h : s.Prefixed words opens)
    (hprefixes : words.prefixes ⊆ larger.prefixes) (htexts : words.texts ⊆ larger.texts) :
    s.Prefixed larger opens := by
  induction h with
  | further _ h ih =>
      refine .further ih fun call hcall => ⟨?_, (h call hcall).2⟩
      exact ⟨fun p hp => hprefixes ((h call hcall).1.prefixes p hp),
        fun aql haql => htexts ((h call hcall).1.texts aql haql)⟩
  | opening hpre _ ih => exact .opening (hprefixes hpre) ih
  | unset hpre _ ih => exact .unset (hprefixes hpre) ih

/-- An entry that keeps to a vocabulary keeps to a larger one. -/
theorem Entry.Prefixed.mono {e : Entry (Subject Script)} (h : e.Prefixed words)
    (hprefixes : words.prefixes ⊆ larger.prefixes) (htexts : words.texts ⊆ larger.texts) :
    e.Prefixed larger := by
  cases e with
  | update changes =>
      exact fun assignments hassignments a ha =>
        ⟨fun aql haql => htexts ((h assignments hassignments a ha).1 aql haql),
          fun part hpart => ((h assignments hassignments a ha).2 part hpart).mono hprefixes htexts⟩
  | _ => trivial

theorem Vocabulary.given_subset_spelled : given ⊆ (Vocabulary.spelled tablePrefix given).texts :=
  fun _ h => .given h

end vocabulary

/-- However a sound query is compiled, its prefix is kept. -/
theorem Builder.Sound.prefix_kept [Naming] (hb : b.Sound (.spelled tablePrefix given) false)
    {e : Entry Builder} (he : e.Sound (.spelled tablePrefix given)) :
    e.KeepsPrefix tablePrefix given b := by
  have hwords : ∀ known ∈ (Vocabulary.spelled tablePrefix given).prefixes, known = tablePrefix :=
    fun _ h => h
  refine ⟨fun h => h.shown hb hwords he, fun h => ?_, fun h => ?_, ?_, fun h hq => ?_, fun hq => ?_⟩
  · refine (yields_targets h).mono fun s ⟨front, collection, htarget, haql⟩ => ?_
    obtain ⟨name, docVar, hsource, rfl⟩ := exists_of_target htarget
    refine ⟨name, docVar, front, hsource, ?_⟩
    rw [haql, hwords _ hb.tablePrefix]
  · exact (statement_named hwords (h.sound hb he)).symm
  · exact (loops_named hwords hb.unaggregated).symm
  · exact hq.mem_texts (h.sound hb he)
  · exact hq.mem_texts hb.unaggregated

/-- The queries of a connection are sound. -/
theorem QueryScript.sound_build [Naming] (hwords : words.Closed) {q : QueryScript} {c : Connection}
    (hpre : c.config.tablePrefix ∈ words.prefixes) (hq : q.script.Prefixed words false) :
    (q.build c).Always (Builder.Sound words false) := by
  have hopened : ∀ id, Builder.Sound words false
      (Builder.withPrefix (Clauses.empty id) c.config.tablePrefix) := fun id =>
    Builder.Sound.of_source hpre fun _ hs => nomatch hs
  intro next
  obtain ⟨table, script⟩ := q
  cases table with
  | none => exact hq.action hwords _ (hopened next) (next + 1)
  | some table => exact hq.action hwords _ ((hopened next).fromCollection table) (next + 1)

/-- **The prefix of a connection is never lost.**  Whatever is built for a connection, with
sub-queries that start from the builders at hand or from new ones of the same connection, and
however it is compiled: in the loops and in the target of the statement there are only full names.
-/
theorem QueryScript.keepsPrefix [Naming] (c : Connection) {q : QueryScript}
    (hq : q.script.Prefixed ⟨{c.config.tablePrefix}, given⟩ false) {entry : Entry (Subject Script)}
    (he : entry.Prefixed ⟨{c.config.tablePrefix}, given⟩) :
    (q.build c).Always fun b => (entry.run b).Always fun e =>
      e.KeepsPrefix c.config.tablePrefix given b := by
  have hscript : q.script.Prefixed (.spelled c.config.tablePrefix given) false :=
    hq.mono (Set.Subset.refl _) Vocabulary.given_subset_spelled
  have hentry : entry.Prefixed (.spelled c.config.tablePrefix given) :=
    he.mono (Set.Subset.refl _) Vocabulary.given_subset_spelled
  refine (sound_build Vocabulary.closed_spelled (Set.mem_singleton _) hscript).mono fun b hb => ?_
  exact (hentry.run Vocabulary.closed_spelled hb).mono fun e he => hb.prefix_kept he

/-- A connection with a prefix. -/
def Connection.northern : Connection :=
  .ofConfig (Config.prefixed { } "got_") ⟨[], [], [], [], [], []⟩ 0

/-- Characters with a known house, joined with their places. -/
def QueryScript.bannermen : QueryScript where
  table := some "characters as c"
  script := .of [
    .joinWith .left "locations as l" [.columns .and "l.id" (.custom "==") "c.home"],
    .nested .and (.of [.hasRows .and false (.closure (.of [.fromCollection "houses as h",
      .compareColumns .and "h.id" (.custom "==") "c.house"]))]),
    .length "l.towers" (.custom ">") (.expression "2 + 2")]

/-- Each of them gets a seat. -/
def Entry.seated : Entry (Subject Script) :=
  .update (.operands [("seat", .query (.new (.of [.withPrefix "got_", .fromCollection "seats as s",
    .limitTo 1])))])

/-- The script sets one prefix and has one expression. -/
theorem QueryScript.prefixed_bannermen :
    bannermen.script.Prefixed ⟨{"got_"}, {"2 + 2"}⟩ false := by
  -- Most calls set no prefix, have no expression and no script inside.
  have hplain : ∀ {call : Call Script}, call.prefixes = [] → call.texts = [] → call.parts = [] →
      call.Prefixed ⟨{"got_"}, {"2 + 2"}⟩ ∧
        ∀ part ∈ call.parts, part.2.Prefixed ⟨{"got_"}, {"2 + 2"}⟩ part.1 := by
    intro call hprefixes htexts hparts
    rw [hparts]
    exact ⟨⟨by simp [hprefixes], by simp [htexts]⟩, fun _ h => nomatch h⟩
  have hhouses : Script.Prefixed ⟨{"got_"}, {"2 + 2"}⟩ false (.of [.fromCollection "houses as h",
      .compareColumns .and "h.id" (.custom "==") "c.house"]) :=
    .of_forall ⟨hplain rfl rfl rfl, hplain rfl rfl rfl⟩
  have hgroup : Script.Prefixed ⟨{"got_"}, {"2 + 2"}⟩ false (.of [.hasRows .and false (.closure (.of
      [.fromCollection "houses as h", .compareColumns .and "h.id" (.custom "==") "c.house"]))]) :=
    .of_forall ⟨⟨fun _ h => (nomatch h), fun _ h => nomatch h⟩, fun part hpart => by
      rw [List.mem_singleton.mp hpart]
      exact hhouses⟩
  refine .of_forall ⟨hplain rfl rfl rfl, ⟨⟨fun _ h => (nomatch h), fun _ h => nomatch h⟩,
    fun part hpart => ?_⟩, ⟨fun _ h => (nomatch h), fun aql h => List.mem_singleton.mp h⟩,
    fun _ h => nomatch h⟩
  rw [List.mem_singleton.mp hpart]
  exact hgroup

/-- The seat is the expression of the script. -/
theorem Entry.prefixed_seated : seated.Prefixed ⟨{"got_"}, {"2 + 2"}⟩ := by
  intro assignments hassignments a ha
  cases hassignments
  rw [List.mem_singleton.mp ha]
  refine ⟨fun _ h => (nomatch h), fun part hpart => ?_⟩
  rw [List.mem_singleton.mp hpart]
  exact .opening rfl (.of_forall ⟨
    ⟨⟨fun _ h => (nomatch h), fun _ h => nomatch h⟩, fun _ h => nomatch h⟩,
    ⟨fun _ h => (nomatch h), fun _ h => nomatch h⟩, fun _ h => nomatch h⟩)

/-- All four collections have the prefix. -/
theorem QueryScript.bannermen_keepsPrefix :
    ((bannermen.build .northern).Always fun b => (Entry.seated.run b).Always fun e =>
      e.KeepsPrefix "got_" {"2 + 2"} b) ∧
      ((StatementScript.query bannermen .seated).make .northern 0).1.toOption.map Compiled.aql =
        some ("FOR c IN got_characters LET lList = (FOR l IN got_locations " ++
          "FILTER l.\x60_key\x60 == c.\x60home\x60 RETURN l) " ++
          "FOR l IN (LENGTH(lList) > 0) ? lList : [\x7b\x7d] " ++
          "FILTER (LENGTH((FOR h IN got_houses FILTER h.\x60_key\x60 == c.\x60house\x60 " ++
          "RETURN h)) > 0) AND LENGTH(l.\x60towers\x60) > 2 + 2 " ++
          "UPDATE c WITH \x7bseat: (FOR s IN got_seats LIMIT 1 RETURN s)\x7d IN got_characters") :=
  ⟨keepsPrefix .northern prefixed_bannermen Entry.prefixed_seated, by decide +kernel⟩

end AqlBuilder
