import AqlBuilder.Proofs.Query.Mentions
import AqlBuilder.Proofs.Query.Sound

/-!
# Loops over collections in compiled statements

What stands in the statement of a query that is written as a statement inside another one stands in
the other one as well, as statements are put together from the texts of their parts. So the loops of
all queries that are compiled with a query stand in its statement.

- `Builder.LoopsOver`: a query has a loop over a collection or a view.
- `Builder.Encloses.shows`, `Builder.Compiles.shows`: what stands in a statement inside.
- `Builder.LoopsOver.shows`: the loops of a query that has a certain prefix.
- `Builder.Quotes` are the texts for operands in a query, which were made before it is compiled.
-/

namespace AqlBuilder

open Outcome

/-- A source is the collection or the view with a name, and has a variable. -/
inductive Source.Names {Q : Type} : Source Q → String → String → Prop
  | collection {name docVar : String} : Names (.collection name docVar) docVar name
  | view {name docVar : String} : Names (.view name docVar) docVar name

/-- A query has a loop with a variable over the collection or the view with a name. -/
inductive Builder.LoopsOver (b : Builder) (docVar name : String) : Prop
  | main {s : Source Query} : b.source = some s → s.Names docVar name → LoopsOver b docVar name
  | joined {kind : JoinKind} {c : Builder} {s : Source Query} :
      ⟨kind, .of c⟩ ∈ b.joins → c.source = some s → s.Names docVar name → LoopsOver b docVar name

/-- A test has a text for an operand, be it in a group of conditions. -/
inductive Test.Quotes : Test Query → String → Prop
  | operand {t : Test Query} {aql : String} : .raw aql ∈ t.operands → Quotes t aql
  | nested {group : Builder} {x : Condition Query} {aql : String} :
      x ∈ group.filters → Quotes x.test aql → Quotes (.nested (.of group)) aql

/-- A query has a text for an operand, in its own clauses and not in a statement inside. -/
inductive Builder.Quotes (b : Builder) (aql : String) : Prop
  | filtered {x : Condition Query} : x ∈ b.filters → x.test.Quotes aql → Quotes b aql
  | having {x : Condition Query} : x ∈ b.havings → x.test.Quotes aql → Quotes b aql
  | restricted {kind : JoinKind} {c : Builder} {x : Condition Query} :
      ⟨kind, .of c⟩ ∈ b.joins → x ∈ c.filters → x.test.Quotes aql → Quotes b aql
  | defined {name : String} : ⟨name, .bound (.raw aql)⟩ ∈ b.definitions → Quotes b aql

variable {words : Vocabulary} {joined : Bool} {b c : Builder} {t : Test Query}
  {aql ref docVar name tablePrefix : String} {marks : List String}

section quotes

/-- What a sound test has for an operand is in the vocabulary. -/
theorem Test.Sound.quotes (h : t.Sound words.texts (Query.Sound words false)) (hq : t.Quotes aql) :
    aql ∈ words.texts := by
  induction hq with
  | operand hmem => exact h.operands _ hmem _ rfl
  | nested hx _ ih =>
      exact ih ((Query.sound_of.mp (h.queries _ List.mem_cons_self)).filters _ hx)

/-- The texts for operands in a sound query belong to the vocabulary, with or without an aggregate.
-/
theorem Builder.Quotes.mem_texts (hq : b.Quotes aql)
    (h : Builder.Sound words joined { b with aggregate := none }) : aql ∈ words.texts := by
  cases hq with
  | filtered hx hq => exact (h.filters _ hx).quotes hq
  | having hx hq => exact (h.havings _ hx).quotes hq
  | restricted hmem hx hq => exact ((h.joinedQuery hmem).filters _ hx).quotes hq
  | defined hmem => exact (h.definitions _ hmem).operand _ rfl _ rfl

end quotes

section texts

/-- A text stands where it stands, whatever stands in front of it. -/
theorem Stands.unmarked {part whole : String} (h : Stands marks part whole) :
    Stands [] part whole :=
  h.imp fun _ h => h.imp fun _ h => ⟨h.1, fun _ hmark => nomatch hmark⟩

/-- A text stands in pieces, whatever stands in front of it. -/
theorem StandsIn.unmarked {part : String} {pieces : List String} (h : StandsIn marks part pieces) :
    StandsIn [] part pieces := by
  obtain ⟨front, piece, back, rfl, _, _, _, hpart, -⟩ := h
  exact .of_mem hpart.unmarked (List.mem_append_right front List.mem_cons_self)

namespace Site

/-- Marks in front of a text may be forgotten. -/
theorem Shows.unmarked {site : Site} (h : site.Shows marks ref) : site.Shows [] ref := by
  cases site with
  | loops b => exact Yields.mono h fun _ htexts => StandsIn.unmarked htexts
  | selection b => exact Yields.mono h fun _ htexts => StandsIn.unmarked htexts
  | conditions known sc list =>
      exact Yields.mono h fun _ ⟨text, htext, hstands⟩ => ⟨text, htext, hstands.unmarked⟩
  | _ => exact Yields.mono h fun _ htext => Stands.unmarked htext

/-- The conditions on groups are written in the scope behind the groups, whatever it is. -/
theorem shows_havings (h : ∀ known sc, (conditions known sc b.havings).Shows marks ref) :
    (simple b).Shows marks ref := by
  refine (Aql.yields_simple_parts (yields_any _) (yields_any _)
    (fun _ _ => (h b.aliases _).filter) (yields_any _)).mono ?_
  rintro text ⟨loops, collected, havings, queries, -, -, hstands, -, rfl⟩
  exact ((hstands.before _).after _ |>.after _).intercalate

end Site

variable (hc : (Site.statement c).Shows [] ref)

include hc

/-- What stands in the statement of a query inside a test stands in the test. -/
theorem Test.Encloses.shows (h : t.Encloses c) (known : Registry) (sc : Scope) :
    (Site.test known sc t).Shows [] ref := by
  induction h generalizing known sc with
  | member => exact hc.embedded.map fun _ htext => stands_comparison (.inr htext)
  | compared => exact hc.value.map fun _ htext => stands_comparison (.inr htext)
  | rows => exact Site.shows_rows hc _
  | nested hx _ ih => exact Site.shows_nested (Site.shows_condition hx (ih hc _ _))

/-- What is shown by a query among the loops is shown by the loops. -/
theorem Builder.LoopsEnclose.shows (h : b.LoopsEnclose c) : (Site.loops b).Shows [] ref := by
  cases h with
  | derived hsource => exact (Site.shows_main hsource hc.embedded).unmarked
  | defined hmem =>
      obtain ⟨front, back, hsplit⟩ := List.append_of_mem hmem
      exact (Site.shows_definition hsplit (Yields.map hc.value fun _ htext =>
        htext.behind _)).unmarked
  | joined hmem hsource =>
      exact (Site.shows_join hmem (Site.yields_join_source hsource hc.embedded)).unmarked
  | restricted hmem hx h =>
      exact (Site.shows_join hmem (Site.yields_join_conditions
        (Site.shows_condition hx (h.shows hc _ _)))).unmarked
  | filtered hx h =>
      exact (Site.shows_filtered (Site.shows_condition hx (h.shows hc _ _))).unmarked

/-- What stands in a statement inside stands in the statement. -/
theorem Builder.Encloses.shows (h : b.Encloses c) : (Site.statement b).Shows [] ref := by
  cases h with
  | looped h => exact Site.shows_first (Site.shows_looped (h.shows hc))
  | having hx h =>
      exact Site.shows_first (Site.shows_havings fun _ _ =>
        Site.shows_condition hx (h.shows hc _ _))
  | selected hmem =>
      obtain ⟨front, back, hsplit⟩ := List.append_of_mem hmem
      exact (Site.shows_first (Site.shows_selected hsplit hc)).unmarked
  | combined hmem => exact Site.shows_branch hmem hc

/-- At any depth. -/
theorem Builder.Compiles.shows (h : b.Compiles c) : (Site.statement b).Shows [] ref := by
  induction h using Relation.ReflTransGen.head_induction_on with
  | refl => exact hc
  | head hstep _ ih => exact hstep.shows ih

end texts

section loops

/-- **The loops of a query over collections and views have the prefix**, if the query and those that
are joined have it. -/
theorem Builder.LoopsOver.shows (h : b.LoopsOver docVar name) (hpre : b.tablePrefix = tablePrefix)
    (hjoins : ∀ {kind : JoinKind} {c : Builder}, ⟨kind, .of c⟩ ∈ b.joins →
      c.tablePrefix = tablePrefix) :
    (Site.loops b).Shows [] (Aql.loop docVar (Aql.collectionName tablePrefix name)) := by
  have hloop : ∀ {s : Source Query}, s.Names docVar name →
      (Aql.sourceText tablePrefix (s.map Query.fragment)).2.Yields fun text =>
        Stands [] (Aql.loop docVar (Aql.collectionName tablePrefix name))
          (Aql.loop s.docVar text) := by
    intro s hs
    cases hs <;> exact yields_pure (Stands.refl _)
  cases h with
  | main hsource hs =>
      have hmain : (Aql.mainLoop b.compiled).Yields
          (Stands [] (Aql.loop docVar (Aql.collectionName tablePrefix name))) := by
        rw [Site.mainLoop_of_source hsource, hpre]
        exact (hloop hs).map fun _ htext => htext
      exact (Site.shows_mainLoop hmain).unmarked
  | joined hmem hsource hs =>
      have hjoined := hloop hs
      rw [← hjoins hmem] at hjoined
      have hshown := (Site.shows_join hmem (Site.yields_join_loop hsource hjoined)).unmarked
      rwa [hjoins hmem] at hshown

end loops

end AqlBuilder
