import AqlBuilder.Alias.Rules
import AqlBuilder.Proofs.Aql.Reading
import AqlBuilder.Proofs.Query.Looped
import AqlBuilder.Proofs.Script.Searched
import AqlBuilder.Proofs.Statement.Copied
import AqlBuilder.Proofs.Statement.Shape

/-!
# Searches in statements

A search is written behind the main loop, whatever this iterates over. So a query that has a search
but no view any more is compiled to a search in the documents of a collection or in the rows of a
sub-query.

- `Builder.SearchesBehind`: pieces of a statement with a search behind the main loop.
- `Builder.yields_searching`: the statement of a query with a search has such pieces.
- `Builder.searching_without_view` is the law of runs of calls and of statements.
-/

namespace AqlBuilder

open Outcome Supply

/-- Pieces of a statement in which the search of a query stands behind the loop over its source. -/
def Builder.SearchesBehind (b : Builder) (s : Search) (source : Source Query)
    (pieces : List String) : Prop :=
  ∃ front main behind, pieces = front ++ [main, Aql.searchText b.scope s] ++ behind ∧
    ∃ text, main = Aql.loop source.docVar text ∧
      ∀ docVar name, source.Names docVar name → text = Aql.collectionName b.tablePrefix name

namespace Builder

variable {b w : Builder} {s : Search} {source : Source Query} {pieces : List String}

/-- The search is still behind its loop with further pieces behind it. -/
theorem SearchesBehind.append (h : b.SearchesBehind s source pieces) (more : List String) :
    b.SearchesBehind s source (pieces ++ more) := by
  obtain ⟨front, main, behind, rfl, hmain⟩ := h
  exact ⟨front, main, behind ++ more, by simp only [List.append_assoc], hmain⟩

/-- A loop over a collection or a view names it. -/
theorem yields_mainLoop (b : Builder) : (Aql.mainLoop b.compiled).Yields fun main =>
    ∃ source ∈ b.source, ∃ text, main = Aql.loop source.docVar text ∧
      ∀ docVar name, source.Names docVar name → text = Aql.collectionName b.tablePrefix name := by
  have hsource : b.compiled.source = b.source.map (Source.map Query.fragment) := rfl
  have hprefix : b.compiled.tablePrefix = b.tablePrefix := rfl
  unfold Aql.mainLoop
  rw [hsource, hprefix]
  cases hb : b.source with
  | none => exact yields_fail _
  | some source =>
      cases source with
      | collection name docVar =>
          exact yields_pure ⟨_, rfl, _, rfl, fun _ _ h => by cases h; rfl⟩
      | view name docVar =>
          exact yields_pure ⟨_, rfl, _, rfl, fun _ _ h => by cases h; rfl⟩
      | derived q docVar =>
          exact (yields_any _).map fun text _ => ⟨_, rfl, text, rfl, fun _ _ h => nomatch h⟩

/-- The loops of a query with a search have it behind the main loop. -/
theorem yields_loops_searching (hsearch : b.search = some s) :
    (Aql.loops b.compiled).Yields fun pieces => ∃ source ∈ b.source,
      b.SearchesBehind s source pieces := by
  have hcompiled : b.compiled.search = some s := hsearch
  refine (Aql.yields_loops_parts (yields_any _) b.yields_mainLoop (yields_any _)
    (yields_any _)).mono ?_
  rintro pieces ⟨front, main, joins, filters, -, ⟨source, hsource, hmain⟩, -, -, rfl⟩
  rw [hcompiled, b.scope_compiled]
  exact ⟨source, hsource, front, main, joins ++ filters, by simp, hmain⟩

/-- So does the statement of a query with a search. -/
theorem yields_searching (hsearch : b.search = some s) (hunions : b.unions = []) :
    b.toCompiled.Yields fun c => ∃ source ∈ b.source, ∃ pieces,
      b.SearchesBehind s source pieces ∧ c.aql = " ".intercalate pieces := by
  refine yields_checked b fun _ => yields_onCopy fun w hw => ?_
  have hunited : b.compiled.unions = [] := List.map_eq_nil_iff.mpr hunions
  have hstatement : w.statement = Aql.simpleStatement b.compiled := by
    unfold statement Aql.statement
    rw [hw, hunited]
    rfl
  rw [hstatement]
  refine (Aql.yields_simpleStatement_loops (yields_loops_searching hsearch)).map ?_
  rintro aql ⟨pieces, back, ⟨source, hsource, hpieces⟩, haql⟩
  exact ⟨source, hsource, pieces ++ back, hpieces.append back, haql⟩

/-- A finished query keeps its search and what it iterates over when another query takes it over. -/
theorem misplaced_adopt [Naming] (b sub : Builder) (category : Category) :
    (b.adopt (.finished sub) category).Always fun r => r.1.Misplaced ↔ sub.Misplaced := by
  have hrescoped : ∀ sub : Builder, (b.rescoped sub).setting = sub.setting := by
    intro sub
    unfold rescoped setting overView
    cases hsource : sub.source with
    | none => simp only [hsource]
    | some source =>
        cases source with
        | derived q docVar => simp only [hsource]
        | collection name docVar =>
            dsimp only
            cases b.scopedVariable? sub name docVar <;> simp only [hsource]
        | view name docVar =>
            dsimp only
            cases b.scopedVariable? sub name docVar <;> simp only [hsource]
  have hscoped : ∀ sub : Builder, (b.scopedFor sub category).setting = sub.setting := by
    intro sub
    unfold scopedFor
    split
    · exact hrescoped sub
    · rfl
  have hsub : (b.subBuilder (.finished sub)).Always fun q => q.setting = sub.setting :=
    always_pure rfl
  exact hsub.bind fun q hq => always_pure (misplaced_of_setting ((hscoped q).trans hq))

/-- **When a search is left without a view.**  After any calls a query has a search and iterates
over a collection or over a sub-query just if one of these calls set the source to it while there
was a search, and no later call set it to a view or began anew, or if the query was like that before
the calls and none of them did so. A query keeps this when it becomes part of another one. The
statement has the search behind the loop over the source, be it a view or not. -/
theorem searching_without_view [Naming] (b : Builder) :
    (∀ (calls : List (Call Action)) (next : Nat),
      (Call.applyAll calls b next).1.Misplaced ↔
        (b.Misplaced ∧ ∀ call ∈ calls, ¬ call.Settles) ∨
        ∃ before call after, calls = before ++ call :: after ∧
          call.Displaces (Call.applyAll before b next).1 ∧ ∀ later ∈ after, ¬ later.Settles) ∧
    (∀ (outer : Builder) (category : Category),
      (outer.adopt (.finished b) category).Always fun r => r.1.Misplaced ↔ b.Misplaced) ∧
    ∀ s : Search, b.search = some s →
      ((Aql.loops b.compiled).Yields fun pieces => ∃ source ∈ b.source,
        b.SearchesBehind s source pieces) ∧
      (b.unions = [] → b.toCompiled.Yields fun c => ∃ source ∈ b.source, ∃ pieces,
        b.SearchesBehind s source pieces ∧ c.aql = " ".intercalate pieces) :=
  ⟨fun calls next => Call.misplaced_applyAll calls b next, fun outer => misplaced_adopt outer b,
    fun _ hsearch => ⟨yields_loops_searching hsearch, yields_searching hsearch⟩⟩

/-- Calls that search for a text in a view, and then go over to a collection. -/
def searchMoved : List (Call Action) :=
  [.fromView "character_view as v", .fullTextSearch [.column "name"] (.string "stark") none,
    .fromCollection "characters"]

/-- There is no error, but a search in a collection. -/
theorem search_over_collection :
    (Call.applyAll searchMoved (Clauses.empty 1) 2).1.error = none ∧
    (Call.applyAll searchMoved (Clauses.empty 1) 2).1.Misplaced ∧
    ((Call.applyAll searchMoved (Clauses.empty 1) 2).1.toCompiled 2).1.toOption.map Compiled.aql =
      some ("FOR characterDoc IN characters SEARCH ANALYZER(characterDoc.\x60name\x60 IN "
        ++ "TOKENS(@1_search_1, @1_search_2), @1_search_2) RETURN characterDoc") := by
  refine ⟨by decide +kernel, ⟨by decide +kernel, by decide +kernel⟩, by decide +kernel⟩

/-- The collection is to blame: the query has a search when it is set, and nothing comes after
it. -/
theorem collection_displaces_view :
    (∃ before call after, searchMoved = before ++ call :: after ∧
      call.Displaces (Call.applyAll before (Clauses.empty 1) 2).1 ∧
        ∀ later ∈ after, ¬ later.Settles) ∧
    ∃ s, (Call.applyAll searchMoved (Clauses.empty 1) 2).1.search = some s ∧
      (Call.applyAll searchMoved (Clauses.empty 1) 2).1.toCompiled.Yields fun c =>
        ∃ source ∈ (Call.applyAll searchMoved (Clauses.empty 1) 2).1.source, ∃ pieces,
          (Call.applyAll searchMoved (Clauses.empty 1) 2).1.SearchesBehind s source pieces ∧
            c.aql = " ".intercalate pieces := by
  obtain ⟨hruns, -, -⟩ := searching_without_view (Clauses.empty 1)
  obtain ⟨-, -, hstatements⟩ :=
    searching_without_view (Call.applyAll searchMoved (Clauses.empty 1) 2).1
  have hmoved : (Call.applyAll searchMoved (Clauses.empty 1) 2).1.Misplaced :=
    ⟨by decide +kernel, by decide +kernel⟩
  obtain ⟨s, hsearch⟩ := Option.isSome_iff_exists.mp hmoved.1
  have hempty : ¬ Builder.Misplaced (Clauses.empty 1) :=
    not_misplaced_of_search (b := Clauses.empty 1) rfl
  refine ⟨((hruns searchMoved 2).mp hmoved).resolve_left fun h => hempty h.1, s,
    hsearch, (hstatements s hsearch).2 ?_⟩
  exact List.isEmpty_iff.mp (by decide +kernel)

end Builder

end AqlBuilder
