import AqlBuilder.Proofs.Query.Looped
import AqlBuilder.Proofs.Query.Named
import AqlBuilder.Proofs.Statement.Faults

/-!
# Prefixes in compiled statements

However a sound query with one prefix is compiled: wherever its statement says `FOR … IN` or names
the target of a change, the name is the full one, with the prefix in front.

- `Entry.Compiles` are the queries whose statements are part of a compiled statement, and
  `Entry.LoopsOver` are the loops over collections and views in it.
- `Entry.Selection` is the query whose loops are part of the statement of a change.
- `Entry.LoopsOver.shown`: each loop is in the statement, with the full name.
- `Builder.yields_targets`: so is the target of a change.
-/

namespace AqlBuilder

open Outcome

/-- The loops of the query are part of the statement of a change. A removal by key alone has none.
-/
inductive Entry.Selects (b : Builder) : Entry Builder → Prop
  | updated {changes : Changes Builder} : Selects b (.update changes)
  | adjusted {adjustment : Builder.Adjustment} {column : String} {amount : Value} :
      Selects b (.adjust adjustment column amount)
  | removed : Selects b (.delete none)
  | removedKey {key : Value} : (b.filters ≠ [] ∨ b.joins ≠ []) → Selects b (.delete (some key))

/-- The query whose loops are part of the statement of a change: the compiled one, or in a removal
by key the one with the condition on the key. -/
inductive Entry.Selection (b : Builder) : Entry Builder → Builder → Prop
  | updated {changes : Changes Builder} : Selection b (.update changes) b
  | adjusted {adjustment : Builder.Adjustment} {column : String} {amount : Value} :
      Selection b (.adjust adjustment column amount) b
  | removed : Selection b (.delete none) b
  | removedKey {key : Value} : (b.filters ≠ [] ∨ b.joins ≠ []) →
      Selection b (.delete (some key)) (b.keyed key)

/-- The statement of a query is part of a compiled statement. -/
inductive Entry.Compiles [Naming] (b : Builder) : Entry Builder → Builder → Prop
  | read {e : Entry Builder} {w c : Builder} : b.reading e = some w → w.Compiles c → Compiles b e c
  | selected {e : Entry Builder} {first c : Builder} :
      e.Selects b → b.LoopsEnclose first → first.Compiles c → Compiles b e c
  | assigned {changes : Changes Builder} {assignments : List (String × Operand Builder)}
      {key : String} {q c : Builder} :
      changes.assignments = .ok assignments → AssignsTo assignments key (.query q) →
        (b.rescoped q).Compiles c → Compiles b (.update changes) c

/-- A compiled statement has a loop with a variable over the collection or the view with a name. -/
inductive Entry.LoopsOver [Naming] (b : Builder) : Entry Builder → String → String → Prop
  | compiled {e : Entry Builder} {c : Builder} {docVar name : String} :
      e.Compiles b c → c.LoopsOver docVar name → LoopsOver b e docVar name
  | selected {e : Entry Builder} {docVar name : String} :
      e.Selects b → b.LoopsOver docVar name → LoopsOver b e docVar name
  | truncated {name docVar : String} :
      b.source = some (.collection name docVar) → LoopsOver b .truncate "doc" name

/-- What stands in front of the target of a change, and what stands behind it. -/
def Entry.writing {Q : Type} : Entry Q → Option (String × String)
  | .insert _ ignoreErrors =>
    some (" INTO ", (if ignoreErrors then " OPTIONS \x7bignoreErrors: true\x7d" else "") ++
      " RETURN NEW._key")
  | .upsert _ _ _ => some (" IN ", "")
  | .update _ => some (" IN ", "")
  | .adjust _ _ _ => some (" IN ", "")
  | .delete _ => some (" IN ", "")
  | .truncate => some (" IN ", "")
  | _ => none

variable {words : Vocabulary} {tablePrefix : String} {b c w : Builder} {e : Entry Builder}
  {ref docVar name : String}

namespace Builder

/-- A further condition brings no loop, and takes none away. -/
theorem LoopsOver.keyed (h : b.LoopsOver docVar name) (bindings : Store) (x : Condition Query) :
    LoopsOver { b with bindings := bindings, filters := b.filters ++ [x] } docVar name := by
  cases h with
  | main hsource hs => exact .main hsource hs
  | joined hmem hsource hs => exact .joined hmem hsource hs

/-- The query of a removal by key has the loops of its builder. -/
theorem LoopsEnclose.keyed (h : b.LoopsEnclose c) (bindings : Store) (x : Condition Query) :
    LoopsEnclose { b with bindings := bindings, filters := b.filters ++ [x] } c := by
  cases h with
  | derived hsource => exact .derived hsource
  | defined hmem => exact .defined hmem
  | joined hmem hsource => exact .joined hmem hsource
  | restricted hmem hx hc => exact .restricted hmem hx hc
  | filtered hx hc => exact .filtered (List.mem_append_left _ hx) hc

/-- What is read of a sound query is sound, but for the aggregate. -/
theorem Sound.reading (hb : b.Sound words false) (hread : b.reading e = some w) :
    Builder.Sound words false { w with aggregate := none } := by
  cases e with
  | select =>
      cases hread
      exact hb.unaggregated
  | existence =>
      cases hread
      exact hb.probe.unaggregated
  | aggregate function column =>
      cases hread
      exact hb.aggregated function column
  | _ => cases hread

end Builder

open Builder

/-- What stands in the loops of the query of a change stands in the statement of the change. -/
theorem Entry.Selection.shown [Naming] (h : e.Selection b w)
    (hloops : (Site.loops w).Shows [] ref) :
    (b.compile e).Yields fun s => Stands [] ref s.aql := by
  have hselection := Site.shows_chosen hloops
  cases h with
  | updated => exact yields_stands_updated hselection _
  | adjusted => exact yields_stands_adjusted hselection _ _ _
  | removed => exact yields_stands_removed hselection
  | removedKey hany => exact yields_stands_removedKey hany hselection

/-- What stands in the loops of a query, whatever further condition it has, stands in the statement
of a change of what it selects. -/
theorem Entry.Selects.shown [Naming] (h : e.Selects b) (hloops : (Site.loops b).Shows [] ref)
    (hkeyed : ∀ bindings x,
      (Site.loops { b with bindings := bindings, filters := b.filters ++ [x] }).Shows [] ref) :
    (b.compile e).Yields fun s => Stands [] ref s.aql := by
  cases h with
  | updated => exact Selection.shown .updated hloops
  | adjusted => exact Selection.shown .adjusted hloops
  | removed => exact Selection.shown .removed hloops
  | removedKey hany => exact Selection.shown (.removedKey hany) (hkeyed _ _)

namespace Entry.Compiles

/-- The queries in the statement of a sound query are sound, but for an aggregate. -/
theorem sound [Naming] (h : e.Compiles b c) (hb : b.Sound words false) (he : e.Sound words) :
    Builder.Sound words false { c with aggregate := none } := by
  cases h with
  | read hread hc => exact (hb.reading hread).compiles_unaggregated hc
  | selected _ hfirst hc => exact ((hb.loopsEnclose hfirst).compiles hc).unaggregated
  | assigned hchanges hassigns hc =>
      obtain ⟨front, back, rfl, -⟩ := hassigns
      have hq := (he _ hchanges _ (List.mem_append_right _ List.mem_cons_self)).query _ rfl
      exact ((hq.rescoped b).compiles hc).unaggregated

/-- What stands in the statement of such a query stands in the compiled statement. -/
theorem shown [Naming] (h : e.Compiles b c) (hc : (Site.statement c).Shows [] ref) :
    (b.compile e).Yields fun s => Stands [] ref s.aql := by
  cases h with
  | read hread h =>
      exact (yields_reading hread (h.shows hc)).mono fun _ ⟨_, haql, hstatement⟩ =>
        haql.trans hstatement
  | selected hselects hfirst h =>
      exact hselects.shown (hfirst.shows (h.shows hc)) fun bindings x =>
        (hfirst.keyed bindings x).shows (h.shows hc)
  | assigned hchanges hassigns h =>
      exact (yields_stands_assignedQuery hchanges hassigns (h.shows hc)).mono fun _ haql =>
        haql.unmarked

end Entry.Compiles

section target

variable {α : Type} {p : α → Prop} {around : String × String}

/-- A text that names the target of a query, with something in front of it and something behind. -/
def Builder.Targets (b : Builder) (around : String × String) (aql : String) : Prop :=
  ∃ front collection, b.target = .ok collection ∧ aql = front ++ around.1 ++ collection ++ around.2

/-- The last of some pieces ends their text. -/
theorem exists_intercalate_last (pieces : List String) (last : String) :
    ∃ front, " ".intercalate (pieces ++ [last]) = front ++ last := by
  by_cases hne : pieces = []
  · exact ⟨"", by simp [hne]⟩
  · refine ⟨" ".intercalate pieces ++ " ", ?_⟩
    rw [String.intercalate_append_of_ne_nil hne (List.cons_ne_nil last []),
      String.intercalate_singleton]

namespace Builder

/-- A copy has the target of the builder. -/
theorem yields_onTarget {f : Builder → String → Outcome α}
    (h : ∀ w : Builder, ∀ collection, w.compiled = b.compiled → b.target = .ok collection →
      (f w collection).Yields p) :
    (b.onCopy fun w => do f w (← ofExcept w.target)).Yields p :=
  yields_onCopy fun w hw => (yields_ofExcept fun collection htarget =>
    (target_of_compiled hw ▸ htarget : b.target = .ok collection)).bind fun collection htarget =>
      h w collection hw htarget

/-- An update ends with its target. -/
theorem yields_updateText_target [Naming] {assignments : List (String × Operand Builder)}
    (htarget : w.target = b.target) :
    (w.updateText assignments).Yields fun s => b.Targets (" IN ", "") s.aql := by
  refine (yields_updateText (p := fun _ => True) (q := fun _ => True) (yields_any _)
    (yields_any _)).mono fun s hs => ?_
  obtain ⟨loops, fields, collection, -, -, hcollection, haql⟩ := hs
  obtain ⟨front, hfront⟩ := exists_intercalate_last (loops ++ w.ordering)
    (w.updatePiece fields collection)
  refine ⟨front ++ ("UPDATE " ++ w.docVar.getD "" ++ " WITH " ++ (Assigned.nested fields).text),
    collection, htarget ▸ hcollection, ?_⟩
  rw [haql, hfront, updatePiece]
  simp only [String.append_assoc, String.append_empty]

/-- A removal ends with its target. -/
theorem yields_removeText_target {collection : String} (htarget : b.target = .ok collection) :
    (w.removeText collection).Yields fun s => b.Targets (" IN ", "") s.aql := by
  refine (yields_removeText (p := fun _ => True) (yields_any _) collection).mono fun s hs => ?_
  obtain ⟨loops, -, haql⟩ := hs
  obtain ⟨front, hfront⟩ := exists_intercalate_last (loops ++ w.ordering) (w.removePiece collection)
  refine ⟨front ++ ("REMOVE " ++ w.docVar.getD ""), collection, htarget, ?_⟩
  rw [haql, hfront, removePiece]
  simp only [String.append_assoc, String.append_empty]

/-- **Every change names the target of its query**, behind `INTO` or `IN`. -/
theorem yields_targets [Naming] (h : e.writing = some around) :
    (b.compile e).Yields fun s => b.Targets around s.aql := by
  cases e with
  | insert rows ignoreErrors =>
      cases h
      refine yields_checked b fun _ => (yields_any _).bind fun documents _ => ?_
      split
      · exact yields_fail _
      · refine yields_onTarget fun w collection _ htarget => yields_pure ?_
        have hcut : " INSERT doc INTO " = " INSERT doc" ++ " INTO " := by decide
        refine ⟨Aql.loop "doc" ("@" ++ w.bindings.nextName .insert) ++ " INSERT doc", collection,
          htarget, ?_⟩
        simp only [Compiled.ofStore, hcut, String.append_assoc]
  | upsert rows uniqueBy updated =>
      cases h
      refine yields_checked b fun _ => ?_
      split
      · exact yields_fail _
      refine (yields_any _).bind fun documents _ => ?_
      split
      · exact yields_fail _
      · refine yields_onTarget fun w collection _ htarget => yields_pure ?_
        exact ⟨_, collection, htarget, String.append_empty.symm⟩
  | update changes =>
      cases h
      refine yields_checked b fun _ => (yields_any _).bind fun assignments _ => ?_
      split
      · exact yields_fail _
      · exact yields_onCopy fun w hw => yields_updateText_target (target_of_compiled hw)
  | adjust adjustment column amount =>
      cases h
      refine yields_checked b fun _ => ?_
      split
      · exact yields_fail _
      · refine yields_onCopy fun w hw => yields_updateText_target ?_
        have htarget : w.target = b.target := target_of_compiled hw
        exact htarget
  | delete key =>
      cases h
      refine yields_checked b fun _ => yields_onTarget fun w collection hw htarget => ?_
      cases key with
      | none => exact yields_removeText_target htarget
      | some key =>
          change Yields (if _ then _ else _) _
          split
          · have hcut : "\x7d IN " = "\x7d" ++ " IN " := by decide
            refine yields_pure ⟨"REMOVE \x7b_key: @" ++ w.bindings.nextName .filter ++ "\x7d",
              collection, htarget, ?_⟩
            simp only [Compiled.ofStore, hcut, String.append_assoc, String.append_empty]
          · exact yields_removeText_target htarget
  | truncate =>
      cases h
      refine yields_checked b fun _ => yields_onTarget fun w collection _ htarget => yields_pure ?_
      have hcut : " REMOVE doc IN " = " REMOVE doc" ++ " IN " := by decide
      refine ⟨Aql.loop "doc" collection ++ " REMOVE doc", collection, htarget, ?_⟩
      simp only [Compiled.ofStore, hcut, String.append_assoc, String.append_empty]
  | _ => cases h

/-- The target is the collection of the query, with the prefix. -/
theorem exists_of_target {collection : String} (h : b.target = .ok collection) :
    ∃ name docVar, b.source = some (.collection name docVar) ∧
      collection = Aql.collectionName b.tablePrefix name := by
  unfold target at h
  split at h
  · rename_i name docVar hsource
    cases h
    exact ⟨name, docVar, hsource, rfl⟩
  all_goals cases h

end Builder

end target

section prefixed

variable (hb : b.Sound words false) (hwords : ∀ known ∈ words.prefixes, known = tablePrefix)

include hb hwords

/-- **Every loop over a collection or a view is in the statement, with the full name.** -/
theorem Entry.LoopsOver.shown [Naming] (he : e.Sound words) (h : e.LoopsOver b docVar name) :
    (b.compile e).Yields fun s =>
      Stands [] (Aql.loop docVar (Aql.collectionName tablePrefix name)) s.aql := by
  cases h with
  | compiled hc h =>
      have hsound := hc.sound hb he
      have hloops := h.shows (hwords _ hsound.tablePrefix) fun hmem =>
        hwords _ (hsound.joinedQuery hmem).tablePrefix
      exact hc.shown (Site.shows_first (Site.shows_looped hloops))
  | selected hselects h =>
      have hprefix := hwords _ hb.tablePrefix
      have hjoins : ∀ {kind : JoinKind} {c : Builder}, ⟨kind, .of c⟩ ∈ b.joins →
          c.tablePrefix = tablePrefix := fun hmem => hwords _ (hb.joinedQuery hmem).tablePrefix
      exact hselects.shown (h.shows hprefix hjoins) fun bindings x =>
        (h.keyed bindings x).shows hprefix hjoins
  | truncated hsource =>
      refine yields_checked b fun _ => yields_onCopy fun w hw => ?_
      rw [target_of_source hw hsource, hwords _ hb.tablePrefix]
      exact yields_pure (((Stands.refl _).before _).before _)

end prefixed

end AqlBuilder

/-!
## What the statements inside a statement are

What is known of the text of a part can be said of the whole: the part is always written as the same
text, and where the part stands in the whole, a text of this kind does. If the part is never
written, then neither is the whole.

- `Outcome.yields_of_shows` is this step for any part that is shown.
- `Entry.Compiles.yields`: for the statement of a query that is part of a compiled statement.
-/

namespace AqlBuilder

open Outcome

/-- No text stands in a shorter one. -/
theorem not_stands_longer (text : String) : ¬ Stands [] (text ++ "x") text := by
  rintro ⟨front, back, heq, -⟩
  have hlength := congrArg String.length heq
  simp only [String.length_append] at hlength
  have hletter : "x".length = 1 := rfl
  omega

/-- A part does not depend on the counter, and with whatever text it is written, that text stands in
the whole. So one of the texts that it may be written with stands there. -/
theorem Outcome.yields_of_shows {α : Type} {part : Outcome α} {whole : Outcome Compiled}
    {written : String → α → Prop} {p : String → Prop} (hsteady : part.Steady)
    (hp : part.Yields fun a => ∃ text, p text ∧ written text a)
    (hshows : ∀ text, part.Yields (written text) → whole.Yields fun s => Stands [] text s.aql) :
    whole.Yields fun s => ∃ text, p text ∧ Stands [] text s.aql := by
  by_cases hgives : ∃ a, part.Gives a
  · obtain ⟨a, ha⟩ := hgives
    obtain ⟨text, htext, hwritten⟩ := hp 0 a (ha 0)
    have hall : part.Yields (written text) := fun n other hother =>
      Except.ok.inj ((ha n).symm.trans hother) ▸ hwritten
    exact (hshows text hall).mono fun s hs => ⟨text, htext, hs⟩
  · intro n s hs
    have hnone : part.Yields (written (s.aql ++ "x")) := fun m a ha =>
      absurd ⟨a, hsteady.gives ha⟩ hgives
    exact absurd (hshows _ hnone n s hs) (not_stands_longer s.aql)

/-- The statement of a query that is part of a compiled statement stands in it. -/
theorem Entry.Compiles.yields [Naming] {b c : Builder} {e : Entry Builder} {p : String → Prop}
    (h : e.Compiles b c) (hc : c.statement.Yields p) :
    (b.compile e).Yields fun s => ∃ text, p text ∧ Stands [] text s.aql := by
  have hwritten :=
    hc.mono fun text htext => (⟨text, htext, .refl text⟩ : ∃ t, p t ∧ Stands [] t text)
  exact yields_of_shows c.steady_statement hwritten fun _ hshown => h.shown hshown

end AqlBuilder
