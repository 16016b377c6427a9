import AqlBuilder.Proofs.Aql.Reading
import AqlBuilder.Proofs.Query.Fragment
import AqlBuilder.Proofs.Transaction.Inferred

/-!
# Where queries visit collections

A sub-query is written in parentheses, and its loops can be seen from outside unless a function is
applied to the parentheses: `LENGTH` to a sub-query whose rows are counted, `FIRST` to one that has
a single row, `UNION` to the first query of a union. The name of the function then grows to the
keyword of the first loop.

- `Visits` has one rule for each way from a query to a loop that can be seen from outside.
- `Visits.shows`: along these ways every loop is in the text of the query.
-/

namespace AqlBuilder

open Outcome

/-- A part of a query that is written as a text of its own. -/
inductive Place
  | statement (b : Builder)
  /-- The statement without regard to unions. -/
  | simple (b : Builder)
  /-- Everything up to the filter. -/
  | loops (b : Builder)
  | source (tablePrefix : String) (s : Source Query)
  | conditions (list : List (Condition Query))
  | test (t : Test Query)
  /-- A query as the value of an expression. -/
  | value (q : Query)

/-- A part of a query visits a collection, and no function is applied to a query on the way. -/
inductive Visits : Place → String → Prop
  | collection {tablePrefix table docVar : String} :
      IsWord docVar → Collections.isCollectionName (tablePrefix ++ table).toList = true →
        Visits (.source tablePrefix (.collection table docVar)) (tablePrefix ++ table)
  | view {tablePrefix table docVar : String} :
      IsWord docVar → Collections.isCollectionName (tablePrefix ++ table).toList = true →
        Visits (.source tablePrefix (.view table docVar)) (tablePrefix ++ table)
  | derived {tablePrefix docVar name : String} {c : Builder} :
      Visits (.statement c) name → Visits (.source tablePrefix (.derived (.of c) docVar)) name
  | value {c : Builder} {name : String} :
      c.limit ≠ some 1 → Visits (.statement c) name → Visits (.value (.of c)) name
  /-- A sub-query that was compiled when it was bound. -/
  | operand {t : Test Query} {aql name : String} :
      .raw aql ∈ t.operands → Iterates aql name → Visits (.test t) name
  | member {column name : String} {c : Builder} {negated : Bool} :
      Visits (.statement c) name → Visits (.test (.memberOfQuery column (.of c) negated)) name
  | compared {column name : String} {operator : Operator} {q : Query} :
      Visits (.value q) name → Visits (.test (.compareQuery column operator q)) name
  | nested {c : Builder} {name : String} :
      Visits (.conditions c.filters) name → Visits (.test (.nested (.of c))) name
  | condition {list : List (Condition Query)} {x : Condition Query} {name : String} :
      x ∈ list → Visits (.test x.test) name → Visits (.conditions list) name
  | defined {b : Builder} {letVar name : String} {q : Query} :
      ⟨letVar, .query q⟩ ∈ b.definitions → Visits (.value q) name → Visits (.loops b) name
  | bound {b : Builder} {letVar aql name : String} :
      ⟨letVar, .bound (.raw aql)⟩ ∈ b.definitions → Iterates aql name → Visits (.loops b) name
  | main {b : Builder} {s : Source Query} {name : String} :
      b.source = some s → Visits (.source b.tablePrefix s) name → Visits (.loops b) name
  | joined {b c : Builder} {kind : JoinKind} {s : Source Query} {name : String} :
      ⟨kind, .of c⟩ ∈ b.joins → c.source = some s → Visits (.source c.tablePrefix s) name →
        Visits (.loops b) name
  | restricted {b c : Builder} {kind : JoinKind} {name : String} :
      ⟨kind, .of c⟩ ∈ b.joins → Visits (.conditions c.filters) name → Visits (.loops b) name
  | filtered {b : Builder} {name : String} :
      Visits (.conditions b.filters) name → Visits (.loops b) name
  | looped {b : Builder} {name : String} : Visits (.loops b) name → Visits (.simple b) name
  | having {b : Builder} {name : String} :
      Visits (.conditions b.havings) name → Visits (.simple b) name
  | selected {b : Builder} {q : Query} {asName name : String} :
      .sub q asName ∈ b.columns → Visits (.value q) name → Visits (.simple b) name
  | alone {b : Builder} {name : String} :
      b.unions = [] → Visits (.simple b) name → Visits (.statement b) name
  | branch {b c : Builder} {all : Bool} {name : String} :
      ⟨.of c, all⟩ ∈ b.unions → Visits (.statement c) name → Visits (.statement b) name

/-- One of the pieces of a statement has a loop over a collection. Behind a piece there is a
blank. -/
def Seen (name : String) (texts : List String) : Prop :=
  ∃ text ∈ texts, Iterates (text ++ " ") name

/-- The text of a part of a query has a loop over a collection. -/
def Place.Shows (name : String) : Place → Prop
  | statement b => (Aql.statement b.compiled).Yields (Iterates · name)
  | simple b => (Aql.simpleStatement b.compiled).Yields (Iterates · name)
  | loops b => (Aql.loops b.compiled).Yields (Seen name)
  | source tablePrefix s => (Aql.sourceText tablePrefix (s.map Query.fragment)).2.Yields fun text =>
      Iterates (Aql.loop s.docVar text ++ " ") name
  | conditions list =>
      ∀ scope, (Aql.conditions scope (list.map (Condition.map Query.fragment))).Yields
      fun text => ∃ t ∈ text, Iterates t name
  | test t => ∀ scope, ((t.map Query.fragment).text scope).Yields (Iterates · name)
  | value q => q.fragment.value.Yields (Iterates · name)

section texts

variable {text whole name : String}

/-- A text has the loops of every text that stands in it. -/
theorem Iterates.within (h : Iterates text name) (hbegins : Begins text whole) :
    Iterates whole name := by
  obtain ⟨docVar, tablePrefix, table, hvar, hname, hvalid, hloop⟩ := h
  exact ⟨docVar, tablePrefix, table, hvar, hname, hvalid, hloop.trans hbegins⟩

/-- A loop behind an opening is one, whatever stands in front. -/
theorem Iterates.behind (h : Iterates text name) (front : String) {mark : String}
    (hmark : Opening mark) : Iterates (front ++ mark ++ text) name :=
  h.within ((Begins.refl text).behind front hmark)

/-- A loop behind opening parentheses is one. -/
theorem Iterates.opened (h : Iterates text name) {mark : String}
    (hmark : Text.Opens mark.toList) : Iterates (mark ++ text) name :=
  h.within ((Begins.refl text).opened hmark)

theorem Iterates.before (h : Iterates text name) (back : String) : Iterates (text ++ back) name :=
  h.within ((Begins.refl text).before back)

theorem Iterates.parenthesized (h : Iterates text name) : Iterates ("(" ++ text ++ ")") name :=
  h.within (Begins.refl text).parenthesized

/-- What is seen in one of the pieces is seen in the statement if more pieces follow. -/
theorem Seen.iterates {texts back : List String} (h : Seen name texts) (hback : back ≠ []) :
    Iterates (" ".intercalate (texts ++ back)) name := by
  obtain ⟨text, hmem, htext⟩ := h
  obtain ⟨front, rest, rfl⟩ := List.append_of_mem hmem
  have hrest : Iterates (" ".intercalate (text :: (rest ++ back))) name := by
    rw [String.intercalate_cons_of_ne_nil (by simp [hback])]
    exact htext.before _
  rw [List.append_assoc, List.cons_append]
  by_cases hfront : front = []
  · rw [hfront, List.nil_append]
    exact hrest
  · rw [String.intercalate_append_of_ne_nil hfront (by simp)]
    exact hrest.behind _ (by decide)

/-- The last piece of a statement is behind a blank or at the front. -/
theorem Iterates.last (h : Iterates text name) (texts : List String) :
    Iterates (" ".intercalate (texts ++ [text])) name := by
  have hblank : Opening " " := by decide
  by_cases htexts : texts = []
  · rw [htexts, List.nil_append, String.intercalate_singleton]
    exact h
  · rw [String.intercalate_append_of_ne_nil htexts (List.cons_ne_nil text []),
      String.intercalate_singleton]
    exact h.behind _ hblank

/-- A loop in one of several pieces is in one of more pieces. -/
theorem Seen.mono {texts all : List String} (h : Seen name texts) (hsub : texts ⊆ all) :
    Seen name all := by
  obtain ⟨text, hmem, htext⟩ := h
  exact ⟨text, hsub hmem, htext⟩

end texts

section outcomes

variable {α β : Type} {p : α → Prop} {r : β → Prop}

/-- What is true of the result for one item of a list is true of one of the results. -/
theorem Outcome.yields_each_mem {f : α → Outcome β} {items : List α} {item : α}
    (hitem : item ∈ items) (h : (f item).Yields r) :
    (each f items).Yields fun results => ∃ b ∈ results, r b := by
  induction items with
  | nil => cases hitem
  | cons first rest ih =>
      rcases List.mem_cons.mp hitem with rfl | hitem
      · refine h.bind fun b hb => (yields_any _).map fun results _ => ?_
        exact ⟨b, List.mem_cons_self, hb⟩
      · refine (yields_any _).bind fun _ _ => (ih hitem).map fun results ⟨b, hmem, hb⟩ => ?_
        exact ⟨b, List.mem_cons_of_mem _ hmem, hb⟩

end outcomes

section fragments

variable {b : Builder} {name : String}

/-- A statement in parentheses. -/
theorem Query.yields_embedded {p : String → Prop} (h : (Aql.statement b.compiled).Yields p) :
    (Query.of b).fragment.embedded.Yields fun text => ∃ aql, p aql ∧ text = "(" ++ aql ++ ")" := by
  rw [fragment_of]
  unfold Fragment.embedded
  cases (fragmentOver fragment b).error with
  | some e => exact yields_fail e
  | none =>
      have hstatement : (fragmentOver fragment b).statement.Yields p := fun n a ha => h _ a ha
      exact hstatement.map fun aql haql => ⟨aql, haql, rfl⟩

end fragments

namespace Place

variable {b c : Builder} {name : String}

/-- A loop in the statement of a query is one where it is embedded. -/
theorem Shows.embedded (h : (Place.statement b).Shows name) :
    (Query.of b).fragment.embedded.Yields (Iterates · name) :=
  (Query.yields_embedded h).mono fun _ ⟨_, haql, htext⟩ => htext ▸ haql.parenthesized

/-- A source shows its collection if the variable and the name are single words. -/
theorem shows_collection {tablePrefix table docVar : String} (hvar : IsWord docVar)
    (hname : Collections.isCollectionName (tablePrefix ++ table).toList = true) :
    (Place.source tablePrefix (.collection table docVar)).Shows (tablePrefix ++ table) :=
  yields_pure ⟨docVar, tablePrefix, table, hvar, rfl, hname, .refl _⟩

/-- A derived source shows what its query shows. -/
theorem shows_derived {tablePrefix docVar : String} (h : (Place.statement b).Shows name) :
    (Place.source tablePrefix (.derived (.of b) docVar)).Shows name := by
  have hin : Opening " IN " := by decide
  refine h.embedded.mono fun text htext => ?_
  exact (htext.behind ("FOR " ++ docVar) hin).before " "

/-- A query that is not limited to one row shows as a value what its statement shows. -/
theorem shows_value (hlimit : b.limit ≠ some 1) (h : (Place.statement b).Shows name) :
    (Place.value (.of b)).Shows name := by
  refine h.embedded.map fun text htext => ?_
  have hmany : (Query.of b).fragment.singleRow = false := by
    rw [Query.singleRow_fragment]
    exact beq_false_of_ne hlimit
  rw [hmany]
  exact htext

section tests

variable {scope : Scope} {left right : String} {operator : Operator}

/-- A loop on the right of a comparison is one. -/
theorem iterates_right (h : Iterates right name) (left : String) (operator : Operator) :
    Iterates (Aql.comparison left operator right) name :=
  h.behind (left ++ " " ++ operator.text) (by decide)

/-- A loop on the left of a comparison is one. -/
theorem iterates_left (h : Iterates left name) (operator : Operator) (right : String) :
    Iterates (Aql.comparison left operator right) name := by
  unfold Aql.comparison
  simp only [String.append_assoc]
  exact h.before _

/-- A loop in a bound of a range is one. -/
theorem iterates_between {column low high : String} (negated : Bool)
    (h : Iterates low name ∨ Iterates high name) :
    Iterates (Aql.between column low high negated) name := by
  have hless : Opening " < " := by decide
  have hgreater : Opening " > " := by decide
  have hatLeast : Opening " >= " := by decide
  have hatMost : Opening " <= " := by decide
  unfold Aql.between
  cases negated with
  | false =>
      rcases h with h | h
      · exact (((((h.behind _ hatLeast).before _).before _).before _).before _).before _
      · exact (h.behind _ hatMost).before _
  | true =>
      rcases h with h | h
      · exact (((((h.behind _ hless).before _).before _).before _).before _).before _
      · exact (h.behind _ hgreater).before _

/-- Every operand of a test is written behind a blank or at the front. -/
theorem shows_operand {t : Test Query} {aql : String} (hmem : .raw aql ∈ t.operands)
    (h : Iterates aql name) : (Place.test t).Shows name := by
  intro scope
  have hcomma : Opening ", " := by decide
  cases t with
  | compare column operator value =>
      obtain rfl := List.mem_singleton.mp hmem
      refine yields_pure ?_
      split
      · exact (h.behind _ hcomma).before _
      · exact iterates_right h _ _
  | between column low high negated =>
      refine yields_pure (iterates_between negated ?_)
      rcases List.mem_pair.mp hmem with rfl | rfl
      · exact Or.inl h
      · exact Or.inr h
  | member column values negated =>
      obtain rfl := List.mem_singleton.mp hmem
      exact yields_pure (iterates_right h _ _)
  | raw text =>
      cases List.mem_singleton.mp hmem
      exact yields_pure h
  | contains column value all negated =>
      obtain rfl := List.mem_singleton.mp hmem
      exact yields_pure (iterates_left h _ _)
  | length column operator value =>
      obtain rfl := List.mem_singleton.mp hmem
      exact yields_pure (iterates_right h _ _)
  | date part column operator value =>
      obtain rfl := List.mem_singleton.mp hmem
      exact yields_pure (iterates_right h _ _)
  | bits column operator value =>
      obtain rfl := List.mem_singleton.mp hmem
      simp only [Test.map, Test.text]
      cases operator.bitFunction? with
      | none => exact yields_fail _
      | some function => exact yields_pure (((h.behind _ hcomma).before _).before _)
  | _ => cases hmem

/-- A membership in the rows of a query shows what the query shows. -/
theorem shows_member {column : String} (h : (Place.statement c).Shows name) (negated : Bool) :
    (Place.test (.memberOfQuery column (.of c) negated)).Shows name :=
  fun _ => h.embedded.map fun _ htext => iterates_right htext _ _

/-- A comparison with the value of a query shows what the value shows. -/
theorem shows_compared {column : String} {operator : Operator} {q : Query}
    (h : (Place.value q).Shows name) :
    (Place.test (.compareQuery column operator q)).Shows name :=
  fun _ => h.map fun _ htext => iterates_right htext _ _

/-- A group shows what its conditions show. -/
theorem shows_nested (h : (Place.conditions c.filters).Shows name) :
    (Place.test (.nested (.of c))).Shows name := by
  intro scope
  have hconditions : (Query.of c).fragment.conditions.Yields fun text =>
      ∃ t ∈ text, Iterates t name := by
    rw [Query.conditions_fragment]
    exact h _
  refine hconditions.bind fun text ⟨t, htext, ht⟩ => ?_
  cases htext
  exact yields_pure ht.parenthesized

end tests

section lists

variable {scope : Scope} {list : List (Condition Query)} {x : Condition Query}

/-- Further conditions begin with a blank, so their loops are seen behind anything. -/
theorem yields_furtherConditions_mem (hx : x ∈ list) (h : (Place.test x.test).Shows name) :
    (Aql.furtherConditions scope (list.map (Condition.map Query.fragment))).Yields fun text =>
      ∀ front, Iterates (front ++ text) name := by
  have hblank : Opening " " := by decide
  induction list with
  | nil => cases hx
  | cons first rest ih =>
      rcases List.mem_cons.mp hx with rfl | hx
      · refine (h scope).bind fun text htext => (yields_any _).map fun further _ front => ?_
        rw [← String.append_assoc, ← String.append_assoc, ← String.append_assoc]
        exact (htext.behind _ hblank).before _
      · refine (yields_any _).bind fun text _ => (ih hx).map fun further hfurther front => ?_
        rw [← String.append_assoc]
        exact hfurther _

/-- A list shows what one of its conditions shows. -/
theorem shows_condition (hx : x ∈ list) (h : (Place.test x.test).Shows name) :
    (Place.conditions list).Shows name := by
  intro scope
  cases list with
  | nil => cases hx
  | cons first rest =>
      rcases List.mem_cons.mp hx with rfl | hx
      · refine (h scope).bind fun text htext => (yields_any _).map fun further _ => ?_
        exact ⟨_, rfl, htext.before further⟩
      · refine (yields_any _).bind fun text _ =>
          (yields_furtherConditions_mem hx h).map fun further hfurther => ?_
        exact ⟨_, rfl, hfurther text⟩

/-- A filter shows what its conditions show. -/
theorem yields_filter (h : (Place.conditions list).Shows name) :
    (Aql.filter scope (list.map (Condition.map Query.fragment))).Yields (Seen name) := by
  have hfilter : Opening "FILTER " := by decide
  refine (h scope).bind fun text ⟨t, htext, ht⟩ => ?_
  cases htext
  exact yields_pure ⟨_, List.mem_singleton_self _, (ht.opened hfilter.opens).before " "⟩

end lists

section loops

variable {letVar aql : String} {q : Query} {s : Source Query} {kind : JoinKind}

/-- A definition shows what its query shows as a value. -/
theorem yields_definition {scope : Scope} (h : (Place.value q).Shows name) :
    (Aql.definition scope ⟨letVar, .query q.fragment⟩).Yields fun text =>
      Iterates (text ++ " ") name := by
  have hequals : Opening " = " := by decide
  exact Yields.map h fun text htext => (htext.behind _ hequals).before " "

/-- A definition shows what the expression shows that it is bound to. -/
theorem yields_definition_bound {scope : Scope} (h : Iterates aql name) :
    (Aql.definition scope ⟨letVar, .bound (.raw aql)⟩).Yields fun text =>
      Iterates (text ++ " ") name := by
  have hequals : Opening " = " := by decide
  exact Yields.map (yields_pure rfl) fun text htext => htext ▸ (h.behind _ hequals).before " "

/-- The main loop shows what its source shows. -/
theorem yields_mainLoop (hsource : b.source = some s)
    (h : (Place.source b.tablePrefix s).Shows name) :
    (Aql.mainLoop b.compiled).Yields fun text => Iterates (text ++ " ") name := by
  have hmain : Aql.mainLoop b.compiled = (do
      pure (Aql.loop s.docVar
        (← (Aql.sourceText b.tablePrefix (s.map Query.fragment)).2))) := by
    unfold Aql.mainLoop Builder.compiled Clauses.map
    rw [hsource]
    cases s <;> rfl
  rw [hmain]
  exact Yields.map h fun _ htext => htext

/-- The restriction of a join begins with a blank or is empty. -/
theorem iterates_restricted {loop : String} (h : Iterates (loop ++ " ") name)
    (conditions : Option String) (text : String) : Iterates (loop ++ (match conditions with
      | some conditions => " FILTER " ++ conditions
      | none => "") ++ " " ++ text) name := by
  cases conditions with
  | none =>
      dsimp only
      rw [String.append_empty]
      exact h.before text
  | some conditions =>
      have hcut : loop ++ (" FILTER " ++ conditions) ++ " " ++ text =
          loop ++ " " ++ ("FILTER " ++ conditions ++ " " ++ text) := by simp [← String.toList_inj]
      dsimp only
      rw [hcut]
      exact h.before _

/-- A loop in the conditions of a join is one. -/
theorem iterates_restriction {loop condition : String} (h : Iterates condition name)
    (text : String) : Iterates (loop ++ (" FILTER " ++ condition) ++ " " ++ text) name := by
  have hfilter : Opening " FILTER " := by decide
  rw [← String.append_assoc]
  exact ((h.behind loop hfilter).before _).before _

/-- What is seen in a loop and its restriction with a blank behind them is seen in the loops of a
join. -/
theorem iterates_joinText {docVar source filter : String}
    (h : ∀ text, Iterates (Aql.loop docVar source ++ filter ++ " " ++ text) name) :
    Iterates ((match kind with
      | .left => Aql.leftLoop docVar source filter
      | _ => Aql.loop docVar source ++ filter) ++ " ") name := by
  have hequals : Opening " = (" := by decide
  have hplain : Iterates (Aql.loop docVar source ++ filter ++ " ") name := by
    have hall := h ""
    rwa [String.append_empty] at hall
  cases kind with
  | left =>
      have hcut : Aql.leftLoop docVar source filter = "LET " ++ (docVar ++ "List") ++ " = (" ++
          (Aql.loop docVar source ++ filter ++ " " ++ ("RETURN " ++ docVar ++ ") " ++
            Aql.loop docVar ("(LENGTH(" ++ (docVar ++ "List") ++ ") > 0) ? " ++
              (docVar ++ "List") ++ " : [\x7b\x7d]"))) := by
        simp [Aql.leftLoop, Aql.loop, ← String.toList_inj]
      dsimp only
      rw [hcut]
      exact ((h _).behind _ hequals).before " "
  | _ => exact hplain

/-- A join shows what its source shows. -/
theorem yields_joinLoop_source (hsource : c.source = some s)
    (h : (Place.source c.tablePrefix s).Shows name) :
    (Aql.joinLoop ⟨kind, (Query.of c).fragment⟩).Yields fun text => Iterates
    (text ++ " ") name := by
  have hfragment : (Query.of c).fragment.source =
      some (s.docVar, (Aql.sourceText c.tablePrefix (s.map Query.fragment)).2) := by
    rw [Query.source_fragment, hsource]
    cases s <;> rfl
  unfold Aql.joinLoop
  rw [hfragment]
  refine Yields.bind h fun source hloop => (yields_any _).map fun conditions _ => ?_
  exact iterates_joinText fun text => iterates_restricted hloop conditions text

/-- A join shows what its conditions show. -/
theorem yields_joinLoop_conditions (h : (Place.conditions c.filters).Shows name) :
    (Aql.joinLoop ⟨kind, (Query.of c).fragment⟩).Yields fun text => Iterates
    (text ++ " ") name := by
  have hconditions : (Query.of c).fragment.conditions.Yields fun text =>
      ∃ t ∈ text, Iterates t name := by
    rw [Query.conditions_fragment]
    exact h _
  unfold Aql.joinLoop
  cases (Query.of c).fragment.source with
  | none => exact yields_fail _
  | some s =>
      refine (yields_any _).bind fun source _ => hconditions.map fun text ⟨t, htext, ht⟩ => ?_
      cases htext
      exact iterates_joinText fun text => iterates_restriction ht text

/-- The loops of a query are those of its definitions, its source, its joins and its filter. -/
theorem shows_loops
    (h : (Outcome.each (Aql.definition b.compiled.scope) b.compiled.definitions).Yields
      (Seen name) ∨
      (Aql.mainLoop b.compiled).Yields (fun text => Iterates (text ++ " ") name) ∨
      (Outcome.each Aql.joinLoop b.compiled.joins).Yields (Seen name) ∨
      (Aql.filter b.compiled.scope b.compiled.filters).Yields (Seen name)) :
    (Place.loops b).Shows name := by
  change (Aql.loops b.compiled).Yields (Seen name)
  unfold Aql.loops
  rcases h with h | h | h | h
  · refine h.bind fun definitions hseen => (yields_any _).bind fun main _ => ?_
    refine (yields_any _).bind fun joins _ => (yields_any _).map fun filters _ => ?_
    exact hseen.mono fun text htext => by simp [htext]
  · refine (yields_any _).bind fun definitions _ => h.bind fun main hseen => ?_
    refine (yields_any _).bind fun joins _ => (yields_any _).map fun filters _ => ?_
    exact ⟨main, by simp, hseen⟩
  · refine (yields_any _).bind fun definitions _ => (yields_any _).bind fun main _ => ?_
    refine h.bind fun joins hseen => (yields_any _).map fun filters _ => ?_
    exact hseen.mono fun text htext => by simp [htext]
  · refine (yields_any _).bind fun definitions _ => (yields_any _).bind fun main _ => ?_
    refine (yields_any _).bind fun joins _ => h.map fun filters hseen => ?_
    exact hseen.mono fun text htext => by simp [htext]

end loops

section statements

variable {q : Query} {asName : String}

/-- The pieces of a statement in front of its last one. -/
theorem shows_simple
    (h : (Place.loops b).Shows name ∨
      (∀ scope, (Aql.filter scope b.compiled.havings).Yields (Seen name)) ∨
      (Aql.selectedQueries b.compiled.columns).Yields (Seen name)) :
    (Place.simple b).Shows name := by
  change (Aql.simpleStatement b.compiled).Yields (Iterates · name)
  unfold Aql.simpleStatement
  rcases h with h | h | h
  · refine Yields.bind h fun loops hseen => (yields_any _).bind fun collected _ => ?_
    refine (yields_any _).bind fun havings _ => (yields_any _).map fun queries _ => ?_
    refine Seen.iterates (hseen.mono fun text htext => ?_) (List.cons_ne_nil _ [])
    simp [htext]
  · refine (yields_any _).bind fun loops _ => (yields_any _).bind fun collected _ => ?_
    refine (h _).bind fun havings hseen => (yields_any _).map fun queries _ => ?_
    refine Seen.iterates (hseen.mono fun text htext => ?_) (List.cons_ne_nil _ [])
    simp [htext]
  · refine (yields_any _).bind fun loops _ => (yields_any _).bind fun collected _ => ?_
    refine (yields_any _).bind fun havings _ => h.map fun queries hseen => ?_
    refine Seen.iterates (hseen.mono fun text htext => ?_) (List.cons_ne_nil _ [])
    simp [htext]

/-- Selected queries show what one of them shows as a value. -/
theorem yields_selectedQueries {columns : List (Selector Query)} (hmem : .sub q asName ∈ columns)
    (h : (Place.value q).Shows name) :
    (Aql.selectedQueries (columns.map (Selector.map Query.fragment))).Yields (Seen name) := by
  have hequals : Opening " = " := by decide
  induction columns with
  | nil => cases hmem
  | cons first rest ih =>
      rcases List.mem_cons.mp hmem with rfl | hrest
      · refine Yields.bind h fun value hvalue => (yields_any _).map fun others _ => ?_
        exact ⟨_, List.mem_cons_self, (hvalue.behind _ hequals).before " "⟩
      · cases first with
        | sub other otherName =>
            refine (yields_any _).bind fun value _ => (ih hrest).map fun others hothers => ?_
            exact hothers.mono (List.subset_cons_self _ _)
        | _ => exact ih hrest

/-- A union keeps the loops of its rows that stand behind a blank. -/
theorem yields_combined_rows {rows : String} (h : ∀ front, Iterates (front ++ rows) name)
    (unions : List (UnionBranch Fragment)) :
    (Aql.combined rows unions).Yields fun text => ∀ front, Iterates (front ++ text) name := by
  induction unions generalizing rows with
  | nil => exact yields_pure h
  | cons branch rest ih =>
      refine (yields_any _).bind fun others _ => ih fun front => ?_
      simp only [← String.append_assoc]
      exact ((h _).before _).before _ |>.before _

/-- Combined rows show what one of the queries shows. -/
theorem yields_combined_mem {rows : String} {unions : List (UnionBranch Query)} {all : Bool}
    (hmem : ⟨.of c, all⟩ ∈ unions) (h : (Place.statement c).Shows name) :
    (Aql.combined rows (unions.map (UnionBranch.map Query.fragment))).Yields fun text =>
      ∀ front, Iterates (front ++ text) name := by
  have hcomma : Opening ", " := by decide
  induction unions generalizing rows with
  | nil => cases hmem
  | cons first rest ih =>
      rcases List.mem_cons.mp hmem with rfl | hrest
      · refine h.embedded.bind fun others hothers => yields_combined_rows (fun front => ?_) _
        simp only [← String.append_assoc]
        exact (hothers.behind _ hcomma).before ")"
      · exact (yields_any _).bind fun others _ => ih hrest

/-- A statement with unions shows what one of its branches shows. -/
theorem shows_branch {all : Bool} (hmem : ⟨.of c, all⟩ ∈ b.unions)
    (h : (Place.statement c).Shows name) : (Place.statement b).Shows name := by
  have hunions : b.compiled.unions.isEmpty = false := by
    rw [List.isEmpty_eq_false_iff]
    exact List.ne_nil_of_mem (List.mem_map_of_mem (f := UnionBranch.map Query.fragment) hmem)
  change (Aql.statement b.compiled).Yields (Iterates · name)
  unfold Aql.statement
  rw [hunions, if_neg Bool.false_ne_true]
  unfold Aql.unionStatement
  refine (yields_any _).bind fun first _ => (yields_combined_mem hmem h).map fun rows hrows => ?_
  have hloop : Iterates (Aql.loop Aql.unionVariable rows ++ " ") name := (hrows _).before " "
  refine Seen.iterates ⟨_, ?_, hloop⟩ (List.cons_ne_nil _ [])
  exact List.mem_append_left _ (List.mem_append_left _ List.mem_cons_self)

/-- A statement without unions shows what its clauses show. -/
theorem shows_alone (hunions : b.unions = []) (h : (Place.simple b).Shows name) :
    (Place.statement b).Shows name := by
  have hempty : b.compiled.unions.isEmpty = true := by
    change (b.unions.map _).isEmpty = true
    rw [hunions]
    rfl
  change (Aql.statement b.compiled).Yields (Iterates · name)
  unfold Aql.statement
  rw [if_pos hempty]
  exact h

end statements

end Place

/-- **Every loop that can be seen from outside is in the text.** -/
theorem Visits.shows {place : Place} {name : String} (h : Visits place name) :
    place.Shows name := by
  induction h with
  | collection hvar hname => exact Place.shows_collection hvar hname
  | view hvar hname => exact Place.shows_collection hvar hname
  | derived _ ih => exact Place.shows_derived ih
  | value hlimit _ ih => exact Place.shows_value hlimit ih
  | operand hmem h => exact Place.shows_operand hmem h
  | member _ ih => exact Place.shows_member ih _
  | compared _ ih => exact Place.shows_compared ih
  | nested _ ih => exact Place.shows_nested ih
  | condition hmem _ ih => exact Place.shows_condition hmem ih
  | defined hmem _ ih =>
      refine Place.shows_loops (Or.inl ?_)
      exact yields_each_mem (List.mem_map_of_mem hmem) (Place.yields_definition ih)
  | bound hmem h =>
      refine Place.shows_loops (Or.inl ?_)
      exact yields_each_mem (List.mem_map_of_mem hmem) (Place.yields_definition_bound h)
  | main hsource _ ih =>
      exact Place.shows_loops (Or.inr (Or.inl (Place.yields_mainLoop hsource ih)))
  | joined hmem hsource _ ih =>
      refine Place.shows_loops (Or.inr (Or.inr (Or.inl ?_)))
      exact yields_each_mem (List.mem_map_of_mem hmem) (Place.yields_joinLoop_source hsource ih)
  | restricted hmem _ ih =>
      refine Place.shows_loops (Or.inr (Or.inr (Or.inl ?_)))
      exact yields_each_mem (List.mem_map_of_mem hmem) (Place.yields_joinLoop_conditions ih)
  | filtered _ ih => exact Place.shows_loops (Or.inr (Or.inr (Or.inr (Place.yields_filter ih))))
  | looped _ ih => exact Place.shows_simple (Or.inl ih)
  | having _ ih => exact Place.shows_simple (Or.inr (Or.inl fun _ => Place.yields_filter ih))
  | selected hmem _ ih =>
      exact Place.shows_simple (Or.inr (Or.inr (Place.yields_selectedQueries hmem ih)))
  | alone hunions _ ih => exact Place.shows_alone hunions ih
  | branch hmem _ ih => exact Place.shows_branch hmem ih

end AqlBuilder
