import AqlBuilder.Aql.Statement
import AqlBuilder.Proofs.Aql.Outcome
import AqlBuilder.Proofs.Query.Within

/-!
# Statements that refer to given names

The grammar puts texts together so that each reference ends where its text ends. So a statement
refers to the names that its clauses refer to, and to no others: the grammar itself writes names of
bound values only where a clause has one.

- `Outcome.Yields` speaks about the results of successful computations.
- `Fragment.Within` says what a compiled query refers to.
- `Aql.yields_statement`: the references of a statement are among the names of its clauses.
- `Aql.yields_of_collect`: the ways in which a grouping goes on behind its keys.
- `Aql.yields_collect_aliases`: behind groups, a registry differs in the references to variables.
-/

namespace AqlBuilder

namespace Outcome

variable {α β : Type} {p : α → Prop} {r : β → Prop}

/-- A property of the result of a computation, whichever number is the next one, if it succeeds. -/
def Yields (x : Outcome α) (p : α → Prop) : Prop := ∀ n a, (x n).1 = .ok a → p a

theorem yields_any (x : Outcome α) : x.Yields fun _ => True := fun _ _ _ => trivial

/-- A value that is given has the property if it has it. -/
theorem yields_pure {a : α} (h : p a) : Yields (pure a) p := by
  intro n b hb
  cases hb
  exact h

/-- A failure has no result that could lack the property. -/
theorem yields_fail (e : Error) : Yields (fail e) p := by
  intro n a ha
  cases ha

theorem yields_ofExcept {x : Except Error α} (h : ∀ a, x = .ok a → p a) : (ofExcept x).Yields p :=
  fun _ a ha => h a ha

/-- A property of the first result that brings about another one of the last. -/
theorem Yields.bind {x : Outcome α} {f : α → Outcome β} (hx : x.Yields p)
    (hf : ∀ a, p a → (f a).Yields r) : (x >>= f).Yields r := by
  intro n b hb
  have hp := hx n
  rcases hrun : x n with ⟨_ | a, n'⟩
  · rw [bind_error hrun] at hb
    cases hb
  · rw [bind_ok hrun] at hb
    rw [hrun] at hp
    exact hf a (hp a rfl) n' b hb

theorem Yields.map {x : Outcome α} {f : α → β} (hx : x.Yields p) (hf : ∀ a, p a → r (f a)) :
    Yields (do pure (f (← x))) r :=
  hx.bind fun a ha => yields_pure (hf a ha)

/-- A weaker property holds as well. -/
theorem Yields.mono {x : Outcome α} {p' : α → Prop} (hx : x.Yields p) (h : ∀ a, p a → p' a) :
    x.Yields p' :=
  fun n a ha => h a (hx n a ha)

/-- Two properties of a result hold together. -/
theorem Yields.and {x : Outcome α} {p' : α → Prop} (hx : x.Yields p) (hx' : x.Yields p') :
    x.Yields fun a => p a ∧ p' a :=
  fun n a ha => ⟨hx n a ha, hx' n a ha⟩

/-- A steady outcome gives what it yields. -/
theorem Steady.yields {x : Outcome α} (hx : x.Steady) : x.Yields x.Gives := fun _ _ h => hx.gives h

theorem Gives.yields {x : Outcome α} {a : α} (h : x.Gives a) : x.Yields (· = a) :=
  fun n _ ha => Except.ok.inj (ha.symm.trans (h n))

/-- A computation that cannot fail yields what it comes to. -/
theorem yields_ofSupply {x : Supply α} (h : ∀ n, p (x n).1) : (ofSupply x).Yields p := by
  intro n a ha
  cases ha
  exact h n

/-- If every step yields a property, all results of a list have it. -/
theorem yields_each {f : α → Outcome β} {items : List α} (h : ∀ i ∈ items, (f i).Yields r) :
    (each f items).Yields fun results => ∀ b ∈ results, r b := by
  induction items with
  | nil => exact yields_pure fun b hb => by cases hb
  | cons item items ih =>
      refine (h item List.mem_cons_self).bind fun first hfirst => ?_
      refine (ih fun i hi => h i (List.mem_cons_of_mem item hi)).map fun rest hrest => ?_
      intro b hb
      rcases List.mem_cons.mp hb with rfl | hb
      · exact hfirst
      · exact hrest b hb

end Outcome

open Outcome

/-- A fragment that refers to no names but the given ones. -/
structure Fragment.Within (names : Set String) (f : Fragment) : Prop where
  statement : f.statement.Yields (Covered names)
  conditions : f.conditions.Yields fun text => ∀ t ∈ text, Covered names t
  source : ∀ s ∈ f.source, Unmarked s.1 ∧ s.2.Yields (Covered names)

variable {names names' : Set String} {scope : Scope}

theorem separator_blank : Separator " " := by decide

theorem separator_comma : Separator ", " := by decide

namespace Fragment.Within

variable {f : Fragment}

/-- A fragment within some names is within more of them. -/
theorem mono (h : f.Within names) (hnames : names ⊆ names') : f.Within names' where
  statement := h.statement.mono fun _ ht => ht.mono hnames
  conditions := h.conditions.mono fun _ htext t ht => (htext t ht).mono hnames
  source s hs := ⟨(h.source s hs).1, (h.source s hs).2.mono fun _ ht => ht.mono hnames⟩

/-- A query within some names refers to no others where it is embedded. -/
theorem embedded (h : f.Within names) : f.embedded.Yields (Covered names) := by
  unfold Fragment.embedded
  cases f.error with
  | some e => exact yields_fail e
  | none =>
      refine h.statement.map fun statement hstatement => ?_
      have hopen : Unmarked "(" := by decide
      exact (hopen.covered_append hstatement).closed (by decide) (by decide)

/-- A query within some names refers to no others where it is used as a value. -/
theorem value (h : f.Within names) : f.value.Yields (Covered names) := by
  refine h.embedded.map fun text htext => ?_
  split
  · have hopen : Unmarked "FIRST(" := by decide
    exact (hopen.covered_append htext).closed (by decide) (by decide)
  · exact htext

/-- The variable of a query within some names has no mark. -/
theorem unmarked_docVar (h : f.Within names) : Unmarked f.docVar := by
  have hsource := h.source
  unfold docVar
  cases hs : f.source with
  | none => exact (by decide : Unmarked "")
  | some s => exact (hsource s hs).1

end Fragment.Within

section conditions

/-- An operand refers to no names but the given ones, in a clean scope. -/
theorem Bound.Within.covered_text {b : Bound} (h : b.Within names) (hscope : scope.Clean) :
    Covered names (b.text scope) := by
  cases b with
  | placeholder name => exact covered_reference h.1 h.2
  | raw aql => exact h
  | column c => exact (hscope.resolve h).covered

/-- A comparison refers to no names but those of its sides. -/
theorem Aql.covered_comparison {left right : String} {operator : Operator}
    (hleft : Covered names left) (hoperator : Unmarked operator.text)
    (hright : Covered names right) : Covered names (comparison left operator right) :=
  (hleft.separated " " separator_blank hoperator.covered).separated " " separator_blank hright

/-- A test for a range refers to no names but those of its bounds. -/
theorem Aql.covered_between {column low high : String} (hcolumn : Unmarked column)
    (hlow : Covered names low) (hhigh : Covered names high) (negated : Bool) :
    Covered names (between column low high negated) := by
  have hopen : Covered names ("(" ++ column) :=
    (Unmarked.append (by decide) hcolumn).covered
  unfold between
  split
  · have hfirst := hopen.separated " < " (by decide) hlow
    have hsecond := hfirst.separated " OR " (by decide) hcolumn.covered
    exact (hsecond.separated _ (by decide) hhigh).closed (by decide) (by decide)
  · have hfirst := hopen.separated " >= " (by decide) hlow
    have hsecond := hfirst.separated " AND " (by decide) hcolumn.covered
    exact (hsecond.separated _ (by decide) hhigh).closed (by decide) (by decide)

/-- A test for rows refers to no names but those of its query. -/
theorem Aql.covered_rowTest {aql : String} (h : Covered names aql) (singleRow negated : Bool) :
    Covered names (rowTest aql singleRow negated) := by
  have hfirst : Unmarked "FIRST(" := by decide
  have hlength : Unmarked "LENGTH(" := by decide
  cases singleRow <;> cases negated
  · exact (hlength.covered_append h).closed (by decide) (by decide)
  · exact (hlength.covered_append h).closed (by decide) (by decide)
  · exact (hfirst.covered_append h).closed (by decide) (by decide)
  · exact (hfirst.covered_append h).closed (by decide) (by decide)

/-- A part of a date has no mark if its column has none. -/
theorem DatePart.unmarked_text (part : DatePart) {column : String} (h : Unmarked column) :
    Unmarked (part.text column) := by
  cases part <;> exact Unmarked.append (Unmarked.append (by decide) h) (by decide)

/-- The name of a bitwise function has no mark. -/
theorem Operator.unmarked_bitFunction {operator : Operator} {function : String}
    (h : operator.bitFunction? = some function) : Unmarked function := by
  unfold bitFunction? at h
  split_ifs at h <;> cases h <;> decide

theorem Aql.unmarked_membership (negated : Bool) : Unmarked (membership negated).text := by
  cases negated <;> decide

/-- The operator of a containment has no mark. -/
theorem Aql.unmarked_containment (all negated : Bool) :
    Unmarked (containment all negated).text := by
  cases all <;> cases negated <;> decide

/-- The text of an integer has no mark. -/
theorem unmarked_toString_int (n : Int) : Unmarked (toString n) := by
  cases n with
  | ofNat n => exact unmarked_toString n
  | negSucc n => exact Unmarked.append (by decide : Unmarked "-") (unmarked_toString (n + 1))

/-- A test refers to the names of its operands and of its query. -/
theorem Test.Within.yields_text {t : Test Fragment} (h : t.Within names (Fragment.Within names))
    (hscope : scope.Clean) : (t.text scope).Yields (Covered names) := by
  cases t with
  | compare c o v =>
      obtain ⟨hc, ho, hv⟩ := h
      have hcolumn := hscope.resolve hc
      have hvalue := hv.covered_text hscope
      refine yields_pure ?_
      split
      · have hopen : Covered names ("LIKE(" ++ scope.resolve c) :=
          (Unmarked.append (by decide) hcolumn).covered
        exact (hopen.separated ", " separator_comma hvalue).closed (by decide) (by decide)
      · exact Aql.covered_comparison hcolumn.covered ho hvalue
  | between c low high negated =>
      obtain ⟨hc, hlow, hhigh⟩ := h
      exact yields_pure (Aql.covered_between (hscope.resolve hc) (hlow.covered_text hscope)
        (hhigh.covered_text hscope) negated)
  | member c v negated =>
      exact yields_pure (Aql.covered_comparison (hscope.resolve h.1).covered
        (Aql.unmarked_membership negated) (h.2.covered_text hscope))
  | memberOf c values negated =>
      refine yields_pure (Aql.covered_comparison (hscope.resolve h).covered
        (Aql.unmarked_membership negated) ?_)
      have hlist : Unmarked (", ".intercalate (values.map fun n : Int => toString n)) := by
        refine unmarked_intercalate (by decide) fun text htext => ?_
        obtain ⟨n, -, rfl⟩ := List.mem_map.mp htext
        exact unmarked_toString_int n
      exact (Unmarked.append (Unmarked.append (by decide) hlist) (by decide)).covered
  | memberOfQuery c q negated =>
      exact h.2.embedded.map fun aql haql => Aql.covered_comparison (hscope.resolve h.1).covered
        (Aql.unmarked_membership negated) haql
  | isNull c negated =>
      refine yields_pure (Aql.covered_comparison (hscope.resolve h).covered ?_
        (by decide : Unmarked "null").covered)
      cases negated <;> decide
  | compareColumns a o b =>
      exact yields_pure (Aql.covered_comparison (hscope.resolve h.1).covered h.2.1
        (hscope.resolve h.2.2).covered)
  | compareQuery c o q =>
      exact h.2.2.value.map fun aql haql =>
        Aql.covered_comparison (hscope.resolve h.1).covered h.2.1 haql
  | hasRows q negated =>
      have hq : q.Within names := h
      exact hq.embedded.map fun aql haql => Aql.covered_rowTest haql q.singleRow negated
  | nested q =>
      refine h.conditions.bind fun text htext => ?_
      cases text with
      | none => exact yields_pure (by decide : Unmarked "true").covered
      | some conditions =>
          have hopen : Unmarked "(" := by decide
          exact yields_pure ((hopen.covered_append (htext conditions rfl)).closed (by decide)
            (by decide))
  | raw aql => exact yields_pure (Unmarked.covered h)
  | contains c v all negated =>
      exact yields_pure (Aql.covered_comparison (h.2.covered_text hscope)
        (Aql.unmarked_containment all negated) (hscope.resolve h.1).covered)
  | length c o v =>
      have hcolumn : Unmarked ("LENGTH(" ++ scope.resolve c ++ ")") :=
        Unmarked.append (Unmarked.append (by decide) (hscope.resolve h.1)) (by decide)
      exact yields_pure (Aql.covered_comparison hcolumn.covered h.2.1 (h.2.2.covered_text hscope))
  | date part c o v =>
      exact yields_pure (Aql.covered_comparison (part.unmarked_text (hscope.resolve h.1)).covered
        h.2.1 (h.2.2.covered_text hscope))
  | bits c o v =>
      simp only [text]
      cases hfunction : o.bitFunction? with
      | none => exact yields_fail _
      | some function =>
          have hopen : Unmarked (function ++ "(" ++ scope.resolve c) :=
            ((Operator.unmarked_bitFunction hfunction).append (by decide)).append
              (hscope.resolve h.1)
          have hcall := hopen.covered.separated ", " separator_comma (h.2.covered_text hscope)
          refine yields_pure (Covered.closed (hcall.closed ?_ ?_) (by decide) (by decide)) <;>
          split <;> decide

end conditions

namespace Aql

section lists

variable {list : List (Condition Fragment)}
  (h : ∀ x ∈ list, x.test.Within names (Fragment.Within names)) (hscope : scope.Clean)

include h hscope

/-- Further conditions refer to no names but the given ones, and a reference in front of them ends
there. -/
theorem yields_furtherConditions :
    (furtherConditions scope list).Yields fun text => Covered names text ∧ Ends text := by
  induction list with
  | nil => exact yields_pure ⟨(by decide : Unmarked "").covered, by decide⟩
  | cons condition rest ih =>
      have hfirst := (h condition List.mem_cons_self).yields_text hscope
      have hrest := ih fun x hx => h x (List.mem_cons_of_mem condition hx)
      refine hfirst.bind fun first hfirst => hrest.map fun rest ⟨hrest, hends⟩ => ?_
      have hconnector : Unmarked (" " ++ condition.connector.text ++ " ") := by
        cases condition.connector <;> decide
      refine ⟨(hconnector.covered_append hfirst).append hrest hends, ?_⟩
      rw [String.append_assoc, String.append_assoc, String.append_assoc]
      exact separator_blank.ends_append _

/-- Conditions refer to no names but the given ones. -/
theorem yields_conditions :
    (conditions scope list).Yields fun text => ∀ t ∈ text, Covered names t := by
  cases list with
  | nil => exact yields_pure fun t ht => by cases ht
  | cons condition rest =>
      have hfirst := (h condition List.mem_cons_self).yields_text hscope
      have hrest := yields_furtherConditions
        (fun x hx => h x (List.mem_cons_of_mem condition hx)) hscope
      refine hfirst.bind fun first hfirst => hrest.map fun rest ⟨hrest, hends⟩ => ?_
      intro t ht
      cases ht
      exact hfirst.append hrest hends

/-- A filter refers to no names but those of its conditions. -/
theorem yields_filter : (filter scope list).Yields fun texts => ∀ t ∈ texts, Covered names t := by
  refine (yields_conditions h hscope).bind fun text htext => ?_
  cases text with
  | none => exact yields_pure fun t ht => by cases ht
  | some text =>
      refine yields_pure fun t ht => ?_
      rw [List.mem_singleton.mp ht]
      exact Unmarked.covered_append (by decide) (htext text rfl)

end lists

section loops

/-- A definition refers to no names but those of its value. -/
theorem yields_definition {v : LetVariable Fragment} (hname : Unmarked v.name)
    (h : v.value.Within names (Fragment.Within names)) (hscope : scope.Clean) :
    (definition scope v).Yields (Covered names) := by
  obtain ⟨name, value⟩ := v
  have hopen : Unmarked ("LET " ++ name ++ " = ") :=
    Unmarked.append (Unmarked.append (by decide) hname) (by decide)
  cases value with
  | bound b =>
      have hvalue : Covered names (b.text scope) := Bound.Within.covered_text h hscope
      exact yields_pure (hopen.covered_append hvalue)
  | query q =>
      have hq : q.Within names := h
      exact hq.value.map fun value hvalue => hopen.covered_append hvalue

/-- A source has a variable without marks and refers to no names but those of its query. -/
theorem yields_sourceText {tablePrefix : String} (hpre : Unmarked tablePrefix)
    {s : Source Fragment} (h : s.Within (Fragment.Within names)) :
    Unmarked (sourceText tablePrefix s).1 ∧
      (sourceText tablePrefix s).2.Yields (Covered names) := by
  cases s with
  | collection name v => exact ⟨h.2, yields_pure (unmarked_collectionName hpre h.1).covered⟩
  | view name v => exact ⟨h.2, yields_pure (unmarked_collectionName hpre h.1).covered⟩
  | derived q v => exact ⟨h.2, h.1.embedded⟩

/-- A loop refers to no names but those of its source. -/
theorem covered_loop {docVar source : String} (hvar : Unmarked docVar) (h : Covered names source) :
    Covered names (loop docVar source) :=
  Unmarked.covered_append (Unmarked.append (Unmarked.append (by decide) hvar) (by decide)) h

/-- The loop of a left join refers to no names but those of its source and its filter. -/
theorem covered_leftLoop {docVar source filter : String} (hvar : Unmarked docVar)
    (hsource : Covered names source) (hfilter : Covered names filter) (hends : Ends filter) :
    Covered names (leftLoop docVar source filter) := by
  have hfound : Unmarked (docVar ++ "List") := hvar.append (by decide)
  have hopen : Unmarked ("LET " ++ (docVar ++ "List") ++ " = (") :=
    Unmarked.append (Unmarked.append (by decide) hfound) (by decide)
  have hrows := (hopen.covered_append (covered_loop hvar hsource)).append hfilter hends
  have hreturn := hrows.separated " RETURN " (by decide) hvar.covered
  have hpartners : Unmarked ("(LENGTH(" ++ (docVar ++ "List") ++ ") > 0) ? " ++ (docVar ++ "List")
      ++ " : [\x7b\x7d]") :=
    Unmarked.append (Unmarked.append (Unmarked.append (Unmarked.append (by decide) hfound)
      (by decide)) hfound) (by decide)
  exact hreturn.separated ") " (by decide) (covered_loop hvar hpartners.covered)

/-- A join of any kind refers to no names but those of its source and its filter. -/
theorem covered_joined (kind : JoinKind) {docVar source filter : String} (hvar : Unmarked docVar)
    (hsource : Covered names source) (hfilter : Covered names filter) (hends : Ends filter) :
    Covered names (match kind with
      | .left => leftLoop docVar source filter
      | _ => loop docVar source ++ filter) := by
  have hinner := (covered_loop hvar hsource).append hfilter hends
  cases kind with
  | left => exact covered_leftLoop hvar hsource hfilter hends
  | inner => exact hinner
  | cross => exact hinner

/-- A joined loop refers to no names but those of the joined query. -/
theorem yields_joinLoop {j : Join Fragment} (h : j.query.Within names) :
    (joinLoop j).Yields (Covered names) := by
  have hsource := h.source
  unfold joinLoop
  cases hs : j.query.source with
  | none => exact yields_fail _
  | some s =>
      obtain ⟨hvar, htext⟩ := hsource s hs
      refine htext.bind fun source hsource => h.conditions.bind fun conditions hconditions => ?_
      cases conditions with
      | none =>
          have hnone : Unmarked "" := by decide
          exact yields_pure (covered_joined j.kind hvar hsource hnone.covered (by decide))
      | some conditions =>
          have hkeyword : Separator " FILTER " := by decide
          have hfilter := hkeyword.unmarked.covered_append (hconditions conditions rfl)
          have hends := hkeyword.ends_append conditions
          exact yields_pure (covered_joined j.kind hvar hsource hfilter hends)

/-- A search refers to no names but those of its operands. -/
theorem covered_searchText {s : Search} (h : s.Within names) (hscope : scope.Clean) :
    Covered names (searchText scope s) := by
  have htext := h.text.covered_text hscope
  have hanalyzer := h.analyzer.covered_text hscope
  have hfields : Covered names (" OR ".intercalate (s.fields.map fun field =>
      scope.resolve field ++ " IN TOKENS(" ++ s.text.text scope ++ ", "
        ++ s.analyzer.text scope ++ ")")) := by
    refine covered_intercalate (by decide) fun condition hcondition => ?_
    obtain ⟨field, hfield, rfl⟩ := List.mem_map.mp hcondition
    have hcolumn : Covered names (scope.resolve field) :=
      (hscope.resolve (h.fields field hfield)).covered
    have htokens := hcolumn.separated " IN TOKENS(" (by decide) htext
    exact (htokens.separated ", " separator_comma hanalyzer).closed (by decide) (by decide)
  have hopen : Unmarked "SEARCH ANALYZER(" := by decide
  have hsearch := (hopen.covered_append hfields).separated ", " separator_comma hanalyzer
  exact hsearch.closed (by decide) (by decide)

end loops

end Aql

end AqlBuilder

/-! ### Names behind groups -/

namespace AqlBuilder

open Outcome

/-- Entering references changes the references and nothing else. -/
theorem Registry.registerVariables_eq {α : Type} (reference expression : α → String) (r : Registry)
    (items : List α) :
    items.foldl (fun r item => r.registerVariable (reference item) (expression item)) r =
      { r with definitions :=
        items.foldl (fun d item => d.put (reference item) (expression item)) r.definitions } := by
  induction items generalizing r with
  | nil => rfl
  | cons item rest ih => exact ih _

namespace Aql

/-- A grouping writes an aggregate behind its keys, or the columns that it keeps, or nothing. -/
theorem yields_of_collect {c : Clauses Fragment} {p : Collected → Prop} {q : CollectKey → Prop}
    (hgroups : ∀ g ∈ c.groups, (collectKey c.scope g).Yields q)
    (haggregate : ∀ keys, (∀ k ∈ keys, q k) → ∀ a, c.aggregate = some a →
      (aggregateText c.scope a).Yields fun text =>
        p ⟨collectText keys ++ " " ++ text, keys.map CollectKey.docVar,
          (withKeys c.aliases keys).registerVariable aggregateVariable aggregateVariable⟩)
    (hplain : ∀ keys, (∀ k ∈ keys, q k) →
      p ⟨collectText keys, keys.map CollectKey.docVar, withKeys c.aliases keys⟩)
    (hkept : ∀ keys, (∀ k ∈ keys, q k) → ∀ kept ⊆ candidates c.scope c.columns,
      p ⟨collectText keys ++ " INTO " ++ groupsVariable ++ " = " ++
        objectLiteral (kept.map fun k => (k.key, k.expression)), keys.map CollectKey.docVar,
        withKept (withKeys c.aliases keys) kept⟩) :
    (collect c).Yields fun result => ∀ g ∈ result, p g := by
  unfold collect
  split
  · exact yields_pure nofun
  refine (yields_each hgroups).bind fun keys hkeys => ?_
  cases hc : c.aggregate with
  | some a =>
      refine (haggregate keys hkeys a hc).map fun text htext g hg => ?_
      cases hg
      exact htext
  | none =>
      dsimp only
      split
      · refine yields_pure fun g hg => ?_
        cases hg
        exact hplain keys hkeys
      · refine yields_pure fun g hg => ?_
        cases hg
        exact hkept keys hkeys _ (List.filter_subset_self _)

/-- Behind groups a query knows the same collections and the same names in the projection. -/
theorem yields_collect_aliases (c : Clauses Fragment) :
    (collect c).Yields fun result =>
      ∀ g ∈ result, ∃ d, g.aliases = { c.aliases with definitions := d } := by
  have hkeys : ∀ keys, ∃ d, withKeys c.aliases keys = { c.aliases with definitions := d } :=
    fun keys => ⟨_, Registry.registerVariables_eq _ _ c.aliases keys⟩
  refine yields_of_collect (q := fun _ => True) (fun _ _ => yields_any _) ?_ ?_ ?_
  · intro keys _ a _
    obtain ⟨d, hd⟩ := hkeys keys
    refine (yields_any _).mono fun text _ => ⟨d.put aggregateVariable aggregateVariable, ?_⟩
    rw [hd]
    rfl
  · exact fun keys _ => hkeys keys
  · intro keys _ kept _
    obtain ⟨d, hd⟩ := hkeys keys
    exact ⟨_, (Registry.registerVariables_eq _ _ _ _).trans (by rw [hd])⟩

end Aql

end AqlBuilder
