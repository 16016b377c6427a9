import AqlBuilder.Proofs.Aql.Reading
import AqlBuilder.Proofs.Query.Quiet

/-!
# Selecting starts no modification

The grammar of queries itself writes no word that starts a modification, and it keeps the texts that
it puts together apart by blanks, brackets and operators. So the text of a query without such words
in its clauses has none, sub-queries included.

- `Fragment.Quiet` says that no text of a compiled query has such a word.
- `Aql.quiet_fragment`: so it is with a query without keywords whose sub-queries are quiet.
-/

namespace AqlBuilder

open Outcome Text

/-- A fragment whose texts start no modification. -/
structure Fragment.Quiet (f : Fragment) : Prop where
  statement : f.statement.Yields (Avoids .changes)
  conditions : f.conditions.Yields fun text => ∀ t ∈ text, Avoids .changes t
  source : ∀ s ∈ f.source, Neutral s.1 ∧ s.2.Yields (Avoids .changes)

variable {scope : Scope}

/-- A text without any keyword starts no modification. -/
theorem Avoids.changes {text : String} (h : Avoids .all text) : Avoids .changes text :=
  h.mono (by decide)

theorem Avoids.places {text : String} (h : Avoids .all text) : Avoids .places text :=
  h.mono (by decide)

theorem Neutral.changes {name : String} (h : Neutral name) : Avoids .changes name :=
  h.avoids.changes

theorem divides_blank : Divides .changes " ".toList := by decide

theorem divides_comma : Divides .changes ", ".toList := by decide

theorem follows_close : Follows .changes ")".toList := by decide

namespace Fragment.Quiet

variable {f : Fragment}

/-- A quiet query starts no modification where it is embedded. -/
theorem embedded (h : f.Quiet) : f.embedded.Yields (Avoids .changes) := by
  unfold Fragment.embedded
  cases f.error with
  | some e => exact yields_fail e
  | none => exact h.statement.map fun _ haql => (haql.behind (by decide)).before follows_close

/-- A quiet query starts no modification where it is used as a value. -/
theorem value (h : f.Quiet) : f.value.Yields (Avoids .changes) := by
  refine h.embedded.map fun _ htext => ?_
  split
  · exact (htext.behind (by decide)).before follows_close
  · exact htext

/-- The variable of a quiet query is neutral. -/
theorem neutral_docVar (h : f.Quiet) : Neutral f.docVar := by
  have hsource := h.source
  unfold Fragment.docVar
  cases hs : f.source with
  | none => exact ⟨by decide, by decide⟩
  | some s => exact (hsource s hs).1

end Fragment.Quiet

section operands

/-- A digit is no letter. -/
theorem isAsciiLetter_of_isAsciiDigit {c : Char} (h : isAsciiDigit c = true) :
    isAsciiLetter c = false := by
  have hbounds : c.toNat ≤ 0x39 := by
    simp only [isAsciiDigit, Bool.and_eq_true, decide_eq_true_eq, Char.le_def,
      UInt32.le_iff_toNat_le] at h
    exact h.2
  by_contra hletter
  rw [Bool.not_eq_false] at hletter
  simp only [isAsciiLetter, Bool.or_eq_true, Bool.and_eq_true, decide_eq_true_eq, Char.le_def,
    UInt32.le_iff_toNat_le] at hletter
  have hcode : c.toNat = c.val.toNat := rfl
  rcases hletter with ⟨hlow, -⟩ | ⟨hlow, -⟩
  · simp at hlow
    omega
  · simp at hlow
    omega

/-- The text of a natural number has no keywords. -/
theorem avoids_toString (n : Nat) : Avoids .all (toString n) := by
  cases htext : (toString n).toList with
  | nil =>
      unfold Avoids
      rw [htext]
      exact avoidsIn_nil
  | cons c rest =>
      have hc : c ∈ (toString n).toList := htext ▸ List.mem_cons_self
      exact avoids_of_mark (solid_toString n) hc
        (isAsciiLetter_of_isAsciiDigit (isAsciiDigit_of_mem_toString hc))

/-- The text of an integer has no keywords. -/
theorem avoids_toString_int (n : Int) : Avoids .all (toString n) := by
  cases n with
  | ofNat n => exact avoids_toString n
  | negSucc n =>
      have hminus : Precedes .all "-".toList := by decide
      exact (avoids_toString (n + 1)).behind hminus

/-- The reference of a bound value has no keywords. -/
theorem avoids_placeholder {name : String} (h : Solid name.toList) : Avoids .all ("@" ++ name) := by
  refine avoids_of_mark (c := '@') ?_ (by simp) (by decide)
  rw [String.toList_append]
  exact Solid.append (by decide) h

/-- An operand without keywords is written without them. -/
theorem Bound.Quiet.avoids_text {v : Bound} (h : v.Quiet) (hscope : scope.Quiet) :
    Avoids .changes (v.text scope) := by
  cases v with
  | placeholder name => exact (avoids_placeholder h).changes
  | raw aql => exact h
  | column c => exact (hscope.resolve h).changes

end operands

section tests

variable {left right column low high aql : String} {operator : Operator}

/-- A comparison starts no modification if neither its sides nor its operator do. -/
theorem Aql.avoids_comparison (hleft : Avoids .changes left) (hop : Avoids .changes operator.text)
    (hright : Avoids .changes right) : Avoids .changes (comparison left operator right) :=
  (hleft.divided hop divides_blank).divided hright divides_blank

/-- A test for a range starts no modification if its column and its bounds do not. -/
theorem Aql.avoids_between (hcolumn : Avoids .changes column) (hlow : Avoids .changes low)
    (hhigh : Avoids .changes high) (negated : Bool) :
    Avoids .changes (between column low high negated) := by
  have hopen : Avoids .changes ("(" ++ column) := hcolumn.behind (by decide)
  have hless : Divides .changes " < ".toList := by decide
  have hatLeast : Divides .changes " >= ".toList := by decide
  unfold between
  cases negated with
  | true =>
      exact ((((hopen.divided hlow hless).divided hcolumn (by decide)).divided hhigh
        (by decide)).before follows_close)
  | false =>
      exact ((((hopen.divided hlow hatLeast).divided hcolumn (by decide)).divided hhigh
        (by decide)).before follows_close)

/-- A test for rows starts no modification if its query does not. -/
theorem Aql.avoids_rowTest (h : Avoids .changes aql) (singleRow negated : Bool) :
    Avoids .changes (rowTest aql singleRow negated) := by
  cases singleRow <;> cases negated <;> exact (h.behind (by decide)).before (by decide)

/-- A part of a date starts no modification if its column does not. -/
theorem DatePart.avoids_text (part : DatePart) (h : Avoids .changes column) :
    Avoids .changes (part.text column) := by
  cases part <;> exact (h.behind (by decide)).before (by decide)

/-- The name of a bitwise function starts no modification. -/
theorem Operator.avoids_bitFunction {function : String}
    (h : operator.bitFunction? = some function) : Avoids .changes function := by
  unfold bitFunction? at h
  split_ifs at h <;> cases h <;> decide

theorem Aql.avoids_membership (negated : Bool) : Avoids .changes (membership negated).text := by
  cases negated <;> decide

/-- The operator of a containment starts no modification. -/
theorem Aql.avoids_containment (all negated : Bool) :
    Avoids .changes (containment all negated).text := by
  cases all <;> cases negated <;> decide

/-- A test without keywords whose query is quiet is written without them. -/
theorem Test.Quiet.yields_text {t : Test Fragment} (h : t.Quiet)
    (hqueries : ∀ f ∈ t.queries, f.Quiet)
    (hscope : scope.Quiet) : (t.text scope).Yields (Avoids .changes) := by
  have hcolumn : ∀ {c}, Column.Unbroken c → Avoids .changes (scope.resolve c) :=
    fun hc => (hscope.resolve hc).changes
  cases t with
  | compare c o v =>
      obtain ⟨hc, ho, hv⟩ := h
      have hvalue := hv.avoids_text hscope
      refine yields_pure ?_
      split
      · exact (((hcolumn hc).behind (by decide)).divided hvalue divides_comma).before (by decide)
      · exact Aql.avoids_comparison (hcolumn hc) ho hvalue
  | between c low high negated =>
      obtain ⟨hc, hlow, hhigh⟩ := h
      exact yields_pure (Aql.avoids_between (hcolumn hc) (hlow.avoids_text hscope)
        (hhigh.avoids_text hscope) negated)
  | member c v negated =>
      exact yields_pure (Aql.avoids_comparison (hcolumn h.1) (Aql.avoids_membership negated)
        (h.2.avoids_text hscope))
  | memberOf c values negated =>
      have hlist : Avoids .changes (", ".intercalate (values.map fun n : Int => toString n)) := by
        refine avoids_intercalate divides_comma fun text htext => ?_
        obtain ⟨n, -, rfl⟩ := List.mem_map.mp htext
        exact (avoids_toString_int n).changes
      exact yields_pure (Aql.avoids_comparison (hcolumn h) (Aql.avoids_membership negated)
        ((hlist.behind (by decide)).before (by decide)))
  | memberOfQuery c q negated =>
      refine (hqueries q List.mem_cons_self).embedded.map fun aql haql => ?_
      exact Aql.avoids_comparison (hcolumn h) (Aql.avoids_membership negated) haql
  | isNull c negated =>
      refine yields_pure (Aql.avoids_comparison (hcolumn h) ?_ (by decide))
      cases negated <;> decide
  | compareColumns a o b =>
      exact yields_pure (Aql.avoids_comparison (hcolumn h.1) h.2.1 (hcolumn h.2.2))
  | compareQuery c o q =>
      refine (hqueries q List.mem_cons_self).value.map fun aql haql => ?_
      exact Aql.avoids_comparison (hcolumn h.1) h.2 haql
  | hasRows q negated =>
      refine (hqueries q List.mem_cons_self).embedded.map fun aql haql => ?_
      exact Aql.avoids_rowTest haql q.singleRow negated
  | nested q =>
      refine (hqueries q List.mem_cons_self).conditions.bind fun text htext => ?_
      cases text with
      | none => exact yields_pure (by decide)
      | some conditions =>
          exact yields_pure (((htext conditions rfl).behind (by decide)).before follows_close)
  | raw aql => exact yields_pure h
  | contains c v all negated =>
      exact yields_pure (Aql.avoids_comparison (h.2.avoids_text hscope)
        (Aql.avoids_containment all negated) (hcolumn h.1))
  | length c o v =>
      exact yields_pure (Aql.avoids_comparison (((hcolumn h.1).behind (by decide)).before
        follows_close) h.2.1 (h.2.2.avoids_text hscope))
  | date part c o v =>
      exact yields_pure (Aql.avoids_comparison (part.avoids_text (hcolumn h.1)) h.2.1
        (h.2.2.avoids_text hscope))
  | bits c o v =>
      simp only [text]
      cases hfunction : o.bitFunction? with
      | none => exact yields_fail _
      | some function =>
          have hopen : Divides .changes "(".toList := by decide
          have hcall :=
            ((Operator.avoids_bitFunction hfunction).divided (hcolumn h.1) hopen).divided
            (h.2.avoids_text hscope) divides_comma
          refine yields_pure ((hcall.before ?_).before (by decide))
          split <;> decide

end tests

namespace Aql

section lists

variable {list : List (Condition Fragment)} (h : ∀ x ∈ list, x.test.Quiet)
  (hqueries : ∀ f ∈ list.flatMap (fun x => x.test.queries), f.Quiet) (hscope : scope.Quiet)

include h hqueries hscope

/-- Further conditions begin with a blank, so they may stand behind anything. -/
theorem quiet_furtherConditions : (furtherConditions scope list).Yields fun text =>
    ∀ front, Avoids .changes front → Avoids .changes (front ++ text) := by
  induction list with
  | nil =>
      refine yields_pure fun front hfront => ?_
      rw [String.append_empty]
      exact hfront
  | cons condition rest ih =>
      rw [List.flatMap_cons] at hqueries
      have hfirst := (h condition List.mem_cons_self).yields_text
        (fun f hf => hqueries f (List.mem_append_left _ hf)) hscope
      have hrest := ih (fun x hx => h x (List.mem_cons_of_mem condition hx))
        fun f hf => hqueries f (List.mem_append_right _ hf)
      refine hfirst.bind fun first hfirst => hrest.map fun rest hrest front hfront => ?_
      have hconnector : Avoids .changes condition.connector.text := by
        cases condition.connector <;> decide
      have hall := (hfront.divided hconnector divides_blank).divided hfirst divides_blank
      have htext := hrest _ hall
      simp only [String.append_assoc] at htext ⊢
      exact htext

/-- Conditions without keywords start no modification. -/
theorem quiet_conditions :
    (conditions scope list).Yields fun text => ∀ t ∈ text, Avoids .changes t := by
  cases list with
  | nil => exact yields_pure fun t ht => by cases ht
  | cons condition rest =>
      rw [List.flatMap_cons] at hqueries
      have hfirst := (h condition List.mem_cons_self).yields_text
        (fun f hf => hqueries f (List.mem_append_left _ hf)) hscope
      have hrest := quiet_furtherConditions (fun x hx => h x (List.mem_cons_of_mem condition hx))
        (fun f hf => hqueries f (List.mem_append_right _ hf)) hscope
      refine hfirst.bind fun first hfirst => hrest.map fun rest hrest t ht => ?_
      cases ht
      exact hrest first hfirst

/-- A filter of conditions without keywords starts no modification. -/
theorem quiet_filter :
    (filter scope list).Yields fun texts => ∀ t ∈ texts, Avoids .changes t := by
  refine (quiet_conditions h hqueries hscope).bind fun text htext => ?_
  cases text with
  | none => exact yields_pure fun t ht => by cases ht
  | some text =>
      refine yields_pure fun t ht => ?_
      rw [List.mem_singleton.mp ht]
      exact (htext text rfl).behind (by decide)

end lists

section loops

variable {docVar source filter : String}

/-- The definition of a query variable starts no modification if its value does not. -/
theorem quiet_definition {v : LetVariable Fragment} (hname : Avoids .all v.name)
    (h : v.value.Quiet) (hqueries : ∀ f ∈ v.value.queries, f.Quiet) (hscope : scope.Quiet) :
    (definition scope v).Yields (Avoids .changes) := by
  have hequals : Divides .changes " = ".toList := by decide
  have hopen : Avoids .changes ("LET " ++ v.name) := hname.changes.behind (by decide)
  obtain ⟨name, value⟩ := v
  cases value with
  | bound b =>
      have hvalue : Avoids .changes (b.text scope) := Bound.Quiet.avoids_text h hscope
      exact yields_pure (hopen.divided hvalue hequals)
  | query q =>
      exact (hqueries q List.mem_cons_self).value.map fun _ hvalue => hopen.divided hvalue hequals

/-- A quiet source has a neutral variable and starts no modification. -/
theorem quiet_sourceText {tablePrefix : String} (hfront : Solid tablePrefix.toList)
    {s : Source Fragment} (h : s.Quiet) (hqueries : ∀ f ∈ s.queries, f.Quiet) :
    Neutral (sourceText tablePrefix s).1 ∧
      (sourceText tablePrefix s).2.Yields (Avoids .changes) := by
  have hcollection : ∀ {name : String}, Solid name.toList →
      Avoids .changes (collectionName tablePrefix name) := by
    intro name hname
    refine (avoids_collectionName ?_).changes
    rw [String.toList_append]
    exact hfront.append hname
  cases s with
  | collection name v => exact ⟨h.2, yields_pure (hcollection h.1)⟩
  | view name v => exact ⟨h.2, yields_pure (hcollection h.1)⟩
  | derived q v => exact ⟨h, (hqueries q List.mem_cons_self).embedded⟩

/-- A loop starts no modification if its variable is neutral and its source starts none. -/
theorem avoids_loop (hvar : Neutral docVar) (hsource : Avoids .changes source) :
    Avoids .changes (loop docVar source) := by
  have hopen : Avoids .changes ("FOR " ++ docVar) := hvar.changes.behind (by decide)
  exact hopen.divided hsource (by decide)

/-- The variable of the partners of a document ends like no keyword. -/
theorem avoids_found (hvar : Neutral docVar) : Avoids .changes (docVar ++ "List") := by
  have hending : ∀ keyword ∈ Keywords.changes.words, ¬ "LIST".toList <:+ keyword.toList := by decide
  have hsolid : Solid (docVar ++ "List").toList := by
    rw [String.toList_append]
    exact hvar.solid.append (by decide)
  intro w hw
  rw [words_of_solid hsolid hw]
  by_contra hword
  have hkeyword : String.ofList (asciiUpper (docVar ++ "List").toList) ∈ Keywords.changes.words :=
    List.contains_iff_mem.mp (Bool.not_eq_false _ ▸ hword)
  refine hending _ hkeyword ⟨asciiUpper docVar.toList, ?_⟩
  simp [asciiUpper]

/-- The loop of a left join starts no modification if the loop inside of it starts none. -/
theorem avoids_leftLoop (hvar : Neutral docVar)
    (hrows : Avoids .changes (loop docVar source ++ filter)) :
    Avoids .changes (leftLoop docVar source filter) := by
  have hfound := avoids_found hvar
  have hopen : Avoids .changes ("LET " ++ (docVar ++ "List")) := hfound.behind (by decide)
  have hpartners : Avoids .changes ("(LENGTH(" ++ (docVar ++ "List") ++ ") > 0) ? "
      ++ (docVar ++ "List") ++ " : [\x7b\x7d]") := by
    have hlength : Avoids .changes ("(LENGTH(" ++ (docVar ++ "List")) := hfound.behind (by decide)
    exact (hlength.divided hfound (by decide)).before (by decide)
  have hlet : Avoids .changes ("LET " ++ (docVar ++ "List") ++ " = ("
      ++ (loop docVar source ++ filter)) := hopen.divided hrows (by decide)
  have hreturn : Divides .changes " RETURN ".toList := by decide
  have hclose : Divides .changes ") ".toList := by decide
  have hall := (hlet.divided hvar.changes hreturn).divided (avoids_loop hvar hpartners) hclose
  unfold leftLoop
  rw [← String.append_assoc] at hall
  exact hall

/-- A loop with the conditions behind it starts no modification if neither of them does. -/
theorem avoids_restricted {rows : String} (h : Avoids .changes rows) :
    ∀ conditions : Option String, (∀ t ∈ conditions, Avoids .changes t) →
      Avoids .changes (rows ++ (match conditions with
        | some conditions => " FILTER " ++ conditions
        | none => "")) := by
  have hfilter : Divides .changes " FILTER ".toList := by decide
  intro conditions hconditions
  cases conditions with
  | none =>
      dsimp only
      rw [String.append_empty]
      exact h
  | some conditions =>
      dsimp only
      rw [← String.append_assoc]
      exact h.divided (hconditions conditions rfl) hfilter

/-- The loop of a quiet join starts no modification. -/
theorem quiet_joinLoop {j : Join Fragment} (h : j.query.Quiet) :
    (joinLoop j).Yields (Avoids .changes) := by
  have hsource := h.source
  unfold joinLoop
  cases hs : j.query.source with
  | none => exact yields_fail _
  | some s =>
      obtain ⟨hvar, htext⟩ := hsource s hs
      refine htext.bind fun source hsource => h.conditions.map fun conditions hconditions => ?_
      have hrows := avoids_restricted (avoids_loop hvar hsource) conditions hconditions
      cases j.kind with
      | left => exact avoids_leftLoop hvar hrows
      | inner => exact hrows
      | cross => exact hrows

/-- A search without keywords starts no modification. -/
theorem avoids_searchText {s : Search} (h : s.Quiet) (hscope : scope.Quiet) :
    Avoids .changes (searchText scope s) := by
  have htext := h.text.avoids_text hscope
  have hanalyzer := h.analyzer.avoids_text hscope
  have htokens : Divides .changes " IN TOKENS(".toList := by decide
  have hfields : Avoids .changes (" OR ".intercalate (s.fields.map fun field =>
      scope.resolve field ++ " IN TOKENS(" ++ s.text.text scope ++ ", "
        ++ s.analyzer.text scope ++ ")")) := by
    refine avoids_intercalate (by decide) fun condition hcondition => ?_
    obtain ⟨field, hfield, rfl⟩ := List.mem_map.mp hcondition
    have hcolumn := (hscope.resolve (h.fields field hfield)).changes
    exact ((hcolumn.divided htext htokens).divided hanalyzer divides_comma).before follows_close
  have hopen : Avoids .changes ("SEARCH ANALYZER(" ++ " OR ".intercalate (s.fields.map fun field =>
      scope.resolve field ++ " IN TOKENS(" ++ s.text.text scope ++ ", "
        ++ s.analyzer.text scope ++ ")")) := hfields.behind (by decide)
  exact (hopen.divided hanalyzer divides_comma).before follows_close

end loops

section order

variable {resolve : String → String} {docVar : String}

/-- A criterion without keywords starts no modification. -/
theorem avoids_criterion (hresolve : ∀ c, Column.Unbroken c → Avoids .changes (resolve c))
    (hvar : Avoids .changes docVar) {order : Order} (h : order.Quiet) :
    Avoids .changes (criterion resolve docVar order) := by
  cases order with
  | column name direction =>
      have hdirection : Avoids .changes direction.text := by cases direction <;> decide
      exact (hresolve name h).divided hdirection divides_blank
  | raw aql => exact h
  | random => exact (by decide : Avoids .changes "RAND()")
  | bestMatching => exact (hvar.behind (by decide)).before (by decide)

/-- Orders without keywords start no modification. -/
theorem avoids_sortText (hresolve : ∀ c, Column.Unbroken c → Avoids .changes (resolve c))
    (hvar : Avoids .changes docVar) {orders : List Order} (h : ∀ order ∈ orders, order.Quiet) :
    ∀ text ∈ sortText resolve docVar orders, Avoids .changes text := by
  cases orders with
  | nil => exact fun text htext => by cases htext
  | cons first rest =>
      intro text htext
      rw [List.mem_singleton.mp htext]
      refine Avoids.behind (avoids_intercalate divides_comma fun other hother => ?_) (by decide)
      obtain ⟨order, horder, rfl⟩ := List.mem_map.mp hother
      exact avoids_criterion hresolve hvar (h order horder)

/-- Orders without keywords start no modification in a scope without keywords. -/
theorem avoids_sortIn (hscope : scope.Quiet) {orders : List Order}
    (h : ∀ order ∈ orders, order.Quiet) : ∀ text ∈ sortIn scope orders, Avoids .changes text :=
  avoids_sortText (fun _ hc => (hscope.resolve hc).changes) hscope.neutral_docVar.changes h

/-- A limit starts no modification. -/
theorem avoids_limitText (limit offset : Option Nat) :
    ∀ text ∈ limitText limit offset, Avoids .changes text := by
  have hcount : ∀ count : Nat, Avoids .changes ("LIMIT " ++ toString count) :=
    fun count => (avoids_toString count).changes.behind (by decide)
  intro text htext
  cases limit with
  | none => cases htext
  | some count =>
      cases offset with
      | none =>
          rw [List.mem_singleton.mp htext]
          exact hcount count
      | some skipped =>
          unfold limitText at htext
          dsimp only at htext
          split at htext
          · rw [List.mem_singleton.mp htext]
            exact (hcount skipped).divided (avoids_toString count).changes divides_comma
          · rw [List.mem_singleton.mp htext]
            exact hcount count

end order

end Aql

end AqlBuilder
