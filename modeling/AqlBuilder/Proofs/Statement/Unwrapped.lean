import AqlBuilder.Alias.Rules
import AqlBuilder.Proofs.Aql.Cited
import AqlBuilder.Proofs.Builder.Failure
import AqlBuilder.Proofs.Statement.AggregateUnion
import AqlBuilder.Proofs.Statement.Prefixed

/-!
# Values of sub-queries

A query whose rows are used as a value stands in parentheses, and in `FIRST` if it has a single row.
What decides about `FIRST` is the limit of the query without regard to its unions, whereas the rows
of a union are limited by what was called after the first union. So for a query without unions the
`LIMIT` of its own statement decides; for a union, the `LIMIT` in its first query.

- `Aql.limitsTo_clauses`: one of the clauses of a statement is a `LIMIT` just if its rows are
  limited.
- `Role` is how a query is used for its value, and `Entry.Values` are the uses in a compiled
  statement, at any depth.
- `Entry.unwrapped_by_first_limit`: which of them are in `FIRST`.
-/

namespace AqlBuilder

open Outcome

/-- The limit of the rows of a query, which are those of the union if there is one. -/
def Clauses.rowLimit {Q : Type} (c : Clauses Q) : Option Nat :=
  if c.unions.isEmpty then c.limit else c.unionLimit

/-- A query without its unions. -/
def Builder.first (b : Builder) : Builder := { b with unions := [] }

namespace Aql

/-- A clause that limits the rows to a number of them. -/
inductive Limits (count : Nat) : String → Prop
  | plain : Limits count ("LIMIT " ++ toString count)
  | skipping (skipped : Nat) :
      Limits count ("LIMIT " ++ toString skipped ++ ", " ++ toString count)

/-- Clauses of which one limits the rows to a number of them. -/
def LimitsTo (count : Nat) (clauses : List String) : Prop := ∃ clause ∈ clauses, Limits count clause

/-- The keywords of the other clauses. -/
def clauseWords : List String :=
  ["LET ", "FOR ", "SEARCH ", "FILTER ", "COLLECT", "SORT ", "RETURN "]

/-- Clauses of which each begins with such a keyword. -/
def Unlimited (clauses : List String) : Prop :=
  ∀ clause ∈ clauses, ∃ word ∈ clauseWords, ∃ rest, clause = word ++ rest

variable {c : Clauses Fragment} {count : Nat} {first second : List String}

section limits

/-- The number of a limit is what stands behind its last blank. -/
theorem Limits.exists_front {clause : String} (h : Limits count clause) :
    ∃ front, clause = front ++ " " ++ toString count := by
  cases h with
  | plain => exact ⟨"LIMIT", rfl⟩
  | skipping skipped =>
      refine ⟨"LIMIT " ++ toString skipped ++ ",", ?_⟩
      have hcut : ", " = "," ++ " " := by decide
      simp only [hcut, String.append_assoc]

/-- A clause limits the rows to one number. -/
theorem Limits.unique {clause : String} {other : Nat} (h : Limits count clause)
    (h' : Limits other clause) : count = other := by
  have hbehind : ∀ (front : String) (n : Nat),
      (front ++ " " ++ toString n).toList.rtakeWhile (· != ' ') = (toString n).toList := by
    intro front n
    have hdigits : ∀ d ∈ (toString n).toList.reverse, (d != ' ') = true := by
      intro d hd
      rw [List.mem_reverse] at hd
      have hdigit := isAsciiDigit_of_mem_toString hd
      rw [bne_iff_ne]
      rintro rfl
      exact absurd hdigit (by decide)
    rw [List.rtakeWhile, String.toList_append, List.reverse_append,
      List.takeWhile_append_of_pos hdigits]
    simp
  obtain ⟨front, rfl⟩ := h.exists_front
  obtain ⟨front', hsame⟩ := h'.exists_front
  have hlist := hbehind front count
  rw [hsame, hbehind front' other] at hlist
  exact (toString_inj hlist).symm

/-- One of two lists of clauses limits the rows if they do together. -/
theorem limitsTo_append : LimitsTo count (first ++ second) ↔
    LimitsTo count first ∨ LimitsTo count second := by
  unfold LimitsTo
  simp only [List.mem_append, or_and_right, exists_or]

/-- A clause that limits rows begins with the keyword. -/
theorem Limits.exists_back {clause : String} (h : Limits count clause) :
    ∃ back, clause = "LIMIT " ++ back := by
  cases h with
  | plain => exact ⟨_, rfl⟩
  | skipping skipped =>
      refine ⟨toString skipped ++ ", " ++ toString count, ?_⟩
      simp only [String.append_assoc]

/-- Clauses with other keywords limit no rows. -/
theorem Unlimited.not_limitsTo (h : Unlimited first) : ¬ LimitsTo count first := by
  rintro ⟨clause, hmem, hlimits⟩
  obtain ⟨word, hword, rest, rfl⟩ := h clause hmem
  obtain ⟨back, hback⟩ := hlimits.exists_back
  -- The first two letters tell the keywords apart.
  have hletters := congrArg (fun text => text.toList.take 2) hback
  simp only [clauseWords, List.mem_cons, List.not_mem_nil, or_false] at hword
  rcases hword with rfl | rfl | rfl | rfl | rfl | rfl | rfl <;> simp at hletters

/-- A limit is a clause just if there is a limit. -/
theorem limitsTo_limitText {limit offset : Option Nat} :
    LimitsTo count (limitText limit offset) ↔ limit = some count := by
  constructor
  · rintro ⟨clause, hmem, hlimits⟩
    cases limit with
    | none => cases hmem
    | some n =>
        have hn : Limits n clause := by
          unfold limitText at hmem
          cases offset with
          | none => exact List.mem_singleton.mp hmem ▸ .plain
          | some skipped =>
              dsimp only at hmem
              split at hmem
              · exact List.mem_singleton.mp hmem ▸ .skipping skipped
              · exact List.mem_singleton.mp hmem ▸ .plain
        rw [hn.unique hlimits]
  · rintro rfl
    unfold limitText
    cases offset with
    | none => exact ⟨_, List.mem_cons_self, .plain⟩
    | some skipped =>
        dsimp only
        split
        · exact ⟨_, List.mem_cons_self, .skipping skipped⟩
        · exact ⟨_, List.mem_cons_self, .plain⟩

/-- With other clauses around it, too. -/
theorem limitsTo_around {limit offset : Option Nat} (hfirst : Unlimited first)
    (hsecond : Unlimited second) :
    LimitsTo count (first ++ (limitText limit offset ++ second)) ↔ limit = some count := by
  rw [limitsTo_append, limitsTo_append, limitsTo_limitText]
  constructor
  · rintro (h | h | h)
    · exact (hfirst.not_limitsTo h).elim
    · exact h
    · exact (hsecond.not_limitsTo h).elim
  · exact fun h => .inr (.inl h)

end limits

section unlimited

theorem Unlimited.append (h : Unlimited first) (h' : Unlimited second) :
    Unlimited (first ++ second) :=
  List.forall_mem_append.mpr ⟨h, h'⟩

theorem unlimited_nil : Unlimited [] := fun _ h => nomatch h

theorem unlimited_clause {word rest : String} (h : word ∈ clauseWords) : Unlimited [word ++ rest] :=
  List.forall_mem_singleton.mpr ⟨word, h, rest, rfl⟩

/-- A loop limits no rows. -/
theorem unlimited_loop (docVar source : String) : Unlimited [loop docVar source] := by
  have hloop : loop docVar source = "FOR " ++ (docVar ++ " IN " ++ source) := by
    simp only [loop, String.append_assoc]
  exact hloop ▸ unlimited_clause (by decide)

/-- An order limits no rows. -/
theorem unlimited_sortText (resolve : String → String) (docVar : String) (orders : List Order) :
    Unlimited (sortText resolve docVar orders) := by
  cases orders with
  | nil => exact unlimited_nil
  | cons o rest => exact unlimited_clause (by decide)

/-- A filter limits no rows. -/
theorem yields_unlimited_filter (sc : Scope) (list : List (Condition Fragment)) :
    (filter sc list).Yields Unlimited := by
  refine (yields_any _).bind fun text _ => ?_
  cases text with
  | none => exact yields_pure unlimited_nil
  | some text => exact yields_pure (unlimited_clause (by decide))

/-- A definition limits no rows. -/
theorem unlimited_let (name value : String) : Unlimited ["LET " ++ name ++ " = " ++ value] := by
  have hlet : "LET " ++ name ++ " = " ++ value = "LET " ++ (name ++ " = " ++ value) := by
    simp only [String.append_assoc]
  rw [hlet]
  exact unlimited_clause (by decide)

/-- Selected queries limit no rows of the query around them. -/
theorem yields_unlimited_queries (columns : List (Selector Fragment)) :
    (selectedQueries columns).Yields Unlimited := by
  induction columns with
  | nil => exact yields_pure unlimited_nil
  | cons s rest ih =>
      cases s with
      | sub q asName =>
          refine (yields_any _).bind fun value _ => ih.map fun texts htexts => ?_
          exact (unlimited_let asName value).append htexts
      | _ => exact ih

/-- Clauses that limit no rows one by one limit none together. -/
theorem yields_unlimited_each {α : Type} {f : α → Outcome String} {items : List α}
    (h : ∀ item ∈ items, (f item).Yields fun text => Unlimited [text]) :
    (each f items).Yields Unlimited := by
  induction items with
  | nil => exact yields_pure unlimited_nil
  | cons first rest ih =>
      refine (h first List.mem_cons_self).bind fun text htext => ?_
      refine (ih fun item hitem => h item (List.mem_cons_of_mem first hitem)).map ?_
      exact fun texts htexts => htext.append htexts

/-- A join limits no rows. -/
theorem yields_unlimited_join (j : Join Fragment) :
    (joinLoop j).Yields fun text => Unlimited [text] := by
  unfold joinLoop
  split
  · exact yields_fail _
  rename_i docVar source _
  refine (yields_any _).bind fun source _ => (yields_any _).map fun conditions _ => ?_
  split
  · have hleft : ∀ filter, leftLoop docVar source filter = "LET " ++ (docVar ++ "List") ++ " = " ++
        ("(" ++ loop docVar source ++ filter ++ " RETURN " ++ docVar ++ ") "
          ++ loop docVar ("(LENGTH(" ++ (docVar ++ "List") ++ ") > 0) ? " ++ (docVar ++ "List") ++
            " : [\x7b\x7d]")) := by
      intro filter
      have hcut : " = (" = " = " ++ "(" := by decide
      simp only [leftLoop, hcut, String.append_assoc]
    exact hleft _ ▸ unlimited_let _ _
  · have hloop : ∀ filter, loop docVar source ++ filter = loop docVar (source ++ filter) := by
      intro filter
      simp only [loop, String.append_assoc]
    exact hloop _ ▸ unlimited_loop _ _

/-- The loops of a query limit no rows. -/
theorem yields_unlimited_loops (c : Clauses Fragment) : (loops c).Yields Unlimited := by
  have hdefinition : ∀ d ∈ c.definitions, (definition c.scope d).Yields fun text =>
      Unlimited [text] := by
    intro d _
    refine (yields_mark c.scope d).mono fun text ⟨value, htext⟩ => ?_
    rw [htext]
    exact unlimited_let d.name value
  have hmain : (mainLoop c).Yields fun text => Unlimited [text] := by
    unfold mainLoop
    split
    · exact (yields_any _).map fun source _ => unlimited_loop _ source
    · exact yields_fail _
  have hsearch : Unlimited (c.search.map (searchText c.scope)).toList := by
    cases c.search with
    | none => exact unlimited_nil
    | some s =>
        have hcut : "SEARCH ANALYZER(" = "SEARCH " ++ "ANALYZER(" := by decide
        change Unlimited [searchText c.scope s]
        unfold searchText
        simp only [hcut, String.append_assoc]
        exact unlimited_clause (by decide)
  refine (yields_loops_parts (yields_unlimited_each hdefinition) hmain
    (yields_unlimited_each fun j _ => yields_unlimited_join j)
    (yields_unlimited_filter _ _)).mono ?_
  rintro pieces ⟨definitions, main, joins, filters, hdefinitions, hmain, hjoins, hfilters, rfl⟩
  exact hdefinitions.append (hmain.append (hsearch.append (hjoins.append hfilters)))

/-- Groups limit no rows. -/
theorem yields_unlimited_collect (c : Clauses Fragment) :
    (collect c).Yields fun collected => Unlimited (collected.map Collected.clause).toList := by
  by_cases hgrouped : Grouped c
  · refine (yields_collectsBy hgrouped).mono fun collected ⟨keys, g, hg, h⟩ => ?_
    obtain rfl : collected = some g := hg
    obtain ⟨tail, -, htext⟩ := h.clause
    have hcollect : ∃ back, g.clause = "COLLECT" ++ back := by
      rw [htext, collectText]
      split
      · exact ⟨tail, rfl⟩
      · have hcut : "COLLECT " = "COLLECT" ++ " " := by decide
        rw [hcut]
        simp only [String.append_assoc]
        exact ⟨_, rfl⟩
    obtain ⟨back, hback⟩ := hcollect
    change Unlimited [g.clause]
    exact hback ▸ unlimited_clause (by decide)
  · rw [collect_of_plain hgrouped]
    exact yields_pure unlimited_nil

/-- What is returned limits no rows. -/
theorem unlimited_returnText (c : Clauses Fragment) (sc : Scope) (keys : List String) :
    Unlimited [returnText c sc keys] := by
  unfold returnText
  split
  · have hcut : "RETURN \x7baggregate: " = "RETURN " ++ "\x7baggregate: " := by decide
    simp only [hcut, String.append_assoc]
    exact unlimited_clause (by decide)
  · simp only [String.append_assoc]
    exact unlimited_clause (by decide)

end unlimited

/-- **One of the clauses of a statement is a `LIMIT` just if its rows are limited.** -/
theorem limitsTo_clauses (c : Clauses Fragment) :
    (clauses c).Yields fun texts => ∀ count, LimitsTo count texts ↔ c.rowLimit = some count := by
  have hreturn : ∀ text, Unlimited ["RETURN " ++ text] := fun text => unlimited_clause (by decide)
  unfold clauses Clauses.rowLimit
  split
  · refine (yields_unlimited_loops c).bind fun loops hloops => ?_
    refine (yields_unlimited_collect c).bind fun collected hcollected => ?_
    refine (yields_unlimited_filter _ _).bind fun havings hhavings => ?_
    refine (yields_unlimited_queries _).map fun queries hqueries count => ?_
    have hfront := ((hloops.append hcollected).append hhavings).append
      (unlimited_sortText (scopeAfter c collected).resolve (c.docVar.getD "") c.orders)
    rw [List.append_assoc, List.append_assoc]
    exact limitsTo_around hfront (hqueries.append (unlimited_returnText _ _ _))
  · refine (yields_any _).bind fun first _ => (yields_any _).map fun rows _ count => ?_
    rw [List.append_assoc]
    exact limitsTo_around ((unlimited_loop _ rows).append (unlimited_sortText _ _ _)) (hreturn _)

/-- The value of some rows in parentheses: the only one of them, if they are taken for a single
row. -/
def valueText (rows : String) (single : Bool) : String :=
  if single then "FIRST(" ++ rows ++ ")" else rows

end Aql

/-- What the value of a query is used for: it is compared with something that is written already, it
is the value of a variable, or the question is whether there is a row. -/
inductive Role
  | compared (left : String) (operator : Operator)
  | named (name : String)
  | tested (negated : Bool)

/-- The text of a use, with the rows of the query in parentheses. -/
def Role.text (rows : String) (single : Bool) : Role → String
  | compared left operator => Aql.comparison left operator (Aql.valueText rows single)
  | named name => "LET " ++ name ++ " = " ++ Aql.valueText rows single
  | tested negated => Aql.rowTest rows single negated

/-- A query is used for its value in a test that is written in a scope, be it in a group of
conditions, which has a scope of its own. -/
inductive Test.Values : Scope → Test Query → Builder → Role → Prop
  | compared {sc : Scope} {column : String} {operator : Operator} {s : Builder} :
      Values sc (.compareQuery column operator (.of s)) s (.compared (sc.resolve column) operator)
  | tested {sc : Scope} {s : Builder} {negated : Bool} :
      Values sc (.hasRows (.of s) negated) s (.tested negated)
  | nested {sc : Scope} {group s : Builder} {x : Condition Query} {role : Role} :
      x ∈ group.filters → Values group.scope x.test s role → Values sc (.nested (.of group)) s role

/-- A query is used for its value among the query variables, the joins and the filter. -/
inductive Builder.LoopsValue (b : Builder) : Builder → Role → Prop
  | defined {s : Builder} {name : String} :
      ⟨name, .query (.of s)⟩ ∈ b.definitions → LoopsValue b s (.named name)
  | restricted {joined s : Builder} {kind : JoinKind} {x : Condition Query} {role : Role} :
      ⟨kind, .of joined⟩ ∈ b.joins → x ∈ joined.filters → x.test.Values joined.scope s role →
        LoopsValue b s role
  | filtered {s : Builder} {x : Condition Query} {role : Role} :
      x ∈ b.filters → x.test.Values b.scope s role → LoopsValue b s role

/-- A query is used for its value in the statement of another one, with no statement between the
two. -/
inductive Builder.Values (b : Builder) : Builder → Role → Prop
  | looped {s : Builder} {role : Role} : b.LoopsValue s role → Values b s role
  | having {sc : Scope} {s : Builder} {x : Condition Query} {role : Role} :
      b.Later sc → x ∈ b.havings → x.test.Values sc s role → Values b s role
  | selected {s : Builder} {asName : String} :
      .sub (.of s) asName ∈ b.columns → Values b s (.named asName)

/-- A query is used for its value somewhere in a compiled statement. -/
inductive Entry.Values [Naming] (b : Builder) : Entry Builder → Builder → Role → Prop
  | compiled {e : Entry Builder} {c s : Builder} {role : Role} :
      e.Compiles b c → c.Values s role → Values b e s role
  | selected {e : Entry Builder} {s : Builder} {role : Role} :
      e.Selects b → b.LoopsValue s role → Values b e s role

section shown

variable {b s : Builder} {e : Entry Builder} {sc : Scope} {t : Test Query} {role : Role}
  {ref : String}

/-- What stands for a use, if the query compiles. -/
def Role.Writes (role : Role) (s : Builder) (ref : String) : Prop :=
  ∀ rows, s.embedded.Gives rows → role.text rows (s.limit == some 1) = ref

theorem Builder.steady_embedded (s : Builder) : s.embedded.Steady :=
  (Query.steady_fragment (.of s)).embedded

/-- A value is in `FIRST` if the limit of the query is a single row. -/
theorem Builder.yields_value (s : Builder) : (Query.of s).fragment.value.Yields fun value =>
    ∃ rows, s.embedded.Gives rows ∧ value = Aql.valueText rows (s.limit == some 1) := by
  refine s.steady_embedded.yields.map fun rows hrows => ⟨rows, hrows, ?_⟩
  rw [Query.singleRow_fragment]
  rfl

/-- What stands for a use of a query in a test stands in the test. -/
theorem Test.Values.shows (h : t.Values sc s role) (href : role.Writes s ref) (known : Registry) :
    (Site.test known sc t).Shows [] ref := by
  induction h generalizing known with
  | compared =>
      refine (Builder.yields_value _).map fun value ⟨rows, hrows, hvalue⟩ => ?_
      rw [hvalue, ← href rows hrows]
      exact .refl _
  | @tested sc s negated =>
      refine s.steady_embedded.yields.map fun rows hrows => ?_
      rw [Query.singleRow_fragment, ← href rows hrows]
      exact .refl _
  | nested hx _ ih => exact Site.shows_nested (Site.shows_condition hx (ih href _))

/-- What stands for a use of a query among the loops stands in the loops. -/
theorem Builder.LoopsValue.shows (h : b.LoopsValue s role) (href : role.Writes s ref) :
    (Site.loops b).Shows [] ref := by
  cases h with
  | @defined s name hmem =>
      obtain ⟨front, back, hsplit⟩ := List.append_of_mem hmem
      have hdefinition : (Aql.definition b.scope ⟨name, .query (Query.of s).fragment⟩).Yields
          (Stands [] ref) := by
        refine Yields.map s.yields_value fun value ⟨rows, hrows, hvalue⟩ => ?_
        rw [hvalue, ← href rows hrows]
        exact .refl _
      exact (Site.shows_definition hsplit hdefinition).unmarked
  | restricted hmem hx h =>
      exact (Site.shows_join hmem (Site.yields_join_conditions
        (Site.shows_condition hx (h.shows href _)))).unmarked
  | filtered hx h => exact (Site.shows_filtered (Site.shows_condition hx (h.shows href _))).unmarked

/-- What stands for a use of a query in a statement stands in the statement. -/
theorem Builder.Values.shows (h : b.Values s role) (href : role.Writes s ref) :
    (Site.statement b).Shows [] ref := by
  cases h with
  | looped h => exact Site.shows_first (Site.shows_looped (h.shows href))
  | having hlater hx h =>
      exact Site.shows_first
        (Site.shows_having hlater (Site.shows_condition hx (h.shows href _))).unmarked
  | selected hmem =>
      have hselected := List.mem_map_of_mem (f := Selector.map Query.fragment) hmem
      have hqueries : (Aql.selectedQueries b.compiled.columns).Yields (StandsIn [] ref) := by
        refine (Aql.yields_selected hselected s.yields_value).mono ?_
        rintro texts ⟨value, ⟨rows, hrows, rfl⟩, htext⟩
        exact .of_mem (href rows hrows ▸ .refl _) htext
      refine Site.shows_first ((Aql.yields_simple_parts (yields_any _) (yields_any _)
        (fun _ _ => yields_any _) hqueries).mono ?_)
      rintro aql ⟨loops, collected, havings, queries, -, -, -, hstands, rfl⟩
      exact ((((((hstands.before _).after _).after _).after _).after _).after _).intercalate

/-- Another condition does not change how queries are used in the loops. -/
theorem Builder.LoopsValue.keyed (h : b.LoopsValue s role) (bindings : Store)
    (x : Condition Query) :
    LoopsValue { b with bindings := bindings, filters := b.filters ++ [x] } s role := by
  cases h with
  | defined hmem => exact .defined hmem
  | restricted hmem hx h => exact .restricted hmem hx h
  | filtered hx h => exact .filtered (List.mem_append_left _ hx) h

/-- What stands for a use of a query in a compiled statement stands in its text. -/
theorem Entry.Values.shown [Naming] (h : e.Values b s role) (href : role.Writes s ref) :
    (b.compile e).Yields fun compiled => Stands [] ref compiled.aql := by
  cases h with
  | compiled hc h => exact hc.shown (h.shows href)
  | selected hselects h =>
      exact hselects.shown (h.shows href) fun bindings x => (h.keyed bindings x).shows href

end shown

section unwrapped

open Aql

variable {c : Clauses Fragment} {texts : List String}

/-- If the clauses of a query can be written, then those of its first query can. -/
theorem Aql.exists_simpleClauses (hsteady : ∀ f ∈ c.queries, f.Steady)
    (h : (clauses c).Gives texts) :
    ∃ first, (simpleClauses c).Gives first ∧ (c.unions = [] → texts = first) := by
  unfold clauses at h
  split at h
  case isTrue => exact ⟨texts, h, fun _ => rfl⟩
  case isFalse hunions =>
    have hyields : (unionClauses c).Yields fun _ => ∃ first, (simpleClauses c).Gives first := by
      rw [unionClauses, simpleStatement_eq_clauses, bind_bind]
      exact (steady_simpleClauses hsteady).yields.bind fun first hfirst =>
        (yields_any _).mono fun _ _ => ⟨first, hfirst⟩
    obtain ⟨first, hfirst⟩ := hyields 0 texts (h 0)
    exact ⟨first, hfirst, fun hnone => absurd (List.isEmpty_iff.mpr hnone) hunions⟩

/-- **A value is taken from a single row just if the first query is limited to one.**  Wherever a
query is used for its value in a compiled statement, the query compiles, and its rows stand there in
`FIRST` just if the query without its unions is limited to one row, that is, if it has a `LIMIT`
with this number. The `LIMIT` in front of the rows that stand there is that of the unions, if there
are any. -/
theorem Entry.unwrapped_by_first_limit [Naming] {b s : Builder} {e : Entry Builder} {role : Role}
    (h : e.Values b s role) : (b.compile e).Yields fun compiled => ∃ texts first single,
      s.toAql.Gives (" ".intercalate texts) ∧ (clauses s.compiled).Gives texts ∧
      (clauses s.first.compiled).Gives first ∧
      Stands [] (role.text ("(" ++ " ".intercalate texts ++ ")") single) compiled.aql ∧
      (single = true ↔ LimitsTo 1 first) ∧
      (∀ count, LimitsTo count first ↔ s.limit = some count) ∧
      (∀ count, LimitsTo count texts ↔ s.rowLimit = some count) ∧
      (s.unions = [] → texts = first) := by
  by_cases hcompiles : ∃ rows, s.embedded.Gives rows
  · obtain ⟨rows, hrows⟩ := hcompiles
    obtain ⟨aql, rfl⟩ := yields_embedded _ 0 rows (hrows 0)
    have haql : s.toAql.Gives aql := Builder.embedded_gives_iff.mp hrows
    obtain ⟨herror, hstatement⟩ := Builder.toAql_ok_iff.mp (haql 0)
    rw [Builder.statement, statement_eq_clauses] at hstatement
    obtain ⟨texts, htexts, rfl⟩ := map_ok_iff.mp (hstatement 0)
    have hclauses : (clauses s.compiled).Gives texts :=
      (steady_clauses s.steady_compiled).gives htexts
    obtain ⟨first, hfirst, hsame⟩ := exists_simpleClauses s.steady_compiled hclauses
    have hlimit : ∀ count, LimitsTo count first ↔ s.limit = some count :=
      limitsTo_clauses s.first.compiled 0 first (hfirst 0)
    have hrow : ∀ count, LimitsTo count texts ↔ s.rowLimit = some count := by
      have hcompiled : s.compiled.rowLimit = s.rowLimit := by
        unfold Clauses.rowLimit
        rw [show s.compiled.unions.isEmpty = s.unions.isEmpty from List.isEmpty_map]
        rfl
      exact hcompiled ▸ limitsTo_clauses s.compiled 0 texts htexts
    have href : role.Writes s
        (role.text ("(" ++ " ".intercalate texts ++ ")") (s.limit == some 1)) := by
      intro rows hrows'
      rw [Except.ok.inj ((hrows' 0).symm.trans (hrows 0))]
    refine (h.shown href).mono fun compiled hstands => ?_
    refine ⟨texts, first, _, haql, hclauses, hfirst, hstands, ?_, hlimit, hrow, fun hnone => ?_⟩
    · rw [hlimit, beq_iff_eq]
    · exact hsame (List.map_eq_nil_iff.mpr hnone)
  · -- Around a query that does not compile there is no statement.
    have hany : ∀ ref, role.Writes s ref := fun ref rows hrows => absurd ⟨rows, hrows⟩ hcompiles
    intro n compiled hcompiled
    obtain ⟨front, back, htext, -⟩ := h.shown (hany (compiled.aql ++ "x")) n compiled hcompiled
    have hlength := congrArg String.length htext
    simp only [String.length_append] at hlength
    have hletter : "x".length = 1 := rfl
    omega

namespace Builder

/-- The name of a place, which is a location or a town. -/
def anyPlace [Naming] (limit : Builder → Builder) (unionLimit : Builder → Builder) : Builder :=
  unionLimit ((limit ((fromCollection (Clauses.empty 2) "locations as l").select
    [.column "name"])).union false
      (.finished ((fromCollection (Clauses.empty 3) "towns as t").select [.column "name"])) 4).1

/-- The characters who live there. -/
def dwelling [Naming] (place : Builder) : Builder :=
  ((fromCollection (Clauses.empty 1) "characters as c").compareQuery "home" (.ok .equal)
    (.finished place) 4).1

/-- One row of a union is compared as a list, and the rows of a union of which the first query has
one row are compared as one of them. -/
theorem limits_of_union_confused :
    ((dwelling (anyPlace id (limitTo · 1))).toAql 4).1.toOption = some
        ("FOR c IN characters FILTER c.\x60home\x60 == " ++
          "(FOR unionResultDoc IN UNION_DISTINCT((FOR l IN locations RETURN l.\x60name\x60), " ++
          "(FOR t IN towns RETURN \x7bname: t.\x60name\x60\x7d)) " ++
          "LIMIT 1 RETURN unionResultDoc) RETURN c") ∧
      ((dwelling (anyPlace (limitTo · 1) id)).toAql 4).1.toOption = some
        ("FOR c IN characters FILTER c.\x60home\x60 == " ++
          "FIRST((FOR unionResultDoc IN UNION_DISTINCT(" ++
          "(FOR l IN locations LIMIT 1 RETURN l.\x60name\x60), " ++
          "(FOR t IN towns RETURN \x7bname: t.\x60name\x60\x7d)) " ++
          "RETURN unionResultDoc)) RETURN c") :=
  ⟨by decide +kernel, by decide +kernel⟩

/-- The union is limited to one row, and it is not in `FIRST`. -/
theorem place_compared_as_list :
    let b := dwelling (anyPlace id (limitTo · 1))
    ∃ s role compiled texts, Entry.Values b .select s role ∧
      (b.compile .select 4).1 = .ok compiled ∧
      s.toAql.Gives (" ".intercalate texts) ∧ LimitsTo 1 texts ∧
      Stands [] (role.text ("(" ++ " ".intercalate texts ++ ")") false) compiled.aql := by
  intro b
  have hvalues : ∃ s role, Entry.Values b .select s role ∧ s.limit = none ∧ s.rowLimit = some 1 :=
    ⟨_, _, .compiled (.read rfl .refl) (.looped (.filtered List.mem_cons_self .compared)), rfl, rfl⟩
  obtain ⟨s, role, hvalues, hlimit, hrows⟩ := hvalues
  have hok : (b.compile .select 4).1.isOk = true := by decide +kernel
  obtain ⟨compiled, hcompiled⟩ := exists_ok hok
  obtain ⟨texts, first, single, haql, -, -, hstands, hsingle, hfirst, htexts, -⟩ :=
    Entry.unwrapped_by_first_limit hvalues 4 compiled hcompiled
  have hmany : single = false := by
    rw [← Bool.not_eq_true, hsingle, hfirst, hlimit]
    nofun
  rw [hmany] at hstands
  exact ⟨s, role, compiled, texts, hvalues, hcompiled, haql, (htexts 1).mpr hrows, hstands⟩

end Builder

end unwrapped

end AqlBuilder
