import AqlBuilder.Alias.Rules
import AqlBuilder.Proofs.Binding.Merged
import AqlBuilder.Proofs.Builder.United
import AqlBuilder.Proofs.Script.Staged
import AqlBuilder.Proofs.Statement.Copied

/-!
# Statements of unions

A union compiles each of its queries to the text that the query has alone, although by then the
query knows the collections of the others. Their rows are combined from the left, and what was
called after the unions orders and limits the combination.

- `Aql.unionRows` and `Aql.unionText` put texts together.
- `Aql.statement_gives_union`: the statement of a query with unions, from those of its branches.
- `Builder.get?_unite`: the values of a union.
- `Builder.union_composes` is the result for whole builders.
-/

namespace AqlBuilder

open Outcome

namespace Aql

/-- The rows of a text combined with those of further ones, from the left. -/
def unionRows : String → List (UnionBranch String) → String
  | rows, [] => rows
  | rows, u :: rest =>
    unionRows ((if u.all then "UNION" else "UNION_DISTINCT") ++ "(" ++ rows ++ ", (" ++ u.query
      ++ "))") rest

/-- The statement over combined rows, ordered and limited. -/
def unionText (documents : Bool) (rows : String) (orders : List Order) (limit offset : Option Nat) :
    String :=
  " ".intercalate (["FOR unionResultDoc IN " ++ rows]
    ++ sortText (if documents then Column.onDocument "unionResultDoc"
        else Column.onRow "unionResultDoc") "unionResultDoc" orders
    ++ limitText limit offset ++ ["RETURN unionResultDoc"])

/-- Whether the rows of a query are whole documents. -/
def wholeDocuments {Q : Type} (c : Clauses Q) : Bool :=
  c.columns.isEmpty && c.groups.isEmpty && c.aggregate.isNone

/-- Whether whole documents are returned does not depend on the queries inside. -/
theorem wholeDocuments_map {P Q : Type} (f : P → Q) (c : Clauses P) :
    wholeDocuments (c.map f) = wholeDocuments c := by
  have hcolumns : (c.map f).columns.isEmpty = c.columns.isEmpty := List.isEmpty_map
  rw [wholeDocuments, hcolumns]
  rfl

/-- A text and the branch that is embedded as this text in parentheses. -/
structure Embeds (u : UnionBranch String) (branch : UnionBranch Fragment) : Prop where
  all : branch.all = u.all
  embedded : branch.query.embedded.Gives ("(" ++ u.query ++ ")")

/-- Branches that are embedded as texts are combined as these texts. -/
theorem combined_gives {branches : List (UnionBranch Fragment)} {texts : List (UnionBranch String)}
    (h : List.Forall₂ Embeds texts branches) (rows : String) :
    (combined rows branches).Gives (unionRows rows texts) := by
  induction h generalizing rows with
  | nil => exact gives_pure rows
  | @cons u branch _ _ hbranch _ ih =>
      have htext : (if branch.all then "UNION" else "UNION_DISTINCT") ++ "(" ++ rows ++ ", "
            ++ ("(" ++ u.query ++ ")") ++ ")" =
          (if u.all then "UNION" else "UNION_DISTINCT") ++ "(" ++ rows ++ ", (" ++ u.query
            ++ "))" := by
        rw [hbranch.all]
        apply String.toList_injective
        simp
      refine hbranch.embedded.bind ?_
      rw [unionRows, ← htext]
      exact ih _

/-- The statement of a query with unions. -/
theorem statement_gives_union {c : Clauses Fragment} {first : String}
    {texts : List (UnionBranch String)} (hfirst : (simpleStatement c).Gives first)
    (hunions : c.unions ≠ []) (h : List.Forall₂ Embeds texts c.unions) :
    (statement c).Gives (unionText (wholeDocuments c) (unionRows ("(" ++ first ++ ")") texts)
      c.unionOrders c.unionLimit c.unionOffset) := by
  unfold statement
  rw [List.isEmpty_eq_false_iff.mpr hunions]
  exact hfirst.bind ((combined_gives h _).map _)

section references

variable {name rows : String} {branches : List (UnionBranch String)} {u : UnionBranch String}

/-- Combined rows refer to what they are combined of. -/
theorem mem_references_unionRows (h : name ∈ references rows) :
    name ∈ references (unionRows rows branches) := by
  induction branches generalizing rows with
  | nil => exact h
  | cons u rest ih =>
      refine ih ?_
      have hends : Ends (", (" ++ (u.query ++ "))")) := Separator.ends_append (by decide) _
      have hrows := mem_references_between
        ((if u.all then "UNION" else "UNION_DISTINCT") ++ "(") h hends
      simpa only [String.append_assoc] using hrows

/-- Combined rows refer to what one of the branches refers to. -/
theorem mem_references_unionRows_of_mem (hu : u ∈ branches) (h : name ∈ references u.query) :
    name ∈ references (unionRows rows branches) := by
  induction branches generalizing rows with
  | nil => cases hu
  | cons v rest ih =>
      rcases List.mem_cons.mp hu with rfl | hu
      · have hends : Ends "))" := by decide
        have hquery := mem_references_between
          ((if u.all then "UNION" else "UNION_DISTINCT") ++ "(" ++ rows ++ ", (") h hends
        rw [unionRows]
        refine mem_references_unionRows ?_
        simpa only [String.append_assoc] using hquery
      · exact ih hu

/-- A statement over combined rows refers to what the rows refer to. -/
theorem mem_references_unionText (h : name ∈ references rows) (documents : Bool)
    (orders : List Order) (limit offset : Option Nat) :
    name ∈ references (unionText documents rows orders limit offset) := by
  have hloop : name ∈ references ("FOR unionResultDoc IN " ++ rows) := by
    rw [references, String.toList_append]
    exact mem_referencesIn_append h
  exact mem_references_intercalate separator_blank (by simp) hloop

end references

end Aql

namespace Builder

open Aql

/-- The queries whose rows a union combines. -/
def parts (b : Builder) (operands : List (UnionBranch Builder)) : List Builder :=
  b :: operands.map (·.query)

variable {b w : Builder} {operands : List (UnionBranch Builder)} {text : Builder → String}
  {known : List Registry}

/-- A query beside further collections is embedded as the text that it has alone. -/
theorem Branch.embeds {u : UnionBranch Builder} {branch : UnionBranch Query}
    (h : Branch known u branch) (hapart : Clauses.Apart u.query known)
    (herror : u.query.error = none) (htext : u.query.statement.Gives (text u.query)) :
    Embeds (u.map text) (branch.map Query.fragment) := by
  obtain ⟨tables, hquery, hext⟩ := h.query
  refine ⟨h.all, ?_⟩
  have hstatement : statement (Clauses.withTables u.query tables) = u.query.statement :=
    statement_alike (readsAlike_withTables (c := u.query.compiled) (hapart.map _) hext)
  have hembedded : (Query.of (Clauses.withTables u.query tables)).fragment.embedded.Gives
      ("(" ++ text u.query ++ ")") :=
    gives_embedded (b := Clauses.withTables u.query tables) herror (hstatement ▸ htext)
  rw [UnionBranch.map, hquery]
  exact hembedded

/-- What the unions leave is compiled like this, whatever orders and limits the combined rows. -/
theorem United.statement_gives (h : United known b operands w) (hnew : b.unions = [])
    (hne : operands ≠ []) (hapart : ∀ x ∈ parts b operands, Clauses.Apart x known)
    (herror : ∀ x ∈ parts b operands, x.error = none)
    (htext : ∀ x ∈ parts b operands, x.statement.Gives (text x)) (orders : List Order)
    (limit offset : Option Nat) :
    (Builder.statement
      { w with unionOrders := orders, unionLimit := limit, unionOffset := offset }).Gives
      (unionText (wholeDocuments b)
        (unionRows ("(" ++ text b ++ ")") (operands.map (UnionBranch.map text)))
        orders limit offset) := by
  obtain ⟨tables, branches, hw, hext, hbranches⟩ := h
  have hsome : branches ≠ [] := by
    rintro rfl
    exact hne (List.forall₂_nil_right_iff.mp hbranches)
  have hoperand : ∀ u ∈ operands, u.query ∈ parts b operands := fun u hu =>
    List.mem_cons_of_mem b (List.mem_map_of_mem hu)
  have hembeds : List.Forall₂ Embeds (operands.map (UnionBranch.map text))
      (branches.map (UnionBranch.map Query.fragment)) := by
    rw [List.forall₂_map_left_iff, List.forall₂_map_right_iff]
    refine ((List.forall₂_and_left _ _).mpr ⟨hoperand, hbranches⟩).imp
      fun u branch ⟨hu, hbranch⟩ => ?_
    exact hbranch.embeds (hapart _ hu) (herror _ hu) (htext _ hu)
  -- The clauses of the first query, beside the collections of the others.
  have hfirst : simpleStatement (b.compiled.withTables tables) = b.statement := by
    have hown : b.compiled.Apart known := (hapart b List.mem_cons_self).map Query.fragment
    change simpleStatement (b.compiled.withAliases _) = _
    rw [simpleStatement_alike (readsAlike_withTables hown hext), statement, Aql.statement, compiled,
      Clauses.map, hnew]
    rfl
  have hfirst : (simpleStatement (b.compiled.withTables tables)).Gives (text b) := by
    rw [hfirst]
    exact htext b List.mem_cons_self
  have hcombined := statement_gives_union
    (c := { b.compiled.withTables tables with
      bindings := w.bindings
      error := w.error
      unions := branches.map (UnionBranch.map Query.fragment)
      unionOrders := orders
      unionLimit := limit
      unionOffset := offset }) hfirst (fun h => hsome (List.map_eq_nil_iff.mp h)) hembeds
  rw [hw, hnew, List.nil_append, ← wholeDocuments_map Query.fragment]
  exact hcombined

/-- What unions and later calls leave of a builder that had no unions before. -/
theorem page_unite_eq [Naming] {calls : List Paging} (hstaged : b.Staged) (hnew : b.unions = [])
    (hne : operands ≠ []) (hfree : b.error = none) (hothers : ∀ u ∈ operands, u.query.error = none)
    (hunited : United known b operands (operands.foldl joined b))
    (hlegal : ∀ call ∈ calls, call.Legal) (next : Nat) :
    (b.unite operands next).1.page calls =
      { operands.foldl joined b with
        unionOrders := Paging.orders calls
        unionLimit := Paging.lastLimit calls
        unionOffset := Paging.lastOffset calls } := by
  obtain ⟨horders, hlimit, hoffset⟩ := hstaged hnew
  have herror := error_foldl_joined hfree hothers
  rw [unite_run hfree hothers]
  generalize operands.foldl joined b = v at hunited herror ⊢
  obtain ⟨tables, branches, hv, -, hbranches⟩ := hunited
  have hunions : v.unions ≠ [] := by
    rw [hv, hnew]
    rintro rfl
    exact hne (List.forall₂_nil_right_iff.mp hbranches)
  have hkept : v.unionOrders = [] ∧ v.unionLimit = none ∧ v.unionOffset = none := by
    rw [hv]
    exact ⟨horders, hlimit, hoffset⟩
  rw [page_eq herror hunions hlegal, hkept.1, hkept.2.1, hkept.2.2, List.nil_append, Option.or_none,
    Option.or_none]

/-- The values of a union are those of its queries. -/
theorem joint_unite [Naming] (hfree : b.error = none)
    (hothers : ∀ u ∈ operands, u.query.error = none)
    (next : Nat) : (b.unite operands next).1.bindings.flatten.Joint
      ((parts b operands).map fun x => x.bindings.flatten) := by
  have hmerged := Store.joint_mergeAll b.bindings (operands.map (·.query.bindings)) .union
  rw [← bindings_foldl_joined, ← unite_run hfree hothers next] at hmerged
  simpa only [parts, List.map_cons, List.map_map, Function.comp_def] using hmerged

/-- The queries of one program agree about the names that they share, so none of their values is
lost in a union. -/
theorem get?_unite [Naming] {W : World} (h : W.Reachable)
    (hlive : ∀ x ∈ parts b operands, x ∈ W.live)
    (hfree : b.error = none) (hothers : ∀ u ∈ operands, u.query.error = none) (next : Nat)
    {name : String} {v : Value} :
    (b.unite operands next).1.bindings.flatten.get? name = some v ↔
      ∃ x ∈ parts b operands, x.bindings.flatten.get? name = some v := by
  have hstore : ∀ x ∈ parts b operands, x.bindings ∈ W.ledger.stores := fun x hx => by
    obtain ⟨T, hT⟩ := World.exists_stores_add (hlive x hx)
    change x.bindings ∈ (W.live.map Builder.stores).sum
    rw [hT]
    simp [Builder.stores]
  rw [(joint_unite hfree hothers next).get?_iff]
  · simp only [List.mem_map, exists_exists_and_eq_and]
  · intro part hpart part' hpart' name v w hv hw
    obtain ⟨x, hx, rfl⟩ := List.mem_map.mp hpart
    obtain ⟨x', hx', rfl⟩ := List.mem_map.mp hpart'
    exact h.sound.agree _ (hstore x hx) _ (hstore x' hx') name v w
      (Store.holds_of_get?_flatten hv) (Store.holds_of_get?_flatten hw)

/-- The combined rows refer to what the queries refer to. -/
theorem mem_references_parts {x : Builder} {name : String} (hx : x ∈ parts b operands)
    (h : name ∈ references (text x)) : name ∈ references
      (unionRows ("(" ++ text b ++ ")") (operands.map (UnionBranch.map text))) := by
  rcases List.mem_cons.mp hx with rfl | hx
  · exact mem_references_unionRows (mem_references_between "(" h (by decide))
  · obtain ⟨u, hu, rfl⟩ := List.mem_map.mp hx
    exact mem_references_unionRows_of_mem (List.mem_map_of_mem hu) h

/-- A value that a query mentions alone is mentioned where the text of the query is, too. -/
theorem mem_keys_ofStore {store total : Store} {aql whole name : String} (hname : IsName name)
    (hkept : name ∈ store.flatten.keys → name ∈ total.flatten.keys)
    (htext : name ∈ references aql → name ∈ references whole)
    (h : name ∈ (Compiled.ofStore aql store).bindings.keys) :
    name ∈ (Compiled.ofStore whole total).bindings.keys := by
  rw [Compiled.keys_ofStore, List.mem_filter, mentions_iff hname] at h ⊢
  exact ⟨hkept h.1, htext h.2⟩

/-- **A union composes its queries.**  Finished queries are added to a builder without unions, one
after another, and then orders and limits. Each of the queries compiles alone, and no path among the
columns of one of them and no selector of whole documents begins with a collection or an alias that
only another one has registered. Then the union compiles, whatever the next number is: its loop is
over the rows of the texts that the queries have alone, combined from the left, and exactly the
later calls order and limit it. The names of its values are those of all the queries, each with a
value that one of them has for it, and it mentions what they mention. -/
theorem union_composes [Naming] {calls : List Paging} (hbuilt : b.Built) (hnew : b.unions = [])
    (hne : operands ≠ [])
    (hapart : ∀ x ∈ parts b operands,
      Clauses.Apart x ((parts b operands).map Clauses.aliases))
    (htext : ∀ x ∈ parts b operands, ∃ n, (x.toAql n).1 = .ok (text x))
    (hlegal : ∀ call ∈ calls, call.Legal) (next : Nat) :
    let w := (b.unite operands next).1.page calls
    let aql := unionText (wholeDocuments b)
      (unionRows ("(" ++ text b ++ ")") (operands.map (UnionBranch.map text)))
      (Paging.orders calls) (Paging.lastLimit calls) (Paging.lastOffset calls)
    w.toCompiled.Gives (.ofStore aql w.bindings) ∧
    w.allBindings = .ok w.bindings.flatten ∧
    w.bindings.flatten.Joint ((parts b operands).map fun x => x.bindings.flatten) ∧
    (∀ W : World, W.Reachable → (∀ x ∈ parts b operands, x ∈ W.live) → ∀ name v,
      w.bindings.flatten.get? name = some v ↔
        ∃ x ∈ parts b operands, x.bindings.flatten.get? name = some v) ∧
    ∀ x ∈ parts b operands, ∀ c, x.toCompiled.Gives c → ∀ name ∈ c.bindings.keys, IsName name →
      name ∈ (Compiled.ofStore aql w.bindings).bindings.keys := by
  intro w aql
  have halone : ∀ x ∈ parts b operands, x.error = none ∧ x.statement.Gives (text x) :=
    fun x hx => (htext x hx).elim fun _ hn => toAql_ok_iff.mp hn
  have herror := fun x hx => (halone x hx).1
  have hstatement := fun x hx => (halone x hx).2
  have hfree := herror b List.mem_cons_self
  have hoperand : ∀ u ∈ operands, u.query ∈ parts b operands := fun u hu =>
    List.mem_cons_of_mem b (List.mem_map_of_mem hu)
  have hothers : ∀ u ∈ operands, u.query.error = none := fun u hu => herror _ (hoperand u hu)
  -- The unions, one after another.
  have hunited : United ((parts b operands).map Clauses.aliases) b operands
      (operands.foldl joined b) :=
    united_foldl (fun entry hentry => ⟨_, List.mem_map_of_mem List.mem_cons_self, hentry⟩)
      fun u hu => List.mem_map_of_mem (hoperand u hu)
  have hgives := hunited.statement_gives hnew hne hapart herror hstatement
    (Paging.orders calls) (Paging.lastLimit calls) (Paging.lastOffset calls)
  have hw : w = { operands.foldl joined b with
      unionOrders := Paging.orders calls
      unionLimit := Paging.lastLimit calls
      unionOffset := Paging.lastOffset calls } :=
    page_unite_eq hbuilt.staged hnew hne hfree hothers hunited hlegal next
  have hfreeAfter : w.error = none := by
    rw [hw]
    exact error_foldl_joined hfree hothers
  have hbindings : w.bindings = (b.unite operands next).1.bindings := by
    rw [hw, unite_run hfree hothers next]
  have hjoint : w.bindings.flatten.Joint ((parts b operands).map fun x => x.bindings.flatten) := by
    rw [hbindings]
    exact joint_unite hfree hothers next
  rw [← hw] at hgives
  refine ⟨toCompiled_gives hfreeAfter hgives, ?_, hjoint, fun W hW hlive name v => ?_,
    fun x hx c hc name hname hword => ?_⟩
  · rw [allBindings, check, hfreeAfter]
    rfl
  · rw [hbindings]
    exact get?_unite hW hlive hfree hothers next
  · have hcompiled := (toCompiled_gives (herror x hx) (hstatement x hx)) next
    have heq := Except.ok.inj ((hc next).symm.trans hcompiled)
    subst heq
    refine mem_keys_ofStore hword (fun hkey => ?_) (fun href => ?_) hname
    · exact (hjoint.keys name).mpr ⟨_, List.mem_map_of_mem hx, hkey⟩
    · exact mem_references_unionText (mem_references_parts hx href) _ _ _ _

/-- People that are alive. -/
def survivors : Builder :=
  (Call.apply (Call.apply (fresh 0).1 (.fromCollection "people as p") 1).1
    (.condition .filters .and "p.alive" (some (.spelling "==")) (.value (.bool true))) 1).1

/-- All towns. -/
def towns : Builder := (fresh 1).1.fromCollection "towns as t"

/-- Their union, paged. -/
def census : Builder :=
  (survivors.unite [⟨towns, true⟩] 2).1.page [.orderBy "age" (.ok .descending), .limit 2]

/-- The texts of the two queries. -/
def aloneText (x : Builder) : String :=
  if x.id = 0 then "FOR p IN people FILTER p.\x60alive\x60 == @0_where_1 RETURN p"
  else "FOR t IN towns RETURN t"

/-- What holds of both queries holds of the parts of their union. -/
theorem forall_mem_census {p : Builder → Prop} (hfirst : p survivors) (hsecond : p towns) :
    ∀ x ∈ parts survivors [⟨towns, true⟩], p x :=
  List.forall_mem_cons.mpr ⟨hfirst, List.forall_mem_singleton.mpr hsecond⟩

/-- The people keep apart from the towns: their column begins with their own variable. -/
theorem apart_census : ∀ x ∈ parts survivors [⟨towns, true⟩],
    Clauses.Apart x ((parts survivors [⟨towns, true⟩]).map Clauses.aliases) := by
  have hcolumns : survivors.columnNames = ["p.alive"] ∧ towns.columnNames = [] := by
    decide +kernel
  have hdocuments : survivors.documentTables = [] ∧ towns.documentTables = [] := by
    decide +kernel
  have hsegments : Column.segments (Column.normalForm "p.alive".toList) =
      ["p".toList, "alive".toList] := by decide +kernel
  have hprojected : survivors.aliases.columnFor?
      (String.ofList (Column.normalForm "p.alive".toList)) = none := by decide +kernel
  have hknown : ¬ survivors.aliases.Foreign
      ((parts survivors [⟨towns, true⟩]).map Clauses.aliases) "p" := by
    rintro (⟨-, hother, hv⟩ | ⟨-, hunused, -, -⟩)
    · have hnone : ∀ r ∈ (parts survivors [⟨towns, true⟩]).map Clauses.aliases,
          r.tableVariable? "p" = none := by decide +kernel
      rw [hnone _ hother] at hv
      cases hv
    · exact absurd hunused (by decide +kernel)
  refine forall_mem_census ⟨fun column hcolumn last hlast first rest hpath _ => ?_, ?_⟩ ⟨?_, ?_⟩
  · rw [hcolumns.1, List.mem_singleton] at hcolumn
    subst hcolumn
    cases hlast with
    | refl =>
        rw [hsegments] at hpath
        obtain ⟨rfl, -⟩ := List.cons.inj hpath
        exact hknown
    | step htarget _ =>
        rw [hprojected] at htarget
        cases htarget
  · rw [hdocuments.1]
    nofun
  · rw [hcolumns.2]
    nofun
  · rw [hdocuments.2]
    nofun

/-- A union of people and towns is ordered and limited as a whole. -/
theorem survivors_towns_compose :
    survivors.Built ∧ survivors.unions = [] ∧
      census.toCompiled.Gives (.ofStore ("FOR unionResultDoc IN UNION((FOR p IN people FILTER " ++
        "p.\x60alive\x60 == @0_where_1 RETURN p), (FOR t IN towns RETURN t)) " ++
        "SORT unionResultDoc.\x60age\x60 DESC LIMIT 2 RETURN unionResultDoc")
        census.bindings) := by
  have hbuilt : survivors.Built := .call (.call (.new 0) _ 1) _ 1
  have hunions : survivors.unions = [] := List.isEmpty_iff.mp (by decide +kernel)
  have htext : ∀ x ∈ parts survivors [⟨towns, true⟩], ∃ n, (x.toAql n).1 = .ok (aloneText x) :=
    have hok : ∀ {r : Except Error String} {s : String}, r.toOption = some s → r = .ok s := by
      intro r s h
      cases r with
      | ok a => exact congrArg Except.ok (Option.some.inj h)
      | error e => cases h
    forall_mem_census ⟨2, hok (by decide +kernel)⟩ ⟨2, hok (by decide +kernel)⟩
  have hlegal : ∀ call ∈ [Paging.orderBy "age" (.ok .descending), .limit 2], call.Legal :=
    List.forall_mem_cons.mpr ⟨⟨.descending, rfl⟩, List.forall_mem_singleton.mpr trivial⟩
  obtain ⟨hgives, -⟩ :=
    union_composes hbuilt hunions (List.cons_ne_nil _ []) apart_census htext hlegal 2
  refine ⟨hbuilt, hunions, ?_⟩
  have haql : unionText (wholeDocuments survivors) (unionRows ("(" ++ aloneText survivors ++ ")")
        ([(⟨towns, true⟩ : UnionBranch Builder)].map (UnionBranch.map aloneText)))
      (Paging.orders [.orderBy "age" (.ok .descending), .limit 2])
      (Paging.lastLimit [.orderBy "age" (.ok .descending), .limit 2])
      (Paging.lastOffset [.orderBy "age" (.ok .descending), .limit 2]) =
      "FOR unionResultDoc IN UNION((FOR p IN people FILTER " ++
        "p.\x60alive\x60 == @0_where_1 RETURN p), (FOR t IN towns RETURN t)) " ++
        "SORT unionResultDoc.\x60age\x60 DESC LIMIT 2 RETURN unionResultDoc" := by decide +kernel
  rw [← haql]
  exact hgives

end Builder

end AqlBuilder
