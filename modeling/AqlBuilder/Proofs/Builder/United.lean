import AqlBuilder.Builder.Projection
import AqlBuilder.Builder.Source
import AqlBuilder.Proofs.Aql.Alike
import AqlBuilder.Proofs.Builder.Failure

/-!
# Unions one after another

A union takes the values and the error of the other query over, and each of the two registries gets
the collections of the other one. Nothing else of the builder changes, and nothing else of the other
query. Orders and limits that come later belong to the combined rows.

- `Builder.unite` adds finished queries, and `Builder.page` orders and limits.
- `Builder.United` is what holds of a builder after any number of unions: `Builder.extends_joined`
  is the step of one union, and `Builder.united_foldl` the run.
- `Builder.unite_eq` and `Builder.page_eq`: what the unions and the later calls make.
-/

namespace AqlBuilder

/-- A call that orders or limits rows. -/
inductive Paging
  | orderBy (column : String) (direction : Except Error Direction)
  /-- An order that is no column. -/
  | order (criterion : Order)
  | limit (count : Nat)
  | offset (count : Nat)

namespace Paging

/-- Carry out a call. -/
def apply (b : Builder) : Paging → Builder
  | orderBy column direction => b.orderBy column direction
  | order criterion => b.pushOrder criterion
  | limit count => b.limitTo count
  | offset count => b.skip count

/-- A call whose direction, if it has one, is a direction. -/
def Legal : Paging → Prop
  | orderBy _ direction => ∃ d, direction = .ok d
  | _ => True

/-- The order that a call adds. -/
def order? : Paging → Option Order
  | orderBy column (.ok direction) => some (.column column direction)
  | order criterion => some criterion
  | _ => none

/-- The number of rows that a call sets. -/
def limit? : Paging → Option Nat
  | limit count => some count
  | _ => none

/-- The offset that a call sets. -/
def offset? : Paging → Option Nat
  | offset count => some count
  | _ => none

/-- The orders of some calls. -/
def orders (calls : List Paging) : List Order := calls.filterMap order?

/-- The last limit of some calls. -/
def lastLimit (calls : List Paging) : Option Nat := (calls.filterMap limit?).getLast?

/-- The last offset of some calls. -/
def lastOffset (calls : List Paging) : Option Nat := (calls.filterMap offset?).getLast?

end Paging

namespace Builder

/-- Combine the rows with those of finished queries, one after another. -/
def unite [Naming] (b : Builder) (operands : List (UnionBranch Builder)) : Supply Builder :=
  operands.foldlM (fun b u => b.union u.all (.finished u.query)) b

/-- Order and limit rows. -/
def page (b : Builder) (calls : List Paging) : Builder := calls.foldl Paging.apply b

/-- The builder after one union with a finished query. -/
def joined (b : Builder) (u : UnionBranch Builder) : Builder :=
  let other := (u.query.aliases.importTables b.aliases).importTables b.aliases
  { b with
    aliases := b.aliases.importTables other
    bindings := b.bindings.merge u.query.bindings (some .union)
    error := b.error.or u.query.error
    unions := b.unions ++ [⟨.of { u.query with aliases := other }, u.all⟩] }

/-- A branch with the query of an operand, whose registry may have further collections. -/
structure Branch (known : List Registry) (u : UnionBranch Builder) (branch : UnionBranch Query) :
    Prop where
  all : branch.all = u.all
  query : ∃ tables, branch.query = .of (Clauses.withTables u.query tables) ∧
    Registry.Extends known u.query.aliases.tables tables

/-- A builder after unions with finished queries: it has further collections and a branch for each
of the queries, and otherwise the clauses that it had. -/
def United (known : List Registry) (b : Builder) (operands : List (UnionBranch Builder))
    (w : Builder) : Prop :=
  ∃ tables branches, w = { b with
      aliases := b.aliases.withTables tables
      bindings := w.bindings
      error := w.error
      unions := b.unions ++ branches } ∧
    Registry.Extends known b.aliases.tables tables ∧ List.Forall₂ (Branch known) operands branches

variable {known : List Registry} {b : Builder} {u : UnionBranch Builder}
  {operands : List (UnionBranch Builder)}

section unions

/-- A finished query is taken over as it is, but for the collections of the builder. -/
theorem adopt_finished [Naming] (b q : Builder) :
    b.adopt (.finished q) .union =
      pure ({ q with aliases := q.aliases.importTables b.aliases },
        b.absorb { q with aliases := q.aliases.importTables b.aliases } .union) := rfl

/-- A union with a finished query adds one branch. -/
theorem union_finished [Naming] (hfree : b.error = none) (u : UnionBranch Builder) :
    b.union u.all (.finished u.query) = pure (b.joined u) := by
  unfold Builder.union
  rw [unlessFailedM_of_free hfree, adopt_finished]
  simp only [absorb, joined, Registry.exchangeTables, pure_bind]

/-- Unions with finished queries are the branches, one after another. -/
theorem unite_eq [Naming] (hfree : b.error = none)
    (hothers : ∀ u ∈ operands, u.query.error = none) :
    b.unite operands = pure (operands.foldl joined b) := by
  induction operands generalizing b with
  | nil => rfl
  | cons u rest ih =>
      have hnext : (b.joined u).error = none := by
        change b.error.or u.query.error = none
        rw [hfree, hothers u List.mem_cons_self]
        rfl
      have hrest := ih hnext fun v hv => hothers v (List.mem_cons_of_mem u hv)
      unfold unite at hrest ⊢
      rw [List.foldlM_cons, union_finished hfree, pure_bind, hrest]
      rfl

/-- Unions with finished queries take no numbers. -/
theorem unite_run [Naming] (hfree : b.error = none) (hothers : ∀ u ∈ operands, u.query.error = none)
    (next : Nat) : (b.unite operands next).1 = operands.foldl joined b := by
  rw [unite_eq hfree hothers]
  rfl

/-- The registries after a union of queries whose collections are known. -/
theorem extends_joined (hown : ∀ entry ∈ b.aliases.tables, ∃ r ∈ known, entry ∈ r.tables)
    (hother : u.query.aliases ∈ known) :
    Registry.Extends known b.aliases.tables (b.joined u).aliases.tables ∧
    ∃ tables, (b.joined u).unions = b.unions ++
        [⟨.of (Clauses.withTables u.query tables), u.all⟩] ∧
      Registry.Extends known u.query.aliases.tables tables := by
  have himported : Registry.Extends known u.query.aliases.tables
      ((u.query.aliases.importTables b.aliases).importTables b.aliases).tables :=
    (Registry.extends_imported hown).trans (Registry.extends_imported hown)
  refine ⟨Registry.extends_imported fun entry hentry => ?_, _, rfl, himported⟩
  exact himported.entries (fun entry hentry => ⟨_, hother, hentry⟩) entry hentry

/-- One branch after another leaves a union with all of them. -/
theorem united_foldl (hown : ∀ entry ∈ b.aliases.tables, ∃ r ∈ known, entry ∈ r.tables)
    (hothers : ∀ u ∈ operands, u.query.aliases ∈ known) :
    United known b operands (operands.foldl joined b) := by
  induction operands generalizing b with
  | nil => exact ⟨b.aliases.tables, [], by rw [List.append_nil]; rfl, .refl known _, .nil⟩
  | cons u rest ih =>
      obtain ⟨hext, tables, hunions, hbranch⟩ :=
        extends_joined hown (hothers u List.mem_cons_self)
      obtain ⟨tables', branches, hw, hext', hbranches⟩ :=
        ih (hext.entries hown) fun v hv => hothers v (List.mem_cons_of_mem u hv)
      rw [List.foldl_cons]
      refine ⟨tables', ⟨.of (Clauses.withTables u.query tables), u.all⟩ :: branches, ?_,
        hext.trans hext', .cons ⟨rfl, tables, rfl, hbranch⟩ hbranches⟩
      rw [hunions, List.append_assoc] at hw
      exact hw

/-- The values of a union are those of its parts, merged in order. -/
theorem bindings_foldl_joined (b : Builder) (operands : List (UnionBranch Builder)) :
    (operands.foldl joined b).bindings = (operands.map (·.query.bindings)).foldl
      (fun s other => s.merge other (some .union)) b.bindings := by
  induction operands generalizing b with
  | nil => rfl
  | cons u rest ih =>
      rw [List.foldl_cons, ih, List.map_cons, List.foldl_cons]
      rfl

/-- Branches without errors bring in none. -/
theorem error_foldl_joined (hfree : b.error = none)
    (hothers : ∀ u ∈ operands, u.query.error = none) : (operands.foldl joined b).error = none := by
  induction operands generalizing b with
  | nil => exact hfree
  | cons u rest ih =>
      refine ih ?_ fun v hv => hothers v (List.mem_cons_of_mem u hv)
      change b.error.or u.query.error = none
      rw [hfree, hothers u List.mem_cons_self]
      rfl

end unions

section paging

variable {calls : List Paging} {call : Paging}

/-- A call orders or limits the combined rows. -/
theorem apply_eq (hfree : b.error = none) (hunions : b.unions ≠ []) (hlegal : call.Legal) :
    call.apply b = { b with
      unionOrders := b.unionOrders ++ call.order?.toList
      unionLimit := call.limit?.or b.unionLimit
      unionOffset := call.offset?.or b.unionOffset } := by
  have hempty : b.unions.isEmpty = false := List.isEmpty_eq_false_iff.mpr hunions
  cases call with
  | orderBy column direction =>
      obtain ⟨d, rfl⟩ := hlegal
      simp only [Paging.apply, orderBy, unlessFailed, pushOrder, hfree, hempty, Option.isSome_none,
        Bool.false_eq_true, if_false]
      rfl
  | order criterion =>
      simp only [Paging.apply, pushOrder, hempty, Bool.false_eq_true, if_false]
      rfl
  | limit count =>
      have hnone : (Paging.limit count).order? = none := rfl
      simp only [Paging.apply, limitTo, hempty, Bool.false_eq_true, if_false]
      rw [hnone, Option.toList_none, List.append_nil]
      rfl
  | offset count =>
      have hnone : (Paging.offset count).order? = none := rfl
      simp only [Paging.apply, skip, hempty, Bool.false_eq_true, if_false]
      rw [hnone, Option.toList_none, List.append_nil]
      rfl

/-- The last result in a list is that of its rest, if there is one. -/
theorem getLast?_filterMap_cons {α β : Type} (f : α → Option β) (a : α) (l : List α)
    (o : Option β) :
    (((a :: l).filterMap f).getLast?).or o = ((l.filterMap f).getLast?).or ((f a).or o) := by
  rw [List.filterMap_cons]
  cases f a with
  | none => rfl
  | some b =>
      rw [List.getLast?_cons]
      cases (l.filterMap f).getLast? <;> rfl

/-- Calls after a union order and limit the combined rows. -/
theorem page_eq (hfree : b.error = none) (hunions : b.unions ≠ [])
    (hlegal : ∀ call ∈ calls, call.Legal) :
    b.page calls = { b with
      unionOrders := b.unionOrders ++ Paging.orders calls
      unionLimit := (Paging.lastLimit calls).or b.unionLimit
      unionOffset := (Paging.lastOffset calls).or b.unionOffset } := by
  induction calls generalizing b with
  | nil => exact (by rw [Paging.orders, List.filterMap_nil, List.append_nil]; rfl)
  | cons call rest ih =>
      have hcall := apply_eq hfree hunions (hlegal call List.mem_cons_self)
      have hrest := ih (b := call.apply b) (by rw [hcall]; exact hfree)
        (by rw [hcall]; exact hunions) fun c hc => hlegal c (List.mem_cons_of_mem call hc)
      have horders : Paging.orders (call :: rest) = call.order?.toList ++ Paging.orders rest := by
        unfold Paging.orders
        rw [List.filterMap_cons]
        cases call.order? <;> rfl
      change (call.apply b).page rest = _
      rw [hrest, hcall, horders, Paging.lastLimit, Paging.lastLimit, getLast?_filterMap_cons,
        Paging.lastOffset, Paging.lastOffset, getLast?_filterMap_cons, List.append_assoc]

end paging

end Builder

end AqlBuilder
