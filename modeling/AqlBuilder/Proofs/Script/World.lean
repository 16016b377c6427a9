import AqlBuilder.Alias.Rules
import AqlBuilder.Proofs.Script.Stores
import AqlBuilder.Proofs.Statement.Stores

/-!
# Names of bound values never collide

A program holds any number of builders, and what it does with them may be interleaved in any way.
The body of a closure is a part of the program like any other: it begins with the builder that is
handed to it, and ends in a call whose closure has returned a builder. Each step of the program is a
run of the ledger on the stores of all its builders, so what holds of ledgers holds of programs.

- `World.Step` is what a program can do.
- `World.Step.run` simulates a step by operations on the stores.
- `World.names_never_collide` is the invariant of whole programs.
-/

namespace AqlBuilder

open Ledger Supply Builder

/-- The query that the body of a join begins with. -/
def Builder.openJoin [Naming] (b : Builder) (table : String) : Supply Builder := do
  let joined ← (b.register table).2.2.forSubQuery
  pure { joined with source := some (.collection (b.register table).1 (b.register table).2.1) }

/-- The builders of a program at one time, and the number of the next query. -/
structure World where
  next : Nat
  live : Multiset Builder

namespace World

/-- The program with one more builder. -/
def grow (W : World) (make : Supply Builder) : World :=
  ⟨(make W.next).2, (make W.next).1 ::ₘ W.live⟩

/-- One step of a program. Calls take over the sub-queries that are given to them. -/
inductive Step [Naming] : World → World → Prop
  | new (W : World) : Step W (W.grow Builder.fresh)
  | copy {W : World} {b : Builder} (h : b ∈ W.live) : Step W (W.grow b.copyOf)
  | forSubQuery {W : World} {b : Builder} (h : b ∈ W.live) : Step W (W.grow b.forSubQuery)
  | forNested {W : World} {b : Builder} (h : b ∈ W.live) : Step W (W.grow b.forNested)
  | openJoin {W : World} {b : Builder} (h : b ∈ W.live) (table : String) :
      Step W (W.grow (b.openJoin table))
  | call {n : Nat} {L : Multiset Builder} (b : Builder) {c : Call Action} {qs : List Builder}
      (hplain : c.Plain) (h : c.scripts = qs.map (returned n)) :
      Step ⟨n, b ::ₘ (↑qs + L)⟩ (grow ⟨n, L⟩ (c.apply b))
  | join {n : Nat} {L : Multiset Builder} (b joined : Builder) (kind : JoinKind) (table : String) :
      Step ⟨n, b ::ₘ joined ::ₘ L⟩ (grow ⟨n, L⟩ (b.joinWith kind table (returned n joined)))
  | merge {n : Nat} {L : Multiset Builder} (b other : Builder) (category : Option Category) :
      Step ⟨n, b ::ₘ other ::ₘ L⟩ ⟨n, b.mergeBindings other category ::ₘ other ::ₘ L⟩
  | compile {n : Nat} {L : Multiset Builder} {b : Builder} (h : b ∈ L) (e : Entry Builder) :
      Step ⟨n, ↑e.queries + L⟩ ⟨((b.compile e).run n).2, L⟩
  | drop {n : Nat} {L : Multiset Builder} (b : Builder) : Step ⟨n, b ::ₘ L⟩ ⟨n, L⟩

/-- What a program can come to from no builder at all. -/
def Reachable [Naming] (W : World) : Prop := ∃ n, Relation.ReflTransGen Step ⟨n, 0⟩ W

/-- All stores in a program. -/
def ledger (W : World) : Ledger := ⟨W.next, (W.live.map Builder.stores).sum⟩

variable {n : Nat} {L : Multiset Builder} {b : Builder} {W W' : World}

theorem stores_cons (b : Builder) (L : Multiset Builder) :
    ((b ::ₘ L).map Builder.stores).sum = b.stores + (L.map Builder.stores).sum := by
  rw [Multiset.map_cons, Multiset.sum_cons]

/-- The stores of a program with more builders are its stores and those of the builders. -/
theorem stores_add (qs : List Builder) (L : Multiset Builder) :
    ((↑qs + L : Multiset Builder).map Builder.stores).sum =
      (qs.map Builder.stores).sum + (L.map Builder.stores).sum := by
  rw [Multiset.map_add, Multiset.sum_add, Multiset.map_coe, Multiset.sum_coe]

/-- The stores of a program are those of one of its builders and others. -/
theorem exists_stores_add (h : b ∈ L) :
    ∃ T, (L.map Builder.stores).sum = b.stores + T := by
  obtain ⟨rest, rfl⟩ := Multiset.exists_cons_of_mem h
  exact ⟨_, stores_cons b rest⟩

/-- A builder that comes in works on stores that are given to it, beside those of the program. -/
theorem run_grow {S : Multiset Store} {make : Supply Builder}
    (h : make.MovesAt n S Builder.stores) :
    Run ⟨n, S + (L.map Builder.stores).sum⟩ (grow ⟨n, L⟩ make).ledger := by
  have hrun := h (L.map Builder.stores).sum
  rw [← stores_cons] at hrun
  exact hrun

/-- A builder that comes in from another one leaves that one as it is. -/
theorem run_derive {make : Supply Builder} (hb : b ∈ W.live)
    (h : Moves b.stores make fun made => made.stores + b.stores) :
    Run W.ledger (W.grow make).ledger := by
  obtain ⟨T, hT⟩ := exists_stores_add hb
  have hrun := h W.next T
  rw [add_assoc, ← hT, ← stores_cons] at hrun
  exact hrun

/-- The query that a join begins with has a new store. -/
theorem moves_openJoin [Naming] (b : Builder) (table : String) :
    Moves 0 (b.openJoin table) Builder.stores := by
  intro n
  refine ((b.register table).2.2.moves_forSubQuery n).map fun joined => ?_
  exact joined.leads_withSource _ rfl

/-- Each step of a program is a run on its stores. -/
theorem Step.run [Naming] (step : W.Step W') : Run W.ledger W'.ledger := by
  have hbeside : ∀ {b : Builder} {make : Supply Builder}, Moves 0 make Builder.stores →
      Moves b.stores make fun made => made.stores + b.stores :=
    fun h n => ((h n).frame _).before (.of_eq (zero_add _).symm)
  cases step with
  | new =>
      have hrun := run_grow (L := W.live) (Builder.moves_fresh W.next)
      rw [zero_add] at hrun
      exact hrun
  | copy h => exact run_derive h (Builder.moves_copyOf _)
  | forSubQuery h => exact run_derive h (hbeside (Builder.moves_forSubQuery _))
  | forNested h => exact run_derive h (Builder.moves_forNested _)
  | openJoin h table => exact run_derive h (hbeside (moves_openJoin _ table))
  | @call n L b c qs hplain h =>
      have hrun := run_grow (L := L) (Call.moves_apply hplain h b)
      rw [add_assoc, ← stores_add, ← stores_cons] at hrun
      exact hrun
  | @join n L b joined kind table =>
      have hrun := run_grow (L := L) (b.moves_joinWith (n := n) (q := joined) kind table)
      rw [add_assoc, ← stores_cons, ← stores_cons] at hrun
      exact hrun
  | @merge n L b other category =>
      have hrun := b.leads_mergeBindings other category n (L.map Builder.stores).sum
      rw [add_assoc, add_assoc, ← stores_cons, ← stores_cons, ← stores_cons] at hrun
      exact hrun
  | @compile n L b h e =>
      have htake := run_take ((↑e.queries + L).map Builder.stores).sum (b.next_le_compile e n)
      refine htake.trans ?_
      have hdrop : Leads ((↑e.queries + L).map Builder.stores).sum (L.map Builder.stores).sum := by
        rw [stores_add]
        exact .of_le (Multiset.le_add_left _ _)
      have hrun := hdrop ((b.compile e).run n).2 0
      rw [add_zero, add_zero] at hrun
      exact hrun
  | @drop n L b =>
      have hdrop : Leads ((b ::ₘ L).map Builder.stores).sum (L.map Builder.stores).sum := by
        rw [stores_cons]
        exact .of_le (Multiset.le_add_left _ _)
      have hrun := hdrop n 0
      rw [add_zero, add_zero] at hrun
      exact hrun

/-- The stores of a reachable program are sound. -/
theorem Reachable.sound [Naming] (h : W.Reachable) : W.ledger.Sound := by
  obtain ⟨n, steps⟩ := h
  induction steps with
  | refl => exact Ledger.Sound.empty
  | tail _ step ih => exact (ih.run step.run).1

/-- The builders have stores of their own among all stores. -/
theorem bindings_le (L : Multiset Builder) :
    L.map Clauses.bindings ≤ (L.map Builder.stores).sum := by
  induction L using Multiset.induction with
  | empty => exact le_refl _
  | cons b L ih =>
      rw [stores_cons, Multiset.map_cons, ← Multiset.singleton_add]
      exact add_le_add (Multiset.le_add_right _ _) ih

/-- **Names of bound values never collide.**  Whatever a program has done so far, its builders have
different numbers, the name that filing a value in any store gives is in no store, and stores that
share a name agree on its value, so that no merging changes a value.  This stays so at every
operation on the stores within the next step, and within the compilation of any builder: while it
lasts, the store of the builder files values, and the values of the statement come from that
store. -/
theorem names_never_collide [Naming] (h : W.Reachable) :
    (W.live.map Clauses.id).Nodup ∧ W.ledger.Consistent ∧
    (∀ W', W.Step W' → Relation.ReflTransGen SafeStep W.ledger W'.ledger) ∧
    ∀ (b : Builder) (e : Entry Builder) (L : Multiset Builder), W.live = b ::ₘ (↑e.queries + L) →
      ∃ (t : Store) (rest : Multiset Store), W.ledger.stores = b.bindings ::ₘ rest ∧
        Relation.ReflTransGen SafeStep W.ledger ⟨((b.compile e).run W.next).2, t ::ₘ rest⟩ ∧
        ∀ compiled, ((b.compile e).run W.next).1 = .ok compiled →
          ∃ aql, compiled = .ofStore aql t := by
  have hsound := h.sound
  refine ⟨?_, hsound.consistent, fun W' step => (hsound.run step.run).2, ?_⟩
  · have hle := Multiset.map_le_map (f := Store.id) (bindings_le W.live)
    rw [Multiset.map_map] at hle
    exact Multiset.nodup_of_le hle hsound.distinct
  · intro b e L hlive
    have hstores : W.ledger.stores = {b.bindings} +
        (b.inner + ((e.queries.map Builder.stores).sum + (L.map Builder.stores).sum)) := by
      rw [ledger, hlive, stores_cons, stores_add, Builder.stores, add_assoc]
    have hqueries : ∀ q ∈ e.queries, q.bindings ∈
        b.inner + ((e.queries.map Builder.stores).sum + (L.map Builder.stores).sum) := by
      intro q hq
      obtain ⟨T, hT⟩ := exists_stores_add (Multiset.mem_coe.mpr hq)
      rw [Multiset.map_coe, Multiset.sum_coe] at hT
      rw [hT]
      simp [Builder.stores]
    obtain ⟨t, hrun, hresult⟩ := b.files_compile e hqueries W.next
    rw [← hstores, Multiset.singleton_add] at hrun
    exact ⟨t, _, hstores, (hsound.run hrun).2, hresult⟩

/-- A builder with one value. -/
def filed : Builder := addBinding (Clauses.empty 0) (.string "Ann") "where"

/-- A program that has a builder with one value and a copy of it. -/
def copied : World := grow ⟨1, filed ::ₘ 0⟩ filed.copyOf

/-- The program with a copy can be come to. -/
theorem reachable_copied : copied.Reachable := by
  refine ⟨0, ?_⟩
  have hnew : Step ⟨0, 0⟩ ⟨1, Clauses.empty 0 ::ₘ 0⟩ := .new ⟨0, 0⟩
  have hcall : Step ⟨1, Clauses.empty 0 ::ₘ 0⟩ ⟨1, filed ::ₘ 0⟩ :=
    @Step.call _ 1 0 (Clauses.empty 0) (.addBinding (.string "Ann") "where") [] trivial rfl
  have hcopy : Step ⟨1, filed ::ₘ 0⟩ copied := .copy (Multiset.mem_cons_self filed 0)
  exact ((Relation.ReflTransGen.single hnew).tail hcall).tail hcopy

/-- Copies have numbers of their own, and share the names that were given before. -/
theorem copied_names :
    copied.Reachable ∧ (copied.live.map Clauses.id).Nodup ∧ copied.ledger.Consistent ∧
      ∀ b ∈ copied.live, b.bindings.flatten = [("0_where_1", .string "Ann")] := by
  obtain ⟨hids, hconsistent, -⟩ := names_never_collide reachable_copied
  refine ⟨reachable_copied, hids, hconsistent, ?_⟩
  intro b hb
  have hb : b ∈ (filed.copyOf 1).1 ::ₘ filed ::ₘ 0 := hb
  rcases Multiset.mem_cons.mp hb with rfl | hb
  · rfl
  · rw [Multiset.mem_singleton.mp hb]
    rfl

end World

/-!
## Programs that replace bound values

A program may also replace the bound values of a builder, under any names. Such a program need not
keep names apart any more. The other laws of builders hold for it as well, and are proved along its
steps.

- `World.Advance` is a step of a program, or the replacement of bound values.
- `World.Reached`: what a program can come to.
-/

namespace World

variable [Naming]

/-- One step of a program that may replace the bound values of a builder. -/
inductive Advance : World → World → Prop
  | step {W W' : World} (h : W.Step W') : Advance W W'
  | setBindings {n : Nat} {L : Multiset Builder} (b : Builder) (values : Bindings)
      (category : Category) : Advance ⟨n, b ::ₘ L⟩ ⟨n, b.setBindings values category ::ₘ L⟩

/-- What such a program can come to from no builder at all. -/
def Reached (W : World) : Prop := ∃ n, Relation.ReflTransGen Advance ⟨n, 0⟩ W

variable {W W' : World}

/-- What a program can come to, it can come to if values may be replaced. -/
theorem Reachable.reached (h : W.Reachable) : W.Reached := by
  obtain ⟨n, steps⟩ := h
  exact ⟨n, Relation.ReflTransGen.mono (fun _ _ => .step) _ _ steps⟩

/-- What a program can come to in one more step, it can come to. -/
theorem Reached.advance (h : W.Reached) (next : W.Advance W') : W'.Reached := by
  obtain ⟨n, steps⟩ := h
  exact ⟨n, steps.tail next⟩

/-- What holds of no builder and is kept by each step holds of every program. -/
theorem Reached.induction {motive : World → Prop} (hempty : ∀ n, motive ⟨n, 0⟩)
    (hstep : ∀ {W W' : World}, W.Advance W' → motive W → motive W') (h : W.Reached) : motive W := by
  obtain ⟨n, steps⟩ := h
  induction steps with
  | refl => exact hempty n
  | tail _ step ih => exact hstep step ih

end World

end AqlBuilder
