import AqlBuilder.Proofs.Builder.Shaping
import AqlBuilder.Proofs.Script.World

/-!
# Orders and limits of combined rows

Only after a union does a method order or limit combined rows, and there is no method that takes a
union back. So a builder without unions has nothing that orders or limits the rows of unions, and
the orders and limits after its first union are all that there are.

- `Clauses.stage` is the part of a query that matters here; neither methods that only add conditions
  nor those that leave conditions alone touch it.
- `Builder.Staged` is the invariant, and `Call.staged_apply` says that a call keeps it.
- `Builder.Built` are the builders that a program comes to; by `Builder.Built.staged` they have it.
-/

namespace AqlBuilder

open Supply Builder

/-- Whether a query has unions, and what orders and limits their rows. -/
def Clauses.stage {Q : Type} (c : Clauses Q) : Bool × List Order × Option Nat × Option Nat :=
  (c.unions.isEmpty, c.unionOrders, c.unionLimit, c.unionOffset)

/-- A builder that orders and limits the rows of unions only if it has unions. -/
def Builder.Staged (b : Builder) : Prop :=
  b.unions = [] → b.unionOrders = [] ∧ b.unionLimit = none ∧ b.unionOffset = none

variable {b b' : Builder}

/-- What orders and limits rows does not depend on the queries inside. -/
theorem Clauses.stage_map {P Q : Type} (f : P → Q) (c : Clauses P) : (c.map f).stage = c.stage := by
  have hempty : (c.map f).unions.isEmpty = c.unions.isEmpty := List.isEmpty_map
  unfold stage
  rw [hempty]
  rfl

namespace Builder

/-- Whether a builder is staged depends on what orders and limits its rows alone. -/
theorem Staged.of_stage (h : b.Staged) (hstage : b'.stage = b.stage) : b'.Staged := by
  simp only [Clauses.stage, Prod.mk.injEq] at hstage
  obtain ⟨hempty, horders, hlimit, hoffset⟩ := hstage
  intro hnone
  rw [horders, hlimit, hoffset]
  exact h (List.isEmpty_iff.mp (hempty ▸ List.isEmpty_iff.mpr hnone))

theorem staged_empty (id : Nat) : Staged (Clauses.empty id) := fun _ => ⟨rfl, rfl, rfl⟩

/-- The builder for a group of conditions is staged. -/
theorem staged_forNested (b : Builder) : b.forNested.Always Staged := by
  have hfresh : Builder.fresh.Always Staged := fun next => staged_empty next
  exact hfresh.bind fun _ h => always_true.bind fun _ _ => always_pure h

section kept

/-! ### Methods that leave combined rows alone -/

/-- Methods that only add conditions leave the rows alone. -/
theorem Narrows.stage (h : b.Narrows b') : b'.stage = b.stage :=
  h.unchanged Clauses.stage fun _ => rfl

theorem stage_of_kept (h : b'.kept = b.kept) : b'.stage = b.stage := congrArg Prod.snd h

/-- A copy has the unions of its original. -/
theorem stage_copyOf (b : Builder) : b.copyOf.Always (·.stage = b.stage) := by
  intro next
  have hcompiled := congrArg Clauses.stage (b.compiled_copyOf next)
  exact ((Clauses.stage_map Query.fragment _).symm.trans hcompiled).trans
    (b.stage_map Query.fragment)

end kept

section paging

/-! ### Methods that order, limit and combine rows -/

/-- A staged builder stays so with one more criterion. -/
theorem Staged.pushOrder (h : b.Staged) (order : Order) : (b.pushOrder order).Staged := by
  unfold Builder.pushOrder
  split
  case isTrue => exact h
  case isFalse hunions => exact fun hnone => absurd (List.isEmpty_iff.mpr hnone) hunions

/-- A staged builder stays so when it is ordered. -/
theorem Staged.orderBy (h : b.Staged) (column : String) (direction : Except Error Direction) :
    (b.orderBy column direction).Staged := by
  unfold Builder.orderBy unlessFailed
  split
  · exact h
  · cases direction with
    | ok direction => exact h.pushOrder _
    | error e => exact h

/-- A staged builder stays so when it is limited. -/
theorem Staged.limitTo (h : b.Staged) (count : Nat) : (b.limitTo count).Staged := by
  unfold Builder.limitTo
  split
  case isTrue => exact h
  case isFalse hunions => exact fun hnone => absurd (List.isEmpty_iff.mpr hnone) hunions

/-- A staged builder stays so when it skips rows. -/
theorem Staged.skip (h : b.Staged) (count : Nat) : (b.skip count).Staged := by
  unfold Builder.skip
  split
  case isTrue => exact h
  case isFalse hunions => exact fun hnone => absurd (List.isEmpty_iff.mpr hnone) hunions

theorem Staged.reorder (h : b.Staged) : b.reorder.Staged :=
  fun hnone => ⟨rfl, (h hnone).2⟩

/-- A builder is staged with one more union. -/
theorem Staged.union [Naming] (h : b.Staged) (all : Bool) (sub : SubQuery) :
    (b.union all sub).Always Staged := by
  unfold Builder.union unlessFailedM
  split
  · exact always_pure h
  · refine always_true.bind fun result _ => always_pure fun hnone => ?_
    exact absurd hnone (List.append_ne_nil_of_right_ne_nil _ (List.cons_ne_nil _ _))

end paging

end Builder

open Builder

/-- A call orders and limits the rows of unions only if there are some. -/
theorem Call.staged_apply [Naming] (h : b.Staged) (call : Call Action) :
    (call.apply b).Always Staged := by
  by_cases hnarrowing : call.Narrowing
  · exact (Call.narrows_apply b hnarrowing).mono fun _ hw => h.of_stage hw.stage
  by_cases hshaping : call.Shaping
  · exact (Call.kept_apply b hshaping).mono fun _ hw => h.of_stage (stage_of_kept hw)
  cases call with
  | orderBy column direction => exact always_pure (h.orderBy _ _)
  | orderIn column direction => exact always_pure (h.orderBy _ _)
  | latest column => exact always_pure (h.orderBy _ _)
  | oldest column => exact always_pure (h.orderBy _ _)
  | order o => exact always_pure (h.pushOrder o)
  | reorder => exact always_pure h.reorder
  | reorderBy column direction => exact always_pure (h.reorder.orderBy _ _)
  | limitTo count => exact always_pure (h.limitTo count)
  | skip count => exact always_pure (h.skip count)
  | forPage page perPage => exact always_pure ((h.skip _).limitTo _)
  | union all sub => exact always_true.bind fun _ _ => h.union all _
  | copy => exact b.stage_copyOf.mono fun _ hw => h.of_stage hw
  | forSubQuery => exact fun next => staged_empty next
  | forNested => exact b.staged_forNested
  | restart table => exact fun next => staged_empty next
  | _ => first | exact (hnarrowing trivial).elim | exact (hshaping trivial).elim

/-- A builder at any place of any program: a new one, one after a call with any arguments, or the
one that the body of a join begins with. -/
inductive Builder.Built [Naming] : Builder → Prop
  | new (next : Nat) : Built (Builder.fresh next).1
  | call {b : Builder} (h : Built b) (c : Call Action) (next : Nat) : Built (c.apply b next).1
  | openJoin {b : Builder} (h : Built b) (table : String) (next : Nat) :
      Built (b.openJoin table next).1

/-- **A builder without unions orders and limits no combined rows.**  This holds of each builder
that a program comes to. -/
theorem Builder.Built.staged [Naming] (h : b.Built) : b.Staged := by
  induction h with
  | new next => exact staged_empty next
  | call _ c next ih => exact Call.staged_apply ih c next
  | openJoin _ table next ih => exact staged_empty next

end AqlBuilder
