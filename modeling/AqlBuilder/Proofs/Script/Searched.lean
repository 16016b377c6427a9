import AqlBuilder.Proofs.Builder.Shaping
import AqlBuilder.Script.Basic

/-!
# Searches and views

A search needs a view, and the call that adds one looks for it. What a query iterates over can be
set again later, and no call looks for a search then, so a query that has one may end up without a
view.

- `Builder.setting` is what most calls leave alone, and `Call.setting_apply` says so.
- `Builder.Misplaced`: a query has a search and iterates over something else than a view.
- `Call.Displaces` are the calls that bring this about, `Call.Settles` those behind which it is
  over; `Call.misplaced_apply` is the step of one call, and `Call.misplaced_applyAll` a run of
  calls.
-/

namespace AqlBuilder

open Supply Builder

/-- Whether a query iterates over a view, its search, its aggregate, and whether it returns a
value. -/
def Builder.setting (b : Builder) : Bool × Option Search × Option Aggregate × Bool :=
  (b.overView, b.search, b.aggregate, b.singleValue)

/-- A query has a search and iterates over something else than a view. -/
def Builder.Misplaced (b : Builder) : Prop := b.search.isSome = true ∧ b.overView = false

/-- A call that changes neither what a query iterates over nor its search, and goes on with it. -/
def Call.Aside {S : Type} : Call S → Prop
  | .fromCollection _ | .fromView _ | .fromQuery _ _ | .fullTextSearch _ _ _ => False
  | .forSubQuery | .forNested | .restart _ => False
  | _ => True

/-- A call takes the view away from a query with a search. -/
def Call.Displaces {S : Type} (b : Builder) : Call S → Prop
  | .fromCollection _ => b.search.isSome = true
  | .fromQuery _ _ => b.error = none ∧ b.search.isSome = true
  | _ => False

/-- A call behind which a query iterates over a view, or has no search. -/
def Call.Settles {S : Type} : Call S → Prop
  | .fromView _ | .forSubQuery | .forNested | .restart _ => True
  | _ => False

namespace Builder

variable {b w : Builder}

/-- Whether a search is misplaced depends on the setting alone. -/
theorem misplaced_of_setting (h : w.setting = b.setting) : w.Misplaced ↔ b.Misplaced := by
  obtain ⟨hview, hrest⟩ := Prod.mk.inj h
  unfold Misplaced
  rw [hview, (Prod.mk.inj hrest).1]

/-- The same clauses have the same setting. -/
theorem SameClauses.setting (h : b.SameClauses w) : w.setting = b.setting := by
  obtain ⟨bindings, error, rfl⟩ := h
  rfl

/-- A join leaves the setting. -/
theorem setting_pushJoin (b : Builder) (kind : JoinKind) (joined : Builder) :
    (b.pushJoin kind joined).setting = b.setting := by
  have habsorbed := (SameClauses.absorb b joined .join).setting
  unfold pushJoin
  generalize b.absorb joined .join = w at habsorbed ⊢
  exact habsorbed

theorem setting_of_frame (h : w.frame = b.frame) : w.setting = b.setting :=
  unchanged_of_frame h setting fun _ => rfl

/-- Adding to the projection leaves the setting. -/
theorem setting_addSelect (b : Builder) (selectors : List (Selector Query)) :
    (b.addSelect selectors).setting = b.setting :=
  setting_of_frame (b.frame_addSelect selectors)

/-- A join with a collection leaves the setting. -/
theorem setting_joinWith [Naming] (b : Builder) (kind : JoinKind) (table : String)
    (restrict : Builder → Supply Builder) :
    (b.joinWith kind table restrict).Always (·.setting = b.setting) :=
  always_unlessFailedM rfl (always_true.bind fun _ _ => always_true.bind fun joined _ =>
    always_pure (setting_pushJoin _ kind joined))

/-- A join with a sub-query leaves the setting. -/
theorem setting_joinQuery [Naming] (b : Builder) (kind : JoinKind) (sub : SubQuery)
    (asName first : String) (operator : Except Error Operator) (second : String) :
    (b.joinQuery kind sub asName first operator second).Always (·.setting = b.setting) := by
  refine always_unlessFailedM rfl ((SameClauses.adopt b sub .join).bind fun r hr => ?_)
  refine always_true.bind fun joined _ => always_pure ((setting_pushJoin _ kind _).trans ?_)
  exact hr.setting

/-- A union leaves the setting. -/
theorem setting_union [Naming] (b : Builder) (all : Bool) (sub : SubQuery) :
    (b.union all sub).Always (·.setting = b.setting) :=
  always_unlessFailedM rfl
    ((SameClauses.adopt b sub .union).bind fun _ hr => always_pure hr.setting)

/-- A copy of a source is of the same kind. -/
theorem overView_of_map {α : Type} {f : Query → α}
    (h : w.source.map (Source.map f) = b.source.map (Source.map f)) : w.overView = b.overView := by
  unfold overView
  generalize w.source = s, b.source = s' at h
  rcases s with _ | s <;> rcases s' with _ | s' <;>
    first | rfl | cases h | (cases s <;> cases s' <;> first | rfl | cases h)

/-- A copy has the setting of its original. -/
theorem setting_copyOf (b : Builder) : b.copyOf.Always (·.setting = b.setting) := by
  intro next
  have hcopy := b.compiled_copyOf next
  have hsource := congrArg Clauses.source hcopy
  have hsearch := congrArg Clauses.search hcopy
  have haggregate := congrArg Clauses.aggregate hcopy
  have hsingle := congrArg Clauses.singleValue hcopy
  exact Prod.ext (overView_of_map hsource) (Prod.ext hsearch (Prod.ext haggregate hsingle))

end Builder

/-- A call aside leaves the setting of its query alone. -/
theorem Call.setting_apply [Naming] (b : Builder) {call : Call Action} (h : call.Aside) :
    (call.apply b).Always (·.setting = b.setting) := by
  by_cases hframed : call.Framed
  · exact (Call.frame_apply b hframed).mono fun _ hw => setting_of_frame hw
  cases call with
  | join kind table first operator second =>
      exact b.setting_joinWith kind table fun joined =>
        pure (joined.compareColumns .and first operator.operator second)
  | joinWith kind table calls =>
      exact b.setting_joinWith kind table fun joined => JoinCall.applyAll joined calls
  | crossJoin table => exact b.setting_joinWith .cross table fun joined => pure joined
  | joinQuery kind sub asName first operator second =>
      exact always_true.bind fun arg _ => b.setting_joinQuery kind arg _ _ _ _
  | union all sub => exact always_true.bind fun arg _ => b.setting_union all arg
  | copy => exact b.setting_copyOf
  | _ => first | exact h.elim | exact (hframed trivial).elim

section steps

variable {b : Builder}

namespace Builder

/-- Over a collection a search is misplaced, and only a search. -/
theorem misplaced_iff_of_collection (h : b.overView = false) :
    b.Misplaced ↔ b.search.isSome = true :=
  and_iff_left h

theorem not_misplaced_of_view (h : b.overView = true) : ¬ b.Misplaced :=
  fun hmisplaced => Bool.false_ne_true (hmisplaced.2.symm.trans h)

/-- Without a search nothing is misplaced. -/
theorem not_misplaced_of_search (h : b.search = none) : ¬ b.Misplaced := fun hmisplaced => by
  have hsearch := hmisplaced.1
  rw [h] at hsearch
  cases hsearch

/-- A search is added where there is a view, and nowhere else. -/
theorem misplaced_fullTextSearch (fields : List (Selector Query)) (text : Value)
    (analyzer : Option String) :
    (b.fullTextSearch fields text analyzer).Misplaced ↔ b.Misplaced := by
  refine of_fullTextSearch (p := fun w => w.Misplaced ↔ b.Misplaced) Iff.rfl Iff.rfl Iff.rfl ?_
  rintro _ _ rfl rfl hview -
  refine iff_of_false (not_misplaced_of_view ?_) (not_misplaced_of_view hview)
  have hbound := ((SameClauses.bindValue b text .search).trans
    (SameClauses.bindValue _ (.string (analyzer.getD defaultAnalyzer)) .search)).setting
  exact (Prod.mk.inj hbound).1.trans hview

/-- The rows of a sub-query are no view. -/
theorem misplaced_fromQuery [Naming] (sub : SubQuery) (asName : String) :
    (b.fromQuery sub asName).Always fun w =>
      w.Misplaced ↔ (b.error = none ∧ b.search.isSome = true) ∨ b.Misplaced := by
  cases herror : b.error with
  | some e =>
      rw [Builder.fromQuery, unlessFailedM_of_error herror]
      exact always_pure (by simp)
  | none =>
      rw [Builder.fromQuery, unlessFailedM_of_free herror]
      refine (SameClauses.adopt b sub .source).bind fun r hr => always_pure ?_
      have hsearch : r.2.search = b.search :=
        congrArg (fun setting => setting.2.1) hr.setting
      refine Iff.trans (misplaced_iff_of_collection rfl) ?_
      change r.2.search.isSome = true ↔ _
      rw [hsearch]
      exact ⟨fun h => Or.inl ⟨rfl, h⟩, fun h => h.elim And.right And.left⟩

end Builder

/-- **What one call does**: a search is without a view just if the call takes the view away, or it
was before and still is. -/
theorem Call.misplaced_apply [Naming] (b : Builder) (call : Call Action) :
    (call.apply b).Always fun w =>
    w.Misplaced ↔ call.Displaces b ∨ (b.Misplaced ∧ ¬ call.Settles) := by
  have hkept : ∀ {w : Builder}, (w.Misplaced ↔ b.Misplaced) → ¬ call.Displaces b →
      ¬ call.Settles → (w.Misplaced ↔ call.Displaces b ∨ (b.Misplaced ∧ ¬ call.Settles)) := by
    intro w hw hdisplaces hsettles
    rw [hw, and_iff_left hsettles, or_iff_right hdisplaces]
  have hsettled : ∀ {w : Builder}, ¬ w.Misplaced → ¬ call.Displaces b → call.Settles →
      (w.Misplaced ↔ call.Displaces b ∨ (b.Misplaced ∧ ¬ call.Settles)) :=
        fun hw hdisplaces hsettles =>
    iff_of_false hw (not_or.mpr ⟨hdisplaces, fun h => h.2 hsettles⟩)
  by_cases haside : call.Aside
  · refine (Call.setting_apply b haside).mono fun w hw => hkept (misplaced_of_setting hw) ?_ ?_
    · cases call <;> first | exact id | exact haside.elim
    · cases call <;> first | exact id | exact haside.elim
  cases call with
  | fromCollection table =>
      refine always_pure (Iff.trans (misplaced_iff_of_collection rfl) ?_)
      exact ⟨Or.inl, fun h => h.elim id fun h => h.1.1⟩
  | fromView view => exact always_pure (hsettled (not_misplaced_of_view rfl) id trivial)
  | fromQuery sub asName =>
      refine always_true.bind fun sub _ => (misplaced_fromQuery sub asName).mono fun w hw => ?_
      exact hw.trans (or_congr_right (and_iff_left id).symm)
  | fullTextSearch fields text analyzer =>
      exact always_true.bind fun fields _ => always_pure
        (hkept (misplaced_fullTextSearch fields text analyzer) id id)
  | forSubQuery =>
      exact fun next => hsettled (not_misplaced_of_search rfl) id trivial
  | forNested => exact fun next => hsettled (not_misplaced_of_search rfl) id trivial
  | restart table => exact fun next => hsettled (not_misplaced_of_search rfl) id trivial
  | _ => exact (haside trivial).elim

/-- **A run of calls**: a search is without a view in the end just if some call took the view away,
or it was in the beginning, and nothing settled that afterwards. -/
theorem Call.misplaced_applyAll [Naming] (calls : List (Call Action)) (b : Builder) (next : Nat) :
    (Call.applyAll calls b next).1.Misplaced ↔
      (b.Misplaced ∧ ∀ call ∈ calls, ¬ call.Settles) ∨
      ∃ before call after, calls = before ++ call :: after ∧
        call.Displaces (Call.applyAll before b next).1 ∧ ∀ later ∈ after, ¬ later.Settles := by
  induction calls generalizing b next with
  | nil =>
      have hnone : Call.applyAll [] b next = (b, next) := rfl
      simp [hnone]
  | cons first rest ih =>
      have hstep : (first.apply b next).1.Misplaced ↔
          first.Displaces b ∨ (b.Misplaced ∧ ¬ first.Settles) := Call.misplaced_apply b first next
      have hrun : ∀ calls, Call.applyAll (first :: calls) b next =
          Call.applyAll calls (first.apply b next).1 (first.apply b next).2 := fun _ => rfl
      rw [hrun, ih, hstep]
      constructor
      · rintro (⟨hdisplaces | ⟨hb, hfirst⟩, hrest⟩ | ⟨before, call, after, rfl, hcall, hafter⟩)
        · exact Or.inr ⟨[], first, rest, rfl, hdisplaces, hrest⟩
        · exact Or.inl ⟨hb, List.forall_mem_cons.mpr ⟨hfirst, hrest⟩⟩
        · exact Or.inr ⟨first :: before, call, after, rfl, (hrun before).symm ▸ hcall, hafter⟩
      · rintro (⟨hb, hall⟩ | ⟨before, call, after, hsplit, hcall, hafter⟩)
        · obtain ⟨hfirst, hrest⟩ := List.forall_mem_cons.mp hall
          exact Or.inl ⟨Or.inr ⟨hb, hfirst⟩, hrest⟩
        · cases before with
          | nil =>
              obtain ⟨rfl, rfl⟩ := List.cons.inj hsplit
              exact Or.inl ⟨Or.inl hcall, hafter⟩
          | cons _ before =>
              obtain ⟨rfl, rfl⟩ := List.cons.inj hsplit
              exact Or.inr ⟨before, call, after, rfl, hrun before ▸ hcall, hafter⟩

end steps

end AqlBuilder
