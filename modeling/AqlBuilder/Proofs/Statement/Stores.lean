import AqlBuilder.Proofs.Builder.Alike
import AqlBuilder.Proofs.Builder.Stores
import AqlBuilder.Statement.Write

/-!
# What compiling does to stores

A working copy has the number and the counters of its builder, so while a statement is compiled its
store stands in the place of the builder's own: it files values and merges the stores of the queries
among the operands of an update. The values of the statement come from it.

- `Outcome.Files` says what becomes of the store in that place.
- `Builder.files_compile`: every way to compile a builder files values in this manner.
-/

namespace AqlBuilder

open Ledger

namespace Outcome

variable {α β : Type} {F : Multiset Store} {s : Store} {r : α → Store → Prop}
  {r' : β → Store → Prop}

/-- What becomes of a store beside the stores `F` that may be merged into it. A result stands in the
given relation to the store at the end. -/
def Files (F : Multiset Store) (s : Store) (x : Outcome α) (r : α → Store → Prop) : Prop :=
  ∀ n, ∃ t, Run ⟨n, {s} + F⟩ ⟨(x n).2, {t} + F⟩ ∧ ∀ a, (x n).1 = .ok a → r a t

/-- A value that is given files nothing. -/
theorem files_pure {a : α} (h : r a s) : Files F s (pure a) r := by
  refine fun n => ⟨s, .refl, fun a' ha' => ?_⟩
  cases ha'
  exact h

/-- A failure files nothing. -/
theorem files_fail (e : Error) : Files F s (fail e) r := by
  refine fun n => ⟨s, .refl, fun a ha => ?_⟩
  cases ha

/-- A computation files what its parts file, one after the other. -/
theorem Files.bind {x : Outcome α} {f : α → Outcome β} (hx : Files F s x r)
    (hf : ∀ a t, r a t → Files F t (f a) r') : Files F s (x >>= f) r' := by
  intro n
  obtain ⟨t, hrun, hresult⟩ := hx n
  rcases h : x n with ⟨_ | a, n'⟩ <;> rw [h] at hrun hresult
  · rw [bind_error h]
    exact ⟨t, hrun, fun b hb => by cases hb⟩
  · rw [bind_ok h]
    obtain ⟨u, hrest, hlast⟩ := hf a t (hresult a rfl) n'
    exact ⟨u, hrun.trans hrest, hlast⟩

/-- What only takes numbers leaves the store as it is. -/
theorem files_of_rises {x : Outcome α} (h : ∀ n, n ≤ (x n).2)
    (hr : ∀ n a, (x n).1 = .ok a → r a s) :
    Files F s x r :=
  fun n => ⟨s, run_take _ (h n), hr n⟩

theorem Steady.files {x : Outcome α} (h : x.Steady) : Files F s x fun _ t => t = s :=
  files_of_rises h.rises fun _ _ _ => rfl

/-- A result that is there already files nothing before what follows. -/
theorem files_ofExcept {x : Except Error α} {f : α → Outcome β}
    (h : ∀ a, x = .ok a → Files F s (f a) r') : Files F s (ofExcept x >>= f) r' := by
  cases x with
  | error e => exact files_fail e
  | ok a => exact h a rfl

end Outcome

open Outcome

namespace Builder

variable {α : Type} {F : Multiset Store} {s : Store} {r : α → Store → Prop} (b w : Builder)

/-- A statement whose values come from a store. -/
def ReadOff (c : Compiled) (s : Store) : Prop := ∃ aql, c = .ofStore aql s

theorem readOff_ofStore {aql : String} {t : Store} (h : t = s) : ReadOff (.ofStore aql t) s :=
  ⟨aql, by rw [h]⟩

theorem files_checked {f : Unit → Outcome α} (h : Files F s (f ()) r) :
    Files F s (ofExcept b.check >>= f) r := files_ofExcept fun _ _ => h

/-- A working copy works on the store of its builder. -/
theorem files_onCopy {f : Builder → Outcome α}
    (h : ∀ w : Builder, w.bindings = b.bindings → Files F b.bindings (f w) r) :
    Files F b.bindings (b.onCopy f) r := by
  have hcopy : Files F b.bindings (ofSupply b.workingCopy) fun w t =>
      t = b.bindings ∧ w.bindings = b.bindings := by
    refine files_of_rises (fun n => ?_) fun n w hw => ⟨rfl, ?_⟩
    · have hcount := b.workingCopy_run n
      change n ≤ (b.workingCopy n).2
      omega
    · cases hw
      rfl
  refine hcopy.bind fun w t hw => ?_
  rw [hw.1]
  exact h w hw.2

theorem files_withTarget {f : String → Outcome α} (h : ∀ name, Files F s (f name) r) :
    Files F s (ofExcept w.target >>= f) r := files_ofExcept fun name _ => h name

/-- A value is filed under the next name of the store. -/
theorem files_add {x : Outcome α} (v : Value) (category : Category)
    (h : Files F (s.add v category).2 x r) : Files F s x r := by
  intro n
  obtain ⟨t, hrun, hresult⟩ := h n
  exact ⟨t, (leads_add s v category n F).trans hrun, hresult⟩

/-- The values of another store are taken over. -/
theorem files_merge {x : Outcome α} {t : Store} (ht : t ∈ F) (category : Option Category)
    (h : Files F (s.merge t category) x r) : Files F s x r := by
  intro n
  obtain ⟨u, hrun, hresult⟩ := h n
  have hmerge : Run ⟨n, {s} + F⟩ ⟨n, {s.merge t category} + F⟩ := by
    rw [Multiset.singleton_add, Multiset.singleton_add]
    exact .single (.merge s ht category)
  exact ⟨u, hmerge.trans hrun, hresult⟩

/-- Compiling a query files nothing, and the statement is read off its store. -/
theorem files_statement (finish : String → String) (hs : w.bindings = s) :
    Files F s (do pure (Compiled.ofStore (finish (← w.statement)) w.bindings)) ReadOff := by
  refine w.steady_statement.files.bind fun aql t ht => files_pure (readOff_ofStore ?_)
  rw [ht, hs]

theorem steady_selection : w.selection.Steady := (Aql.steady_loops w.steady_compiled).map

/-- A removal files nothing, and the statement is read off the store. -/
theorem files_removeText (collection : String) (hs : w.bindings = s) :
    Files F s (w.removeText collection) ReadOff := by
  refine w.steady_selection.files.bind fun selection t ht => files_pure (readOff_ofStore ?_)
  rw [ht, hs]

section update

variable [Naming]

/-- An operand of an update files its value or merges the store of its query. -/
theorem files_boundForUpdate (o : Operand Builder) (hs : w.bindings = s)
    (hF : ∀ q ∈ o.queries, q.bindings ∈ F) :
    Files F s (w.boundForUpdate o) fun p t => p.2.bindings = t := by
  subst hs
  cases o with
  | expression aql => exact files_pure rfl
  | column name => exact files_pure rfl
  | value v =>
      change Files F w.bindings (pure (_, (w.bindValue v.idToKey .update).2)) _
      rw [bindValue_eq]
      cases v.idToKey.reference? with
      | some text => exact files_pure rfl
      | none => exact files_add v.idToKey .update (files_pure rfl)
  | query q =>
      have hq : (w.rescoped q).bindings = q.bindings := w.bindings_rescoped q
      have hmem : q.bindings ∈ F := hF q List.mem_cons_self
      have hsteady : (w.rescoped q).embedded.Steady := (Query.steady_fragment _).embedded
      refine hsteady.files.bind fun aql t ht => ?_
      rw [ht]
      refine files_merge hmem (some .update) (files_pure ?_)
      rw [← hq]
      rfl

/-- Assignments file their values and merge the stores of their sub-queries. -/
theorem files_assigned (fields : Entries Assigned) (assignments : List (String × Operand Builder))
    (hs : w.bindings = s) (hF : ∀ p ∈ assignments, ∀ q ∈ p.2.queries, q.bindings ∈ F) :
    Files F s (w.assigned fields assignments) fun p t => p.2.bindings = t := by
  induction assignments generalizing w fields s with
  | nil => exact files_pure hs
  | cons p rest ih =>
      obtain ⟨key, operand⟩ := p
      refine (w.files_boundForUpdate operand hs (hF _ List.mem_cons_self)).bind ?_
      intro bound t ht
      exact ih bound.2 _ ht fun p hp => hF p (List.mem_cons_of_mem _ hp)

/-- An update files what its assignments file, and the statement is read off the store. -/
theorem files_updateText (assignments : List (String × Operand Builder))
    (hs : w.bindings = s) (hF : ∀ p ∈ assignments, ∀ q ∈ p.2.queries, q.bindings ∈ F) :
    Files F s (w.updateText assignments) ReadOff := by
  refine w.files_withTarget fun collection => ?_
  refine (w.files_assigned [] assignments hs hF).bind fun fields t ht => ?_
  refine fields.2.steady_selection.files.bind fun selection u hu => ?_
  exact files_pure (readOff_ofStore (ht.trans hu.symm))

end update

end Builder

/-- The queries among the operands of an update. -/
def Changes.queries {Q : Type} : Changes Q → List Q
  | .operands pairs => pairs.flatMap fun p => p.2.queries
  | .row _ => []

/-- The queries of the assignments are among the arguments. -/
theorem Changes.queries_assignments {Q : Type} (changes : Changes Q)
    {assignments : List (String × Operand Q)} (h : changes.assignments = .ok assignments) :
    ∀ p ∈ assignments, ∀ q ∈ p.2.queries, q ∈ changes.queries := by
  intro p hp q hq
  cases changes with
  | operands pairs =>
      cases h
      exact List.mem_flatMap.mpr ⟨p, hp, hq⟩
  | row r =>
      simp only [Changes.assignments] at h
      cases hr : r.document with
      | error e =>
          rw [hr] at h
          cases h
      | ok document =>
          rw [hr] at h
          cases h
          obtain ⟨entry, -, rfl⟩ := List.mem_map.mp hp
          cases hq

/-- The queries among the arguments of compiling. -/
def Entry.queries {Q : Type} : Entry Q → List Q
  | .update changes => changes.queries
  | _ => []

namespace Builder

variable {F : Multiset Store} (b : Builder)

/-- Every way to compile a builder files values in the place of the builder's store and reads the
values of the statement off it. -/
theorem files_compile [Naming] (e : Entry Builder) (hF : ∀ q ∈ e.queries, q.bindings ∈ F) :
    Files F b.bindings (b.compile e) ReadOff := by
  cases e with
  | select => exact b.files_checked (b.files_onCopy fun w hw => w.files_statement id hw)
  | existence =>
      refine b.files_checked (b.files_onCopy fun w hw => ?_)
      have hprobe : w.probe.bindings = w.bindings := by
        unfold probe
        split <;> rfl
      rw [← hprobe] at hw ⊢
      exact w.probe.files_statement (fun aql => "RETURN LENGTH((" ++ aql ++ ")) > 0") hw
  | aggregate function column =>
      refine b.files_checked ?_
      by_cases hcolumn : column.isNone && function != .count
      · simp only [hcolumn, if_true]
        exact files_fail _
      · simp only [hcolumn]
        exact b.files_onCopy fun w hw => (w.aggregated function column).files_statement id hw
  | insert rows ignoreErrors =>
      refine b.files_checked (files_ofExcept fun documents _ => ?_)
      by_cases hempty : documents.isEmpty
      · simp only [hempty, if_true]
        exact files_fail _
      · simp only [hempty]
        refine b.files_onCopy fun w hw => w.files_withTarget fun collection => ?_
        refine files_add (storedRows documents) .insert (files_pure (readOff_ofStore ?_))
        rw [hw]
  | upsert rows uniqueBy update =>
      refine b.files_checked ?_
      by_cases hunique : uniqueBy.isEmpty
      · simp only [hunique, if_true]
        exact files_fail _
      simp only [hunique]
      refine files_ofExcept fun documents _ => ?_
      by_cases hempty : documents.isEmpty
      · simp only [hempty, if_true]
        exact files_fail _
      · simp only [hempty]
        refine b.files_onCopy fun w hw => w.files_withTarget fun collection => ?_
        refine files_add (storedRows documents) .upsert (files_pure (readOff_ofStore ?_))
        rw [hw]
  | update changes =>
      refine b.files_checked (files_ofExcept fun assignments ha => ?_)
      have hqueries := changes.queries_assignments ha
      by_cases hempty : assignments.isEmpty
      · simp only [hempty, if_true]
        exact files_fail _
      · simp only [hempty]
        refine b.files_onCopy fun w hw => w.files_updateText assignments hw fun p hp q hq => ?_
        exact hF q (hqueries p hp q hq)
  | adjust adjustment column amount =>
      refine b.files_checked ?_
      by_cases hamount : amount.isNumber
      · simp only [hamount, Bool.not_true, Bool.false_eq_true, if_false]
        refine b.files_onCopy fun w hw => files_add amount .update ?_
        refine files_updateText { w with bindings := (w.bindings.add amount .update).2 } _ ?_ ?_
        · rw [hw]
        · intro p hp q hq
          rw [List.mem_singleton.mp hp] at hq
          cases hq
      · simp only [hamount, Bool.not_false, if_true]
        exact files_fail _
  | delete key =>
      refine b.files_checked (b.files_onCopy fun w hw => w.files_withTarget fun collection => ?_)
      cases key with
      | none => exact w.files_removeText collection hw
      | some key =>
          refine files_add key .filter ?_
          dsimp only
          split
          · exact files_pure (readOff_ofStore (by rw [hw]))
          · exact files_removeText _ collection (by rw [hw])
  | truncate =>
      refine b.files_checked (b.files_onCopy fun w hw => w.files_withTarget fun collection => ?_)
      exact files_pure (readOff_ofStore hw)

/-- Compiling gives no number back. -/
theorem next_le_compile [Naming] (e : Entry Builder) (n : Nat) : n ≤ ((b.compile e).run n).2 := by
  have hqueries : ∀ q ∈ e.queries, q.bindings ∈ (↑(e.queries.map Clauses.bindings) : Multiset _) :=
    fun q hq => Multiset.mem_coe.mpr (List.mem_map_of_mem hq)
  obtain ⟨t, hrun, -⟩ := b.files_compile e hqueries n
  exact hrun.next_le

end Builder

end AqlBuilder
