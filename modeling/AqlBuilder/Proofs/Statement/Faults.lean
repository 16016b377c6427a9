import AqlBuilder.Proofs.Builder.Sound
import AqlBuilder.Proofs.Statement.Mentioned

/-!
# Why statements do not compile

A sound query is compiled to a statement unless there is a fault, in the query or in one that is
compiled with it. The other ways to compile fail for more reasons, as they have arguments of their
own, but they do not fail with an error that is never made.

- `Builder.Sound.failsBy_toCompiled`: the query itself fails by its faults.
- `Builder.Sound.failsAmong_compile`: however a sound query is compiled, the error is one that can
  be made.
-/

namespace AqlBuilder

open Outcome

variable {α : Type} {words : Vocabulary} {joined : Bool} {b w c : Builder}

/-- A way to compile whose assigned sub-queries are sound. -/
def Entry.Sound (words : Vocabulary) : Entry Builder → Prop
  | .update changes => ∀ assignments, changes.assignments = .ok assignments →
      ∀ a ∈ assignments, a.2.Sound words
  | _ => True

section rows

/-- A row is a document, or an error that can be made. -/
theorem Row.allowed_document (row : Row) : Error.Allowed row.document := by
  intro e he
  unfold Row.document at he
  split at he
  · cases he
  · split at he <;> cases he
    trivial

/-- Rows are documents, or an error that can be made. -/
theorem Row.allowed_documents (rows : List Row) : Error.Allowed (Row.documents rows) := by
  induction rows with
  | nil => exact Error.allowed_ok []
  | cons row rows ih =>
      exact row.allowed_document.bind fun first =>
        ih.bind fun rest => Error.allowed_ok (first :: rest)

/-- Changes are assignments, or an error that can be made. -/
theorem Changes.allowed_assignments {Q : Type} (changes : Changes Q) :
    Error.Allowed changes.assignments := by
  cases changes with
  | operands pairs => exact Error.allowed_ok pairs
  | row r => exact r.allowed_document.bind fun _ => Error.allowed_ok _

end rows

namespace Builder

/-- A builder writes to a collection, or there is an error that can be made. -/
theorem allowed_target (b : Builder) : Error.Allowed b.target := by
  intro e he
  unfold target at he
  split at he <;> cases he <;> trivial

/-- What is compiled on a copy fails as it does on builders that compile to the same texts. -/
theorem failsAmong_onCopy {E : Set Error} {f : Builder → Outcome α}
    (h : ∀ w : Builder, w.compiled = b.compiled → (f w).FailsAmong E) :
    (b.onCopy f).FailsAmong E :=
  (failsAmong_ofSupply _).bind_of (yields_ofSupply fun n => h _ (b.compiled_workingCopy n))

namespace Sound

/-- The queries inside of a sound builder fail by their faults. -/
theorem failsByFaults (h : b.Sound words joined) : ∀ q ∈ b.queries, q.FailsByFaults := by
  intro q hq
  obtain ⟨joined, hsound⟩ := h.exists_queries hq
  exact q.failsByFaults hsound

/-- **A sound query fails by its faults** and by nothing else. -/
theorem failsBy_toCompiled (h : b.Sound words false) :
    b.toCompiled.FailsBy {e | b.Faulty e} := by
  cases herror : b.error with
  | some e =>
      have hcheck : b.toCompiled = .fail e := by
        unfold toCompiled check
        rw [herror]
        rfl
      rw [hcheck]
      exact failsBy_fail (faulty_iff.mpr (.inl (.recorded herror)))
  | none =>
      have hstatement := failsBy_statement h.unaggregated h.failsByFaults
      rw [toCompiled_eq herror]
      refine ((hstatement.map _).after _).congr fun e => ?_
      rw [Set.mem_ofPred_eq, Set.mem_ofPred_eq, faulty_iff_of_error_none herror]

/-- A sound query fails with an error that can be made where it is embedded. -/
theorem failsAmong_embedded (h : b.Sound words false) :
    b.embedded.FailsAmong {e | e.Possible} :=
  (h.failsBy_embedded h.failsByFaults).among.mono fun _ he => h.possible he

/-- A statement fails with errors that can be made, with or without an aggregate. -/
theorem failsAmong_statement (h : Builder.Sound words false { b with aggregate := none }) :
    b.statement.FailsAmong {e | e.Possible} := by
  refine (failsBy_statement h fun q hq => h.failsByFaults q hq).among.mono ?_
  rintro e (hlacks | ⟨c, hc, he⟩)
  · cases hlacks <;> trivial
  · exact (h.encloses (hc.withAggregate none)).possible he

/-- Selecting the documents of a sound builder fails with an error that can be made. -/
theorem failsAmong_selection (h : b.Sound words joined) :
    b.selection.FailsAmong {e | e.Possible} := by
  have hloops := failsBy_loops h.unaggregated h.failsByFaults
  refine (hloops.among.mono ?_).map _
  rintro e (⟨-, rfl⟩ | ⟨c, hc, he⟩)
  · trivial
  · exact (h.loopsEnclose hc).possible he

/-- What comes behind the check of a sound builder fails with an error that can be made. -/
theorem failsAmong_checked (h : b.Sound words joined) {f : Unit → Outcome α}
    (hf : (f ()).FailsAmong {e | e.Possible}) :
    (ofExcept b.check >>= f).FailsAmong {e | e.Possible} := by
  refine (failsAmong_ofExcept fun e he => ?_).bind fun _ => hf
  unfold check at he
  split at he
  · rename_i herror
    cases he
    exact h.error _ herror
  · cases he

end Sound

section reading

/-- What only the first row is asked of is as sound. -/
theorem Sound.probe (h : b.Sound words joined) : b.probe.Sound words joined := by
  unfold Builder.probe
  split
  · refine { h with columns := fun s hs q hq => ?_ }
    rw [List.mem_singleton.mp hs] at hq
    cases hq
  · exact { h with }

/-- A sound builder stays so in the query of an aggregate. -/
theorem Sound.aggregated (h : b.Sound words joined) (function : AggregateFunction)
    (column : Option String) :
    Sound words joined { b.aggregated function column with aggregate := none } :=
  { h with
    columns := fun _ hs => nomatch hs
    aggregate := rfl }

end reading

/-- The condition on a key brings in no query. -/
theorem Sound.keyed (h : b.Sound words joined) (bindings : Store) (name : String) :
    Sound words joined { b with
      bindings := bindings
      filters := b.filters ++ [keyCondition name] } := by
  refine { h with filters := fun x hx => ?_ }
  rcases List.mem_append.mp hx with hold | hnew
  · exact h.filters x hold
  · rw [List.mem_singleton.mp hnew]
    exact Test.sound_plain rfl (fun v hv aql haql => by
      rw [List.mem_singleton.mp hv] at haql
      cases haql) fun _ _ _ => nofun

section update

variable [Naming] {o : Operand Builder} {assignments : List (String × Operand Builder)}

/-- An operand of an update fails with an error that can be made. -/
theorem failsAmong_boundForUpdate (w : Builder)
    (ho : ∀ q, o = .query q → Builder.Sound words false q) :
    (w.boundForUpdate o).FailsAmong {e | e.Possible} := by
  cases o with
  | query q => exact ((ho q rfl).rescoped w).failsAmong_embedded.map _
  | _ => exact failsAmong_pure _

/-- Assignments fail with an error that can be made. -/
theorem failsAmong_assigned (w : Builder) (fields : Entries Assigned)
    (h : ∀ a ∈ assignments, ∀ q, a.2 = .query q → Builder.Sound words false q) :
    (w.assigned fields assignments).FailsAmong {e | e.Possible} := by
  induction assignments generalizing w fields with
  | nil => exact failsAmong_pure _
  | cons first rest ih =>
      exact (failsAmong_boundForUpdate w (h first List.mem_cons_self)).bind fun bound =>
        ih bound.2 _ fun a ha => h a (List.mem_cons_of_mem first ha)

/-- An update fails with errors that can be made, on any builder with the selection of a sound one.
-/
theorem failsAmong_updateText (hselection : w.selection.FailsAmong {e | e.Possible})
    (h : ∀ a ∈ assignments, ∀ q, a.2 = .query q → Builder.Sound words false q) :
    (w.updateText assignments).FailsAmong {e | e.Possible} := by
  refine (failsAmong_ofExcept w.allowed_target).bind fun collection => ?_
  refine (failsAmong_assigned w [] h).bind_of
    ((w.yields_assigned_same []).mono fun result hsame => ?_)
  rw [← hsame.selection] at hselection
  exact hselection.map _

end update

/-- **However a sound query is compiled, the error is one that can be made.** -/
theorem Sound.failsAmong_compile [Naming] (h : b.Sound words false) {e : Entry Builder}
    (he : e.Sound words) : (b.compile e).FailsAmong {e | e.Possible} := by
  have htarget : ∀ w : Builder, (ofExcept w.target).FailsAmong {e | e.Possible} :=
    fun w => failsAmong_ofExcept w.allowed_target
  have hselection : ∀ w : Builder, w.compiled = b.compiled →
      w.selection.FailsAmong {e | e.Possible} := fun w hw => by
    rw [selection_of_compiled hw]
    exact h.failsAmong_selection
  cases e with
  | select => exact h.failsBy_toCompiled.among.mono fun _ he => h.possible he
  | existence =>
      refine h.failsAmong_checked (failsAmong_onCopy fun w hw => ?_)
      have hstatement : w.probe.statement = b.probe.statement := by
        unfold Builder.statement
        rw [compiled_probe hw]
      rw [hstatement]
      exact h.probe.unaggregated.failsAmong_statement.map _
  | aggregate function column =>
      refine h.failsAmong_checked ?_
      split
      · exact failsAmong_fail trivial
      · refine failsAmong_onCopy fun w hw => ?_
        have hstatement : (w.aggregated function column).statement =
            (b.aggregated function column).statement := by
          unfold Builder.statement
          rw [compiled_aggregated hw]
        rw [hstatement]
        exact (h.aggregated function column).failsAmong_statement.map _
  | insert rows ignoreErrors =>
      refine h.failsAmong_checked
        ((failsAmong_ofExcept (Row.allowed_documents rows)).bind fun _ => ?_)
      split
      · exact failsAmong_fail trivial
      · exact failsAmong_onCopy fun w _ => (htarget w).map _
  | upsert rows uniqueBy update =>
      refine h.failsAmong_checked ?_
      split
      · exact failsAmong_fail trivial
      refine (failsAmong_ofExcept (Row.allowed_documents rows)).bind fun _ => ?_
      split
      · exact failsAmong_fail trivial
      · exact failsAmong_onCopy fun w _ => (htarget w).map _
  | update changes =>
      refine h.failsAmong_checked ((failsAmong_ofExcept changes.allowed_assignments).bind_of
        (yields_ofExcept fun assignments hassignments => ?_))
      split
      · exact failsAmong_fail trivial
      · exact failsAmong_onCopy fun w hw =>
          failsAmong_updateText (hselection w hw) fun a ha =>
            (he assignments hassignments a ha).query
  | adjust adjustment column amount =>
      refine h.failsAmong_checked ?_
      split
      · exact failsAmong_fail trivial
      · refine failsAmong_onCopy fun w hw => ?_
        have hplain : ∀ {column aql : String}, ∀ a ∈ [(column, Operand.expression aql)],
            ∀ q, a.2 = .query q → Builder.Sound words false q := fun a ha q hq => by
          rw [List.mem_singleton.mp ha] at hq
          cases hq
        exact failsAmong_updateText (hselection w hw) hplain
  | delete key =>
      refine h.failsAmong_checked (failsAmong_onCopy fun w hw => (htarget w).bind fun _ => ?_)
      cases key with
      | none => exact (hselection w hw).map _
      | some key =>
          change FailsAmong _ (if _ then _ else _)
          split
          · exact failsAmong_pure _
          · refine FailsAmong.map ?_ _
            change FailsAmong _ (w.keyed key).selection
            rw [selection_of_compiled (keyed_of_compiled hw key)]
            exact (h.keyed _ _).failsAmong_selection
  | truncate => exact h.failsAmong_checked (failsAmong_onCopy fun w _ => (htarget w).map _)

end Builder

end AqlBuilder
