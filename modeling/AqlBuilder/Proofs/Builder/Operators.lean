import AqlBuilder.Alias.Rules
import AqlBuilder.Proofs.Aql.Within
import AqlBuilder.Proofs.Builder.Failure
import AqlBuilder.Proofs.Builder.Narrowing
import AqlBuilder.Proofs.Builder.Reference
import AqlBuilder.Statement.Compiled

/-!
# Operators in conditions

Callers may compare with operators that the query language does not have: a pattern match in either
case, and bitwise tests. Both are calls of functions there. A comparison of a column with a value,
an expression or a column is lowered to such a call. The other calls that take an operator store it
as it is, and it stands between the operands in the end: the comparison of two columns, which joins
use as well, the comparison with a sub-query by whatever call, and those of lengths and of dates.

- `Operator.foreign` are the operators in question, and `Operator.call` is what they should be.
- `Comparing` are the calls that take an operator, and `Comparing.lowers` those that lower it.
- `Comparing.lowered_iff`: how the test of a call is written, for every operator that it accepts.
-/

namespace AqlBuilder

open Outcome Supply

/-- Whether the query language has no such operator. -/
def Operator.foreign (o : Operator) : Bool := o = .likeAnyCase || o.isBitwise

/-- The call of a function that stands for an operator. -/
def Operator.call (o : Operator) (left right : String) : String :=
  match o.bitFunction? with
  | some function => Aql.bitCall function left right o.isShift
  | none => "LIKE(" ++ left ++ ", " ++ right ++ ", true)"

/-- A call that compares something by an operator, on a query, a group of conditions or a join. -/
inductive Comparing
  | operand (list : ConditionList) (connector : Connector) (column : String)
      (value : Operand Builder)
  | columns (connector : Connector) (first second : String)
  | query (column : String) (sub : SubQuery)
  | length (column : String) (value : Operand Builder)
  | date (part : DatePart) (column : String) (value : Operand Builder)

namespace Comparing

/-- Make the call. -/
def run [Naming] (b : Builder) (operator : Except Error Operator) : Comparing → Supply Builder
  | operand list connector column value => b.condition list connector column operator value
  | columns connector first second => pure (b.compareColumns connector first operator second)
  | query column sub => b.compareQuery column operator sub
  | length column value => b.length column operator value
  | date part column value => b.date part column operator value

/-- The list that the condition is added to. -/
def list : Comparing → ConditionList
  | operand list _ _ _ => list
  | _ => .filters

/-- How the condition is connected with the others. -/
def connector : Comparing → Connector
  | operand _ connector _ _ => connector
  | columns connector _ _ => connector
  | _ => .and

/-- The left-hand side in a scope. -/
def left (sc : Scope) : Comparing → String
  | operand _ _ column _ => sc.resolve column
  | columns _ first _ => sc.resolve first
  | query column _ => sc.resolve column
  | length column _ => "LENGTH(" ++ sc.resolve column ++ ")"
  | date part column _ => part.text (sc.resolve column)

/-- Whether a column is compared with anything but a sub-query. -/
def lowers : Comparing → Bool
  | operand _ _ _ (.query _) => false
  | operand _ _ _ _ => true
  | _ => false

/-- A text that the test of a call may be written as. -/
def Writes (x : Comparing) (o : Operator) (sc : Scope) (text : String) : Prop :=
  ∃ right, text = if o.foreign && x.lowers then o.call (x.left sc) right
    else Aql.comparison (x.left sc) o right

end Comparing

/-- The conditions in a list. -/
def Builder.listed (b : Builder) : ConditionList → List (Condition Query)
  | .filters => b.filters
  | .havings => b.havings

namespace Builder

variable {b w : Builder} {list : ConditionList}

/-- A test is added at the end of its list. -/
theorem listed_push (b : Builder) (list : ConditionList) (connector : Connector)
    (t : Test Query) :
    (b.push list connector t).listed list = b.listed list ++ [⟨t, connector⟩] := by
  cases list <;> rfl

/-- The same clauses have the same conditions. -/
theorem SameClauses.listed (h : b.SameClauses w) (list : ConditionList) :
    w.listed list = b.listed list := by
  obtain ⟨bindings, error, rfl⟩ := h
  cases list <;> rfl

end Builder

namespace Operator

variable {o : Operator} {left right : String}

/-- An operator for lists belongs to the query language. -/
theorem foreign_of_membership (h : o.isMembership = true) : o.foreign = false := by
  unfold isMembership at h
  rw [Bool.or_eq_true, decide_eq_true_iff, decide_eq_true_iff] at h
  rcases h with rfl | rfl <;> decide

/-- A membership is written with the operator that was asked for. -/
theorem membership_of_isMembership (h : o.isMembership = true) :
    Aql.membership (o = .notMember) = o := by
  unfold isMembership at h
  rw [Bool.or_eq_true, decide_eq_true_iff, decide_eq_true_iff] at h
  rcases h with rfl | rfl <;> decide

/-- The operators that the language does not have. -/
theorem eq_of_foreign (h : o.foreign = true) : o ∈
    [likeAnyCase, bitAnd, bitOr, bitXor, shiftLeft, shiftRight] := by
  unfold foreign at h
  rw [Bool.or_eq_true, decide_eq_true_iff] at h
  rcases h with rfl | h
  · exact List.mem_cons_self
  · unfold isBitwise bitFunction? at h
    grind

/-- A call is no comparison: it is too long. -/
theorem call_ne_comparison (h : o.foreign = true) :
    o.call left right ≠ Aql.comparison left o right := by
  intro heq
  have hlength := congrArg (fun text => text.toList.length) heq
  have hforeign := eq_of_foreign h
  simp only [List.mem_cons, List.not_mem_nil, or_false] at hforeign
  rcases hforeign with rfl | rfl | rfl | rfl | rfl | rfl <;>
    simp [call, bitFunction?, isShift, Aql.bitCall, Aql.comparison, likeAnyCase, bitAnd,
      bitOr, bitXor, shiftLeft, shiftRight] at hlength <;> omega

end Operator

namespace Comparing

variable {b w : Builder} {x : Comparing} {o : Operator} {sc : Scope} {list : ConditionList}
  {connector : Connector} {column : String}

section tests

/-- Between the operands of a call that does not lower stands its operator. -/
theorem writes_comparison (h : (o.foreign && x.lowers) = false) (right : String) :
    x.Writes o sc (Aql.comparison (x.left sc) o right) := by
  refine ⟨right, ?_⟩
  rw [h]
  rfl

/-- The test of a column against a bound operand. -/
theorem yields_valueTest (v : Bound) {value : Operand Builder}
    (hlowers : (operand list connector column value).lowers = true) :
    (((Builder.valueTest column o v).map Query.fragment).text sc).Yields
      ((operand list connector column value).Writes o sc) := by
  unfold Builder.valueTest
  by_cases hlist : o.isMembership = true
  · rw [if_pos hlist]
    refine yields_pure ?_
    rw [Operator.membership_of_isMembership hlist]
    exact writes_comparison (by rw [Operator.foreign_of_membership hlist, Bool.false_and]) _
  rw [if_neg hlist]
  by_cases hbits : o.isBitwise = true
  · rw [if_pos hbits]
    obtain ⟨function, hfunction⟩ := Option.isSome_iff_exists.mp hbits
    have hwritten : (Test.map Query.fragment (.bits column o v)).text sc =
        pure (Aql.bitCall function (sc.resolve column) (v.text sc) o.isShift) := by
      simp only [Test.map, Test.text, hfunction]
    have hforeign : o.foreign = true := by rw [Operator.foreign, hbits, Bool.or_true]
    rw [hwritten]
    refine yields_pure ⟨v.text sc, ?_⟩
    rw [hforeign, hlowers, Operator.call, hfunction]
    rfl
  · rw [if_neg hbits]
    have hforeign : o.foreign = decide (o = .likeAnyCase) := by
      rw [Operator.foreign, Bool.eq_false_iff.mpr hbits, Bool.or_false]
    refine yields_pure ⟨v.text sc, ?_⟩
    rw [hforeign, hlowers, Bool.and_true]
    by_cases hlike : o = .likeAnyCase
    · subst hlike
      rfl
    · rw [if_neg hlike, decide_eq_false hlike]
      rfl

/-- The test of a column against a query. -/
theorem yields_queryTest (q : Builder) (hlowers : x.lowers = false)
    (hleft : x.left sc = sc.resolve column) :
    (((Builder.queryTest column o q).map Query.fragment).text sc).Yields (x.Writes o sc) := by
  have hplain : (o.foreign && x.lowers) = false := by rw [hlowers, Bool.and_false]
  unfold Builder.queryTest
  by_cases hlist : o.isMembership = true
  · rw [if_pos hlist]
    refine Yields.map (yields_any _) fun aql _ => ?_
    rw [Operator.membership_of_isMembership hlist, ← hleft]
    exact writes_comparison hplain aql
  · rw [if_neg hlist]
    refine Yields.map (yields_any _) fun aql _ => ?_
    rw [← hleft]
    exact writes_comparison hplain aql

end tests

/-- A builder to which a call has added its condition, written as it should be. -/
def Adds (b : Builder) (x : Comparing) (o : Operator) (w : Builder) : Prop :=
  w.error = none → ∃ t, w.listed x.list = b.listed x.list ++ [⟨t, x.connector⟩] ∧
    ∀ sc, ((t.map Query.fragment).text sc).Yields (x.Writes o sc)

/-- A test that may be written as a call asks is what the call adds. -/
theorem adds_push (h : b.SameClauses w) {t : Test Query}
    (ht : ∀ sc, ((t.map Query.fragment).text sc).Yields (x.Writes o sc)) :
    x.Adds b o (w.push x.list x.connector t) := by
  refine fun _ => ⟨t, ?_, ht⟩
  rw [Builder.listed_push, h.listed]

/-- A call may add nothing but an error. -/
theorem adds_fail (e : Error) : x.Adds b o (b.fail e) := by
  intro hnone
  have hsome : (b.fail e).error.isSome = true := by
    change (b.error.or (some e)).isSome = true
    cases b.error <;> rfl
  rw [hnone] at hsome
  cases hsome

/-- A comparison with an operand is what the call for it adds. -/
theorem adds_operand [Naming] (b : Builder) (list : ConditionList) (connector : Connector)
    (column : String) (o : Operator) (value : Operand Builder) :
    (b.addComparison list connector column o value).Always
      ((operand list connector column value).Adds b o) := by
  have hpush : ∀ {w : Builder} (v : Bound), b.SameClauses w →
      (operand list connector column value).lowers = true →
      (operand list connector column value).Adds b o
        (w.push list connector (Builder.valueTest column o v)) :=
    fun v hw hlowers => adds_push hw fun sc => yields_valueTest v hlowers
  cases value with
  | value v =>
      refine Builder.always_addComparison_value b list connector column o (fun haccepts => ?_)
        (hpush _ (.bindValue b _ _) rfl) fun _ => adds_fail _
      refine adds_push (.refl b) fun sc => yields_pure ?_
      unfold Operator.acceptsNull at haccepts
      rw [Bool.or_eq_true, decide_eq_true_iff, decide_eq_true_iff] at haccepts
      rcases haccepts with rfl | rfl <;> exact ⟨"null", rfl⟩
  | expression aql =>
      rw [Builder.addComparison_expression]
      exact always_pure (hpush _ (.refl b) rfl)
  | column name =>
      rw [Builder.addComparison_column]
      exact always_pure (hpush _ (.refl b) rfl)
  | query q =>
      refine (Builder.SameClauses.adopt b _ _).bind fun r hr => always_pure ?_
      exact adds_push hr fun sc => yields_queryTest r.1 rfl rfl

/-- Every call adds its condition, if it leaves no error. -/
theorem adds_run [Naming] (x : Comparing) (herror : b.error = none) (o : Operator) :
    (x.run b (.ok o)).Always (x.Adds b o) := by
  have hplain : ∀ {x : Comparing}, x.lowers = false → (o.foreign && x.lowers) = false :=
    fun h => by rw [h, Bool.and_false]
  cases x with
  | operand list connector column value =>
      rw [run, Builder.condition, Builder.unlessFailedM_of_free herror]
      exact adds_operand b list connector column o value
  | columns connector first second =>
      have hfree : b.compareColumns connector first (.ok o) second =
          b.push .filters connector (.compareColumns first o second) := by
        rw [Builder.compareColumns, Builder.unlessFailed, herror]
        rfl
      rw [run, hfree]
      exact always_pure (adds_push (.refl b) fun sc =>
        yields_pure (writes_comparison (hplain rfl) (sc.resolve second)))
  | query column sub =>
      rw [run, Builder.compareQuery, Builder.withOperator, Builder.unlessFailedM_of_free herror]
      exact (Builder.SameClauses.adopt b _ _).bind fun r hr =>
        always_pure (adds_push hr fun sc => yields_queryTest r.1 rfl rfl)
  | length column value =>
      rw [run, Builder.length, Builder.withOperator, Builder.unlessFailedM_of_free herror]
      exact (Builder.SameClauses.bind b _ _).bind fun r hr => always_pure (adds_push hr fun sc =>
        yields_pure (writes_comparison (hplain rfl) (r.1.text sc)))
  | date part column value =>
      rw [run, Builder.date, Builder.withOperator, Builder.unlessFailedM_of_free herror]
      exact (Builder.SameClauses.bind b _ _).bind fun r hr => always_pure (adds_push hr fun sc =>
        yields_pure (writes_comparison (hplain rfl) (r.1.text sc)))

/-- On a builder with an error a call does nothing. -/
theorem run_of_error [Naming] {e : Error} (herror : b.error = some e)
    (operator : Except Error Operator) :
    x.run b operator = pure b := by
  cases x with
  | columns connector first second =>
      rw [run, Builder.compareColumns, Builder.unlessFailed_of_error herror]
  | operand list connector column value =>
      rw [run, Builder.condition, Builder.unlessFailedM_of_error herror]
  | query column sub =>
      rw [run, Builder.compareQuery, Builder.withOperator, Builder.unlessFailedM_of_error herror]
  | length column value =>
      rw [run, Builder.length, Builder.withOperator, Builder.unlessFailedM_of_error herror]
  | date part column value =>
      rw [run, Builder.date, Builder.withOperator, Builder.unlessFailedM_of_error herror]

/-- An illegal operator is an error of the builder. -/
theorem run_of_illegal [Naming] {e : Error} (herror : b.error = none) :
    x.run b (.error e) = pure (b.fail e) := by
  cases x with
  | columns connector first second =>
      rw [run, Builder.compareColumns, Builder.unlessFailed, herror]
      rfl
  | operand list connector column value =>
      rw [run, Builder.condition, Builder.unlessFailedM_of_free herror]
  | query column sub =>
      rw [run, Builder.compareQuery, Builder.withOperator, Builder.unlessFailedM_of_free herror]
  | length column value =>
      rw [run, Builder.length, Builder.withOperator, Builder.unlessFailedM_of_free herror]
  | date part column value =>
      rw [run, Builder.date, Builder.withOperator, Builder.unlessFailedM_of_free herror]

/-- **A foreign operator is lowered just in the comparison of a column with no sub-query.** 
Whenever a call with an operator leaves no error, it has added one condition. The condition is a
call of the function for the operator if the operator is foreign and the call lowers it; otherwise
the operator stands between the operands, as it was given. -/
theorem lowered_iff [Naming] {operator : Except Error Operator} {n : Nat}
    (haccepted : (x.run b operator n).1.error = none) : ∃ o t, operator = .ok o ∧
      (x.run b operator n).1.listed x.list = b.listed x.list ++ [⟨t, x.connector⟩] ∧
      ∀ sc, ((t.map Query.fragment).text sc).Yields fun text => ∃ right,
        text = (if o.foreign && x.lowers then o.call (x.left sc) right
          else Aql.comparison (x.left sc) o right) ∧
        (text = Aql.comparison (x.left sc) o right ↔ ¬ (o.foreign = true ∧ x.lowers = true)) := by
  cases herror : b.error with
  | some e =>
      rw [run_of_error herror] at haccepted
      exact absurd (herror.symm.trans haccepted) nofun
  | none =>
      cases operator with
      | error e =>
          rw [run_of_illegal herror] at haccepted
          exact absurd ((Builder.error_fail_of_free herror e).symm.trans haccepted) nofun
      | ok o =>
          obtain ⟨t, hlisted, hwrites⟩ := adds_run x herror o n haccepted
          refine ⟨o, t, rfl, hlisted, fun sc => (hwrites sc).mono fun text ⟨right, htext⟩ => ?_⟩
          refine ⟨right, htext, ?_⟩
          rw [htext, ← Bool.and_eq_true]
          split
          case isTrue h =>
            have hforeign : o.foreign = true := ((Bool.and_eq_true _ _).mp h).1
            exact iff_of_false (Operator.call_ne_comparison hforeign) (not_not_intro h)
          case isFalse h => exact iff_of_true rfl h

/-- The characters that are left by a call with an operator. -/
def characters [Naming] (x : Comparing) (spelling : String) : Builder :=
  (x.run (Builder.fromCollection (Clauses.empty 1) "characters as c") (Operator.ofSpelling spelling)
    2).1

/-- Foreign operators between a column and another one, a sub-query, a number. -/
theorem foreign_operators_kept :
    let locations : Builder := (Builder.fromCollection (Clauses.empty 2) "locations as l").select
      [.column "flags"]
    let text (x : Comparing) (spelling : String) :=
      (Builder.toAql (x.characters spelling) 3).1.toOption
    text (.columns .and "name" "surname") "iLike" =
        some "FOR c IN characters FILTER c.\x60name\x60 ILIKE c.\x60surname\x60 RETURN c" ∧
      text (.operand .filters .and "name" (.column "surname")) "iLike" =
        some "FOR c IN characters FILTER LIKE(c.\x60name\x60, c.\x60surname\x60, true) RETURN c" ∧
      text (.query "flags" (.finished locations)) "&" =
        some ("FOR c IN characters FILTER c.\x60flags\x60 & " ++
          "(FOR l IN locations RETURN l.\x60flags\x60) RETURN c") ∧
      text (.length "flags" (.expression "8")) "<<" =
        some "FOR c IN characters FILTER LENGTH(c.\x60flags\x60) << 8 RETURN c" ∧
      text (.date .year "born" (.expression "8")) "|" =
        some "FOR c IN characters FILTER DATE_YEAR(c.\x60born\x60) | 8 RETURN c" :=
  ⟨by decide +kernel, by decide +kernel, by decide +kernel, by decide +kernel, by decide +kernel⟩

/-- The names are compared by an operator that there is not, in every scope. -/
theorem surnames_matched_in_vain :
    let w := Comparing.characters (.columns .and "name" "surname") "iLike"
    w.error = none ∧ ∃ t, w.filters = [⟨t, .and⟩] ∧
      ∀ sc, ((t.map Query.fragment).text sc).Yields fun text =>
        ∃ right, text = Aql.comparison (sc.resolve "name") .likeAnyCase right := by
  intro w
  have haccepted : w.error = none := by decide +kernel
  obtain ⟨o, t, hoperator, hlisted, hwrites⟩ := lowered_iff haccepted
  obtain rfl : Operator.likeAnyCase = o := by
    have hspelled : (Operator.ofSpelling "iLike").toOption = some .likeAnyCase := by decide +kernel
    rw [hoperator] at hspelled
    exact (Option.some.inj hspelled).symm
  refine ⟨haccepted, t, hlisted, fun sc => (hwrites sc).mono fun text ⟨right, _, hkept⟩ => ?_⟩
  exact ⟨right, hkept.mpr nofun⟩

end Comparing

end AqlBuilder
