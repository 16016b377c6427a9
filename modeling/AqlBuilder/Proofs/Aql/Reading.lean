import AqlBuilder.Proofs.Aql.Within
import Mathlib.Data.List.Forall2

/-!
# Reading a list of conditions

A list of conditions is written without parentheses around its parts, each condition behind its
connector but for the first. The server reads `AND` as binding tighter than `OR`. So a condition
that is put at the end of a list with `AND` is connected with the conditions behind the last `OR`,
and with those only.

- `Aql.connected` is the text of a list whose conditions have given texts, and `Aql.holds` the truth
  value of a list whose conditions have given ones.
- `Aql.yields_conditions_connected`: the conditions of a query are written as such a text.
- `Aql.confines_iff`: a condition at the end of a list decides about all of it just if there is no
  `OR` in the list.
-/

namespace AqlBuilder.Aql

open Outcome

/-- The text of conditions behind another one. -/
def furtherText : List (Connector × String) → String
  | [] => ""
  | (connector, text) :: rest => " " ++ connector.text ++ " " ++ text ++ furtherText rest

/-- The text of a list of conditions with given texts. -/
def connected : List (Connector × String) → String
  | [] => ""
  | (_, text) :: rest => text ++ furtherText rest

/-- The truth value of conditions that follow others; those behind the last `OR` before them have
the given value together. -/
def holdsAfter (conjunction : Bool) : List (Connector × Bool) → Bool
  | [] => conjunction
  | (.and, value) :: rest => holdsAfter (conjunction && value) rest
  | (.or, value) :: rest => conjunction || holdsAfter value rest

/-- The truth value of a list of conditions with given truth values. -/
def holds : List (Connector × Bool) → Bool
  | [] => true
  | (_, value) :: rest => holdsAfter value rest

/-- Conditions with these connectors are false together with one that is put behind them, whatever
they are worth themselves. -/
def Confines (connectors : List Connector) : Prop :=
  ∀ values : List (Connector × Bool), values.map Prod.fst = connectors →
    holds (values ++ [(.and, false)]) = false

section reading

variable {values : List (Connector × Bool)}

/-- Conditions that are connected by `AND` throughout are false if the last one is false. -/
theorem holdsAfter_false (conjunction : Bool) (h : ∀ v ∈ values, v.1 = .and) :
    holdsAfter conjunction (values ++ [(.and, false)]) = false := by
  induction values generalizing conjunction with
  | nil => exact Bool.and_false conjunction
  | cons first rest ih =>
      obtain ⟨connector, value⟩ := first
      have hand : connector = .and := h _ List.mem_cons_self
      subst hand
      exact ih (conjunction && value) fun v hv => h v (List.mem_cons_of_mem _ hv)

/-- Behind an `OR` nothing can make true conditions false. -/
theorem holdsAfter_true {connectors : List Connector} (h : .or ∈ connectors) :
    holdsAfter true ((connectors.map fun c => (c, true)) ++ [(.and, false)]) = true := by
  induction connectors with
  | nil => cases h
  | cons first rest ih =>
      cases first with
      | or => exact Bool.true_or _
      | and => exact ih ((List.mem_cons.mp h).resolve_left (by decide))

/-- A condition at the end of a list decides about all of it just if nothing in the list is
connected by `OR`. -/
theorem confines_iff {connectors : List Connector} :
    Confines connectors ↔ ∀ c ∈ connectors.tail, c = .and := by
  cases connectors with
  | nil =>
      refine iff_of_true (fun values hvalues => ?_) fun c hc => by cases hc
      rw [List.map_eq_nil_iff.mp hvalues]
      rfl
  | cons first rest =>
      constructor
      · intro h c hc
        by_contra hne
        have hor : c = .or := by
          cases c
          · exact absurd rfl hne
          · rfl
        subst hor
        have hall := h ((first :: rest).map fun c => (c, true)) (by simp [Function.comp_def])
        have htrue : holds ((first :: rest).map (fun c => (c, true)) ++ [(.and, false)]) = true :=
          holdsAfter_true hc
        rw [hall] at htrue
        cases htrue
      · intro h values hvalues
        obtain ⟨value, values, rfl, -, hrest⟩ := List.map_eq_cons_iff.mp hvalues
        refine holdsAfter_false value.2 fun v hv => h v.1 ?_
        rw [List.tail_cons, ← hrest]
        exact List.mem_map_of_mem hv

end reading

section writing

variable {scope : Scope} {list : List (Condition Fragment)}

/-- A text that a condition can be written as, with its connector. -/
structure Renders (scope : Scope) (x : Condition Fragment) (part : Connector × String) : Prop where
  connector : part.1 = x.connector
  text : ∃ n, (x.test.text scope n).1 = .ok part.2

/-- What a test yields is a rendering of its condition. -/
theorem yields_text (x : Condition Fragment) :
    (x.test.text scope).Yields fun text => Renders scope x (x.connector, text) :=
  fun n _ htext => ⟨rfl, n, htext⟩

theorem yields_furtherConditions_nil : (furtherConditions scope []).Yields (· = "") :=
  yields_pure rfl

/-- Further conditions with one more at the end are written as the texts of the others and the text
of the last one. -/
theorem yields_furtherConditions_connected {last : Condition Fragment} {text : String}
    (hlast : (last.test.text scope).Yields (· = text)) :
    (furtherConditions scope (list ++ [last])).Yields fun further =>
      ∃ parts, List.Forall₂ (Renders scope) list parts ∧
        further = furtherText (parts ++ [(last.connector, text)]) := by
  induction list with
  | nil =>
      refine hlast.bind fun first hfirst => yields_furtherConditions_nil.map fun _ hnone => ?_
      exact ⟨[], .nil, by rw [hfirst, hnone]; rfl⟩
  | cons x rest ih =>
      refine (yields_text x).bind fun first hfirst =>
        ih.map fun further ⟨parts, hparts, hfurther⟩ => ?_
      exact ⟨(x.connector, first) :: parts, .cons hfirst hparts, by rw [hfurther]; rfl⟩

/-- The conditions of a query are written one after another with their connectors, the last of them
with its only text. -/
theorem yields_conditions_connected {last : Condition Fragment} {text : String}
    (hlast : (last.test.text scope).Yields (· = text)) :
    (conditions scope (list ++ [last])).Yields fun written =>
      ∃ parts, List.Forall₂ (Renders scope) list parts ∧
        written = some (connected (parts ++ [(last.connector, text)])) := by
  cases list with
  | nil =>
      refine hlast.bind fun first hfirst => yields_furtherConditions_nil.map fun _ hnone => ?_
      exact ⟨[], .nil, by rw [hfirst, hnone]; rfl⟩
  | cons x rest =>
      refine (yields_text x).bind fun first hfirst =>
        (yields_furtherConditions_connected hlast).map fun further ⟨parts, hparts, hfurther⟩ => ?_
      exact ⟨(x.connector, first) :: parts, .cons hfirst hparts, by rw [hfurther]; rfl⟩

/-- The end of a list of conditions is the text of the last one. -/
theorem furtherText_append (parts : List (Connector × String)) (connector : Connector)
    (text : String) : ∃ front, furtherText (parts ++ [(connector, text)]) = front ++ text := by
  induction parts with
  | nil => exact ⟨" " ++ connector.text ++ " ", by simp [furtherText]⟩
  | cons first rest ih =>
      obtain ⟨front, hfront⟩ := ih
      refine ⟨" " ++ first.1.text ++ " " ++ first.2 ++ front, ?_⟩
      rw [List.cons_append, furtherText, hfront]
      simp only [String.append_assoc]

/-- The last of several conditions is written at the end. -/
theorem connected_append (parts : List (Connector × String)) (connector : Connector)
    (text : String) : ∃ front, connected (parts ++ [(connector, text)]) = front ++ text := by
  cases parts with
  | nil => exact ⟨"", by simp [connected, furtherText]⟩
  | cons first rest =>
      obtain ⟨front, hfront⟩ := furtherText_append rest connector text
      refine ⟨first.2 ++ front, ?_⟩
      rw [List.cons_append, connected, hfront, String.append_assoc]

/-- The loops of a query end with its filter, if there are conditions. -/
theorem yields_loops_last {c : Clauses Fragment} {last : Condition Fragment} {text : String}
    (hfilters : c.filters = list ++ [last]) (hlast : (last.test.text c.scope).Yields (· = text)) :
    (loops c).Yields fun texts => ∃ front parts, List.Forall₂ (Renders c.scope) list parts ∧
      texts = front ++ ["FILTER " ++ connected (parts ++ [(last.connector, text)])] := by
  have hfilter : (filter c.scope c.filters).Yields fun texts =>
      ∃ parts, List.Forall₂ (Renders c.scope) list parts ∧
        texts = ["FILTER " ++ connected (parts ++ [(last.connector, text)])] := by
    rw [hfilters]
    refine (yields_conditions_connected hlast).bind fun written ⟨parts, hparts, hwritten⟩ => ?_
    subst hwritten
    exact yields_pure ⟨parts, hparts, rfl⟩
  refine (yields_any _).bind fun definitions _ => (yields_any _).bind fun main _ => ?_
  refine (yields_any _).bind fun joins _ => hfilter.map fun texts ⟨parts, hparts, htexts⟩ => ?_
  exact ⟨_, parts, hparts, by rw [htexts]⟩

/-- The statement of a query without regard to its unions begins with its loops. -/
theorem yields_simpleStatement_loops {c : Clauses Fragment} {p : List String → Prop}
    (h : (loops c).Yields p) : (simpleStatement c).Yields fun text =>
      ∃ texts back, p texts ∧ text = " ".intercalate (texts ++ back) := by
  refine h.bind fun texts htexts => (yields_any _).bind fun collected _ => ?_
  refine (yields_any _).bind fun havings _ => (yields_any _).map fun queries _ => ?_
  exact ⟨texts, _, htexts, by simp only [List.append_assoc]; rfl⟩

end writing

end AqlBuilder.Aql
