import AqlBuilder.Alias.Rules
import AqlBuilder.Connection.Terminal
import AqlBuilder.Proofs.Builder.Failure

/-!
# Builders with an error

Every way to compile a builder looks for its error first, so neither a statement nor a query number
is taken from a builder with an error, and a connection hears nothing of it. An error comes to a
builder from a method of its own, or from a builder that was handed to it and got it in the same
way.

- `Builder.Failed`: everything that is done with the builder comes to one error.
- `Builder.failed_of_error` says so of a builder that has the error.
- `Carries` is how an error comes to a builder, from any depth.
- `Builder.first_error_final` is the law of both.
-/

namespace AqlBuilder

open Supply

namespace Builder

variable {α : Type} {b : Builder} {e : Error}

/-- Everything that is done with the builder comes to one error. -/
structure Failed [Naming] (e : Error) (b : Builder) : Prop where
  /-- The error stays in every sequence of calls, copies included. -/
  stays : ∀ calls : List (Call Action), (∀ call ∈ calls, call.Mutates) →
    ∀ next, (Call.applyAll calls b next).1.error = some e
  /-- Every statement that may be compiled is this error, and takes no number. -/
  compiled : ∀ entry next, b.compile entry next = (.error e, next)
  text : ∀ next, b.toAql next = (.error e, next)
  bindings : b.allBindings = .error e
  /-- Everything that may be wanted on a connection is this error, and leaves the connection
  alone. -/
  performed : ∀ terminal c next, (b.perform terminal c next).1 = (.error e, c)

/-- What is checked before it is compiled fails with the error of the builder. -/
theorem checked_of_error (h : b.error = some e) (f : Unit → Outcome α) :
    (Outcome.ofExcept b.check >>= f) = .fail e := by
  rw [check, h]
  rfl

/-- However a builder with an error is compiled, this fails with its error. -/
theorem compile_of_error [Naming] (h : b.error = some e) (entry : Entry Builder) :
    b.compile entry = .fail e := by
  cases entry <;> exact checked_of_error h _

/-- A connection is left alone by a builder with an error. -/
theorem compiled_session_of_error [Naming] (h : b.error = some e) (entry : Entry Builder)
    (use : Connection → Compiled → Answered Answer) (c : Connection) (next : Nat) :
    Session.compiled (b.compile entry) use c next = ((.error e, c), next) := by
  rw [compile_of_error h]
  rfl

section copies

/-! ### Queries that are made from a copy -/

theorem error_firstRow (h : b.error = some e) : b.firstRow.Always (·.error = some e) :=
  fun next => (error_limitTo _ 1).trans ((b.error_copyOf next).trans h)

/-- Asking for a column of the first row keeps an error. -/
theorem error_columnOfFirst (h : b.error = some e) (column : String) :
    (b.columnOfFirst column).Always (·.error = some e) :=
  fun next => (error_limitTo _ 1).trans ((error_select _ _).trans ((b.error_copyOf next).trans h))

/-- Asking for the row with a key keeps an error. -/
theorem error_rowWithKey [Naming] (h : b.error = some e) (key : Value) :
    (b.rowWithKey key).Always (·.error = some e) := by
  have hcopy : b.copyOf.Always (·.error = some e) := fun n => (b.error_copyOf n).trans h
  refine hcopy.bind fun query hquery => ?_
  rw [condition, unlessFailedM_of_error hquery]
  exact always_pure ((query.error_limitTo 1).trans hquery)

end copies

/-- A terminal compiles its builder or a copy of it, so it comes to the error. -/
theorem perform_of_error [Naming] (h : b.error = some e) (terminal : Terminal Builder)
    (c : Connection) (next : Nat) : (b.perform terminal c next).1 = (.error e, c) := by
  -- A query that is made from a copy and has the error of it.
  have hcopied : ∀ {make : Supply Builder} (use : Connection → Compiled → Answered Answer),
      make.Always (·.error = some e) →
      ((do
        let query ← make
        Session.compiled query.toCompiled use c : Supply (Answered Answer)) next).1 =
          (.error e, c) := by
    intro make use hmake
    exact congrArg Prod.fst (compiled_session_of_error (hmake next) .select use c (make next).2)
  have hdirect : ∀ (entry : Entry Builder) (use : Connection → Compiled → Answered Answer),
      (Session.compiled (b.compile entry) use c next).1 = (.error e, c) := fun entry use =>
    congrArg Prod.fst (compiled_session_of_error h entry use c next)
  cases terminal with
  | get => exact hdirect .select _
  | characters => exact hdirect .select _
  | first => exact hcopied _ (error_firstRow h)
  | find key => exact hcopied _ (error_rowWithKey h key)
  | value column => exact hcopied _ (error_columnOfFirst h column)
  | existence => exact hdirect .existence _
  | count => exact hdirect (.aggregate .count none) _
  | aggregate function column => exact hdirect (.aggregate function (some column)) _
  | explain => exact hdirect .select _
  | insert rows => exact hdirect (.insert rows false) _
  | insertKey row => exact hdirect (.insert [row] false) _
  | update changes => exact hdirect (.update changes) _
  | adjust adjustment column amount => exact hdirect (.adjust adjustment column amount) _
  | upsert rows uniqueBy update => exact hdirect (.upsert rows uniqueBy update) _
  | delete key => exact hdirect (.delete key) _
  | truncate => exact hdirect .truncate _

/-- Everything that is done with a builder with an error comes to its error. -/
theorem failed_of_error [Naming] (h : b.error = some e) : b.Failed e where
  stays _ hcalls next := Call.error_applyAll hcalls h next
  compiled entry next := by
    rw [compile_of_error h]
    rfl
  text next := by
    have hcompiled : b.toCompiled = .fail e := compile_of_error h .select
    rw [toAql, hcompiled]
    rfl
  bindings := by
    rw [allBindings, check, h]
    rfl
  performed terminal c next := perform_of_error h terminal c next

/-- A builder has an error, or has it from another one. -/
inductive Carries [Naming] (e : Error) : Builder → Prop
  | own {b : Builder} (h : b.error = some e) : Carries e b
  | called {b : Builder} (h : Carries e b) {calls : List (Call Action)}
      (hcalls : ∀ call ∈ calls, call.Mutates) (next : Nat) :
      Carries e (Call.applyAll calls b next).1
  /-- A builder without an error is handed one that carries the error. -/
  | handed {b sub : Builder} {next : Nat} {step : Supply Builder} (hfree : b.error = none)
      (hands : Hands b next sub step) (h : Carries e sub) : Carries e (step next).1

/-- An error that a builder carries is its own error. -/
theorem Carries.error [Naming] (h : Carries e b) : b.error = some e := by
  induction h with
  | own h => exact h
  | called _ hcalls next ih => exact Call.error_applyAll hcalls ih next
  | handed hfree hands _ ih => exact error_of_hands hands hfree ih

/-- A finished query is handed over with its error. -/
theorem Carries.finished [Naming] (h : Carries e b) (parent : Builder) (next : Nat) :
    Carries e (parent.subBuilder (.finished b) next).1 := .own h.error

/-- The first error of a builder is an illegal operator if it comes with anything to compare. -/
structure Refuses [Naming] (e : Error) (b : Builder) : Prop where
  condition : ∀ list connector column operand,
    (b.condition list connector column (.error e) operand).Always (·.error = some e)
  compareQuery : ∀ column sub, (b.compareQuery column (.error e) sub).Always (·.error = some e)
  length : ∀ column operand, (b.length column (.error e) operand).Always (·.error = some e)
  date : ∀ part column operand, (b.date part column (.error e) operand).Always (·.error = some e)

/-- **The first error is final and is always reported.**  The error that a builder carries, its own
or that of a sub-query, a group of conditions or the clause of a join at any depth, is its error,
stays in every sequence of calls, and is what every statement and everything that may be wanted on a
connection comes to, without a word to the server. Only an operator that is none comes first: it is
looked at before what is compared. -/
theorem first_error_final [Naming] (e : Error) (b : Builder) :
    (Carries e b → b.error = some e ∧ b.Failed e) ∧ (b.error = none → b.Refuses e) := by
  constructor
  · intro h
    exact ⟨h.error, failed_of_error h.error⟩
  · intro hfree
    exact ⟨fun list connector column operand =>
        error_condition_of_illegal hfree list connector column operand,
      fun column sub => error_withOperator_of_illegal hfree _,
      fun column operand => error_withOperator_of_illegal hfree _,
      fun part column operand => error_withOperator_of_illegal hfree _⟩

/-- A query over a collection. -/
def onCollection [Naming] (id : Nat) (table : String) : Builder :=
  fromCollection (Clauses.empty id) table

/-- An order that has no direction, under a condition of a query in a union. -/
theorem direction_reported :
    let e : Error := .invalidArgument .illegalDirection
    let unordered := (onCollection 3 "locations").orderBy "name" (Direction.ofText "upwards")
    let homes := ((onCollection 2 "families").hasRows .and false (.finished unordered) 4).1
    let b := ((onCollection 1 "characters").union true (.finished homes) 4).1
    b.error = some e ∧ (∀ next, b.compile .select next = (.error e, next)) ∧
      ((onCollection 1 "characters").length "titles" (.error e) (.query homes) 4).1.error
        = some e := by
  intro e unordered homes b
  have hunordered : Carries e unordered := .own rfl
  have hhomes : Carries e homes :=
    .handed rfl (.hasRows rfl .and false) (hunordered.finished (onCollection 2 "families") 4)
  obtain ⟨herror, hfailed⟩ := (first_error_final e b).1
    (.handed rfl (.union rfl true) (hhomes.finished (onCollection 1 "characters") 4))
  have hrefuses := (first_error_final e (onCollection 1 "characters")).2 rfl
  exact ⟨herror, hfailed.compiled .select, hrefuses.length "titles" (.query homes) 4⟩

/-- With an operator that is none the error of a sub-query is not taken over. -/
theorem operator_before_query :
    let unordered := (onCollection 2 "locations").orderBy "name" (Direction.ofText "upwards")
    let b := ((onCollection 1 "characters").compareQuery "age" (Operator.ofSpelling "~~")
      (.finished unordered) 3).1
    (onCollection 1 "characters").error = none ∧
      unordered.error = some (.invalidArgument .illegalDirection) ∧
      b.error = some (.invalidArgument (.illegalOperator "~~")) ∧ b.error ≠ unordered.error := by
  intro unordered b
  have hunordered : unordered.error = some (.invalidArgument .illegalDirection) := rfl
  have hb : b.error = some (.invalidArgument (.illegalOperator "~~")) := rfl
  exact ⟨rfl, hunordered, hb, by rw [hb, hunordered]; nofun⟩

end Builder

end AqlBuilder
