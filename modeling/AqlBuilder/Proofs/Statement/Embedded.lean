import AqlBuilder.Alias.Rules
import AqlBuilder.Proofs.Builder.Twin
import AqlBuilder.Proofs.Script.Embedded
import AqlBuilder.Proofs.Statement.Alike

/-!
# Statements with embedded JSON

Documents to be written, operands of an update, the key of a document to be removed and the amount
of an adjustment may have JSON embedded in them. All of them are cast where they are stored. Only
the amount is looked at before, and a number in embedded JSON is refused there, although the name of
its kind is that of a number.

- `Entry.cast` is a way to compile with native values, and `Builder.outcome_cast` says when it gives
  the same.
- `Builder.adjusted_natively`: a native number is an amount like any other.
- `Builder.embedded_as_native` is the law of calls and statements.
-/

namespace AqlBuilder

open Outcome

section arguments

variable {Q : Type}

/-- A document with native values. -/
def Row.cast : Row → Row
  | .attributes document => .attributes (Value.castMembers document)
  | .json value => .json value

/-- Changes with native values. -/
def Changes.cast : Changes Q → Changes Q
  | .row r => .row r.cast
  | .operands pairs => .operands (pairs.map (Prod.map id Operand.cast))

/-- A way to compile with native values. -/
def Entry.cast : Entry Q → Entry Q
  | .insert rows ignoreErrors => .insert (rows.map Row.cast) ignoreErrors
  | .upsert rows uniqueBy updated => .upsert (rows.map Row.cast) uniqueBy updated
  | .update changes => .update changes.cast
  | .adjust adjustment column amount => .adjust adjustment column amount.cast
  | .delete key => .delete (key.map Value.cast)
  | entry => entry

/-- Whether the amount of an adjustment is a number in embedded JSON. -/
def Entry.embedsAmount : Entry Q → Bool
  | .adjust _ _ amount => amount.isEmbeddedNumber
  | _ => false

/-- Two documents that are stored alike under the same names. -/
structure Document.SameStored (d d' : Document) : Prop where
  stored : (Value.object d).idToKey = (Value.object d').idToKey
  keys : d.keys = d'.keys

/-- A row in native form is a document that is stored alike. -/
theorem Row.document_cast (row : Row) :
    Agree Document.SameStored row.cast.document row.document := by
  cases row with
  | json value =>
      exact Agree.refl (r := Document.SameStored) (fun _ => ⟨rfl, rfl⟩) (Row.json value).document
  | attributes document =>
      exact .ok ⟨(Value.object document).idToKey_cast, Value.keys_castMembers document⟩

/-- Documents with native values are stored alike, one by one. -/
theorem Row.documents_cast (rows : List Row) :
    Agree (List.Forall₂ Document.SameStored) (Row.documents (rows.map Row.cast))
      (Row.documents rows) := by
  induction rows with
  | nil => exact .ok .nil
  | cons row rest ih =>
      have hrow := row.document_cast
      rw [List.map_cons, documents, documents]
      generalize row.cast.document = x, row.document = y at hrow
      cases hrow with
      | error e => exact .error e
      | ok hd =>
          generalize Row.documents (rest.map Row.cast) = xs, Row.documents rest = ys at ih
          cases ih with
          | error e => exact .error e
          | ok hds => exact .ok (.cons hd hds)

/-- Documents that are stored alike one by one are bound alike together. -/
theorem Row.storedAlike_of_forall₂ {ds ds' : List Document}
    (h : List.Forall₂ Document.SameStored ds ds') :
    Row.StoredAlike (fun v v' : Value => v.cast = v'.cast) ds ds' ∧
      ds.head?.map Entries.keys = ds'.head?.map Entries.keys := by
  have hmap : ds.map (fun d => (Value.object d).idToKey) =
      ds'.map fun d => (Value.object d).idToKey := by
    induction h with
    | nil => rfl
    | cons hd _ ih => rw [List.map_cons, List.map_cons, hd.stored, ih]
  refine ⟨⟨?_, ?_⟩, ?_⟩
  · cases h <;> rfl
  · unfold Builder.storedRows
    rw [hmap]
  · cases h with
    | nil => rfl
    | cons hd _ => exact congrArg some hd.keys

/-- An operand in native form is stored alike. -/
theorem Operand.storedAlike_cast (operand : Operand Builder) :
    operand.cast.StoredAlike (Builder.Alike Eq) (fun v v' : Value => v.cast = v'.cast) operand := by
  cases operand with
  | value v =>
      have hstored := v.idToKey_cast
      exact .value (congrArg Value.cast hstored) (congrArg Value.reference? hstored)
  | expression aql => exact .expression aql
  | column name => exact .column name
  | query q => exact .query (.refl rfl)

/-- Changes with native values assign the same to the same attributes. -/
theorem Changes.assignments_cast (changes : Changes Builder) :
    Agree (Changes.StoredAlike (Builder.Alike Eq) fun v v' : Value => v.cast = v'.cast)
      changes.cast.assignments changes.assignments := by
  have hpair : ∀ pair : String × Operand Builder, (Prod.map id Operand.cast pair).1 = pair.1 ∧
      (Prod.map id Operand.cast pair).2.StoredAlike (Builder.Alike Eq)
        (fun v v' : Value => v.cast = v'.cast) pair.2 := fun pair => ⟨rfl, pair.2.storedAlike_cast⟩
  cases changes with
  | operands pairs =>
      exact .ok (List.forall₂_map_left_iff.mpr (List.forall₂_same.mpr fun pair _ => hpair pair))
  | row r =>
      cases r with
      | json value =>
          refine Agree.refl (fun assignments => ?_) (Changes.row (.json value)).assignments
          exact List.forall₂_same.mpr fun pair _ => ⟨rfl, by
            cases pair.2 with
            | value v => exact .value rfl rfl
            | expression aql => exact .expression aql
            | column name => exact .column name
            | query q => exact .query (.refl rfl)⟩
      | attributes document =>
          refine .ok ?_
          rw [Value.castMembers_eq_map, List.map_map]
          refine List.forall₂_map_left_iff.mpr (List.forall₂_map_right_iff.mpr ?_)
          exact List.forall₂_same.mpr fun pair _ =>
            ⟨rfl, (Operand.value pair.2 : Operand Builder).storedAlike_cast⟩

/-- With native values a way to compile stores the same, unless it has a number in embedded JSON for
an amount. -/
theorem Entry.alike_cast {entry : Entry Builder} (h : entry.embedsAmount = false) :
    entry.cast.Alike (Builder.Alike Eq) (fun v v' : Value => v.cast = v'.cast) entry := by
  cases entry with
  | select => exact .select
  | existence => exact .existence
  | aggregate function column => exact .aggregate function column
  | insert rows ignoreErrors =>
      exact .insert ignoreErrors
        ((Row.documents_cast rows).mono fun _ _ h => (Row.storedAlike_of_forall₂ h).1)
  | upsert rows uniqueBy update =>
      exact .upsert uniqueBy update
        ((Row.documents_cast rows).mono fun _ _ h => Row.storedAlike_of_forall₂ h)
  | update changes => exact .update changes.assignments_cast
  | adjust adjustment column amount =>
      have hnumber : amount.cast.isNumber = amount.isNumber := by
        rw [amount.isNumber_cast, show amount.isEmbeddedNumber = false from h, Bool.or_false]
      exact .adjust adjustment column hnumber amount.cast_cast
  | delete key =>
      cases key with
      | none => exact .deleteAll
      | some key => exact .deleteKey key.cast_cast
  | truncate => exact .truncate

end arguments

namespace Builder

variable {b : Builder}

/-- However a builder with an error is compiled, the outcome is its error. -/
theorem outcome_of_error [Naming] {e : Error} (h : b.error = some e) (entry : Entry Builder)
    (next : Nat) :
    b.outcome entry next = .error e := by
  have hcheck : b.check = .error e := by
    unfold check
    rw [h]
  cases entry <;>
    simp only [outcome, compile, toCompiled, existsStatement, aggregateStatement, insertStatement,
      upsertStatement, updateStatement, adjustStatement, deleteStatement, truncateStatement,
      hcheck] <;> rfl

/-- With native values a caller gets the same, unless the amount of an adjustment is a number in
embedded JSON and no error keeps the builder from looking at it. -/
theorem outcome_cast [Naming] {entry : Entry Builder}
    (h : entry.embedsAmount = false ∨ b.error ≠ none)
    (next : Nat) : b.outcome entry.cast next = b.outcome entry next := by
  rcases h with hembeds | herror
  · have hself : b.Alike Eq b := .refl rfl
    have hagree := hself.compile Store.congruence_cast (Entry.alike_cast hembeds) next next
    refine Agree.eq (hagree.mono ?_)
    rintro _ _ ⟨aql, h⟩
    rw [h]
  · obtain ⟨e, he⟩ := Option.ne_none_iff_exists'.mp herror
    rw [outcome_of_error he, outcome_of_error he]

/-- A number in embedded JSON is refused as an amount. -/
theorem outcome_embedded_amount [Naming] (hfree : b.error = none) {amount : Value}
    (h : amount.isEmbeddedNumber = true) (adjustment : Adjustment) (column : String) (next : Nat) :
    b.outcome (.adjust adjustment column amount) next =
      .error (.invalidArgument .amountNotNumeric) := by
  have hnumber : amount.isNumber = false := by
    cases amount with
    | json j => rfl
    | _ => cases h
  have hcheck : b.check = .ok () := by
    unfold check
    rw [hfree]
  simp only [outcome, compile, adjustStatement, hcheck, hnumber]
  rfl

/-- All numbers are amounts alike: they give the same text, or the same error. -/
theorem adjusted_natively [Naming] (b : Builder) {amount amount' : Value}
    (h : amount.isNumber = true)
    (h' : amount'.isNumber = true) (adjustment : Adjustment) (column : String) (next : Nat) :
    (b.outcome (.adjust adjustment column amount) next).map Compiled.aql =
      (b.outcome (.adjust adjustment column amount') next).map Compiled.aql := by
  have hself : b.Alike Store.SameNames b := .refl (.refl b.bindings)
  have hentries : (Entry.adjust adjustment column amount).Alike (Builder.Alike Store.SameNames)
      (fun _ _ => True) (Entry.adjust adjustment column amount') :=
    .adjust adjustment column (h.trans h'.symm) trivial
  have hagree := hself.compile Store.congruence_sameNames hentries next next
  unfold outcome Outcome.run
  generalize (b.compile (.adjust adjustment column amount) next).1 = x,
    (b.compile (.adjust adjustment column amount') next).1 = y at hagree
  cases hagree with
  | error e => rfl
  | ok h =>
      cases h
      rfl

/-- **Embedded JSON is read as native values, with two exceptions.**  A call does the same with JSON
embedded in its values and with native values just if it does not misread a value. A call misreads a
string that is written like a reference where it binds it as it comes, which the values of query
variables, the operands of lengths and dates and the texts of searches are; then it files the
string, one value more than the native call. A run in which no call misreads a value, on the builder
that it comes to, does what it does with native values. Compiling gives the same text and bindings,
or the same error, unless the amount of an adjustment is a number in embedded JSON; that is refused,
while the native number is an amount like any other. -/
theorem embedded_as_native [Naming] (b : Builder) :
    (∀ call : Call Action,
      (call.cast.apply b = call.apply b ↔ ¬ call.Misread b) ∧
      (call.Misread b → ∃ category text, isPlaceholder text = true ∧ ∀ next,
        ((call.apply b next).1.bindings.bound category).get? (b.bindings.nextName category) =
            some (.string text) ∧
          ∀ c, (call.apply b next).1.bindings.given c =
            (call.cast.apply b next).1.bindings.given c + if c = category then 1 else 0)) ∧
    (∀ (calls : List (Call Action)) (next : Nat),
      (∀ before call after, calls = before ++ call :: after →
        ¬ call.Misread (Call.applyAll before b next).1) →
      Call.applyAll (calls.map Call.cast) b next = Call.applyAll calls b next) ∧
    ∀ next : Nat,
      (∀ entry : Entry Builder, entry.embedsAmount = false ∨ b.error ≠ none →
        b.outcome entry.cast next = b.outcome entry next) ∧
      ∀ (adjustment : Adjustment) (column : String) (amount number : Value),
        b.error = none → amount.isEmbeddedNumber = true → number.isNumber = true →
          b.outcome (.adjust adjustment column amount) next =
              .error (.invalidArgument .amountNotNumeric) ∧
            (b.outcome (.adjust adjustment column amount.cast) next).map Compiled.aql =
              (b.outcome (.adjust adjustment column number) next).map Compiled.aql := by
  refine ⟨fun call => ⟨call.apply_cast_iff b, Call.Misread.filed⟩, fun calls next h => ?_, ?_⟩
  · exact Call.applyAll_cast h
  · refine fun next => ⟨fun entry h => outcome_cast h next, ?_⟩
    intro adjustment column amount number hfree hembedded hnumber
    have hcast : amount.cast.isNumber = true := by
      rw [amount.isNumber_cast, hembedded, Bool.or_true]
    exact ⟨outcome_embedded_amount hfree hembedded adjustment column next,
      b.adjusted_natively hcast hnumber adjustment column next⟩

/-- All characters. -/
def characters : Builder := fromCollection (Clauses.empty 1) "characters"

/-- A number in embedded JSON cannot be added to an age, the same native number can. -/
theorem embedded_amount_refused :
    (characters.outcome (.adjust .increment "age" (.json (.int 1))) 2).isOk = false ∧
      (characters.outcome (.adjust .increment "age" (.ofJson (.int 1))) 2).toOption.map
        Compiled.aql = some ("FOR characterDoc IN characters UPDATE characterDoc WITH "
          ++ "\x7bage: characterDoc.\x60age\x60 + @1_update_1\x7d IN characters") := by
  decide +kernel

/-- A condition on an age and the removal of a character by its key come out the same; a variable
that is written like a reference does not, and neither does an amount. -/
theorem age_and_key_as_native :
    (∃ category text, isPlaceholder text = true ∧ ∀ next,
      (((Call.set "bound" (.value (.json (.string "@1_where_1")))).apply characters
          next).1.bindings.bound category).get? (characters.bindings.nextName category) =
        some (.string text)) ∧
    Call.applyAll [.condition .filters .and "age" none (.value (.ofJson (.int 30)))] characters 2 =
      Call.applyAll [.condition .filters .and "age" none (.value (.json (.int 30)))] characters 2 ∧
    characters.outcome (.delete (some (.ofJson (.string "NedStark")))) 2 =
      characters.outcome (.delete (some (.json (.string "NedStark")))) 2 ∧
    characters.outcome (.adjust .increment "age" (.json (.int 1))) 2 =
      .error (.invalidArgument .amountNotNumeric) := by
  obtain ⟨hcalls, hruns, hcompiled⟩ := embedded_as_native characters
  obtain ⟨hentries, hamounts⟩ := hcompiled 2
  refine ⟨?_, ?_, hentries (.delete (some (.json (.string "NedStark")))) (Or.inl rfl),
    (hamounts .increment "age" (.json (.int 1)) (.int32 1) rfl rfl rfl).1⟩
  · obtain ⟨category, text, htext, hfiled⟩ :=
      (hcalls (.set "bound" (.value (.json (.string "@1_where_1"))))).2
        ⟨rfl, .json (.string "@1_where_1"), .definitions, rfl, by decide +kernel⟩
    exact ⟨category, text, htext, fun next => (hfiled next).1⟩
  · refine hruns [.condition .filters .and "age" none (.value (.json (.int 30)))] 2 ?_
    intro before call after hsplit
    have hmem : call ∈ before ++ call :: after := List.mem_append_right _ List.mem_cons_self
    rw [← hsplit, List.mem_singleton] at hmem
    rw [hmem]
    rintro ⟨-, v, category, huncast, -⟩
    cases huncast

end Builder

end AqlBuilder
