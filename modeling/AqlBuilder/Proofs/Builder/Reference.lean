import AqlBuilder.Builder.Source
import AqlBuilder.Proofs.Query.Copy
import AqlBuilder.Value.Keys

/-!
# Values that are references

A string that is written like the reference of a bound value stands for itself when it is bound;
every other value is filed under a new name. What a condition makes of a value is decided by its
kind: `null`, an array, or anything else.

- `Value.reference?` picks out the values of the first kind.
- `Builder.bindValue_eq` says what binding does with a value.
- `Builder.addComparison_null`, `Builder.addComparison_value` and `Builder.between_eq` say what a
  condition does with one.
- `Builder.of_unlessFailed`, `Builder.always_addComparison_value`, `Builder.of_fullTextSearch`: a
  property of builders holds after a method if it holds after each way that the method can go.
-/

namespace AqlBuilder

/-- The reference that a value is, if it is one. -/
def Value.reference? : Value → Option String
  | .string text => if isPlaceholder text then some text else none
  | _ => none

/-- A value that is no reference is none under the server's names either. -/
theorem Value.reference?_idToKey {v : Value} (h : v.cast.reference? = none) :
    v.idToKey.reference? = none := by
  cases v with
  | string text => exact h
  | json j =>
      cases j with
      | string text => exact h
      | int n =>
          change (Value.ofInt n).reference? = none
          unfold Value.ofInt
          split <;> rfl
      | _ => rfl
  | _ => rfl

/-- The builder with a value filed under the next name of a category. -/
def Builder.file (b : Builder) (value : Value) (category : Category) : Builder :=
  { b with bindings := (b.bindings.add value category).2 }

/-- A reference is bound as it is, any other value is filed. -/
theorem Builder.bindValue_eq (b : Builder) (value : Value) (category : Category) :
    b.bindValue value category = match value.reference? with
      | some text => (.raw text, b)
      | none => (.placeholder (b.bindings.nextName category), b.file value category) := by
  unfold bindValue Value.reference?
  cases value with
  | string text =>
      by_cases htext : isPlaceholder text
      · simp only [htext, if_true]
      · simp only [htext]
        rfl
  | _ => rfl

/-- What is no reference is filed, and its name stands for it. -/
theorem Builder.bindValue_of_none {b : Builder} {value : Value} (h : value.reference? = none)
    (category : Category) :
    b.bindValue value category =
      (.placeholder (b.bindings.nextName category), b.file value category) := by
  rw [bindValue_eq, h]

/-- The kinds of values that a condition tells apart. -/
inductive Value.Kind
  | null
  | array
  | other
  deriving DecidableEq

/-- The kind of a value. -/
def Value.kind : Value → Kind
  | .null => .null
  | .array _ => .array
  | _ => .other

theorem Value.kind_eq_null {v : Value} : v.kind = .null ↔ v = .null := by
  cases v <;> simp [kind]

theorem Value.kind_eq_array {v : Value} : v.kind = .array ↔ v.items?.isSome := by
  cases v <;> simp [kind, items?]

/-- The test of a column against a bound value. -/
def Builder.valueTest (column : String) (operator : Operator) (bound : Bound) : Test Query :=
  if operator.isMembership then .member column bound (operator = .notMember)
  else if operator.isBitwise then .bits column operator bound
  else .compare column operator bound

/-- The two bounds that a value is, if it is an array of two. -/
def Value.bounds? (v : Value) : Option (Value × Value) :=
  match v.cast with
  | .array [low, high] => some (low, high)
  | _ => none

/-- Two bounds are an array of two, as it is in native form. -/
theorem Value.bounds?_eq_some {v low high : Value} :
    v.bounds? = some (low, high) ↔ v.cast = .array [low, high] := by
  unfold bounds?
  split
  · rename_i l h heq
    simp [heq]
  · rename_i hne
    simp only [reduceCtorEq, false_iff]
    exact hne low high

/-- A value is two bounds if it is an array with two items. -/
theorem Value.bounds?_isSome (v : Value) :
    v.bounds?.isSome = (v.cast.items?.map List.length == some 2) := by
  unfold bounds?
  cases v.cast with
  | array items => rcases items with _ | ⟨low, _ | ⟨high, _ | ⟨third, rest⟩⟩⟩ <;> simp [items?]
  | _ => rfl

/-- A condition with bounds binds the lower one first. -/
theorem Builder.between_eq (b : Builder) (list : ConditionList) (connector : Connector)
    (negated : Bool) (column : String) (bounds : Value) :
    b.between list connector negated column bounds = b.unlessFailed fun b =>
      match bounds.bounds? with
      | some (low, high) =>
        let first := b.bindValue low list.category
        let second := first.2.bindValue high list.category
        second.2.push list connector (.between column first.1 second.1 negated)
      | none => b.fail (.invalidArgument .twoBoundsRequired) := by
  unfold between Value.bounds?
  congr 1
  funext b
  cases bounds.cast with
  | array items => rcases items with _ | ⟨low, _ | ⟨high, _ | ⟨third, rest⟩⟩⟩ <;> rfl
  | _ => rfl

/-- A test whether a value is contained, in terms of its parts. -/
theorem Builder.contains_eq (b : Builder) (negated : Bool) (column : String) (value : Value) :
    b.contains negated column value = b.unlessFailed fun b =>
      (b.bindValue value.cast .filter).2.push .filters .and
        (.contains column (b.bindValue value.cast .filter).1 value.cast.items?.isSome
          negated) := rfl

/-- Whether a query iterates over a view. -/
def Builder.overView (b : Builder) : Bool :=
  match b.source with
  | some (.view _ _) => true
  | _ => false

/-- A search binds its text before its analyzer. -/
theorem Builder.fullTextSearch_eq (b : Builder) (fields : List (Selector Query)) (text : Value)
    (analyzer : Option String) :
    b.fullTextSearch fields text analyzer = b.unlessFailed fun b =>
      if b.overView then
        if (fields.filterMap Selector.column?).isEmpty then
          b.fail (.invalidArgument .searchWithoutAttribute)
        else
          let first := b.bindValue text .search
          let second := first.2.bindValue (.string (analyzer.getD defaultAnalyzer)) .search
          { second.2 with search := some ⟨fields.filterMap Selector.column?, first.1, second.1⟩ }
      else b.fail (.unsupported .searchOutsideView) := by
  unfold fullTextSearch overView
  congr 1
  funext b
  rcases b.source with _ | ⟨name, v⟩ | ⟨name, v⟩ | ⟨sub, v⟩ <;> rfl

section steps

variable {b : Builder} {p : Builder → Prop}

/-- What holds of a builder and of the changed one holds of the outcome. -/
theorem Builder.of_unlessFailed {change : Builder → Builder} (hb : p b) (h : p (change b)) :
    p (b.unlessFailed change) := by
  unfold unlessFailed
  split
  · exact hb
  · exact h

/-- A step brings about what holds before it and after it, whether it is taken or not. -/
theorem Builder.always_unlessFailedM {change : Builder → Supply Builder} (hb : p b)
    (h : (change b).Always p) : (b.unlessFailedM change).Always p := by
  unfold unlessFailedM
  split
  · exact Supply.always_pure hb
  · exact h

/-- A search leaves its builder alone, fails, or binds its text and its analyzer. -/
theorem Builder.of_fullTextSearch {fields : List (Selector Query)} {text : Value}
    {analyzer : Option String} (hb : p b)
    (hfields : p (b.fail (.invalidArgument .searchWithoutAttribute)))
    (hview : p (b.fail (.unsupported .searchOutsideView)))
    (hsearch : ∀ first second, first = b.bindValue text .search →
      second = first.2.bindValue (.string (analyzer.getD defaultAnalyzer)) .search →
      b.overView = true → fields.filterMap Selector.column? ≠ [] →
      p { second.2 with search := some ⟨fields.filterMap Selector.column?, first.1, second.1⟩ }) :
    p (b.fullTextSearch fields text analyzer) := by
  rw [fullTextSearch_eq]
  refine of_unlessFailed hb ?_
  dsimp only
  split
  case isTrue hover =>
    split
    case isTrue => exact hfields
    case isFalse hsome =>
      exact hsearch _ _ rfl rfl hover fun hnil => hsome (List.isEmpty_iff.mpr hnil)
  case isFalse => exact hview

end steps

section comparison

variable [Naming] (b : Builder) (list : ConditionList) (connector : Connector) (column : String)
  (operator : Operator) {v : Value}

/-- A condition with `null` tests for `null`. -/
theorem Builder.addComparison_null (h : v.cast = .null) :
    b.addComparison list connector column operator (.value v) =
      pure (if operator.acceptsNull then
        b.push list connector (.isNull column (operator = .notEqual))
      else b.fail (.invalidArgument .operatorWithNull)) := by
  unfold addComparison Operand.cast
  simp only [h]

/-- A condition with another value binds it; membership needs an array. -/
theorem Builder.addComparison_value (h : v.cast ≠ .null) :
    b.addComparison list connector column operator (.value v) =
      pure (if operator.isMembership && v.cast.kind != .array then
        b.fail (.invalidArgument (.listRequired operator.text))
      else (b.bindValue v.cast list.category).2.push list connector
        (valueTest column operator (b.bindValue v.cast list.category).1)) := by
  have hlist : (Operand.value v.cast : Operand Builder).isList = (v.cast.kind == .array) := by
    cases v.cast <;> rfl
  have hnull : b.addComparison list connector column operator (.value v) =
      if operator.isMembership && !(Operand.value v.cast : Operand Builder).isList then
        pure (b.fail (.invalidArgument (.listRequired operator.text)))
      else b.bind (.value v.cast) list.category >>= fun bound =>
        pure (bound.2.push list connector (valueTest column operator bound.1)) := by
    unfold addComparison Operand.cast
    cases hv : v.cast with
    | null => exact absurd hv h
    | _ =>
        simp only [hv]
        rfl
  rw [hnull, hlist]
  by_cases hmember : operator.isMembership && v.cast.kind != .array
  · rw [if_pos hmember]
    exact if_pos hmember
  · rw [if_neg hmember]
    exact if_neg hmember

/-- A comparison with a value tests for `null`, fails, or tests against the bound value. -/
theorem Builder.always_addComparison_value {p : Builder → Prop}
    (hnull : operator.acceptsNull = true →
      p (b.push list connector (.isNull column (operator = .notEqual))))
    (hvalue : p ((b.bindValue v.cast list.category).2.push list connector
      (valueTest column operator (b.bindValue v.cast list.category).1)))
    (hfail : ∀ reason, p (b.fail (.invalidArgument reason))) :
    (b.addComparison list connector column operator (.value v)).Always p := by
  by_cases hcast : v.cast = .null
  · rw [addComparison_null b list connector column operator hcast]
    refine Supply.always_pure ?_
    split
    case isTrue haccepts => exact hnull haccepts
    case isFalse => exact hfail _
  · rw [addComparison_value b list connector column operator hcast]
    refine Supply.always_pure ?_
    split
    case isTrue => exact hfail _
    case isFalse => exact hvalue

/-- A condition with trusted text takes it over. -/
theorem Builder.addComparison_expression (aql : String) :
    b.addComparison list connector column operator (.expression aql) =
      pure (b.push list connector (valueTest column operator (.raw aql))) := by
  unfold addComparison
  simp only [Operand.cast, Operand.isList, Bool.not_true, Bool.and_false, Bool.false_eq_true,
    if_false]
  rfl

/-- A comparison with a column binds nothing. -/
theorem Builder.addComparison_column (name : String) :
    b.addComparison list connector column operator (.column name) =
      pure (b.push list connector (valueTest column operator (.column name))) := by
  unfold addComparison
  simp only [Operand.cast, Operand.isList, Bool.not_true, Bool.and_false, Bool.false_eq_true,
    if_false]
  rfl

end comparison

end AqlBuilder
