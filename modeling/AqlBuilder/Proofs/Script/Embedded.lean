import AqlBuilder.Proofs.Binding.References
import AqlBuilder.Proofs.Builder.Failure
import AqlBuilder.Proofs.Value.Embedded
import AqlBuilder.Script.Basic

/-!
# Calls with embedded JSON

The values among the arguments of a call may have JSON embedded in them. Conditions, bounds, tests
of arrays and filed values are cast before a call looks at them, so their calls do the same with the
native values. A query variable, a length, a date and the text of a search are bound as they come:
there a string in embedded JSON is filed even if it is written like a reference, which a native
string stands for itself.

- `Call.cast` is a call with native values.
- `Call.uncast?` is the value that a call binds as it comes, and `Call.Misread` says that it is an
  embedded reference.
- `Call.apply_cast` is the step of one call, and `Call.applyAll_cast` the run of many.
- `Call.Misread.filed`: where the two differ, a value is filed that the native call does not file.
-/

namespace AqlBuilder

open Builder Supply

section arguments

variable {Q S : Type}

/-- An operand that is cast once is cast for good. -/
theorem Operand.cast_cast (operand : Operand Q) : operand.cast.cast = operand.cast := by
  cases operand with
  | value v => exact congrArg Operand.value v.cast_cast
  | _ => rfl

/-- The reference that an operand becomes by casting. -/
def Operand.embeddedReference? : Operand Q → Option String
  | .value v => v.embeddedReference?
  | _ => none

/-- A call to a join clause with native values. -/
def JoinCall.cast : JoinCall S → JoinCall S
  | .condition connector column operator operand =>
    .condition connector column operator operand.cast
  | .member column values => .member column values.cast
  | call => call

/-- A call with native values. The scripts among its arguments stay as they are. -/
def Call.cast : Call S → Call S
  | .set name operand => .set name operand.cast
  | .addBinding value category => .addBinding value.cast category
  | .addBindings operands category => .addBindings (operands.map Operand.cast) category
  | .setBindings values category => .setBindings (Value.castMembers values) category
  | .condition list connector column operator operand =>
    .condition list connector column operator operand.cast
  | .member connector negated column values => .member connector negated column values.cast
  | .between list connector negated column bounds =>
    .between list connector negated column bounds.cast
  | .contains negated column value => .contains negated column value.cast
  | .length column operator operand => .length column operator operand.cast
  | .date part column operator operand => .date part column operator operand.cast
  | .like connector column pattern caseSensitive =>
    .like connector column pattern.cast caseSensitive
  | .notLike column pattern => .notLike column pattern.cast
  | .joinWith kind table calls => .joinWith kind table (calls.map JoinCall.cast)
  | .fullTextSearch fields text analyzer => .fullTextSearch fields text.cast analyzer
  | call => call

/-- The value that a call binds as it comes, with its category. -/
def Call.uncast? : Call S → Option (Value × Category)
  | .set _ (.value v) => some (v, .definitions)
  | .length _ _ (.value v) => some (v, .filter)
  | .date _ _ _ (.value v) => some (v, .filter)
  | .fullTextSearch _ text _ => some (text, .search)
  | _ => none

/-- A call on a builder gets as far as binding the value. -/
def Call.Reaches (b : Builder) : Call S → Prop
  | .length _ operator _ => b.error = none ∧ operator.operator.isOk = true
  | .date _ _ operator _ => b.error = none ∧ operator.operator.isOk = true
  | .fullTextSearch fields _ _ =>
    b.error = none ∧ b.overView = true ∧ fields.filterMap Selector.column? ≠ []
  | _ => b.error = none

/-- A call on a builder binds an embedded reference as it comes. -/
def Call.Misread (b : Builder) (call : Call S) : Prop :=
  call.Reaches b ∧ ∃ v category, call.uncast? = some (v, category) ∧ v.embeddedReference? ≠ none

/-- The builder after what a call binds behind the value that it binds as it comes. -/
def Call.bindsBehind (b : Builder) : Call S → Builder
  | .fullTextSearch _ _ analyzer =>
    (b.bindValue (.string (analyzer.getD defaultAnalyzer)) .search).2
  | _ => b

/-- A call with native values binds the same value as it comes, in native form. -/
theorem Call.uncast?_cast (call : Call S) :
    call.cast.uncast? = call.uncast?.map (Prod.map Value.cast id) := by
  cases call with
  | set name operand => cases operand <;> rfl
  | length column operator operand => cases operand <;> rfl
  | date part column operator operand => cases operand <;> rfl
  | _ => rfl

theorem Call.reaches_cast (call : Call S) (b : Builder) : call.cast.Reaches b ↔ call.Reaches b := by
  cases call <;> exact Iff.rfl

/-- A call with native values binds the same behind that value. -/
theorem Call.bindsBehind_cast (call : Call S) (b : Builder) :
    call.cast.bindsBehind b = call.bindsBehind b := by
  cases call <;> rfl

end arguments

namespace Builder

variable (b : Builder) (list : ConditionList) (connector : Connector) (column : String)
  (operator : Except Error Operator) {operand : Operand Builder}

/-- An operand is bound alike in native form, unless that makes a reference of it. -/
theorem bind_cast [Naming] (h : operand.embeddedReference? = none) (category : Category) :
    b.bind operand.cast category = b.bind operand category := by
  cases operand with
  | value v => exact congrArg pure (b.bindValue_cast category h)
  | _ => rfl

/-- A condition casts its operand before it looks at it. -/
theorem condition_cast [Naming] (operand : Operand Builder) :
    b.condition list connector column operator operand.cast =
      b.condition list connector column operator operand := by
  unfold condition addComparison
  rw [operand.cast_cast]

/-- Bounds are bound alike in native form. -/
theorem between_cast (negated : Bool) (bounds : Value) :
    b.between list connector negated column bounds.cast =
      b.between list connector negated column bounds := by
  unfold between
  rw [bounds.cast_cast]

/-- A contained value is bound alike in native form. -/
theorem contains_cast (negated : Bool) (value : Value) :
    b.contains negated column value.cast = b.contains negated column value := by
  unfold contains
  rw [value.cast_cast]

/-- Two steps are alike if they are so on a builder without an error. -/
theorem unlessFailedM_congr {change change' : Builder → Supply Builder}
    (h : b.error = none → change b = change' b) :
    b.unlessFailedM change = b.unlessFailedM change' := by
  cases herror : b.error with
  | some e => rw [unlessFailedM_of_error herror, unlessFailedM_of_error herror]
  | none => rw [unlessFailedM_of_free herror, unlessFailedM_of_free herror, h herror]

/-- Two conditions are alike if they are so with a legal operator on a builder without an error. -/
theorem withOperator_congr {add add' : Builder → Operator → Supply Builder}
    (h : b.error = none → ∀ o, operator = .ok o → add b o = add' b o) :
    b.withOperator operator add = b.withOperator operator add' := by
  refine unlessFailedM_congr b fun herror => ?_
  cases operator with
  | error e => rfl
  | ok o => exact h herror o rfl

/-- A variable is set alike to an operand in native form, unless that makes a reference of it. -/
theorem set_cast [Naming] (name : String) (operand : Operand Builder)
    (h : b.error = none → operand.embeddedReference? = none) :
    b.set name operand.cast = b.set name operand :=
  unlessFailedM_congr b fun herror => by rw [bind_cast b (h herror)]

/-- A length is compared alike with an operand in native form, unless that makes a reference of
it. -/
theorem length_cast [Naming] (operand : Operand Builder)
    (h : b.error = none → operator.isOk = true → operand.embeddedReference? = none) :
    b.length column operator operand.cast = b.length column operator operand :=
  withOperator_congr b operator fun herror o ho => by rw [bind_cast b (h herror (ho ▸ rfl))]

/-- A part of a date is compared alike with an operand in native form, unless that makes a reference
of it. -/
theorem date_cast [Naming] (part : DatePart) (operand : Operand Builder)
    (h : b.error = none → operator.isOk = true → operand.embeddedReference? = none) :
    b.date part column operator operand.cast = b.date part column operator operand :=
  withOperator_congr b operator fun herror o ho => by rw [bind_cast b (h herror (ho ▸ rfl))]

/-- A text is searched alike in native form, unless that makes a reference of it. -/
theorem fullTextSearch_cast {text : Value} {fields : List (Selector Query)}
    (h : b.error = none → b.overView = true → fields.filterMap Selector.column? ≠ [] →
      text.embeddedReference? = none) (analyzer : Option String) :
    b.fullTextSearch fields text.cast analyzer = b.fullTextSearch fields text analyzer := by
  rw [fullTextSearch_eq, fullTextSearch_eq]
  cases herror : b.error with
  | some e => rw [unlessFailed_of_error herror, unlessFailed_of_error herror]
  | none =>
      unfold unlessFailed
      by_cases hview : b.overView = true
      · by_cases hfields : fields.filterMap Selector.column? = []
        · simp only [hfields, List.isEmpty_nil, if_true]
        · simp only [bindValue_cast b _ (h herror hview hfields)]
      · simp only [hview, if_false, Bool.false_eq_true]

/-- A value that is added is filed in native form in any case. -/
theorem addBinding_cast (value : Value) (category : String) :
    b.addBinding value.cast category = b.addBinding value category := by
  unfold addBinding
  simp only [Store.add_cast]

/-- Values that are added are filed in native form in any case. -/
theorem addBindings_cast (operands : List (Operand Builder)) (category : String) :
    b.addBindings (operands.map Operand.cast) category = b.addBindings operands category := by
  have hvalues : Operand.values (operands.map Operand.cast) =
      (Operand.values operands).map Value.cast := by
    induction operands with
    | nil => rfl
    | cons operand rest ih =>
        cases operand with
        | value v => exact congrArg (v.cast :: ·) ih
        | _ => exact ih
  unfold addBindings
  rw [hvalues]
  simp only [List.foldl_map, addBinding_cast]

/-- Values that replace others are filed in native form in any case. -/
theorem setBindings_cast (values : Bindings) (category : Category) :
    b.setBindings (Value.castMembers values) category = b.setBindings values category := by
  unfold setBindings
  rw [Store.set_cast]

end Builder

section step

variable {b : Builder} {α : Type}

/-- A computation that does not see whether its operand was cast. -/
theorem Operand.evaluate_cast (operand : Operand (Subject Action))
    {f : Operand Builder → Supply α} (h : ∀ o, f o.cast = f o) :
    (operand.cast.evaluate b >>= f) = operand.evaluate b >>= f := by
  cases operand with
  | value v => exact h (.value v)
  | _ => rfl

/-- Operands may be cast before they are evaluated or after it. -/
theorem Operand.evaluateAll_cast (operands : List (Operand (Subject Action))) :
    each (Operand.evaluate b) (operands.map Operand.cast) =
      List.map Operand.cast <$> each (Operand.evaluate b) operands := by
  induction operands with
  | nil => rfl
  | cons operand rest ih =>
      rw [List.map_cons, each, each, ih]
      cases operand <;> rfl

/-- A call to a join clause does the same with native values. -/
theorem JoinCall.apply_cast [Naming] (call : JoinCall Action) (joined : Builder) :
    call.cast.apply joined = call.apply joined := by
  cases call with
  | condition connector column operator operand =>
      exact operand.evaluate_cast fun o => joined.condition_cast .filters connector column _ o
  | member column values =>
      exact joined.condition_cast .filters .and column (.ok (Aql.membership false)) (.value values)
  | _ => rfl

/-- Calls to a join clause do the same with native values. -/
theorem JoinCall.applyAll_cast [Naming] (calls : List (JoinCall Action)) (joined : Builder) :
    JoinCall.applyAll joined (calls.map JoinCall.cast) = JoinCall.applyAll joined calls := by
  induction calls generalizing joined with
  | nil => rfl
  | cons call rest ih =>
      rw [List.map_cons, applyAll, applyAll, call.apply_cast]
      exact congrArg (call.apply joined >>= ·) (funext fun b => ih b)

/-- Evaluating the queries of selectors leaves the columns. -/
theorem Selector.column?_evaluate (selectors : List (Selector Action)) :
    (each Selector.evaluate selectors).Always fun evaluated =>
      evaluated.filterMap Selector.column? = selectors.filterMap Selector.column? := by
  have heach : (each Selector.evaluate (selectors.map id)).Always fun evaluated =>
      evaluated.map Selector.column? = selectors.map Selector.column? := by
    refine always_each fun selector _ => ?_
    cases selector with
    | sub script asName => exact always_true.bind fun _ _ => always_true.map fun _ _ => rfl
    | _ => exact always_pure rfl
  rw [List.map_id] at heach
  refine heach.mono fun evaluated h => ?_
  have hmap := congrArg (List.filterMap id) h
  rwa [List.filterMap_map, List.filterMap_map] at hmap

/-- A value that is bound by a call that is not misread is no embedded reference. -/
theorem Call.embeddedReference?_of_not_misread {call : Call Action} {v : Value}
    {category : Category} (h : ¬ call.Misread b) (hreaches : call.Reaches b)
    (huncast : call.uncast? = some (v, category)) : v.embeddedReference? = none :=
  Classical.byContradiction fun href => h ⟨hreaches, v, category, huncast, href⟩

/-- A call that misreads nothing does what it does with native values. -/
theorem Call.apply_cast [Naming] {call : Call Action} (h : ¬ call.Misread b) :
    call.cast.apply b = call.apply b := by
  cases call with
  | set name operand =>
      cases operand with
      | value v =>
          exact b.set_cast name (.value v) fun herror =>
            embeddedReference?_of_not_misread h herror rfl
      | _ => rfl
  | addBinding value category => exact congrArg pure (b.addBinding_cast value category)
  | addBindings operands category =>
      change (each (Operand.evaluate b) (operands.map Operand.cast) >>= _) = _
      rw [Operand.evaluateAll_cast]
      exact congrArg (each (Operand.evaluate b) operands >>= ·)
        (funext fun o => congrArg pure (b.addBindings_cast o category))
  | setBindings values category => exact congrArg pure (b.setBindings_cast values category)
  | condition list connector column operator operand =>
      exact operand.evaluate_cast fun o => b.condition_cast list connector column _ o
  | member connector negated column values =>
      exact b.condition_cast .filters connector column (.ok (Aql.membership negated))
        (.value values)
  | between list connector negated column bounds =>
      exact congrArg pure (b.between_cast list connector column negated bounds)
  | contains negated column value => exact congrArg pure (b.contains_cast column negated value)
  | length column operator operand =>
      cases operand with
      | value v =>
          exact b.length_cast column _ (.value v) fun herror hok =>
            embeddedReference?_of_not_misread h ⟨herror, hok⟩ rfl
      | _ => rfl
  | date part column operator operand =>
      cases operand with
      | value v =>
          exact b.date_cast column _ part (.value v) fun herror hok =>
            embeddedReference?_of_not_misread h ⟨herror, hok⟩ rfl
      | _ => rfl
  | like connector column pattern caseSensitive =>
      exact b.condition_cast .filters connector column
        (.ok (if caseSensitive then .like else .likeAnyCase)) (.value pattern)
  | notLike column pattern =>
      exact b.condition_cast .filters .and column (.ok .notLike) (.value pattern)
  | joinWith kind table calls =>
      change b.joinWith kind table (fun joined =>
        JoinCall.applyAll joined (calls.map JoinCall.cast)) = _
      simp only [JoinCall.applyAll_cast]
      rfl
  | fullTextSearch fields text analyzer =>
      funext next
      have happly : ∀ text : Value, (Call.fullTextSearch fields text analyzer).apply b next =
          (b.fullTextSearch (each Selector.evaluate fields next).1 text analyzer,
            (each Selector.evaluate fields next).2) := fun _ => rfl
      change (Call.fullTextSearch fields text.cast analyzer).apply b next = _
      rw [happly, happly, b.fullTextSearch_cast]
      intro herror hview hfields
      rw [Selector.column?_evaluate fields next] at hfields
      exact embeddedReference?_of_not_misread h ⟨herror, hview, hfields⟩ rfl
  | _ => rfl

/-- A run of calls none of which misreads a value, on the builder that it comes to, does what it
does with native values. -/
theorem Call.applyAll_cast [Naming] {calls : List (Call Action)} {next : Nat}
    (h : ∀ before call after, calls = before ++ call :: after →
      ¬ call.Misread (applyAll before b next).1) :
    Call.applyAll (calls.map Call.cast) b next = Call.applyAll calls b next := by
  induction calls generalizing b next with
  | nil => rfl
  | cons first rest ih =>
      have hfirst : first.cast.apply b = first.apply b := apply_cast (h [] first rest rfl)
      have hrun : ∀ calls, applyAll (first :: calls) b next =
          applyAll calls (first.apply b next).1 (first.apply b next).2 := fun _ => rfl
      have hrest : applyAll (rest.map Call.cast) (first.apply b next).1 (first.apply b next).2 =
          applyAll rest (first.apply b next).1 (first.apply b next).2 := by
        refine ih fun before call after hsplit => ?_
        rw [← hrun]
        exact h (first :: before) call after (congrArg (first :: ·) hsplit)
      rw [hrun, ← hrest, List.map_cons, applyAll, hfirst]
      rfl

end step

section misread

variable {b : Builder} {call : Call Action} {v : Value} {category : Category} {text : String}

/-- What the store of a builder is after a call that binds a value as it comes. -/
theorem Call.bindings_of_uncast? [Naming] (h : call.uncast? = some (v, category))
    (hreaches : call.Reaches b) (next : Nat) :
    (call.apply b next).1.bindings = (call.bindsBehind (b.bindValue v category).2).bindings := by
  cases call with
  | set name operand =>
      cases operand with
      | value w =>
          obtain ⟨rfl, rfl⟩ := Prod.mk.inj (Option.some.inj h)
          change (b.set name (.value w) next).1.bindings = _
          unfold Builder.set
          rw [unlessFailedM_of_free hreaches]
          rfl
      | _ => cases h
  | length column operator operand =>
      cases operand with
      | value w =>
          obtain ⟨rfl, rfl⟩ := Prod.mk.inj (Option.some.inj h)
          obtain ⟨o, ho⟩ := Outcome.exists_ok hreaches.2
          change (b.length column operator.operator (.value w) next).1.bindings = _
          unfold Builder.length withOperator
          rw [unlessFailedM_of_free hreaches.1, ho]
          rfl
      | _ => cases h
  | date part column operator operand =>
      cases operand with
      | value w =>
          obtain ⟨rfl, rfl⟩ := Prod.mk.inj (Option.some.inj h)
          obtain ⟨o, ho⟩ := Outcome.exists_ok hreaches.2
          change (b.date part column operator.operator (.value w) next).1.bindings = _
          unfold Builder.date withOperator
          rw [unlessFailedM_of_free hreaches.1, ho]
          rfl
      | _ => cases h
  | fullTextSearch fields text analyzer =>
      obtain ⟨rfl, rfl⟩ := Prod.mk.inj (Option.some.inj h)
      obtain ⟨hfree, hview, hfields⟩ := hreaches
      rw [← Selector.column?_evaluate fields next] at hfields
      change (b.fullTextSearch (each Selector.evaluate fields next).1 text analyzer).bindings = _
      rw [fullTextSearch_eq, unlessFailed, hfree]
      simp only [Option.isSome_none, Bool.false_eq_true, if_false, hview, if_true,
        List.isEmpty_iff, hfields]
      rfl
  | _ => cases h

/-- With native values nothing is filed for an embedded reference. -/
theorem Call.bindings_cast [Naming] (h : call.uncast? = some (v, category))
    (hreaches : call.Reaches b) (href : v.embeddedReference? = some text) (next : Nat) :
    (call.cast.apply b next).1.bindings = (call.bindsBehind b).bindings := by
  have hcast : call.cast.uncast? = some (v.cast, category) := by
    rw [uncast?_cast, h]
    rfl
  rw [bindings_of_uncast? hcast ((call.reaches_cast b).mpr hreaches), bindsBehind_cast,
    (bindValue_embedded b category href).2]

/-- As it comes, an embedded reference is filed like any string. -/
theorem Call.bindings_uncast [Naming] (h : call.uncast? = some (v, category))
    (hreaches : call.Reaches b) (href : v.embeddedReference? = some text) (next : Nat) :
    (call.apply b next).1.bindings = (call.bindsBehind (b.file v category)).bindings := by
  rw [bindings_of_uncast? h hreaches, (bindValue_embedded b category href).1]

/-- Filing a value counts one more name of its category. -/
theorem Call.given_file (b : Builder) (v : Value) (category c : Category) :
    (b.file v category).bindings.given c =
      b.bindings.given c + if c = category then 1 else 0 := by
  change (b.bindings.add v category).2.given c = _
  rw [Store.given_add]
  split <;> rfl

/-- Filing the value first makes a difference of one name. -/
theorem Call.given_bindsBehind (call : Call Action) (b : Builder) (v : Value)
    (category c : Category) :
    (call.bindsBehind (b.file v category)).bindings.given c =
      (call.bindsBehind b).bindings.given c + if c = category then 1 else 0 := by
  cases call with
  | fullTextSearch fields text analyzer =>
      change ((b.file v category).bindValue _ _).2.bindings.given c =
        (b.bindValue _ _).2.bindings.given c + _
      rw [bindValue_eq, bindValue_eq]
      cases (Value.string (analyzer.getD defaultAnalyzer)).reference? with
      | some text => exact given_file b v category c
      | none =>
          change ((b.file v category).file _ .search).bindings.given c =
            (b.file _ .search).bindings.given c + _
          rw [given_file, given_file, given_file]
          omega
  | _ => exact given_file b v category c

/-- The value that is filed first stays under its name. -/
theorem Call.get?_bindsBehind (call : Call Action) (b : Builder) (v : Value) (category : Category) :
    ((call.bindsBehind (b.file v category)).bindings.bound category).get?
      (b.bindings.nextName category) = some v.cast := by
  have hfile : ((b.file v category).bindings.bound category).get? (b.bindings.nextName category) =
      some v.cast := by
    change ((b.bindings.add v category).2.bound category).get? _ = _
    rw [Store.bound_add, if_pos rfl, Entries.get?_put, if_pos rfl]
  cases call with
  | fullTextSearch fields text analyzer =>
      change (((b.file v category).bindValue _ _).2.bindings.bound category).get? _ = _
      rw [bindValue_eq]
      cases (Value.string (analyzer.getD defaultAnalyzer)).reference? with
      | some text => exact hfile
      | none =>
          change (((b.file v category).bindings.add _ .search).2.bound category).get? _ = _
          rw [Store.bound_add]
          split_ifs with hsearch
          · -- the analyzer gets the name behind the one of the text
            subst hsearch
            have hname : (b.file v .search).bindings.nextName .search ≠
                b.bindings.nextName .search := by
              intro hname
              obtain ⟨-, -, hgiven⟩ := placeholderName_inj hname
              rw [given_file, if_pos rfl] at hgiven
              omega
            rw [Entries.get?_put, if_neg hname]
            exact hfile
          · exact hfile
  | _ => exact hfile

/-- A call that misreads a value files it under the next name; the native call files nothing for it,
and takes its text for a reference. -/
theorem Call.Misread.filed [Naming] (h : call.Misread b) :
    ∃ category text, isPlaceholder text = true ∧
    ∀ next, ((call.apply b next).1.bindings.bound category).get? (b.bindings.nextName category) =
        some (.string text) ∧
      ∀ c, (call.apply b next).1.bindings.given c =
        (call.cast.apply b next).1.bindings.given c + if c = category then 1 else 0 := by
  obtain ⟨hreaches, v, category, huncast, href⟩ := h
  obtain ⟨text, htext⟩ := Option.ne_none_iff_exists'.mp href
  obtain ⟨rfl, hplaceholder⟩ := Value.eq_json_of_embeddedReference? htext
  refine ⟨category, text, hplaceholder, fun next => ?_⟩
  rw [Call.bindings_uncast huncast hreaches htext, Call.bindings_cast huncast hreaches htext]
  exact ⟨call.get?_bindsBehind b _ category, call.given_bindsBehind b _ category⟩

/-- A call does the same with native values just if it misreads none. -/
theorem Call.apply_cast_iff [Naming] (call : Call Action) (b : Builder) :
    call.cast.apply b = call.apply b ↔ ¬ call.Misread b := by
  refine ⟨fun heq hmisread => ?_, Call.apply_cast⟩
  obtain ⟨category, text, -, hfiled⟩ := hmisread.filed
  have hgiven := (hfiled 0).2 category
  rw [heq, if_pos rfl] at hgiven
  omega

end misread

end AqlBuilder
