import AqlBuilder.Alias.Rules
import AqlBuilder.Proofs.Aql.Alike
import AqlBuilder.Proofs.Builder.Shaping
import AqlBuilder.Statement.Compiled

/-!
# Conditions in a group and outside of one

A group of conditions is a query over the same source, with a copy of the names that its builder
knows when the group is written. Conditions added to it become the same tests as conditions added to
the builder, except for the names of the bound values, and no later call changes either. But the
tests in the group are read with the names of the copy, the others with those that the builder knows
in the end. So what is said in both places is written alike as long as the names in it do not change
their meaning, and only so long.

- `Test.anonymous` is a test without the names of bound values, and `Condition.SameTest` compares
  conditions up to these.
- `Comparison` are the conditions, and `Builder.compareAll` adds several of them.
- `Builder.GrownAlike` says that two builders have got the same conditions, and by
  `Builder.grownAlike_compareAll` it is so if they know the same names.
- `Builder.group_reads_as_written`: the conditions of a group and the same conditions without it.
-/

namespace AqlBuilder

open Supply

/-- An operand without the name of a bound value. -/
def Bound.anonymous : Bound → Bound
  | .placeholder _ => .placeholder ""
  | other => other

section names

variable {P Q : Type}

/-- A test without the names of bound values. -/
def Test.anonymous : Test Q → Test Q
  | .compare c o v => .compare c o v.anonymous
  | .between c low high n => .between c low.anonymous high.anonymous n
  | .member c v n => .member c v.anonymous n
  | .contains c v all n => .contains c v.anonymous all n
  | .length c o v => .length c o v.anonymous
  | .date part c o v => .date part c o v.anonymous
  | .bits c o v => .bits c o v.anonymous
  | other => other

/-- The same condition up to the names of bound values. -/
structure Condition.SameTest (x y : Condition Q) : Prop where
  connector : x.connector = y.connector
  test : x.test.anonymous = y.test.anonymous

theorem Bound.columns_anonymous (v : Bound) : v.anonymous.columns = v.columns := by
  cases v <;> rfl

theorem Test.columns_anonymous (t : Test Q) : t.anonymous.columns = t.columns := by
  cases t <;> simp only [anonymous, columns, Bound.columns_anonymous]

theorem Test.anonymous_map (f : P → Q) (t : Test P) :
    (t.map f).anonymous = t.anonymous.map f := by
  cases t <;> rfl

end names

section texts

variable {sc sc' : Scope}

/-- Up to the names of bound values, the same test is written alike in scopes that write its columns
alike. -/
theorem Test.text_anonymous {t t' : Test Query} (htest : t.anonymous = t'.anonymous)
    (h : ∀ c ∈ t.columns, sc'.resolve c = sc.resolve c) :
    (t.map Query.fragment).anonymous.text sc' = (t'.map Query.fragment).anonymous.text sc := by
  rw [anonymous_map, anonymous_map, ← htest]
  refine text_congr fun c hc => h c ?_
  rwa [columns_map, columns_anonymous] at hc

/-- A comparison with anything but a column is written alike only in such scopes. -/
theorem Test.resolve_eq_of_text {column : String} {operator : Operator} {v : Bound}
    (hv : v.columns = [])
    (h : (Test.compare column operator v).text sc' = (Test.compare column operator v).text sc) :
    sc'.resolve column = sc.resolve column := by
  have hvalue : v.text sc' = v.text sc := Bound.text_congr fun c hc => by
    rw [hv] at hc
    exact absurd hc List.not_mem_nil
  have hwritten : ∀ s : Scope, ((Test.compare column operator v).text s 0).1 = .ok
      (if operator = .likeAnyCase then
        "LIKE(" ++ s.resolve column ++ ", " ++ v.text s ++ ", true)"
      else Aql.comparison (s.resolve column) operator (v.text s)) := fun _ => rfl
  have htext := (hwritten sc').symm.trans ((congrArg Prod.fst (congrFun h 0)).trans (hwritten sc))
  replace htext := Except.ok.inj htext
  rw [hvalue] at htext
  by_cases hlike : operator = .likeAnyCase
  · rw [if_pos hlike, if_pos hlike, String.append_left_inj, String.append_left_inj,
      String.append_left_inj, String.append_right_inj] at htext
    exact htext
  · rw [if_neg hlike, if_neg hlike, Aql.comparison, Aql.comparison, String.append_left_inj,
      String.append_left_inj, String.append_left_inj, String.append_left_inj] at htext
    exact htext

end texts

/-- The text of a group with some conditions. -/
def Aql.parenthesized : Option String → String
  | some conditions => "(" ++ conditions ++ ")"
  | none => "true"

/-- A group is written with its own names, whatever the scope. -/
theorem Test.text_nested (group : Builder) (sc : Scope) :
    Test.text sc (.nested (Query.of group).fragment) = (do
      let conditions ← Aql.conditions group.compiled.scope
        (group.filters.map (Condition.map Query.fragment))
      pure (Aql.parenthesized conditions)) := by
  rw [text, Query.conditions_fragment]
  congr 1
  funext conditions
  cases conditions <;> rfl

/-- A condition as it is added to a builder. -/
structure Comparison where
  connector : Connector
  column : String
  operator : Except Error Operator
  operand : Operand Builder

namespace Builder

/-- Add conditions one after another. -/
def compareAll [Naming] (b : Builder) : List Comparison → Supply Builder
  | [] => pure b
  | c :: rest => do
    let b ← b.condition .filters c.connector c.column c.operator c.operand
    b.compareAll rest

/-- Two builders that have got the same conditions. -/
structure GrownAlike (b b' w w' : Builder) : Prop where
  filters : ∃ added added', w.filters = b.filters ++ added ∧ w'.filters = b'.filters ++ added' ∧
    List.Forall₂ Condition.SameTest added added'
  aliases : w.aliases = w'.aliases
  error : w.error = w'.error

variable {b b' w w' v v' : Builder}

namespace GrownAlike

theorem refl (haliases : b.aliases = b'.aliases) (herror : b.error = b'.error) :
    b.GrownAlike b' b b' :=
  ⟨⟨[], [], (List.append_nil _).symm, (List.append_nil _).symm, .nil⟩, haliases, herror⟩

theorem trans (h : b.GrownAlike b' w w') (h' : w.GrownAlike w' v v') : b.GrownAlike b' v v' := by
  obtain ⟨first, first', hw, hw', hfirst⟩ := h.filters
  obtain ⟨second, second', hv, hv', hsecond⟩ := h'.filters
  refine ⟨⟨first ++ second, first' ++ second', ?_, ?_, List.rel_append hfirst hsecond⟩,
    h'.aliases, h'.error⟩
  · rw [hv, hw, List.append_assoc]
  · rw [hv', hw', List.append_assoc]

end GrownAlike

section comparing

variable (haliases : b.aliases = b'.aliases) (herror : b.error = b'.error)

include haliases

/-- The same test, behind conditions that have only got other values. -/
theorem grownAlike_push (hw : b.SameClauses w) (hw' : b'.SameClauses w')
    (hfailed : w.error = w'.error) (connector : Connector) {t t' : Test Query}
    (ht : t.anonymous = t'.anonymous) :
    b.GrownAlike b' (w.push .filters connector t) (w'.push .filters connector t') := by
  obtain ⟨bindings, error, rfl⟩ := hw
  obtain ⟨bindings', error', rfl⟩ := hw'
  exact ⟨⟨_, _, rfl, rfl, .cons ⟨rfl, ht⟩ .nil⟩, haliases, hfailed⟩

include herror

/-- Builders that fail with the same error have grown alike. -/
theorem grownAlike_fail (e : Error) : b.GrownAlike b' (b.fail e) (b'.fail e) :=
  ⟨⟨[], [], (List.append_nil _).symm, (List.append_nil _).symm, .nil⟩, haliases,
    congrArg (·.or (some e)) herror⟩

/-- A value is bound alike, whatever names it gets. -/
theorem grownAlike_value (connector : Connector) (column : String) (operator : Operator)
    (value : Value) :
    b.GrownAlike b' ((b.bindValue value .filter).2.push .filters connector
        (valueTest column operator (b.bindValue value .filter).1))
      ((b'.bindValue value .filter).2.push .filters connector
        (valueTest column operator (b'.bindValue value .filter).1)) := by
  have hfailed : ∀ c : Builder, (c.bindValue value .filter).2.error = c.error := by
    intro c
    rw [bindValue_eq]
    cases value.reference? <;> rfl
  have hbound : (b.bindValue value .filter).1.anonymous =
      (b'.bindValue value .filter).1.anonymous := by
    rw [bindValue_eq, bindValue_eq]
    cases value.reference? <;> rfl
  have htest : ∀ {v v' : Bound}, v.anonymous = v'.anonymous →
      (valueTest column operator v).anonymous = (valueTest column operator v').anonymous := by
    intro v v' hv
    unfold valueTest
    split
    · exact congrArg (Test.member column · _) hv
    split
    · exact congrArg (Test.bits column operator) hv
    · exact congrArg (Test.compare column operator) hv
  exact grownAlike_push haliases (.bindValue b value .filter) (.bindValue b' value .filter)
    ((hfailed b).trans (herror.trans (hfailed b').symm)) connector (htest hbound)

/-- A sub-query is taken over alike: what becomes of it depends on the names of the builder only. -/
theorem grownAlike_query [Naming] (connector : Connector) (column : String) (operator : Operator)
    (sub : Builder) (n n' : Nat) :
    b.GrownAlike b' (b.addComparison .filters connector column operator (.query sub) n).1
      (b'.addComparison .filters connector column operator (.query sub) n').1 := by
  have hadd : ∀ c : Builder, c.addComparison .filters connector column operator (.query sub) =
      pure ((c.absorb
        (c.scopedFor { sub with aliases := sub.aliases.importTables c.aliases } .filter)
        .filter).push .filters connector (queryTest column operator
          (c.scopedFor { sub with aliases := sub.aliases.importTables c.aliases } .filter))) :=
    fun _ => rfl
  have hscoped : ∀ q : Builder, b.scopedFor q .filter = b'.scopedFor q .filter := by
    intro q
    unfold scopedFor rescoped scopedVariable?
    rw [haliases]
  rw [hadd, hadd, ← haliases, ← hscoped]
  generalize b.scopedFor _ .filter = q
  have hfailed : (b.absorb q .filter).error = (b'.absorb q .filter).error :=
    congrArg (·.or q.error) herror
  exact grownAlike_push haliases (.absorb b q .filter) (.absorb b' q .filter) hfailed connector rfl

/-- Builders that get the same comparison have grown alike. -/
theorem grownAlike_addComparison [Naming] (connector : Connector) (column : String)
    (operator : Operator) (operand : Operand Builder) (n n' : Nat) :
    b.GrownAlike b' (b.addComparison .filters connector column operator operand n).1
      (b'.addComparison .filters connector column operator operand n').1 := by
  have hsame : ∀ t : Test Query,
      b.GrownAlike b' (b.push .filters connector t) (b'.push .filters connector t) :=
    fun t => grownAlike_push haliases (.refl b) (.refl b') herror connector rfl
  cases operand with
  | value v =>
      by_cases hnull : v.cast = .null
      · rw [addComparison_null b _ _ _ _ hnull, addComparison_null b' _ _ _ _ hnull]
        by_cases haccepts : operator.acceptsNull
        · rw [if_pos haccepts, if_pos haccepts]
          exact hsame _
        · rw [if_neg haccepts, if_neg haccepts]
          exact grownAlike_fail haliases herror _
      · rw [addComparison_value b _ _ _ _ hnull, addComparison_value b' _ _ _ _ hnull]
        by_cases hlist : operator.isMembership && v.cast.kind != .array
        · rw [if_pos hlist, if_pos hlist]
          exact grownAlike_fail haliases herror _
        · rw [if_neg hlist, if_neg hlist]
          exact grownAlike_value haliases herror connector column operator v.cast
  | expression aql =>
      rw [addComparison_expression, addComparison_expression]
      exact hsame _
  | column name =>
      rw [addComparison_column, addComparison_column]
      exact hsame _
  | query sub => exact grownAlike_query haliases herror connector column operator sub n n'

/-- Builders that know the same names get the same condition. -/
theorem grownAlike_condition [Naming] (c : Comparison) (n n' : Nat) :
    b.GrownAlike b' (b.condition .filters c.connector c.column c.operator c.operand n).1
      (b'.condition .filters c.connector c.column c.operator c.operand n').1 := by
  unfold condition
  cases hfailed : b.error with
  | some e =>
      rw [unlessFailedM_of_error hfailed, unlessFailedM_of_error (herror.symm.trans hfailed)]
      exact .refl haliases herror
  | none =>
      rw [unlessFailedM_of_free hfailed, unlessFailedM_of_free (herror.symm.trans hfailed)]
      cases c.operator with
      | ok operator => exact grownAlike_addComparison haliases herror _ _ operator _ n n'
      | error e => exact grownAlike_fail haliases herror e

end comparing

/-- So they do with any number of conditions, one after the other. -/
theorem grownAlike_compareAll [Naming] (haliases : b.aliases = b'.aliases)
    (herror : b.error = b'.error) (conditions : List Comparison) (n n' : Nat) :
    b.GrownAlike b' (b.compareAll conditions n).1 (b'.compareAll conditions n').1 := by
  induction conditions generalizing b b' n n' with
  | nil => exact .refl haliases herror
  | cons c rest ih =>
      have hfirst := grownAlike_condition haliases herror c n n'
      exact hfirst.trans (ih hfirst.aliases hfirst.error _ _)

/-- Conditions that are added one after another narrow a builder. -/
theorem narrows_compareAll [Naming] (b : Builder) (conditions : List Comparison) :
    (b.compareAll conditions).Always b.Narrows := by
  induction conditions generalizing b with
  | nil => exact always_pure (.refl b)
  | cons c rest ih =>
      exact (b.narrows_condition _ _ _ _ _).bind fun w hw =>
        (ih w).mono fun _ hrest => hw.trans hrest

/-- A group begins without conditions and with the names of its builder. -/
theorem always_forNested (b : Builder) : b.forNested.Always fun q =>
    q.scope = b.scope ∧ q.filters = [] ∧ q.havings = [] ∧ q.error = none := by
  have hfresh : Builder.fresh.Always fun q => q.filters = [] ∧ q.havings = [] ∧ q.error = none :=
    fun _ => ⟨rfl, rfl, rfl⟩
  have hsource : (runSource (b.source.map (Source.map Query.copyOf))).Always fun source =>
      source.map Source.docVar = b.docVar := by
    have hdocVar : ∀ s : Option (Source Query),
        (s.map (Source.map fun _ => ())).map Source.docVar = s.map Source.docVar := by
      rintro (_ | _ | _ | _) <;> rfl
    have hcopied : (runSource (b.source.map (Source.map Query.copyOf))).Always fun source =>
        source.map (Source.map fun _ => ()) = b.source.map (Source.map fun _ => ()) :=
      always_runSource b.source fun _ _ _ => rfl
    refine hcopied.mono fun source heq => ?_
    rw [← hdocVar, heq, hdocVar]
    rfl
  refine hfresh.bind fun q hq => hsource.map fun source hdocVar => ?_
  exact ⟨congrArg (Scope.mk b.aliases) hdocVar, hq⟩

/-- A group adds its conditions in one, if there are any, and its error. -/
theorem nested_of_free (herror : b.error = none) (connector : Connector)
    {make : Builder → Supply Builder} {group : Builder} {next : Nat}
    (hgroup : (make (b.forNested next).1 (b.forNested next).2).1 = group) :
    (b.nested connector make next).1.error = group.error ∧
      (b.nested connector make next).1.filters = b.filters ++
        (if group.filters.isEmpty then [] else [⟨.nested (.of group), connector⟩]) := by
  have hnested : (b.nested connector make next).1 =
      if group.filters.isEmpty then b.absorb group .filter
      else (b.absorb group .filter).push .filters connector (.nested (.of group)) := by
    unfold nested
    rw [unlessFailedM_of_free herror, ← hgroup]
    rfl
  have hfailed : (b.absorb group .filter).error = group.error := by
    change b.error.or group.error = group.error
    rw [herror, Option.none_or]
  have hsame : (b.absorb group .filter).filters = b.filters := by simp only [absorb]
  rw [hnested]
  generalize b.absorb group .filter = w at hfailed hsame ⊢
  split
  · exact ⟨hfailed, hsame.trans (List.append_nil _).symm⟩
  · have hpushed : (w.push .filters connector (.nested (.of group))).filters =
        w.filters ++ [⟨.nested (.of group), connector⟩] := rfl
    exact ⟨hfailed, hpushed.trans (by rw [hsame])⟩

/-- **Conditions in a group are read as they were written.**  Add conditions to a builder without an
error, directly or as a group. Both go wrong together, and either way the same conditions come
behind those of the builder, up to the names of bound values, and no later call takes them back. The
group is written in parentheses, with the names that the builder had before it, whatever the scope.
So the conditions are written alike where the columns in them are written as the builder wrote them,
and a comparison with anything but a column only there. -/
theorem group_reads_as_written [Naming] {b : Builder} (herror : b.error = none)
    (connector : Connector) (conditions : List Comparison) (next : Nat) :
    let direct := (b.compareAll conditions next).1
    let grouped := (b.nested connector (·.compareAll conditions) next).1
    direct.error = grouped.error ∧
    ∃ added group,
      direct.filters = b.filters ++ added ∧
      grouped.filters = b.filters ++
        (if added.isEmpty then [] else [⟨.nested (.of group), connector⟩]) ∧
      (∀ sc : Scope, Test.text sc (.nested (Query.of group).fragment) = do
        let conditions ← Aql.conditions b.scope
          (group.filters.map (Condition.map Query.fragment))
        pure (Aql.parenthesized conditions)) ∧
      List.Forall₂ (fun x y => Condition.SameTest x y ∧ ∀ sc : Scope,
        let outside := (x.test.map Query.fragment).anonymous.text sc
        let inside := (y.test.map Query.fragment).anonymous.text b.scope
        ((∀ c ∈ x.test.columns, sc.resolve c = b.scope.resolve c) → outside = inside) ∧
        ∀ column operator v, x.test = .compare column operator v → v.columns = [] →
          (outside = inside ↔ sc.resolve column = b.scope.resolve column)) added group.filters ∧
      ∀ calls : List (Call Action), (∀ call ∈ calls, call.Mutates) →
        (Call.applyAll calls direct).Always direct.Restricts ∧
        (Call.applyAll calls grouped).Always grouped.Restricts := by
  intro direct grouped
  obtain ⟨hscope, hnone, -, hfree⟩ := b.always_forNested next
  have haliases : b.aliases = (b.forNested next).1.aliases := (congrArg Scope.aliases hscope).symm
  have halike := grownAlike_compareAll haliases (herror.trans hfree.symm) conditions next
    (b.forNested next).2
  have hinside := (b.forNested next).1.narrows_compareAll conditions (b.forNested next).2
  generalize hgroup : ((b.forNested next).1.compareAll conditions (b.forNested next).2).1 = group
    at halike hinside
  obtain ⟨⟨added, inner, hadded, hinner, hsame⟩, -, hfailed⟩ := halike
  obtain ⟨herrors, hfilters⟩ :=
    @nested_of_free b herror connector (·.compareAll conditions) group next hgroup
  have hfilled : group.filters = inner := by rw [hinner, hnone, List.nil_append]
  have hcompiled : (Builder.compiled group).scope = b.scope :=
    (Clauses.scope_map Query.fragment group).trans (hinside.scope.trans hscope)
  have hempty : added.isEmpty = group.filters.isEmpty := by
    rw [hfilled]
    cases hsame <;> rfl
  refine ⟨hfailed.trans herrors.symm, added, group, hadded, ?_, fun sc => ?_, ?_,
    fun calls hcalls =>
    ⟨Call.restricts_applyAll direct hcalls, Call.restricts_applyAll grouped hcalls⟩⟩
  · rw [hempty]
    exact hfilters
  · rw [Test.text_nested, hcompiled]
  · rw [hfilled]
    refine hsame.imp fun x y hxy => ⟨hxy, fun sc => ?_⟩
    have halike : (∀ c ∈ x.test.columns, sc.resolve c = b.scope.resolve c) →
        (x.test.map Query.fragment).anonymous.text sc =
          (y.test.map Query.fragment).anonymous.text b.scope := Test.text_anonymous hxy.test
    refine ⟨halike, fun column operator v hx hv => ⟨fun htext => ?_, fun hcolumn => ?_⟩⟩
    · have hanonymous : y.test.anonymous = .compare column operator v.anonymous := by
        rw [← hxy.test, hx]
        rfl
      rw [Test.anonymous_map, Test.anonymous_map, hanonymous, hx] at htext
      exact Test.resolve_eq_of_text (v.columns_anonymous.trans hv) htext
    · refine halike fun c hc => ?_
      rw [hx, Test.columns, hv] at hc
      rw [List.mem_singleton.mp hc, hcolumn]

/-- A condition on locations that are joined later. -/
def northern : Comparison := ⟨.and, "l.northern", .ok .equal, .value (.bool true)⟩

/-- The builder after the join of the locations. -/
def withLocations [Naming] (b : Builder) : Builder :=
  (b.join .inner "locations as l" "characters.residence_id" (.ok .equal) "l.id" 3).1

/-- In a group the condition is one on the main document. -/
theorem group_misses_join :
    let b := fromCollection (Clauses.empty 1) "characters"
    let direct := (b.compareAll [northern] 2).1
    let grouped := (b.nested .and (·.compareAll [northern]) 2).1
    (direct.withLocations.toAql 4).1.toOption = some
        ("FOR characterDoc IN characters " ++
          "FOR l IN locations FILTER characterDoc.\x60residence_id\x60 == l.\x60_key\x60 " ++
          "FILTER l.\x60northern\x60 == @1_where_1 RETURN MERGE(characterDoc, l)") ∧
      (grouped.withLocations.toAql 4).1.toOption = some
        ("FOR characterDoc IN characters " ++
          "FOR l IN locations FILTER characterDoc.\x60residence_id\x60 == l.\x60_key\x60 " ++
          "FILTER (characterDoc.\x60l\x60.\x60northern\x60 == @2_where_1) " ++
          "RETURN MERGE(characterDoc, l)") := by
  rw [fromCollection_unnamed (by decide) Alias.documentVariable_characters]
  exact ⟨by decide +kernel, by decide +kernel⟩

/-- The same condition in both places, before the join and after it. -/
theorem northern_written_apart :
    let b := fromCollection (Clauses.empty 1) "characters"
    let direct := (b.compareAll [northern] 2).1
    let grouped := (b.nested .and (·.compareAll [northern]) 2).1
    let written (sc : Scope) (x : Condition Query) := (x.test.map Query.fragment).anonymous.text sc
    ∃ x y group, direct.filters = [x] ∧ grouped.filters = [⟨.nested (.of group), .and⟩] ∧
      group.filters = [y] ∧ written direct.scope x = written b.scope y ∧
      written direct.withLocations.scope x ≠ written b.scope y := by
  rw [fromCollection_unnamed (by decide) Alias.documentVariable_characters]
  intro b direct grouped written
  obtain ⟨-, added, group, hadded, hgrouped, -, hsame, -⟩ :=
    group_reads_as_written (b := b) rfl .and [northern] 2
  have hdirect : direct.filters = [⟨.compare "l.northern" .equal
      (.placeholder (b.bindings.nextName .filter)), .and⟩] := rfl
  obtain rfl := List.append_cancel_left (hadded.symm.trans hdirect : [] ++ added = [] ++ _)
  obtain ⟨y, rest, ⟨-, hwritten⟩, hnil, hgroup⟩ := List.forall₂_cons_left_iff.mp hsame
  rw [List.forall₂_nil_left_iff.mp hnil] at hgroup
  have hnested : grouped.filters = [⟨.nested (.of group), .and⟩] := by
    rw [hgrouped]
    rfl
  refine ⟨_, y, group, hdirect, hnested, hgroup, ?_, ?_⟩
  · exact ((hwritten direct.scope).2 _ _ _ rfl rfl).mpr rfl
  · exact fun heq => absurd (((hwritten direct.withLocations.scope).2 _ _ _ rfl rfl).mp heq)
      (by decide +kernel)

end Builder

end AqlBuilder
