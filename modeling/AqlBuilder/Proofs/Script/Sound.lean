import AqlBuilder.Proofs.Script.Parts
import AqlBuilder.Proofs.Script.Safety
import AqlBuilder.Proofs.Statement.Faults

/-!
# Scripts build sound queries

A script is prefixed if each new builder in it begins by setting one of certain prefixes, and if no
other prefix is set anywhere. Expressions for operands have to be in the vocabulary, too. Such a
script builds sound queries. If anything will do, every script is prefixed.

- `Call.Prefixed` is the condition on one call, and `Script.Prefixed` closes the recursion.
- `Call.sound_run` is the step of one call, and `Script.Prefixed.action` the run of a script.
- `Script.prefixed_all`: with everything in the vocabulary there is no condition.
- `Entry.Prefixed.run`: the sub-queries of an update are sound, too.
- `Builder.Sound.exists_faulty_iff`: the faults of a sound query in plain terms.
- `Script.fails_iff`: when a built query does not compile, and which errors are never made.
-/

namespace AqlBuilder

open Supply Builder

variable {words : Vocabulary} {joined : Bool} {b : Builder}

/-- The prefix that a call sets. -/
def Call.prefixes {S : Type} : Call S → List String
  | .withPrefix tablePrefix => [tablePrefix]
  | .restart _ => [""]
  | _ => []

/-- A call that sets no prefix but those of the vocabulary, and uses only its expressions. -/
structure Call.Prefixed {S : Type} (words : Vocabulary) (x : Call S) : Prop where
  prefixes : ∀ tablePrefix ∈ x.prefixes, tablePrefix ∈ words.prefixes
  texts : ∀ aql ∈ x.texts, aql ∈ words.texts

/-- A script whose builders have one of the prefixes, those in the scripts inside as well. It is run
on a new builder, or on one that has such a prefix already. What is known of the scripts inside is
the relation `inner`. -/
inductive Script.Prefixed (words : Vocabulary) : Bool → Script → Prop
  | further {inner : Bool → Script → Prop}
      (hinner : ∀ opens s, inner opens s → Script.Prefixed words opens s)
      {calls : List (Call Script)}
      (h : ∀ call ∈ calls, call.Prefixed words ∧ ∀ part ∈ call.parts, inner part.1 part.2) :
      Script.Prefixed words false (.of calls)
  /-- A new builder gets its prefix first. -/
  | opening {tablePrefix : String} (hpre : tablePrefix ∈ words.prefixes)
      {calls : List (Call Script)} (h : Script.Prefixed words false (.of calls)) :
      Script.Prefixed words true (.of (.withPrefix tablePrefix :: calls))
  /-- The empty prefix need not be set. -/
  | unset (hpre : "" ∈ words.prefixes) {s : Script} (h : Script.Prefixed words false s) :
      Script.Prefixed words true s

/-- A way to compile whose scripts are prefixed. -/
def Entry.Prefixed (words : Vocabulary) : Entry (Subject Script) → Prop
  | .update changes => ∀ assignments, changes.assignments = .ok assignments → ∀ a ∈ assignments,
      (∀ aql ∈ a.2.texts, aql ∈ words.texts) ∧ ∀ part ∈ a.2.parts, part.2.Prefixed words part.1
  | _ => True

/-- An action that leaves sound builders, on new builders or on sound ones. -/
def Builder.MakesSound (words : Vocabulary) : Bool → (Builder → Supply Builder) → Prop
  | true, make => ∀ id, (make (.empty id)).Always (Builder.Sound words false)
  | false, make => KeepsSound words false make

section evaluation

/-- A query argument is built as a sound builder. -/
theorem Subject.sound_build [Naming] {x : Subject Script}
    (h : MakesSound words x.part.1 x.part.2.action) (hb : b.Sound words joined) :
    ((Script.actionSubject x).build b).Always (Builder.Sound words false) := by
  cases x with
  | new script => exact fun next => h next (next + 1)
  | copy script => exact hb.copyOf.bind fun c hc => h c { hc with joinedSource := nofun }

/-- A sub-query argument comes to a sound sub-query. -/
theorem SubArgument.sound_evaluate [Naming] {x : SubArgument Script}
    (h : MakesSound words x.part.1 x.part.2.action) (hb : b.Sound words joined) :
    ((Script.actionSub x).evaluate b).Always (SubQuery.Sound words) := by
  cases x with
  | finished subject => exact (subject.sound_build h hb).map fun _ hq => .finished hq
  | closure script => exact always_pure (.closure h)

/-- An operand comes to a sound one. -/
theorem Operand.sound_evaluate [Naming] {x : Operand (Subject Script)}
    (htexts : ∀ aql ∈ x.texts, aql ∈ words.texts)
    (h : ∀ part ∈ x.parts, MakesSound words part.1 part.2.action) (hb : b.Sound words joined) :
    ((Script.actionOperand x).evaluate b).Always (Operand.Sound words) := by
  cases x with
  | query subject =>
      refine (subject.sound_build (h _ List.mem_cons_self) hb).map fun q hq =>
        ⟨fun _ ho => (nomatch ho), fun query hquery => ?_⟩
      cases hquery
      exact hq
  | expression aql =>
      refine always_pure ⟨fun text htext => ?_, fun _ hq => nomatch hq⟩
      cases htext
      exact htexts aql List.mem_cons_self
  | _ => exact always_pure ⟨fun _ ho => (nomatch ho), fun _ hq => nomatch hq⟩

/-- A selector comes to one with a sound query. -/
theorem Selector.sound_evaluate {x : Selector Action}
    (h : ∀ part ∈ x.parts, MakesSound words part.1 part.2) :
    x.evaluate.Always fun s => ∀ q ∈ s.queries, q.Sound words false := by
  cases x with
  | sub script asName =>
      have hnew : (Builder.fresh >>= script).Always (Builder.Sound words false) :=
        fun next => h _ List.mem_cons_self next (next + 1)
      intro next q hq
      rw [List.mem_singleton.mp hq]
      exact Query.sound_of.mpr (hnew next)
  | _ => exact always_pure fun _ hq => nomatch hq

/-- Selectors come to some with sound queries. -/
theorem Selector.sound_evaluateAll [Naming] {xs : List (Selector Script)}
    (h : ∀ part ∈ xs.flatMap Selector.parts, MakesSound words part.1 part.2.action) :
    (each Selector.evaluate (Script.actionSelectors xs)).Always fun ss =>
      ∀ s ∈ ss, ∀ q ∈ s.queries, q.Sound words false := by
  have hparts : ∀ part ∈ (Script.actionSelectors xs).flatMap Selector.parts,
      MakesSound words part.1 part.2 := by
    rwa [Selector.parts_actionAll, List.forall_mem_map]
  exact always_each_mem fun x hx => x.sound_evaluate fun part hpart =>
    hparts part (List.mem_flatMap.mpr ⟨x, hx, hpart⟩)

/-- An operator is legal, or an error that can be made. -/
theorem OperatorArgument.allowed_operator (x : OperatorArgument) : Error.Allowed x.operator := by
  cases x with
  | spelling text =>
      intro e he
      change Operator.ofSpelling text = .error e at he
      unfold Operator.ofSpelling at he
      cases hlookup : Operator.spellings.lookup (Operator.normalized text) <;>
        rw [hlookup] at he <;> cases he
      trivial
  | custom text => exact Error.allowed_ok _

/-- An operator with a default is legal, or an error that can be made. -/
theorem OperatorArgument.allowed_orEqual (x : Option OperatorArgument) :
    Error.Allowed (OperatorArgument.orEqual x) := by
  cases x with
  | none => exact Error.allowed_ok _
  | some x => exact x.allowed_operator

/-- A direction is one, or an error that can be made. -/
theorem Direction.allowed_ofText (text : String) : Error.Allowed (Direction.ofText text) := by
  intro e he
  unfold Direction.ofText at he
  dsimp only at he
  split_ifs at he
  cases he
  trivial

/-- Calls to a join clause keep builders sound if their scripts do. -/
theorem JoinCall.sound_runAll [Naming] (hwords : words.Closed) {xs : List (JoinCall Script)}
    (htexts : ∀ aql ∈ xs.flatMap JoinCall.texts, aql ∈ words.texts)
    (h : ∀ part ∈ xs.flatMap JoinCall.parts, MakesSound words part.1 part.2.action) :
    KeepsSound words joined fun b => JoinCall.applyAll b (Script.actionJoinCalls xs) := by
  induction xs with
  | nil => exact fun _ hb => always_pure hb
  | cons first rest ih =>
      rw [List.flatMap_cons, List.forall_mem_append] at h htexts
      intro b hb
      have hnext := ih htexts.2 h.2
      cases first with
      | columns c column o second =>
          exact (always_pure (hb.compareColumns o.allowed_operator c column second)).bind hnext
      | condition c column o operand =>
          exact ((operand.sound_evaluate htexts.1 h.1 hb).bind fun _ ho =>
            hb.condition hwords (OperatorArgument.allowed_orEqual o) .filters c ho).bind hnext
      | member column values =>
          have hmember : (b.member .and false column values).Always (Builder.Sound words joined) :=
            hb.conditionValue hwords .filters .and _ values
          exact hmember.bind hnext
      | isNull negated column =>
          exact (always_pure (hb.push .filters .and (Test.sound_bare rfl rfl))).bind hnext

/-- A call with a prefix keeps a builder sound. -/
theorem Call.sound_run [Naming] (hwords : words.Closed) {x : Call Script} (hx : x.Prefixed words)
    (h : ∀ part ∈ x.parts, MakesSound words part.1 part.2.action) :
    KeepsSound words false x.run := by
  intro b hb
  have hsub : ∀ {sub : SubArgument Script},
      (∀ part ∈ [sub.part], MakesSound words part.1 part.2.action) →
      ((Script.actionSub sub).evaluate b).Always (SubQuery.Sound words) := fun h =>
    SubArgument.sound_evaluate (h _ List.mem_cons_self) hb
  cases x with
  | withPrefix tablePrefix =>
      exact always_pure { hb with tablePrefix := hx.prefixes tablePrefix List.mem_cons_self }
  | fromCollection table => exact always_pure (hb.fromCollection table)
  | fromView view => exact always_pure (hb.fromView view)
  | fromQuery sub asName => exact (hsub h).bind fun _ hs => hb.fromQuery hs asName
  | select selectors => exact (Selector.sound_evaluateAll h).map fun _ hs => hb.select hs
  | addSelect selectors => exact (Selector.sound_evaluateAll h).map fun _ hs => hb.addSelect hs
  | selectRaw aql asName => exact always_pure (hb.withColumn fun _ hq => nomatch hq)
  | selectQuery sub asName => exact (hsub h).bind fun _ hs => hb.selectQuery hs asName
  | distinctRows => exact always_pure { hb with }
  | set name o =>
      exact (o.sound_evaluate hx.texts h hb).bind fun _ ho => hb.set hwords name ho
  | setQuery name sub => exact (hsub h).bind fun _ hs => hb.setQuery name hs
  | addBinding v category => exact always_pure (hb.addBinding v category)
  | addBindings operands category =>
      exact always_true.map fun operands _ => hb.addBindings operands category
  | setBindings values category => exact always_pure (hb.withBindings _)
  | mergeBindings script category =>
      exact always_true.bind fun _ _ => always_true.map fun other _ => hb.withBindings _
  | condition list c column o operand =>
      exact (operand.sound_evaluate hx.texts h hb).bind fun _ ho =>
        hb.condition hwords (OperatorArgument.allowed_orEqual o) list c ho
  | compareColumns c first o second =>
      exact always_pure (hb.compareColumns o.allowed_operator c first second)
  | member c negated column values => exact hb.conditionValue hwords .filters c _ values
  | memberOfQuery negated column sub =>
      exact (hsub h).bind fun _ hs => hb.memberOfQuery negated hs
  | memberOf negated column values =>
      exact always_pure (hb.addPlain .filters .and (Test.sound_bare rfl rfl))
  | isNull list c negated column =>
      exact always_pure (hb.push list c (Test.sound_bare rfl rfl))
  | between list c negated column bounds =>
      exact always_pure (hb.between hwords list c negated bounds)
  | nested c script => exact hb.nested c (h _ List.mem_cons_self)
  | hasRows c negated sub => exact (hsub h).bind fun _ hs => hb.hasRows c negated hs
  | compareQuery column o sub =>
      exact (hsub h).bind fun _ hs => hb.compareQuery o.allowed_operator hs
  | rawCondition list c aql =>
      refine always_pure (hb.addPlain list c (Test.sound_plain rfl (fun v hv text htext => ?_)
        fun _ _ _ => nofun))
      rw [List.mem_singleton.mp hv] at htext
      cases htext
      exact hx.texts aql List.mem_cons_self
  | contains negated column value => exact always_pure (hb.contains hwords negated value)
  | length column o operand =>
      exact (operand.sound_evaluate hx.texts h hb).bind fun _ ho =>
        hb.length hwords o.allowed_operator ho
  | date part column o operand =>
      exact (operand.sound_evaluate hx.texts h hb).bind fun _ ho =>
        hb.date hwords part o.allowed_operator ho
  | like c column pattern caseSensitive => exact hb.conditionValue hwords .filters c _ pattern
  | notLike column pattern => exact hb.conditionValue hwords .filters .and _ pattern
  | join kind table first o second => exact hb.join o.allowed_operator kind table first second
  | joinWith kind table calls =>
      have hclause := hb.joinWith kind table (JoinCall.sound_runAll hwords hx.texts h)
      exact hclause
  | crossJoin table => exact hb.crossJoin table
  | joinQuery kind sub asName first o second =>
      exact (hsub h).bind fun _ hs =>
        hb.joinQuery o.allowed_operator kind hs asName first second
  | rightJoin => exact always_pure (hb.fail trivial)
  | rightJoinQuery sub => exact always_true.map fun _ _ => hb.fail trivial
  | groupBy selectors => exact always_true.map fun _ _ => { hb with }
  | groupByRaw aql => exact always_pure { hb with }
  | orderBy column direction =>
      exact always_pure (hb.orderBy column (Direction.allowed_ofText direction))
  | orderIn column direction => exact always_pure (hb.orderBy column (Error.allowed_ok direction))
  | latest column => exact always_pure (hb.orderBy _ (Error.allowed_ok Direction.descending))
  | oldest column => exact always_pure (hb.orderBy _ (Error.allowed_ok Direction.ascending))
  | order o => exact always_pure (hb.pushOrder o)
  | reorder => exact always_pure hb.reorder
  | reorderBy column direction =>
      exact always_pure (hb.reorder.orderBy column (Direction.allowed_ofText direction))
  | limitTo count => exact always_pure (hb.limitTo count)
  | skip count => exact always_pure (hb.skip count)
  | forPage page perPage => exact always_pure ((hb.skip _).limitTo perPage)
  | union all sub => exact (hsub h).bind fun _ hs => hb.union all hs
  | fullTextSearch fields text analyzer =>
      exact always_true.map fun fields _ => hb.fullTextSearch fields text analyzer
  | copy => exact hb.copyOf
  | forSubQuery => exact hb.forSubQuery
  | forNested => exact hb.forNested
  | restart table =>
      have hempty : ∀ id, Builder.Sound words false (Clauses.empty id) := fun _ =>
        Sound.of_source (hx.prefixes "" List.mem_cons_self) fun _ hs => nomatch hs
      exact fun next => (hempty next).fromCollection table

end evaluation

namespace Script

/-- Prefixed calls keep builders sound if the scripts inside leave sound ones. -/
theorem keepsSound_of [Naming] (hwords : words.Closed) {calls : List (Call Script)}
    (hcalls : ∀ call ∈ calls, call.Prefixed words)
    (h : ∀ call ∈ calls, ∀ part ∈ call.parts, MakesSound words part.1 part.2.action) :
    KeepsSound words false (action (.of calls)) := by
  induction calls with
  | nil => exact fun _ hb => always_pure hb
  | cons first rest ih =>
      rw [List.forall_mem_cons] at hcalls h
      exact fun b hb => (Call.sound_run hwords hcalls.1 h.1 b hb).bind (ih hcalls.2 h.2)

/-- **A prefixed script builds sound queries**: by induction on how scripts are nested, with the
step of one call. -/
theorem Prefixed.action [Naming] (hwords : words.Closed) {opens : Bool} {s : Script}
    (h : s.Prefixed words opens) :
    MakesSound words opens s.action := by
  induction h with
  | further hinner h ih =>
      exact keepsSound_of hwords (fun call hcall => (h call hcall).1)
        fun call hcall part hpart => ih _ _ ((h call hcall).2 part hpart)
  | opening hpre _ ih =>
      exact fun id => ih _ (Sound.of_source hpre fun _ hs => nomatch hs)
  | unset hpre _ ih =>
      exact fun id => ih _ (Sound.of_source hpre fun _ hs => nomatch hs)

end Script

/-- A vocabulary with everything. -/
def Vocabulary.all : Vocabulary := ⟨Set.univ, Set.univ⟩

theorem Vocabulary.closed_all : Vocabulary.all.Closed :=
  ⟨Set.mem_univ _, fun _ => Set.mem_univ _, fun _ _ => Set.mem_univ _⟩

/-- There is no condition on scripts if the vocabulary has everything. -/
theorem Script.prefixed_all (s : Script) : ∀ opens, s.Prefixed .all opens := by
  refine s.holds (motive := fun s => ∀ opens, s.Prefixed .all opens) fun calls ih => ?_
  have hfurther : Script.Prefixed .all false (.of calls) :=
    .further (fun opens s (h : Script.Prefixed .all opens s) => h) fun call hcall =>
      ⟨⟨fun _ _ => Set.mem_univ _, fun _ _ => Set.mem_univ _⟩,
        fun part hpart => ih call hcall part hpart part.1⟩
  intro opens
  cases opens with
  | false => exact hfurther
  | true => exact .unset (Set.mem_univ _) hfurther

/-- Every script builds sound queries, of whatever they are made. -/
theorem Script.sound_build [Naming] (s : Script) : s.build.Always (Builder.Sound .all false) :=
  fun next => (s.prefixed_all true).action Vocabulary.closed_all next (next + 1)

section entries

/-- Building the sub-queries of an entry leaves sound ones. -/
theorem Entry.Prefixed.run [Naming] (hwords : words.Closed) {e : Entry (Subject Script)}
    (h : e.Prefixed words) (hb : b.Sound words joined) : (e.run b).Always (Entry.Sound words) := by
  cases e with
  | update changes =>
      refine (changes.always_run (p := fun assignments => ∀ a ∈ assignments, a.2.Sound words)
        fun pairs hpairs => ?_).map fun _ hsound => hsound
      refine Operand.always_runAll (p := fun _ o => o.Sound words) fun a ha => ?_
      obtain ⟨htexts, hparts⟩ := h pairs hpairs a ha
      exact Operand.sound_evaluate htexts (fun part hpart => (hparts part hpart).action hwords) hb
  | _ => exact always_pure trivial

/-- Every entry keeps to the vocabulary of all texts. -/
theorem Entry.prefixed_all (e : Entry (Subject Script)) : e.Prefixed .all := by
  cases e with
  | update changes =>
      exact fun _ _ _ _ => ⟨fun _ _ => Set.mem_univ _, fun part _ => part.2.prefixed_all part.1⟩
  | _ => trivial

end entries

end AqlBuilder

/-!
## Why built queries do not compile

Whatever a script has built is sound, so it is compiled unless there is a fault. An aggregate is
never set by a call, so one kind of fault is left out: a query that is compiled with it has an
error, has no source, or has a text without an equals sign among its group keys.
-/

namespace AqlBuilder

variable {words : Vocabulary} {b : Builder} {e : Error}

/-- The causes of a fault in a query without an aggregate. -/
theorem Builder.exists_faults_iff (h : b.aggregate = none) : (∃ e, b.Faults e) ↔
    b.error.isSome = true ∨ b.source = none ∨ ∃ aql, .raw aql ∈ b.groups ∧ '=' ∉ aql.toList := by
  constructor
  · rintro ⟨e, herror | hsource | ⟨hkey, hname⟩ | ⟨haggregate, -⟩⟩
    · exact .inl (Option.isSome_of_eq_some herror)
    · exact .inr (.inl hsource)
    · exact .inr (.inr ⟨_, hkey, hname⟩)
    · rw [h] at haggregate
      cases haggregate
  · rintro (herror | hsource | ⟨aql, hkey, hname⟩)
    · obtain ⟨e, he⟩ := Option.isSome_iff_exists.mp herror
      exact ⟨e, .recorded he⟩
    · exact ⟨_, .lacking (.source hsource)⟩
    · exact ⟨_, .lacking (.keyName hkey hname)⟩

/-- The causes of a fault in a sound query, in the queries that are compiled with it. -/
theorem Builder.Sound.exists_faulty_iff (h : b.Sound words false) : (∃ e, b.Faulty e) ↔
    ∃ c, b.Compiles c ∧ (c.error.isSome = true ∨ c.source = none ∨
      ∃ aql, .raw aql ∈ c.groups ∧ '=' ∉ aql.toList) := by
  have hcauses : ∀ c, b.Compiles c → ((∃ e, c.Faults e) ↔ _) := fun c hc =>
    exists_faults_iff (h.compiles hc).aggregate
  constructor
  · rintro ⟨e, c, hc, he⟩
    exact ⟨c, hc, (hcauses c hc).mp ⟨e, he⟩⟩
  · rintro ⟨c, hc, hcause⟩
    obtain ⟨e, he⟩ := (hcauses c hc).mpr hcause
    exact ⟨e, c, hc, he⟩

/-- The errors that cannot be made are joins without a source and bitwise tests with other
operators. -/
theorem Error.Possible.ne (h : e.Possible) :
    e ≠ .compilation .joinWithoutSource ∧ ∀ operator, e ≠ .compilation (.notBitwise operator) := by
  refine ⟨?_, fun operator => ?_⟩ <;> rintro rfl <;> exact h

/-- **When a built query does not compile.**  Whatever a script has built, it has no aggregate, and
it does not compile just if a query that is compiled with it has an error, no source, or a group key
that is a text without an equals sign. However it is compiled, no bitwise test fails for its
operator and no join for its source. -/
theorem Script.fails_iff [Naming] (s : Script) : s.build.Always fun b =>
    b.aggregate = none ∧
      (∀ n, (∃ e, (b.toCompiled n).1 = .error e) ↔ ∃ c, b.Compiles c ∧
        (c.error.isSome = true ∨ c.source = none ∨
          ∃ aql, .raw aql ∈ c.groups ∧ '=' ∉ aql.toList)) ∧
      ∀ entry : Entry (Subject Script), (entry.run b).Always fun entry =>
        ∀ n e, (b.compile entry n).1 = .error e →
          e ≠ .compilation .joinWithoutSource ∧
            ∀ operator, e ≠ .compilation (.notBitwise operator) := by
  refine s.sound_build.mono fun b hb => ⟨hb.aggregate, fun n => ?_, fun entry => ?_⟩
  · exact (hb.failsBy_toCompiled.error_iff n).trans hb.exists_faulty_iff
  · exact (entry.prefixed_all.run Vocabulary.closed_all hb).mono fun entry hentry n e he =>
      (hb.failsAmong_compile hentry n e he).ne

/-- A query is looked for in a group of conditions, and it has no source. -/
def Script.rootless : Script :=
  .of [.fromCollection "characters",
    .nested .and (.of [.hasRows .or true (.closure (.of [.select [.column "name"]]))])]

/-- So it is compiled with a query that lacks one. -/
example : ∃ c, Builder.Compiles (Script.rootless.build 0).1 c ∧ c.source = none :=
  ⟨_, .single (.looped (.filtered List.mem_cons_self (.nested List.mem_cons_self .rows))), rfl⟩

end AqlBuilder
