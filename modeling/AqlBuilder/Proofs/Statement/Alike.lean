import AqlBuilder.Proofs.Builder.Alike
import AqlBuilder.Statement.Write
import Mathlib.Data.List.Forall2

/-!
# Compiling builders that are alike

Two builders that are alike are compiled to the same text, and the stores behind the two statements
stay related. The arguments of the two compilations may differ in the values that they bind.

- `Entry.Alike` relates the arguments, and `Compiled.Alike` the statements.
- `Builder.Alike.compile`: compiling treats builders and arguments alike.
- `Builder.outcome` is what a caller gets from compiling.
- `Builder.outcome_repeatable`: it depends on the builder and the arguments, and compiling can be
  repeated.
-/

namespace AqlBuilder

open Outcome

/-- Two statements with the same text, whose values come from related stores. -/
inductive Compiled.Alike (R : Store → Store → Prop) : Compiled → Compiled → Prop
  | ofStore (aql : String) {s s' : Store} (h : R s s') :
      Alike R (.ofStore aql s) (.ofStore aql s')

section arguments

variable {Q P : Type} (r : Q → P → Prop) (V : Value → Value → Prop)

/-- Two operands of an update that are stored alike: with related queries, and with values that are
related under the server's names. -/
inductive Operand.StoredAlike : Operand Q → Operand P → Prop
  | value {v v' : Value} (h : V v.idToKey v'.idToKey)
      (href : v.idToKey.reference? = v'.idToKey.reference?) : StoredAlike (.value v) (.value v')
  | expression (aql : String) : StoredAlike (.expression aql) (.expression aql)
  | column (name : String) : StoredAlike (.column name) (.column name)
  | query {q : Q} {p : P} (h : r q p) : StoredAlike (.query q) (.query p)

/-- Two lists of assignments that are stored alike. -/
def Changes.StoredAlike : List (String × Operand Q) → List (String × Operand P) → Prop :=
  List.Forall₂ fun p p' => p.1 = p'.1 ∧ p.2.StoredAlike r V p'.2

/-- Two lists of documents that are bound alike as rows. -/
structure Row.StoredAlike (documents documents' : List Document) : Prop where
  isEmpty : documents.isEmpty = documents'.isEmpty
  rows : V (Builder.storedRows documents) (Builder.storedRows documents')

/-- Two ways to compile a builder whose values are bound alike. -/
inductive Entry.Alike : Entry Q → Entry P → Prop
  | select : Alike .select .select
  | existence : Alike .existence .existence
  | aggregate (function : AggregateFunction) (column : Option String) :
      Alike (.aggregate function column) (.aggregate function column)
  | insert {rows rows' : List Row} (ignoreErrors : Bool)
      (h : Agree (Row.StoredAlike V) (Row.documents rows) (Row.documents rows')) :
      Alike (.insert rows ignoreErrors) (.insert rows' ignoreErrors)
  | upsert {rows rows' : List Row} (uniqueBy : List String) (update : Option (List String))
      (h : Agree
        (fun d d' => Row.StoredAlike V d d' ∧ d.head?.map Entries.keys = d'.head?.map Entries.keys)
        (Row.documents rows) (Row.documents rows')) :
      Alike (.upsert rows uniqueBy update) (.upsert rows' uniqueBy update)
  | update {changes : Changes Q} {changes' : Changes P}
      (h : Agree (Changes.StoredAlike r V) changes.assignments changes'.assignments) :
      Alike (.update changes) (.update changes')
  | adjust (adjustment : Builder.Adjustment) (column : String) {amount amount' : Value}
      (hnumber : amount.isNumber = amount'.isNumber) (h : V amount amount') :
      Alike (.adjust adjustment column amount) (.adjust adjustment column amount')
  | deleteAll : Alike (.delete none) (.delete none)
  | deleteKey {key key' : Value} (h : V key key') :
      Alike (.delete (some key)) (.delete (some key'))
  | truncate : Alike .truncate .truncate

end arguments

namespace Builder

variable {R : Store → Store → Prop} {V : Value → Value → Prop} {b b' w w' : Builder}
variable {α β γ δ : Type} {r : α → β → Prop} {s : γ → δ → Prop}

/-- A computation on results that agree. -/
theorem alike_ofExcept {x : Except Error α} {y : Except Error β} (h : Agree r x y) :
    Outcome.Alike r (ofExcept x) (ofExcept y) := fun _ _ => h

namespace Alike

/-- Builders that are alike go on alike behind the check. -/
theorem checked (h : b.Alike R b') {f : Unit → Outcome γ} {g : Unit → Outcome δ}
    (hfg : Outcome.Alike s (f ()) (g ())) :
    Outcome.Alike s (ofExcept b.check >>= f) (ofExcept b'.check >>= g) := by
  have hcheck : Agree Eq b.check b'.check := by
    rw [h.check]
    cases b'.check with
    | error e => exact Agree.error e
    | ok u => exact Agree.ok rfl
  exact (alike_ofExcept hcheck).bind fun _ _ _ => hfg

/-- Builders that are alike go on alike on their working copies. -/
theorem onCopy (h : b.Alike R b') {f : Builder → Outcome γ} {g : Builder → Outcome δ}
    (hfg : ∀ w w' : Builder, w.Alike R w' → Outcome.Alike s (f w) (g w')) :
    Outcome.Alike s (b.onCopy f) (b'.onCopy g) := by
  have hcopy : Outcome.Alike (Builder.Alike R) (ofSupply b.workingCopy) (ofSupply b'.workingCopy) :=
    fun m n => Agree.ok (h.workingCopy m n)
  exact hcopy.bind hfg

/-- Builders that are alike ask alike whether there are rows. -/
theorem probe (h : b.Alike R b') : b.probe.Alike R b'.probe := by
  have hunions := isEmpty_eq h.unions
  unfold Builder.probe
  rw [hunions]
  split
  · exact { h with columns := rfl, distinct := rfl, limit := rfl, offset := rfl }
  · exact { h with unionLimit := rfl, unionOffset := rfl }

/-- Builders that are alike have aggregates that are alike. -/
theorem aggregated (h : b.Alike R b') (function : AggregateFunction) (column : Option String) :
    (b.aggregated function column).Alike R (b'.aggregated function column) :=
  { h with aggregate := rfl, columns := rfl, distinct := rfl }

/-- Builders that are alike write to the same collection, or fail alike. -/
theorem target (h : b.Alike R b') : Agree Eq b.target b'.target := by
  have hsource := h.source
  have htable := h.tablePrefix
  unfold Builder.target
  rcases hs : b.source with _ | ⟨name, v⟩ | ⟨name, v⟩ | ⟨sub, v⟩ <;>
    rcases hs' : b'.source with _ | ⟨name', v'⟩ | ⟨name', v'⟩ | ⟨sub', v'⟩ <;>
    simp only [hs, hs', Option.map_some, Option.map_none, Source.map, Option.some.injEq,
      Source.collection.injEq, Source.view.injEq, reduceCtorEq] at hsource
  · exact Agree.error _
  · obtain ⟨rfl, rfl⟩ := hsource
    exact Agree.ok (by rw [htable])
  · obtain ⟨rfl, rfl⟩ := hsource
    exact Agree.error _
  · exact Agree.error _

/-- Builders that are alike select documents alike. -/
theorem selection (h : b.Alike R b') : Outcome.Alike Eq b.selection b'.selection := by
  have hselection : b'.selection = b.selection := by
    unfold Builder.selection
    rw [h.compiled]
    rfl
  rw [hselection]
  exact (Aql.steady_loops b.steady_compiled).map.alike

/-- A statement with the values of related stores. -/
theorem withStore {x y : Outcome String} {t t' : Store} (hxy : Outcome.Alike Eq x y) (ht : R t t')
    (finish : String → String) :
    Outcome.Alike (Compiled.Alike R) (do pure (Compiled.ofStore (finish (← x)) t))
      (do pure (Compiled.ofStore (finish (← y)) t')) := by
  refine hxy.bind fun aql aql' haql => ?_
  subst haql
  exact alike_pure (Compiled.Alike.ofStore (finish aql) ht)

/-- Builders that are alike are compiled alike. -/
theorem toCompiled (h : b.Alike R b') :
    Outcome.Alike (Compiled.Alike R) b.toCompiled b'.toCompiled :=
  h.checked <| h.onCopy fun _ _ hw => withStore hw.statement hw.bindings id

/-- Builders that are alike are compiled alike to ask whether there are rows. -/
theorem existsStatement (h : b.Alike R b') :
    Outcome.Alike (Compiled.Alike R) b.existsStatement b'.existsStatement :=
  h.checked <| h.onCopy fun _ _ hw =>
    withStore hw.probe.statement hw.bindings fun aql => "RETURN LENGTH((" ++ aql ++ ")) > 0"

/-- Builders that are alike are compiled alike for an aggregate. -/
theorem aggregateStatement (h : b.Alike R b') (function : AggregateFunction)
    (column : Option String) :
    Outcome.Alike (Compiled.Alike R) (b.aggregateStatement function column)
      (b'.aggregateStatement function column) := by
  refine h.checked ?_
  by_cases hcolumn : column.isNone && function != .count
  · simp only [hcolumn, if_true]
    exact alike_fail _
  · simp only [hcolumn]
    exact h.onCopy fun _ _ hw =>
      withStore (hw.aggregated function column).statement hw.bindings id

section writing

variable (hR : Store.Congruence R V)

include hR in
/-- Values that are filed get the same name. -/
theorem add {v v' : Value} (hw : w.Alike R w') (hv : V v v') (category : Category) :
    (w.bindings.add v category).1 = (w'.bindings.add v' category).1 ∧
      R (w.bindings.add v category).2 (w'.bindings.add v' category).2 :=
  ⟨hR.name category hw.bindings, hR.add category hw.bindings hv⟩

include hR in
/-- Builders that are alike insert documents that are bound alike by statements that are alike. -/
theorem insertStatement (h : b.Alike R b') {rows rows' : List Row} (ignoreErrors : Bool)
    (hrows : Agree (Row.StoredAlike V) (Row.documents rows) (Row.documents rows')) :
    Outcome.Alike (Compiled.Alike R) (b.insertStatement rows ignoreErrors)
      (b'.insertStatement rows' ignoreErrors) := by
  refine h.checked ((alike_ofExcept hrows).bind fun documents documents' hdocuments => ?_)
  rw [← hdocuments.isEmpty]
  by_cases hempty : documents.isEmpty
  · simp only [hempty, if_true]
    exact alike_fail _
  · simp only [hempty]
    refine h.onCopy fun w w' hw => ?_
    refine (alike_ofExcept hw.target).bind fun collection collection' hcollection => ?_
    obtain ⟨hname, hstore⟩ := hw.add hR hdocuments.rows .insert
    rw [← hcollection, ← hname]
    exact alike_pure (Compiled.Alike.ofStore _ hstore)

include hR in
/-- Builders that are alike upsert documents that are bound alike, with the same attributes in the
first ones, by statements that are alike. -/
theorem upsertStatement (h : b.Alike R b') {rows rows' : List Row} (uniqueBy : List String)
    (update : Option (List String))
    (hrows : Agree
      (fun d d' => Row.StoredAlike V d d' ∧ d.head?.map Entries.keys = d'.head?.map Entries.keys)
      (Row.documents rows) (Row.documents rows')) :
    Outcome.Alike (Compiled.Alike R) (b.upsertStatement rows uniqueBy update)
      (b'.upsertStatement rows' uniqueBy update) := by
  refine h.checked ?_
  by_cases hunique : uniqueBy.isEmpty
  · simp only [hunique, if_true]
    exact alike_fail _
  simp only [hunique]
  refine (alike_ofExcept hrows).bind fun documents documents' hdocuments => ?_
  obtain ⟨hstored, hkeys⟩ := hdocuments
  have hdefault : updatedByDefault documents (uniqueBy.map storedAttribute) =
      updatedByDefault documents' (uniqueBy.map storedAttribute) := by
    unfold updatedByDefault
    rw [hkeys]
  rw [← hstored.isEmpty, ← hdefault]
  by_cases hempty : documents.isEmpty
  · simp only [hempty, if_true]
    exact alike_fail _
  · simp only [hempty]
    refine h.onCopy fun w w' hw => ?_
    refine (alike_ofExcept hw.target).bind fun collection collection' hcollection => ?_
    obtain ⟨hname, hstore⟩ := hw.add hR hstored.rows .upsert
    rw [← hcollection, ← hname]
    exact alike_pure (Compiled.Alike.ofStore _ hstore)

/-- A value of an update is bound after its keys have been renamed. -/
theorem boundForUpdate_value [Naming] (b : Builder) (value : Value) :
    b.boundForUpdate (.value value) =
      pure ((b.bindValue value.idToKey .update).1.text (b.bindValue value.idToKey .update).2.scope,
        (b.bindValue value.idToKey .update).2) := rfl

include hR in
/-- Builders that are alike bind operands that are stored alike to the same text. -/
theorem boundForUpdate [Naming] (h : b.Alike R b') {o o' : Operand Builder}
    (ho : o.StoredAlike (Builder.Alike R) V o') :
    Outcome.Alike (fun p p' : String × Builder => p.1 = p'.1 ∧ p.2.Alike R p'.2)
      (b.boundForUpdate o) (b'.boundForUpdate o') := by
  cases ho with
  | value hv href =>
      obtain ⟨hbound, hbuilder⟩ := h.bindValue hR hv href .update
      rw [boundForUpdate_value, boundForUpdate_value]
      exact alike_pure ⟨by rw [hbound, hbuilder.scope], hbuilder⟩
  | expression aql => exact alike_pure ⟨rfl, h⟩
  | column name => exact alike_pure ⟨by rw [h.scope], h⟩
  | @query q q' hq =>
      have hscoped := h.rescoped hR hq
      have hembedded : Outcome.Alike Eq (b.rescoped q).embedded (b'.rescoped q').embedded := by
        rw [hscoped.embedded]
        exact (Query.steady_fragment _).embedded.alike
      refine hembedded.bind fun aql aql' haql => ?_
      exact alike_pure ⟨haql, h.absorb hR hscoped .update⟩

include hR in
/-- Builders that are alike assign what is stored alike to the same attributes. -/
theorem assigned [Naming] (h : b.Alike R b') (fields : Entries Assigned)
    {assignments assignments' : List (String × Operand Builder)}
    (ha : Changes.StoredAlike (Builder.Alike R) V assignments assignments') :
    Outcome.Alike (fun p p' : Entries Assigned × Builder => p.1 = p'.1 ∧ p.2.Alike R p'.2)
      (b.assigned fields assignments) (b'.assigned fields assignments') := by
  induction ha generalizing b b' fields with
  | nil => exact alike_pure ⟨rfl, h⟩
  | @cons p p' rest rest' hp _ ih =>
      obtain ⟨key, operand⟩ := p
      obtain ⟨key', operand'⟩ := p'
      obtain ⟨hkey, ho⟩ := hp
      dsimp only at hkey ho
      subst hkey
      refine (h.boundForUpdate hR ho).bind fun bound bound' hbound => ?_
      obtain ⟨aql, w⟩ := bound
      obtain ⟨aql', w'⟩ := bound'
      obtain ⟨haql, hw⟩ := hbound
      dsimp only at haql hw ⊢
      rw [haql]
      exact ih hw _

include hR in
/-- Builders that are alike are updated alike by assignments that are stored alike. -/
theorem updateText [Naming] (h : b.Alike R b')
    {assignments assignments' : List (String × Operand Builder)}
    (ha : Changes.StoredAlike (Builder.Alike R) V assignments assignments') :
    Outcome.Alike (Compiled.Alike R) (b.updateText assignments) (b'.updateText assignments') := by
  refine (alike_ofExcept h.target).bind fun collection collection' hcollection => ?_
  refine (h.assigned hR [] ha).bind fun fields fields' hfields => ?_
  refine hfields.2.selection.bind fun selection selection' hselection => ?_
  rw [← hcollection, ← hselection, ← hfields.1, ← h.docVar]
  exact alike_pure (Compiled.Alike.ofStore _ hfields.2.bindings)

include hR in
/-- Builders that are alike are updated alike by changes that are stored alike. -/
theorem updateStatement [Naming] (h : b.Alike R b') {changes changes' : Changes Builder}
    (hchanges : Agree (Changes.StoredAlike (Builder.Alike R) V) changes.assignments
      changes'.assignments) :
    Outcome.Alike (Compiled.Alike R) (b.updateStatement changes) (b'.updateStatement changes') := by
  refine h.checked ((alike_ofExcept hchanges).bind fun assignments assignments' ha => ?_)
  have hempty : assignments.isEmpty = assignments'.isEmpty := by
    cases ha <;> rfl
  rw [← hempty]
  by_cases hassignments : assignments.isEmpty
  · simp only [hassignments, if_true]
    exact alike_fail _
  · simp only [hassignments]
    exact h.onCopy fun w w' hw => hw.updateText hR ha

include hR in
/-- Builders that are alike are adjusted alike by amounts of which both or neither are numbers. -/
theorem adjustStatement [Naming] (h : b.Alike R b') (adjustment : Adjustment) (column : String)
    {amount amount' : Value} (hnumber : amount.isNumber = amount'.isNumber)
    (hv : V amount amount') :
    Outcome.Alike (Compiled.Alike R) (b.adjustStatement adjustment column amount)
      (b'.adjustStatement adjustment column amount') := by
  refine h.checked ?_
  rw [← hnumber]
  by_cases hamount : amount.isNumber
  · simp only [hamount, Bool.not_true, Bool.false_eq_true, if_false]
    refine h.onCopy fun w w' hw => ?_
    obtain ⟨hname, hstore⟩ := hw.add hR hv .update
    rw [← hw.scope, ← hname]
    refine (hw.withBindings hstore).updateText hR (List.Forall₂.cons ⟨rfl, ?_⟩ .nil)
    exact Operand.StoredAlike.expression _
  · simp only [hamount, Bool.not_false, if_true]
    exact alike_fail _

/-- Builders that are alike remove their documents alike. -/
theorem removeText (h : b.Alike R b') (collection : String) :
    Outcome.Alike (Compiled.Alike R) (b.removeText collection) (b'.removeText collection) := by
  refine h.selection.bind fun selection selection' hselection => ?_
  rw [← hselection, ← h.docVar]
  exact alike_pure (Compiled.Alike.ofStore _ h.bindings)

/-- Builders that are alike are deleted alike. -/
theorem deleteAll (h : b.Alike R b') :
    Outcome.Alike (Compiled.Alike R) (b.deleteStatement none) (b'.deleteStatement none) := by
  refine h.checked (h.onCopy fun w w' hw => ?_)
  refine (alike_ofExcept hw.target).bind fun collection collection' hcollection => ?_
  rw [← hcollection]
  exact hw.removeText collection

include hR in
/-- Builders that are alike remove a document alike by keys that are bound alike. -/
theorem deleteKey (h : b.Alike R b') {key key' : Value} (hv : V key key') :
    Outcome.Alike (Compiled.Alike R) (b.deleteStatement (some key))
      (b'.deleteStatement (some key')) := by
  refine h.checked (h.onCopy fun w w' hw => ?_)
  refine (alike_ofExcept hw.target).bind fun collection collection' hcollection => ?_
  obtain ⟨hname, hstore⟩ := hw.add hR hv .filter
  have hfilters := isEmpty_eq hw.filters
  have hjoins := isEmpty_eq hw.joins
  dsimp only
  rw [← hcollection, ← hname, ← hfilters, ← hjoins]
  by_cases hbare : w.filters.isEmpty && w.joins.isEmpty
  · simp only [hbare, if_true]
    exact alike_pure (Compiled.Alike.ofStore _ hstore)
  · simp only [hbare]
    refine removeText ?_ collection
    refine { (hw.withBindings hstore) with filters := ?_ }
    simp only [List.map_append, hw.filters]

/-- Builders that are alike are truncated alike. -/
theorem truncateStatement (h : b.Alike R b') :
    Outcome.Alike (Compiled.Alike R) b.truncateStatement b'.truncateStatement := by
  refine h.checked (h.onCopy fun w w' hw => ?_)
  refine (alike_ofExcept hw.target).bind fun collection collection' hcollection => ?_
  rw [← hcollection]
  exact alike_pure (Compiled.Alike.ofStore _ hw.bindings)

include hR in
/-- Compiling builders that are alike with arguments that are alike gives the same error, or the
same text with values of related stores, whichever query numbers are next. -/
theorem compile [Naming] (h : b.Alike R b') {e e' : Entry Builder}
    (he : e.Alike (Builder.Alike R) V e') :
    Outcome.Alike (Compiled.Alike R) (b.compile e) (b'.compile e') := by
  cases he with
  | select => exact h.toCompiled
  | existence => exact h.existsStatement
  | aggregate function column => exact h.aggregateStatement function column
  | insert ignoreErrors hrows => exact h.insertStatement hR ignoreErrors hrows
  | upsert uniqueBy update hrows => exact h.upsertStatement hR uniqueBy update hrows
  | update hchanges => exact h.updateStatement hR hchanges
  | adjust adjustment column hnumber hv => exact h.adjustStatement hR adjustment column hnumber hv
  | deleteAll => exact h.deleteAll
  | deleteKey hv => exact h.deleteKey hR hv
  | truncate => exact h.truncateStatement

end writing

end Alike

end Builder

end AqlBuilder

/-!
### Compiling again

The builder that is compiled does not change, and the numbers that the copies get leave no trace in
the statement. So compiling can be repeated at any time with the same result, and a copy of a
builder is read like the builder itself, although its stores have new numbers at every depth.
-/

namespace AqlBuilder

open Outcome

/-- Equal stores stay equal in all that is done to both with equal values. -/
theorem Store.congruence_eq : Store.Congruence Eq Eq where
  id h := congrArg Store.id h
  name category h := congrArg (Store.nextName · category) h
  add category h hv := by rw [h, hv]
  merge category h ht := by rw [h, ht]

/-- Two stores that hold the same values under any numbers. -/
def Store.SameValues (s s' : Store) : Prop := s.bound = s'.bound

/-- An operand is stored like itself. -/
theorem Operand.storedAlike_refl (o : Operand Builder) : o.StoredAlike (Builder.Alike Eq) Eq o := by
  cases o with
  | value v => exact .value rfl rfl
  | expression aql => exact .expression aql
  | column name => exact .column name
  | query q => exact .query (.refl rfl)

/-- The same arguments are alike. -/
theorem Entry.alike_refl (e : Entry Builder) : e.Alike (Builder.Alike Eq) Eq e := by
  have hrows : ∀ d : List Document, Row.StoredAlike Eq d d := fun d => ⟨rfl, rfl⟩
  cases e with
  | select => exact .select
  | existence => exact .existence
  | aggregate function column => exact .aggregate function column
  | insert rows ignoreErrors => exact .insert ignoreErrors (Agree.refl hrows _)
  | upsert rows uniqueBy update =>
      exact .upsert uniqueBy update (Agree.refl (fun d => ⟨hrows d, rfl⟩) _)
  | update changes =>
      refine .update (Agree.refl (fun assignments => ?_) _)
      exact List.forall₂_same.mpr fun p _ => ⟨rfl, p.2.storedAlike_refl⟩
  | adjust adjustment column amount => exact .adjust adjustment column rfl rfl
  | delete key =>
      cases key with
      | none => exact .deleteAll
      | some key => exact .deleteKey rfl
  | truncate => exact .truncate

namespace Builder

/-- A copy of a builder is like the builder, with the same values in its store. -/
theorem alike_copyOf (b : Builder) (next : Nat) :
    (b.copyOf next).1.Alike Store.SameValues b := by
  have hmap := b.map_copyOf (fun q _ => q.face_copyOf) next
  have hbindings :
    (Clauses.map Query.face (b.copyOf next).1).bindings.bound = b.bindings.bound := by
    rw [hmap]
    rfl
  refine .of_map ?_ hbindings
  rw [hmap]
  rfl

/-- What a caller gets from compiling a builder while `next` is the next query number. -/
def outcome [Naming] (b : Builder) (entry : Entry Builder) (next : Nat) : Except Error Compiled :=
  ((b.compile entry).run next).1

/-- The next query number makes no difference to what a caller gets. -/
theorem outcome_eq [Naming] (b : Builder) (entry : Entry Builder) (m n : Nat) :
    b.outcome entry m = b.outcome entry n := by
  have hself : b.Alike Eq b := .refl rfl
  refine Agree.eq ((hself.compile Store.congruence_eq entry.alike_refl m n).mono ?_)
  rintro _ _ ⟨aql, h⟩
  rw [h]

/-- Builders that read the same and hold the same values give the same to a caller. -/
theorem eq_of_sameValues {x y : Outcome Compiled} {m n : Nat}
    (h : Outcome.Alike (Compiled.Alike Store.SameValues) x y) : (x m).1 = (y n).1 := by
  refine Agree.eq ((h m n).mono ?_)
  rintro _ _ ⟨aql, h⟩
  unfold Compiled.ofStore Store.flatten
  rw [h]

/-- **Compiling is repeatable.**  Whatever query numbers were taken in between, compiling a builder
again with the same arguments gives the same text and values or the same error; and a copy of the
builder, made under any number, is read exactly like the builder. A copy of a query that is assigned
is another argument than the query: it has a number of its own, which names the variable of a
sub-query that it iterates over. -/
theorem outcome_repeatable [Naming] (b : Builder) :
    (∀ (entry : Entry Builder) (m n : Nat), b.outcome entry m = b.outcome entry n) ∧
    ∀ k m n : Nat,
      (b.copyOf k).1.outcome .select m = b.outcome .select n ∧
      (b.copyOf k).1.outcome .existence m = b.outcome .existence n ∧
      ∀ (function : AggregateFunction) (column : Option String),
        (b.copyOf k).1.outcome (.aggregate function column) m =
          b.outcome (.aggregate function column) n := by
  refine ⟨b.outcome_eq, fun k m n => ?_⟩
  have hcopy := b.alike_copyOf k
  refine ⟨eq_of_sameValues hcopy.toCompiled, eq_of_sameValues hcopy.existsStatement, ?_⟩
  intro function column
  exact eq_of_sameValues (hcopy.aggregateStatement function column)

end Builder

end AqlBuilder
