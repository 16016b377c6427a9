import AqlBuilder.Alias.Rules
import AqlBuilder.Proofs.Script.Twin
import AqlBuilder.Proofs.Statement.Alike
import AqlBuilder.Script.Basic

/-!
# Values do not reach the text

The operands of an update are run like any other argument, and compiling treats the two builders of
twin runs alike. So two runs of one program whose values have the same shapes give the same text
and the same names, and only what stands behind the names may differ.

- `Entry.Twin` relates the ways to compile at the end of two runs.
- `Script.Twin.statements_agree` is the comparison of two whole runs.
-/

namespace AqlBuilder

open Supply Outcome

/-- Two ways to compile with twin scripts and any values. Of the rows to be written, the inserted
ones are both missing or both there, the first ones of an upsert have the same keys, and updates
assign the same attributes. -/
abbrev Entry.Twin (e e' : Entry (Subject Script)) : Prop :=
  e.Alike (Subject.Twin Script.Twin) (fun _ _ => True) e'

/-- Two statements that differ in the values behind their names at most. -/
def Compiled.SameText (c c' : Compiled) : Prop :=
  c.aql = c'.aql ∧ c.bindings.keys = c'.bindings.keys

/-- Build a query and compile it. -/
def Script.statementFor [Naming] (s : Script) (entry : Entry (Subject Script)) :
    Supply (Except Error Compiled) := do
  let b ← s.build
  b.statementFor entry

/-- Statements that are alike have the same text and the same names. -/
theorem Compiled.Alike.sameText {c c' : Compiled} (h : c.Alike Store.SameNames c') :
    c.SameText c' := by
  cases h with
  | ofStore aql hstore =>
      refine ⟨rfl, ?_⟩
      rw [keys_ofStore, keys_ofStore, hstore.keys_flatten]

section evaluation

variable {b b' : Builder}

/-- Operands that are stored alike come to operands that are. -/
theorem Operand.StoredAlike.run [Naming] {o o' : Operand (Subject Script)}
    (h : o.StoredAlike (Subject.Twin Script.Twin) (fun _ _ => True) o') (hb : b.Twin b') :
    Supply.Twin (Operand.StoredAlike Builder.Twin fun _ _ => True) (o.run b) (o'.run b') := by
  cases h with
  | value h href => exact twin_pure (.value h href)
  | expression aql => exact twin_pure (.expression aql)
  | column name => exact twin_pure (.column name)
  | query h =>
      have hbuilt := (h.action fun _ _ hs => hs.action).build hb
      exact hbuilt.map fun _ _ hq => .query hq

/-- Assignments that are stored alike come to assignments that are. -/
theorem Changes.StoredAlike.runAll [Naming]
    {pairs pairs' : List (String × Operand (Subject Script))}
    (h : Changes.StoredAlike (Subject.Twin Script.Twin) (fun _ _ => True) pairs pairs')
    (hb : b.Twin b') :
    Supply.Twin (Changes.StoredAlike Builder.Twin fun _ _ => True) (Operand.runAll b pairs)
      (Operand.runAll b' pairs') := by
  induction h with
  | nil => exact twin_pure .nil
  | @cons p p' rest rest' hp _ ih =>
      obtain ⟨key, operand⟩ := p
      obtain ⟨key', operand'⟩ := p'
      obtain ⟨hkey, ho⟩ := hp
      exact (ho.run hb).bind fun first first' hfirst =>
        ih.map fun others others' hothers => .cons ⟨hkey, hfirst⟩ hothers

/-- A document as the assignments of its values. -/
def Document.assignments {Q : Type} (document : Document) : List (String × Operand Q) :=
  document.map fun entry => (entry.1, .value entry.2)

/-- The assignments of a row are those of its document. -/
theorem Changes.assignments_row {Q : Type} (r : Row) :
    (Changes.row r : Changes Q).assignments = r.document.map Document.assignments := by
  simp only [assignments]
  cases r.document with
  | error e => rfl
  | ok document => rfl

/-- Running the operands of a document takes no numbers. -/
theorem Operand.runAll_values [Naming] (b : Builder) (document : Document) :
    Operand.runAll b document.assignments = pure document.assignments := by
  induction document with
  | nil => rfl
  | cons entry rest ih =>
      change (do
        let others ← Operand.runAll b (Document.assignments rest)
        pure ((entry.1, Operand.value entry.2) :: others)) = _
      rw [ih]
      rfl

/-- The assignments of an update are those of its operands, run one after another. -/
theorem Changes.assignments_run [Naming] (changes : Changes (Subject Script)) (b : Builder) :
    (do pure (← changes.run b).assignments) =
      match changes.assignments with
      | .ok pairs => (do pure (.ok (← Operand.runAll b pairs)))
      | .error e => pure (.error e) := by
  cases changes with
  | operands pairs => rfl
  | row r =>
      change (pure (Changes.assignments (.row r)) : Supply (Except Error _)) = _
      rw [assignments_row, assignments_row]
      cases r.document with
      | error e => rfl
      | ok document =>
          change _ = (do pure (Except.ok (← Operand.runAll b document.assignments)))
          rw [Operand.runAll_values]
          rfl

/-- What each operand comes to, the operands of a list come to. -/
theorem Operand.always_runAll [Naming] {b : Builder} {p : String → Operand Builder → Prop}
    {pairs : List (String × Operand (Subject Script))}
    (h : ∀ a ∈ pairs, (a.2.run b).Always (p a.1)) :
    (Operand.runAll b pairs).Always fun results => ∀ a ∈ results, p a.1 a.2 := by
  induction pairs with
  | nil => exact always_pure fun _ ha => (List.not_mem_nil ha).elim
  | cons first rest ih =>
      obtain ⟨key, operand⟩ := first
      refine (h _ List.mem_cons_self).bind fun o ho => ?_
      refine (ih fun a ha => h a (List.mem_cons_of_mem _ ha)).map fun others hothers a ha => ?_
      rcases List.mem_cons.mp ha with rfl | ha
      · exact ho
      · exact hothers a ha

/-- What running the operands promises holds of the assignments of an update. -/
theorem Changes.always_run [Naming] (changes : Changes (Subject Script)) {b : Builder}
    {p : List (String × Operand Builder) → Prop}
    (h : ∀ pairs, changes.assignments = .ok pairs → (Operand.runAll b pairs).Always p) :
    (changes.run b).Always fun result =>
      ∀ assignments, result.assignments = .ok assignments → p assignments := by
  have hrun : Supply.Always (do pure (← changes.run b).assignments) fun result =>
      ∀ assignments, result = .ok assignments → p assignments := by
    rw [changes.assignments_run]
    cases hassignments : changes.assignments with
    | error e => exact always_pure fun _ ha => nomatch ha
    | ok pairs =>
        refine (h pairs hassignments).map fun results hresults _ ha => ?_
        cases ha
        exact hresults
  exact hrun

/-- Changes that are stored alike come to changes that are, or to the same error. -/
theorem Changes.twin_run [Naming] {changes changes' : Changes (Subject Script)}
    (h : Agree (Changes.StoredAlike (Subject.Twin Script.Twin) fun _ _ => True)
      changes.assignments changes'.assignments) (hb : b.Twin b') :
    Supply.Twin
      (fun c c' : Changes Builder => Agree (Changes.StoredAlike Builder.Twin fun _ _ => True)
        c.assignments c'.assignments)
      (changes.run b) (changes'.run b') := by
  have hrun : Supply.Twin (Agree (Changes.StoredAlike Builder.Twin fun _ _ => True))
      (do pure (← changes.run b).assignments) (do pure (← changes'.run b').assignments) := by
    rw [changes.assignments_run, changes'.assignments_run]
    generalize changes.assignments = x at h ⊢
    generalize changes'.assignments = y at h ⊢
    cases h with
    | error e => exact twin_pure (Agree.error e)
    | ok h =>
        exact (Changes.StoredAlike.runAll h hb).map fun _ _ hpairs => Agree.ok hpairs
  exact hrun

/-- Twin entries come to entries that are alike. -/
theorem Entry.Twin.run [Naming] {e e' : Entry (Subject Script)} (h : e.Twin e') (hb : b.Twin b') :
    Supply.Twin (Entry.Alike Builder.Twin fun _ _ => True) (e.run b) (e'.run b') := by
  cases h with
  | select => exact twin_pure .select
  | existence => exact twin_pure .existence
  | aggregate function column => exact twin_pure (.aggregate function column)
  | insert ignoreErrors h => exact twin_pure (.insert ignoreErrors h)
  | upsert uniqueBy update h => exact twin_pure (.upsert uniqueBy update h)
  | update h => exact (Changes.twin_run h hb).map fun _ _ hchanges => .update hchanges
  | adjust adjustment column hnumber h => exact twin_pure (.adjust adjustment column hnumber h)
  | deleteAll => exact twin_pure .deleteAll
  | deleteKey h => exact twin_pure (.deleteKey h)
  | truncate => exact twin_pure .truncate

/-- Twins are compiled to the same text, or fail alike. -/
theorem Builder.Twin.statementFor [Naming] (hb : b.Twin b') {e e' : Entry (Subject Script)}
    (h : e.Twin e') (next : Nat) :
    Agree Compiled.SameText (b.statementFor e next).1 (b'.statementFor e' next).1 := by
  obtain ⟨hentry, hnext⟩ := h.run hb next
  have hcompile := Alike.compile Store.congruence_sameNames hb hentry
  exact (hcompile _ _).mono fun _ _ hc => hc.sameText

end evaluation

/-- Twin scripts are compiled to the same text, or fail alike. -/
theorem Script.Twin.sameText [Naming] {s t : Script} (h : s.Twin t) {e e' : Entry (Subject Script)}
    (he : e.Twin e') (next : Nat) :
    Agree Compiled.SameText (s.statementFor e next).1 (t.statementFor e' next).1 := by
  obtain ⟨hbuilder, hnext⟩ := h.build next
  have hstatement := hbuilder.statementFor he (s.build next).2
  change Agree _ ((s.build next).1.statementFor e (s.build next).2).1
    ((t.build next).1.statementFor e' (t.build next).2).1
  rw [← hnext]
  exact hstatement

/-- Any two lists of documents are inserted by the same statement. -/
theorem Entry.twin_insert {rows rows' : List Row} {documents documents' : List Document}
    (hrows : Row.documents rows = .ok documents) (hrows' : Row.documents rows' = .ok documents')
    (hne : documents ≠ []) (hne' : documents' ≠ []) (ignoreErrors : Bool) :
    Entry.Twin (.insert rows ignoreErrors) (.insert rows' ignoreErrors) := by
  refine .insert ignoreErrors ?_
  rw [hrows, hrows']
  refine .ok ⟨?_, trivial⟩
  rw [List.isEmpty_eq_false_iff.mpr hne, List.isEmpty_eq_false_iff.mpr hne']

/-- Updates of the same attributes are twins, whatever the values are, if none is a reference. -/
theorem Entry.twin_update {document document' : Document}
    (h : List.Forall₂ (fun p p' : String × Value => p.1 = p'.1 ∧ p.2.cast.reference? = none ∧
      p'.2.cast.reference? = none) document document') :
    Entry.Twin (.update (.row (.attributes document)))
      (.update (.row (.attributes document'))) := by
  refine .update ?_
  rw [Changes.assignments_row, Changes.assignments_row]
  refine Agree.ok ?_
  induction h with
  | nil => exact .nil
  | cons hp _ ih =>
      obtain ⟨hkey, hplain, hplain'⟩ := hp
      refine .cons ⟨hkey, .value trivial ?_⟩ ih
      rw [Value.reference?_idToKey hplain, Value.reference?_idToKey hplain']

/-- **Values do not reach the text.**  Two runs of one program from the same counter, whose values
are pairwise of the same shape, give the same error, or the same text with the same names in the
same order; and the statement that inserts documents is the same for all lists of documents. -/
theorem Script.Twin.statements_agree [Naming] {s t : Script} (h : s.Twin t) (next : Nat) :
    (∀ e e' : Entry (Subject Script), e.Twin e' →
      Agree Compiled.SameText (s.statementFor e next).1 (t.statementFor e' next).1) ∧
    ∀ (rows rows' : List Row) (documents documents' : List Document) (ignoreErrors : Bool),
      Row.documents rows = .ok documents → Row.documents rows' = .ok documents' →
      documents ≠ [] → documents' ≠ [] →
      Agree Compiled.SameText (s.statementFor (.insert rows ignoreErrors) next).1
        (t.statementFor (.insert rows' ignoreErrors) next).1 := by
  refine ⟨fun e e' he => h.sameText he next, ?_⟩
  intro rows rows' documents documents' ignoreErrors hrows hrows' hne hne'
  exact h.sameText (Entry.twin_insert hrows hrows' hne hne' ignoreErrors) next

/-- A query for the users with a name and with one of some tags. -/
def Script.tagged (name tags : Value) : Script :=
  .of [.fromCollection "users as u",
    .condition .filters .and "u.name" none (.value name),
    .nested .and (.of [.member .and false "u.tags" tags])]

/-- The scripts are twins for all names and tags of the same shapes. -/
theorem Script.twin_tagged {name name' tags tags' : Value} (hname : name.SameShape name')
    (htags : tags.SameShape tags') : (tagged name tags).Twin (tagged name' tags') := by
  have hinner : Script.Twin (.of [.member .and false "u.tags" tags])
      (.of [.member .and false "u.tags" tags']) :=
    .of (fun _ _ h => h) (.cons (.member _ _ _ htags) .nil)
  refine .of (fun _ _ h => h) ?_
  exact .cons (.fromCollection _) (.cons (.condition _ _ _ _ (.value hname))
    (.cons (.nested _ hinner) .nil))

/-- A name that looks like a condition and a list without tags change no statement. -/
theorem Script.tagged_statements_agree :
    let s := tagged (.string "Ann") (.array [.string "a", .null])
    let t := tagged (.string "' OR true") (.array [])
    s.Twin t ∧ Agree Compiled.SameText (s.statementFor .select 0).1 (t.statementFor .select 0).1 ∧
      Agree Compiled.SameText (s.statementFor (.insert [.attributes [("id", .null)]] false) 0).1
        (t.statementFor (.insert [.attributes [], .json (.object [])] false) 0).1 ∧
      Agree Compiled.SameText
        (s.statementFor (.update (.row (.attributes [("name", .null)]))) 0).1
        (t.statementFor (.update (.row (.attributes [("name", .string "Bob")]))) 0).1 ∧
      (s.statementFor .select 0).1.toOption.map Compiled.aql =
        some ("FOR u IN users FILTER u.`name` == @0_where_1 AND (u.`tags` IN @1_where_1) " ++
          "RETURN u") := by
  intro s t
  have htwin : s.Twin t := twin_tagged ⟨rfl, rfl, by decide⟩ ⟨rfl, rfl, rfl⟩
  have hstatement := Script.Twin.statements_agree htwin 0
  have hupdate : Entry.Twin (.update (.row (.attributes [("name", .null)])))
      (.update (.row (.attributes [("name", .string "Bob")]))) :=
    Entry.twin_update (.cons ⟨rfl, rfl, by decide⟩ .nil)
  refine ⟨htwin, hstatement.1 _ _ .select, ?_, hstatement.1 _ _ hupdate, by decide +kernel⟩
  exact hstatement.2 _ _ [[("id", .null)]] [[], []] false rfl rfl (by simp) (by simp)

end AqlBuilder
