import AqlBuilder.Alias.Rules
import AqlBuilder.Proofs.Binding.Growth
import AqlBuilder.Proofs.Builder.Reference
import AqlBuilder.Proofs.Script.Safety
import AqlBuilder.Proofs.Script.World
import AqlBuilder.Proofs.Statement.Assigned
import AqlBuilder.Proofs.Statement.Alike
import AqlBuilder.Proofs.Statement.Shape
import AqlBuilder.Proofs.Text.Joined
import AqlBuilder.Proofs.Value.Stored

/-!
# What updates and inserts store

An insert renames the keys of a whole document and binds the result. An update of the same document
writes an object literal, attribute by attribute: it renames the attribute, renames inside its value
and binds the value under a name of its own. Both meet the attributes in the same order and put them
into a dictionary, so an attribute that is renamed to one that is there takes its place in both.

- `Builder.assigned_plain`: the fields of an update are the renamed attributes with fresh names.
- `Builder.updateStatement_eq`: what an update is beside the removal from the same query.
- `Builder.update_stores_inserted` compares the two documents.
-/

namespace AqlBuilder

open Outcome

/-- A document whose attributes are no paths and whose values are no references. -/
structure Document.Plain (d : Document) : Prop where
  whole : ∀ pair ∈ d, ¬ ['-', '>'] <:+: pair.1.toList
  trimmed : ∀ pair ∈ d, Text.trim pair.1 = pair.1
  bound : ∀ pair ∈ d, pair.2.cast.reference? = none

/-- The attributes of a document under the server's names. -/
def Document.stored (d : Document) : Entries Value :=
  Value.renameMembers idAttribute keyAttribute d

/-- An object literal whose attributes are bound values, by their names. -/
def Aql.boundObject (fields : Entries String) : String :=
  objectLiteral (fields.map (Prod.map id ("@" ++ ·)))

/-- The document that such a literal stands for, if all its names are bound. -/
def Bindings.document? (bindings : Bindings) (fields : Entries String) : Option Document :=
  fields.mapM fun field => (Entries.get? field.2 bindings).map (Prod.mk field.1)

/-- The piece of an update that assigns bound values. -/
def Builder.assignPiece (b : Builder) (fields : Entries String) (collection : String) : String :=
  "UPDATE " ++ b.docVar.getD "" ++ " WITH " ++ Aql.boundObject fields ++ " IN " ++ collection

/-- A statement that assigns a document to every row of a query. -/
def Compiled.Updates (b : Builder) (document : Document) (c : Compiled) : Prop :=
  ∃ pieces collection fields, b.target = .ok collection ∧
    c.aql = " ".intercalate (pieces ++ [b.assignPiece fields collection]) ∧
    c.bindings.document? fields = some document

/-- The text of an insert of the rows that are bound to a name. -/
def Aql.insertText (name collection options : String) : String :=
  loop "doc" ("@" ++ name) ++ " INSERT doc INTO " ++ collection ++ options ++ " RETURN NEW._key"

/-- A statement that inserts documents. -/
def Compiled.Inserts (b : Builder) (documents : List Document) (c : Compiled) : Prop :=
  ∃ name collection options, b.target = .ok collection ∧
    c.aql = Aql.insertText name collection options ∧
    Entries.get? name c.bindings = some (.array (documents.map .object))

section values

/-- Members are cast one by one. -/
theorem Value.castMembers_eq_map (members : List (String × Value)) :
    castMembers members = members.map (Prod.map id cast) := by
  induction members with
  | nil => rfl
  | cons pair rest ih =>
      rw [castMembers, ih]
      rfl

/-- What is bound for a document that is inserted. -/
theorem Value.cast_idToKey_object (d : Document) : (Value.object d).idToKey.cast =
    .object ((Entries.ofPairs d.stored).map (Prod.map id cast)) := by
  change Value.object (castMembers (Entries.ofPairs d.stored)) = _
  rw [castMembers_eq_map]

/-- An object literal stands for the values that its names are bound to. -/
theorem Bindings.document?_of_related {bindings : Bindings} {fields : Entries String}
    {document : Document}
    (h : Entries.Related (fun name v => Entries.get? name bindings = some v) fields document) :
    bindings.document? fields = some document := by
  unfold document?
  induction h with
  | nil => rfl
  | @cons field pair fields document hpair hrest ih =>
      obtain ⟨key, name⟩ := field
      obtain ⟨key', v⟩ := pair
      obtain ⟨rfl, hname⟩ : key = key' ∧ Entries.get? name bindings = some v := hpair
      rw [List.mapM_cons, ih, hname]
      rfl

/-- A name that stands for one value is bound to it in every statement that refers to the name. -/
theorem Compiled.get?_ofStore {s : Store} {name aql : String} {v : Value} (h : s.Fixes name v)
    (hname : IsName name) (haql : name ∈ references aql) :
    Entries.get? name (Compiled.ofStore aql s).bindings = some v := by
  change Entries.get? name (s.flatten.filter fun entry => mentions aql entry.1) = some v
  rw [Entries.get?_filter (mentions aql), if_pos ((mentions_iff hname).mpr haql), h.get?_flatten]

end values

/-- An object literal refers to the names of its attributes, whatever is around it. -/
theorem Aql.mem_references_boundObject {fields : Entries String} {field : String × String}
    (hfield : field ∈ fields) (hname : IsName field.2) (front back : String) :
    field.2 ∈ references (front ++ boundObject fields ++ back) := by
  have hown : field.2 ∈ references (objectKey field.1 ++ ": " ++ "@" ++ field.2) :=
    mem_references_of_last hname
  have hlisted : field.2 ∈ references (", ".intercalate ((fields.map (Prod.map id ("@" ++ ·))).map
      fun entry => objectKey entry.1 ++ ": " ++ entry.2)) := by
    refine mem_references_intercalate separator_comma ?_ hown
    refine List.mem_map.mpr ⟨_, List.mem_map.mpr ⟨field, hfield, rfl⟩, ?_⟩
    simp only [Prod.map, id, String.append_assoc]
  have hclose : Separator "\x7d" := by decide
  have hall := mem_references_between (front ++ "\x7b") hlisted (hclose.ends_append back)
  rw [boundObject, objectLiteral_eq]
  simpa only [String.append_assoc] using hall

section assignments

variable {w : Builder} {d : Document} {v : Value}

/-- A value that is no reference is assigned under a fresh name. -/
theorem Builder.boundForUpdate_value [Naming] (w : Builder) (h : v.cast.reference? = none) :
    w.boundForUpdate (.value v) =
      pure ("@" ++ w.bindings.nextName .update, w.file v.idToKey .update) := by
  unfold boundForUpdate storedOperand
  simp only [bindValue_of_none (Value.reference?_idToKey h)]
  rfl

/-- An attribute that is no path is assigned as a whole. -/
theorem Assigned.assign_plain {fields : Entries Assigned} {key : String}
    (hwhole : ¬ ['-', '>'] <:+: key.toList) (htrim : Text.trim key = key) (aql : String) :
    assign fields key aql = fields.put (renamed idAttribute keyAttribute key) (value aql) := by
  have hpath : pathOf key = [renamed idAttribute keyAttribute key] := by
    have hsplit : Text.splitArrow key.toList = [key.toList] := Text.whole_iff.mpr hwhole
    have htrim : String.ofList (Text.trimBlanks key.toList) = key := htrim
    rw [pathOf, hsplit, List.map_singleton, htrim]
  rw [assign, hpath, assignPath]

/-- The builder with the values of a document filed, each attribute with its name. -/
def Builder.fileAll (w : Builder) (d : Document) : Entries String × Builder :=
  ((w.bindings.addAll .update d.stored).1,
    { w with bindings := (w.bindings.addAll .update d.stored).2 })

/-- The fields of an update are the renamed attributes with fresh names. -/
theorem Builder.assigned_plain [Naming] (w : Builder) (h : d.Plain) (fields : Entries Assigned) :
    w.assigned fields d.assignments = pure
      (fields.putAll ((w.fileAll d).1.map (Prod.map id fun name => .value ("@" ++ name))),
        (w.fileAll d).2) := by
  induction d generalizing w fields with
  | nil => rfl
  | cons pair rest ih =>
      obtain ⟨key, v⟩ := pair
      have hrest : Document.Plain rest :=
        ⟨fun p hp => h.whole p (.tail _ hp), fun p hp => h.trimmed p (.tail _ hp),
          fun p hp => h.bound p (.tail _ hp)⟩
      have hvalue := w.boundForUpdate_value (h.bound _ List.mem_cons_self)
      have hassign : Assigned.assign fields key ("@" ++ w.bindings.nextName .update) =
          fields.put (renamed idAttribute keyAttribute key)
            (.value ("@" ++ w.bindings.nextName .update)) :=
        Assigned.assign_plain (h.whole _ List.mem_cons_self) (h.trimmed _ List.mem_cons_self) _
      change (do
        let bound ← w.boundForUpdate (.value v)
        assigned bound.2 (Assigned.assign fields key bound.1) (Document.assignments rest)) = _
      rw [hvalue]
      change assigned (w.file v.idToKey .update)
        (Assigned.assign fields key ("@" ++ w.bindings.nextName .update)) _ = _
      rw [ih (w.file v.idToKey .update) hrest, hassign]
      rfl

/-- Assignments to attributes that are no paths are written as one flat object. -/
theorem Assigned.text_plain (names : Entries String) :
    (nested (Entries.ofPairs
      (names.map (Prod.map id fun name => value ("@" ++ name))))).text =
      Aql.boundObject (Entries.ofPairs names) := by
  rw [Entries.ofPairs_map, text, fieldTexts_eq_map, Aql.boundObject, List.map_map]
  refine congrArg Aql.objectLiteral (List.map_congr_left fun field _ => ?_)
  rfl

end assignments

section statements

namespace Builder

variable {b : Builder}

/-- An update refers to the names that it assigns. -/
theorem mem_references_assignPiece (b : Builder) {fields : Entries String} {field : String × String}
    (hfield : field ∈ fields) (hname : IsName field.2) (collection : String) :
    field.2 ∈ references (b.assignPiece fields collection) := by
  have h := Aql.mem_references_boundObject hfield hname ("UPDATE " ++ b.docVar.getD "" ++ " WITH ")
    (" IN " ++ collection)
  rwa [← String.append_assoc] at h

/-- The collection that a statement writes to, and the pieces that select its documents. -/
def selected (b : Builder) : Outcome (String × List String) := do
  ofExcept b.check
  b.onCopy fun copy => do
    let collection ← ofExcept copy.target
    let pieces ← copy.selection
    pure (collection, pieces)

/-- A removal selects the documents and removes them. -/
theorem deleteStatement_eq (b : Builder) : b.deleteStatement none = b.selected >>= fun front =>
    pure (.ofStore (" ".intercalate (front.2 ++ [b.removePiece front.1])) b.bindings) := by
  unfold selected deleteStatement
  rw [bind_bind]
  congr 1
  funext _
  unfold onCopy
  rw [bind_bind]
  refine onCopy_congr fun w hw => ?_
  rw [bind_bind]
  congr 1
  funext collection
  rw [bind_bind, removeText, docVar_of_compiled hw, bindings_of_compiled hw]
  rfl

/-- An update that assigns a plain document is the removal from the same query with another last
piece, and with the values of the document. -/
theorem updateStatement_eq [Naming] (b : Builder) {changes : Changes Builder} {d : Document}
    (hchanges : changes.assignments = .ok d.assignments) (hne : d ≠ []) (hplain : d.Plain) :
    b.updateStatement changes = b.selected >>= fun front =>
      pure (.ofStore (" ".intercalate (front.2 ++
        [b.assignPiece (Entries.ofPairs (b.fileAll d).1) front.1])) (b.fileAll d).2.bindings) := by
  have hassigned : (Document.assignments (Q := Builder) d).isEmpty = false := by
    cases d with
    | nil => exact absurd rfl hne
    | cons pair rest => rfl
  unfold selected updateStatement
  rw [hchanges, bind_bind]
  congr 1
  funext _
  change (if (Document.assignments (Q := Builder) d).isEmpty then _ else _) = _
  rw [hassigned]
  simp only [Bool.false_eq_true, if_false]
  unfold onCopy
  rw [bind_bind]
  refine onCopy_congr fun w hw => ?_
  rw [bind_bind, updateText]
  congr 1
  funext collection
  rw [bind_bind, w.assigned_plain hplain]
  change (do
    let selection ← w.selection
    pure (Compiled.ofStore (" ".intercalate (selection ++ ["UPDATE " ++ w.docVar.getD ""
      ++ " WITH " ++ (Assigned.nested (Entries.ofPairs
        ((w.fileAll d).1.map (Prod.map id fun name => .value ("@" ++ name))))).text ++ " IN "
      ++ collection])) (w.fileAll d).2.bindings)) = _
  rw [Assigned.text_plain, docVar_of_compiled hw]
  have hfiled :
    w.fileAll d = ((b.fileAll d).1, { w with bindings := (b.fileAll d).2.bindings }) := by
    unfold fileAll
    rw [bindings_of_compiled hw]
  rw [hfiled]
  rfl

/-- A query whose documents are selected has no error and a collection to write to. -/
theorem yields_selected (b : Builder) :
    b.selected.Yields fun front => b.error = none ∧ b.target = .ok front.1 := by
  refine yields_checked b fun herror => yields_onCopy fun w hw => ?_
  refine (yields_ofExcept fun _ hcollection => hcollection).bind fun collection hcollection => ?_
  exact (yields_any _).map fun _ _ => ⟨herror, target_of_compiled hw ▸ hcollection⟩

/-- The options of an insert. -/
def insertOptions (ignoreErrors : Bool) : String :=
  if ignoreErrors then " OPTIONS \x7bignoreErrors: true\x7d" else ""

/-- The statement that inserts one document, wherever there is a collection to write to. -/
theorem insertStatement_ok [Naming] {row : Row} {d : Document} {collection : String}
    (herror : b.error = none) (htarget : b.target = .ok collection) (hrow : row.document = .ok d)
    (ignoreErrors : Bool) (next : Nat) :
    b.outcome (.insert [row] ignoreErrors) next = .ok (.ofStore
      (Aql.insertText (b.bindings.nextName .insert) collection (insertOptions ignoreErrors))
      (b.bindings.add (storedRows [d]) .insert).2) := by
  have hrows : Row.documents [row] = .ok [d] := by
    unfold Row.documents
    rw [hrow]
    rfl
  have hcheck : b.check = .ok () := by
    unfold check
    rw [herror]
  have hcopy := b.compiled_workingCopy next
  change ((b.insertStatement [row] ignoreErrors) next).1 = _
  unfold insertStatement
  rw [hcheck, hrows]
  change ((ofExcept (b.workingCopy next).1.target >>= fun collection => pure (Compiled.ofStore
    (Aql.insertText ((b.workingCopy next).1.bindings.nextName .insert) collection
      (insertOptions ignoreErrors))
    ((b.workingCopy next).1.bindings.add (storedRows [d]) .insert).2)) (b.workingCopy next).2).1 = _
  rw [target_of_compiled hcopy, htarget, bindings_of_compiled hcopy]
  rfl

/-- A row is bound with native values under the server's names. -/
theorem storedRows_cast (d : Document) : (storedRows [d]).cast =
    .array [.object ((Entries.ofPairs d.stored).map (Prod.map id Value.cast))] := by
  rw [← Value.cast_idToKey_object]
  rfl

/-- The rows of an insert are bound to the one name in it. -/
theorem inserts_ofStore {d : Document} {collection : String} (htarget : b.target = .ok collection)
    (hunspent : b.bindings.Unspent) (options : String) :
    (Compiled.ofStore (Aql.insertText (b.bindings.nextName .insert) collection options)
      (b.bindings.add (storedRows [d]) .insert).2).Inserts b
        [(Entries.ofPairs d.stored).map (Prod.map id Value.cast)] := by
  have hname := b.bindings.isName_nextName .insert
  refine ⟨b.bindings.nextName .insert, collection, options, htarget, rfl, ?_⟩
  have hfixes := hunspent.fixes_nextName (storedRows [d]) .insert
  rw [storedRows_cast] at hfixes
  refine Compiled.get?_ofStore hfixes hname ?_
  have hinto : Separator " INSERT doc INTO " := by decide
  have hloop : b.bindings.nextName .insert ∈
      references (Aql.loop "doc" ("@" ++ b.bindings.nextName .insert)) := by
    rw [Aql.loop, ← String.append_assoc]
    exact mem_references_of_last hname
  have hall := mem_references_between "" hloop
    (hinto.ends_append (collection ++ options ++ " RETURN NEW._key"))
  unfold Aql.insertText
  simpa only [String.append_assoc, String.empty_append] using hall

/-- The literal of an update refers to its names, each of which stands for the stored attribute. -/
theorem updates_ofStore {d : Document} {collection : String} (htarget : b.target = .ok collection)
    (hunspent : b.bindings.Unspent) (pieces : List String) :
    (Compiled.ofStore (" ".intercalate (pieces ++
        [b.assignPiece (Entries.ofPairs (b.fileAll d).1) collection]))
      (b.fileAll d).2.bindings).Updates b
        ((Entries.ofPairs d.stored).map (Prod.map id Value.cast)) := by
  have hfixes : Entries.Related (b.fileAll d).2.bindings.Fixes (b.fileAll d).1
      (d.stored.map (Prod.map id Value.cast)) :=
    List.forall₂_map_right_iff.mpr (Store.fixes_addAll hunspent .update d.stored)
  have hnames : ∀ field ∈ Entries.ofPairs (b.fileAll d).1, IsName field.2 :=
    fun field hfield => Store.isName_of_mem_addAll (Entries.mem_ofPairs hfield)
  refine ⟨pieces, collection, _, htarget, rfl, Bindings.document?_of_related ?_⟩
  rw [← Entries.ofPairs_map]
  refine ((List.forall₂_and_left _ _).mpr ⟨fun _ h => h, hfixes.ofPairs⟩).imp ?_
  rintro field pair ⟨hfield, hkey, hvalue⟩
  have hname := hnames field hfield
  refine ⟨hkey, Compiled.get?_ofStore hvalue hname ?_⟩
  exact mem_references_intercalate separator_blank (List.mem_append_right _ List.mem_cons_self)
    (b.mem_references_assignPiece hfield hname collection)

/-- **An update writes what an insert would store.**  Let a document have attributes that are no
paths, with values that are no references, and let the query hold none of the names that it is yet
to give. Then the document never keeps an update from compiling: it compiles where the removal of
the same documents does. Its statement assigns an object literal, and with the values behind the
names of the literal this is the one row that the insert of the document binds, in the same
order. -/
theorem update_stores_inserted [Naming] (b : Builder) {changes : Changes Builder} {row : Row}
    {d : Document}
    (hchanges : changes.assignments = .ok d.assignments) (hrow : row.document = .ok d)
    (hne : d ≠ []) (hplain : d.Plain) (hunspent : b.bindings.Unspent) (next : Nat) :
    ((∃ u, b.outcome (.update changes) next = .ok u) ↔
      ∃ r, b.outcome (.delete none) next = .ok r) ∧
    ∀ u, b.outcome (.update changes) next = .ok u → ∃ document, u.Updates b document ∧
      ∀ ignoreErrors, ∃ i, b.outcome (.insert [row] ignoreErrors) next = .ok i ∧
        i.Inserts b [document] := by
  have hupdate : b.outcome (.update changes) next = ((b.selected >>= fun front =>
      pure (.ofStore (" ".intercalate (front.2 ++
        [b.assignPiece (Entries.ofPairs (b.fileAll d).1) front.1]))
        (b.fileAll d).2.bindings)) next).1 := by
    rw [← b.updateStatement_eq hchanges hne hplain]
    rfl
  have hdelete : b.outcome (.delete none) next = ((b.selected >>= fun front =>
      pure (.ofStore (" ".intercalate (front.2 ++ [b.removePiece front.1]))
        b.bindings)) next).1 := by
    rw [← b.deleteStatement_eq]
    rfl
  constructor
  · rw [hupdate, hdelete]
    simp only [Outcome.map_ok_iff]
    constructor
    · rintro ⟨_, front, hfront, -⟩
      exact ⟨_, front, hfront, rfl⟩
    · rintro ⟨_, front, hfront, -⟩
      exact ⟨_, front, hfront, rfl⟩
  · intro u hu
    rw [hupdate, Outcome.map_ok_iff] at hu
    obtain ⟨⟨collection, pieces⟩, hfront, rfl⟩ := hu
    obtain ⟨herror, htarget⟩ := b.yields_selected next _ hfront
    refine ⟨_, updates_ofStore htarget hunspent pieces, fun ignoreErrors => ?_⟩
    exact ⟨_, insertStatement_ok herror htarget hrow ignoreErrors next,
      inserts_ofStore htarget hunspent _⟩

/-- A query for characters that has filed a value already. -/
def sworn : Builder :=
  file (fromCollection (Clauses.empty 0) "characters as c") (.string "Stark") .update

/-- A document with two attributes for its key, and with keys in native and in embedded values. -/
def ned : Document :=
  [("id", .string "NedStark"), ("age", .int32 41),
    ("children", .array [.object [("id", .string "AryaStark")]]), ("_key", .json (.int 7)),
    ("seat", .json (.object [("id", .string "winterfell")]))]

/-- The second key takes the place of the first, and inner keys are renamed. -/
theorem ned_updated :
    (sworn.outcome (.update (.row (.attributes ned))) 1).toOption.map Compiled.aql =
      some ("FOR c IN characters UPDATE c WITH \x7b_key: @0_update_5, age: @0_update_3, " ++
        "children: @0_update_4, seat: @0_update_6\x7d IN characters") ∧
    ∀ u, sworn.outcome (.update (.row (.attributes ned))) 1 = .ok u →
      ∃ document, u.Updates sworn document ∧ ∀ ignoreErrors, ∃ i,
        sworn.outcome (.insert [.attributes ned] ignoreErrors) 1 = .ok i ∧
          i.Inserts sworn [document] := by
  have hplain : ned.Plain := ⟨by decide, by decide, by decide⟩
  have hunspent : sworn.bindings.Unspent := (Store.unspent_empty 0).add (.string "Stark") .update
  refine ⟨by decide +kernel, ?_⟩
  exact (update_stores_inserted sworn rfl rfl (by simp [ned]) hplain hunspent 1).2

end Builder

end statements

/-- No builder of a program has a name that it is yet to give. -/
theorem World.Reachable.unspent [Naming] {W : World} (h : W.Reachable) {b : Builder}
    (hb : b ∈ W.live) :
    b.bindings.Unspent :=
  h.sound.unspent (Multiset.mem_of_le (World.bindings_le W.live) (Multiset.mem_map_of_mem _ hb))

end AqlBuilder
