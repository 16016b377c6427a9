import AqlBuilder.Json.Printer
import AqlBuilder.Json.Record
import AqlBuilder.Text.Case

/-!
# Indexes

The parameters of an index to be created. They are sent to the server as a JSON object in which
options that are not set are left out.

- `Index.toJson` and `Index.read?` write and read that object.
- `Index.defaultName` names an index after its collection, its fields and its kind.
-/

namespace AqlBuilder.Schema

/-- The kinds of index. -/
inductive IndexKind
  | persistent
  | hash
  | skiplist
  | ttl
  | geo
  | fulltext
  | inverted
  deriving DecidableEq

namespace IndexKind

/-- All kinds of index. -/
def all : List IndexKind := [persistent, hash, skiplist, ttl, geo, fulltext, inverted]

/-- The name of a kind. -/
def name : IndexKind → String
  | persistent => "persistent"
  | hash => "hash"
  | skiplist => "skiplist"
  | ttl => "ttl"
  | geo => "geo"
  | fulltext => "fulltext"
  | inverted => "inverted"

/-- The kind with a name. -/
def ofName? (name : String) : Option IndexKind := all.find? fun kind => kind.name = name

/-- The kind that a tree stands for: its name, or an object with its name and `null`. -/
def ofTree? : Json.Tree → Option IndexKind
  | .string units => (Json.unitText? units).bind ofName?
  | .object [(key, .null)] => (Json.unitText? key).bind ofName?
  | _ => none

end IndexKind

/-- The parameters of an index. -/
structure Index where
  kind : IndexKind
  fields : List String
  name : Option String
  unique : Option Bool
  sparse : Option Bool
  deduplicate : Option Bool
  inBackground : Option Bool
  /-- Seconds after which documents expire. -/
  expireAfter : Option Nat
  geoJson : Option Bool
  minLength : Option Nat

namespace Index

/-- An index without options. -/
def ofKind (kind : IndexKind) (fields : List String) : Index :=
  ⟨kind, fields, none, none, none, none, none, none, none, none⟩

/-- An index over sorted values. -/
def persistent (fields : List String) : Index := ofKind .persistent fields

/-- An index of documents that expire some seconds after the time in a field. -/
def ttl (field : String) (expireAfter : Nat) : Index :=
  { ofKind .ttl [field] with expireAfter := some expireAfter }

/-- An index of places. -/
def geo (fields : List String) (geoJson : Bool) : Index :=
  { ofKind .geo fields with geoJson := some geoJson }

/-- An index of the words of a field that have a minimal length. -/
def fulltext (field : String) (minLength : Nat) : Index :=
  { ofKind .fulltext [field] with minLength := some minLength }

/-- An index from words to documents. -/
def inverted (fields : List String) : Index := ofKind .inverted fields

/-- The index under a name. -/
def named (index : Index) (name : String) : Index := { index with name := some name }

/-- The index without equal entries. -/
def onlyUnique (index : Index) : Index := { index with unique := some true }

/-- The index without documents that lack a field. -/
def onlySparse (index : Index) : Index := { index with sparse := some true }

/-- The index with or without repeated items of an array. -/
def deduplicating (index : Index) (deduplicate : Bool) : Index :=
  { index with deduplicate := some deduplicate }

/-- The index, created without locking the collection. -/
def builtInBackground (index : Index) : Index := { index with inBackground := some true }

/-- The member for an option, if it is set. -/
def option {α : Type} (key : String) (value : Option α) (json : α → Json) : List (String × Json) :=
  match value with
  | some v => [(key, json v)]
  | none => []

/-- The JSON object of an index. -/
def toJson (index : Index) : Json :=
  .object ([("type", .string index.kind.name), ("fields", .array (index.fields.map .string))]
    ++ option "name" index.name .string
    ++ option "unique" index.unique .bool
    ++ option "sparse" index.sparse .bool
    ++ option "deduplicate" index.deduplicate .bool
    ++ option "inBackground" index.inBackground .bool
    ++ option "expireAfter" index.expireAfter (fun n => .int n)
    ++ option "geoJson" index.geoJson .bool
    ++ option "minLength" index.minLength (fun n => .int n))

/-- The JSON text of an index. -/
def text (index : Index) : String := index.toJson.text

/-- The fields of the JSON object of an index, in order. -/
def recordFields : List String :=
  ["type", "fields", "name", "unique", "sparse", "deduplicate", "inBackground", "expireAfter",
    "geoJson", "minLength"]

/-- An option of a record. It can only be left out of an object. -/
def option? {α : Type} (r : Json.Record) (key : String) (read : Json.Tree → Option α) :
    Option (Option α) :=
  if r.positional then r.field? key (Json.Tree.optional? read)
  else r.fieldOr? key none (Json.Tree.optional? read)

/-- The index that a JSON text stands for. -/
def read? (text : String) : Option Index := do
  let r ← Json.Record.read? recordFields text
  return {
    kind := ← r.field? "type" IndexKind.ofTree?
    fields := ← r.field? "fields" Json.Tree.texts?
    name := ← option? r "name" Json.Tree.text?
    unique := ← option? r "unique" Json.Tree.truth?
    sparse := ← option? r "sparse" Json.Tree.truth?
    deduplicate := ← option? r "deduplicate" Json.Tree.truth?
    inBackground := ← option? r "inBackground" Json.Tree.truth?
    expireAfter := ← option? r "expireAfter" (Json.Tree.natural? Json.greatest64)
    geoJson := ← option? r "geoJson" Json.Tree.truth?
    minLength := ← option? r "minLength" (Json.Tree.natural? Json.greatest32) }

/-- A field in the name of an index: marks inside a path become underscores or are left out. -/
def fieldInName (field : String) : String :=
  String.ofList ((field.toList.map fun c => if c == '.' || c == '[' then '_' else c).filter
    fun c => c != '*' && c != ']')

/-- The name of an index that has none of its own. -/
def defaultName (index : Index) (collection : String) : String :=
  Text.lower ("_".intercalate (collection :: index.fields.map fieldInName ++ [index.kind.name]))

end Index

end AqlBuilder.Schema
