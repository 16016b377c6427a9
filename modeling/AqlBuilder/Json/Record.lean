import AqlBuilder.Json.Reader

/-!
# Records

A record is a JSON object with known fields. Fields that are not known are passed over, a known
field stands at most once. A record may also be written as an array of its fields in order, and
then only fields at its end can be left out.

Readers of single fields look at the tree as it was written: integers without point and exponent,
strings, truth values and lists of strings.
-/

namespace AqlBuilder.Json

/-- The fields of a record as they were written. -/
structure Record where
  fields : Entries Tree
  /-- Whether the record was written as an array. -/
  positional : Bool

namespace Record

/-- The known fields among some members, each at most once. -/
def knownFields? (known : List String) :
    List (List StringUnit × Tree) → Entries Tree → Option (Entries Tree)
  | [], fields => some fields
  | (key, tree) :: rest, fields => do
    let key ← unitText? key
    if !known.contains key then knownFields? known rest fields
    else if fields.has key then none
    else knownFields? known rest (fields.put key tree)

/-- The record with some known fields that a tree stands for. -/
def ofTree? (known : List String) : Tree → Option Record
  | .object members => (knownFields? known members []).map fun fields => ⟨fields, false⟩
  | .array items => if items.length ≤ known.length then some ⟨known.zip items, true⟩ else none
  | _ => none

variable {α : Type}

/-- A field that has to be present. -/
def field? (r : Record) (key : String) (read : Tree → Option α) : Option α :=
  (r.fields.get? key).bind read

/-- A field with a default. -/
def fieldOr? (r : Record) (key : String) (default : α) (read : Tree → Option α) : Option α :=
  match r.fields.get? key with
  | some tree => read tree
  | none => some default

end Record

namespace Tree

/-- The text of a string. -/
def text? : Tree → Option String
  | string units => unitText? units
  | _ => none

/-- A truth value. -/
def truth? : Tree → Option Bool
  | bool b => some b
  | _ => none

/-- An integer from zero up to a bound. -/
def natural? (bound : Nat) : Tree → Option Nat
  | number n =>
    match n.value? with
    | some (.int value) => if 0 ≤ value && value ≤ bound then some value.toNat else none
    | _ => none
  | _ => none

/-- The texts of a list of strings. -/
def texts? : Tree → Option (List String)
  | array items => items.mapM text?
  | _ => none

/-- Nothing for `null`, and otherwise what a reader finds. -/
def optional? {α : Type} (read : Tree → Option α) : Tree → Option (Option α)
  | null => some none
  | tree => (read tree).map some

end Tree

-- Powers are those of core, whatever else is imported.
attribute [local instance (2000)] instPowNat

/-- The greatest unsigned 32-bit integer. -/
def greatest32 : Nat := 2 ^ (32 : Nat) - 1

/-- The greatest unsigned 64-bit integer. -/
def greatest64 : Nat := 2 ^ (64 : Nat) - 1

/-- The record with some known fields in a text. -/
def Record.read? (known : List String) (text : String) : Option Record := do
  Record.ofTree? known (← Tree.read? text)

end AqlBuilder.Json
