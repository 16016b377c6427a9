import AqlBuilder.Value

/-!
# Document keys

Callers write the key of a document as `id`, the server stores it as `_key`. Outbound data is
renamed from the first to the second at every depth, returned rows from the second to the first.
Where an object has both attributes the renamed one and its namesake meet under one key, and the
later value stays in the earlier place.
-/

namespace AqlBuilder

/-- The attribute name that callers use for the key of a document. -/
def idAttribute : String := "id"

/-- The attribute name that the server uses for the key of a document. -/
def keyAttribute : String := "_key"

/-- A name with one name replaced by another. -/
def renamed (source target name : String) : String := if name = source then target else name

namespace Value

mutual
/-- The value with an attribute renamed in it and in everything inside. -/
def renameDeep (source target : String) : Value → Value
  | object members => object (Entries.ofPairs (renameMembers source target members))
  | array items => array (renameItems source target items)
  | json j => renameJson source target j
  | null => null
  | bool b => bool b
  | int32 n => int32 n
  | int64 n => int64 n
  | float32 x => float32 x
  | float64 x => float64 x
  | string s => string s

/-- The items with an attribute renamed. -/
def renameItems (source target : String) : List Value → List Value
  | [] => []
  | item :: items => renameDeep source target item :: renameItems source target items

/-- The members with an attribute renamed in names and values. -/
def renameMembers (source target : String) : List (String × Value) → List (String × Value)
  | [] => []
  | (key, value) :: members =>
    (renamed source target key, renameDeep source target value)
      :: renameMembers source target members

/-- The value of a JSON value with an attribute renamed. -/
def renameJson (source target : String) : Json → Value
  | .object members => object (Entries.ofPairs (renameJsonMembers source target members))
  | .array items => array (renameJsonItems source target items)
  | .null => null
  | .bool b => bool b
  | .int n => ofInt n
  | .float x => float64 x
  | .string s => string s

/-- The values of the items with an attribute renamed. -/
def renameJsonItems (source target : String) : List Json → List Value
  | [] => []
  | item :: items => renameJson source target item :: renameJsonItems source target items

/-- The values of the members with an attribute renamed. -/
def renameJsonMembers (source target : String) : List (String × Json) → List (String × Value)
  | [] => []
  | (key, value) :: members =>
    (renamed source target key, renameJson source target value)
      :: renameJsonMembers source target members
end

/-- The attributes of an object with one of them renamed; other values are not looked into. -/
def renameShallow (source target : String) : Value → Value
  | object members =>
    object (Entries.ofPairs (members.map fun (key, value) => (renamed source target key, value)))
  | json j =>
    match ofJson j with
    | object members =>
      object (Entries.ofPairs (members.map fun (key, value) => (renamed source target key, value)))
    | other => other
  | other => other

/-- The value with an attribute renamed, at every depth if `recursive`. -/
def renameKey (source target : String) (recursive : Bool) (value : Value) : Value :=
  if recursive then value.renameDeep source target else value.renameShallow source target

/-- Outbound data with the key of every document under the server's name. -/
def idToKey (value : Value) : Value := value.renameDeep idAttribute keyAttribute

end Value

namespace Json

mutual
/-- A returned row with the key of every document under the callers' name. -/
def keyToId : Json → Json
  | object members => object (Entries.ofPairs (keyToIdMembers members))
  | array items => array (keyToIdItems items)
  | null => null
  | bool b => bool b
  | int n => int n
  | float x => float x
  | string s => string s

/-- The items with keys under the callers' name. -/
def keyToIdItems : List Json → List Json
  | [] => []
  | item :: items => keyToId item :: keyToIdItems items

/-- The members with keys under the callers' name. -/
def keyToIdMembers : List (String × Json) → List (String × Json)
  | [] => []
  | (key, value) :: members =>
    (renamed keyAttribute idAttribute key, keyToId value) :: keyToIdMembers members
end

end Json

end AqlBuilder
