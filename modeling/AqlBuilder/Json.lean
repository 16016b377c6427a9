import AqlBuilder.Entries
import AqlBuilder.Number.Binary

/-!
# JSON

JSON values as they come from outside: rows and plans from a server, documents to be written. The
members of an object are ordered. An integer lies between the least signed and the greatest
unsigned 64-bit number; numbers outside of that range are floating point numbers.

- `Entries.put` and `Entries.ofPairs` keep the keys of an object distinct.
- `Json.Keyed` says that all keys are distinct, at every depth.
-/

namespace AqlBuilder

open Number

/-- A JSON value. -/
inductive Json
  | null
  | bool (value : Bool)
  | int (value : Int)
  | float (value : Binary64)
  | string (value : String)
  | array (items : List Json)
  | object (members : List (String × Json))
  deriving Inhabited

namespace Json

/-- The name of the kind of value. -/
def typeName : Json → String
  | null => "null"
  | bool _ => "bool"
  | int _ => "number"
  | float _ => "number"
  | string _ => "string"
  | array _ => "array"
  | object _ => "object"

/-- The member of an object under a key. -/
def member? (key : String) : Json → Option Json
  | object members => Entries.get? key members
  | _ => none

mutual
/-- Whether the keys of every object inside are distinct. -/
def Keyed : Json → Prop
  | array items => KeyedItems items
  | object members => (Entries.keys members).Nodup ∧ KeyedMembers members
  | _ => True

/-- Whether every item is `Keyed`. -/
def KeyedItems : List Json → Prop
  | [] => True
  | item :: items => Keyed item ∧ KeyedItems items

/-- Whether every member is `Keyed`. -/
def KeyedMembers : List (String × Json) → Prop
  | [] => True
  | (_, value) :: members => Keyed value ∧ KeyedMembers members
end

end Json

end AqlBuilder
