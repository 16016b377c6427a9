import AqlBuilder.Json

/-!
# Values

The values that a statement binds or stores. Numbers keep their width, and a JSON value may be
embedded as it came; before a value is bound it is cast, so that bound values hold no embedded JSON.

- `Value.ofJson` and `Value.toJson` lead from one form to the other.
- `Value.cast` replaces embedded JSON at every depth.
-/

namespace AqlBuilder

open Number

/-- A value that can be bound to a statement or stored in a document. -/
inductive Value
  | null
  | bool (value : Bool)
  | int32 (value : Int32)
  | int64 (value : Int64)
  | float32 (value : Binary32)
  | float64 (value : Binary64)
  | string (value : String)
  | array (items : List Value)
  | object (members : List (String × Value))
  /-- A JSON value that has not been cast yet. -/
  | json (value : Json)
  deriving Inhabited

/-- Attributes with their values, in order. -/
abbrev Document := Entries Value

/-- Bound values under their names, in order. -/
abbrev Bindings := Entries Value

namespace Value

-- Powers are those of core, whatever else is imported.
attribute [local instance (2000)] instPowNat

/-- The value of an integer: a signed 64-bit integer, or the nearest floating point number. -/
def ofInt (n : Int) : Value :=
  if -2 ^ (63 : Nat) ≤ n && n < 2 ^ (63 : Nat) then int64 (Int64.ofInt n)
  else float64 (Binary64.ofInt n)

mutual
/-- The value of a JSON value. -/
def ofJson : Json → Value
  | .null => null
  | .bool b => bool b
  | .int n => ofInt n
  | .float x => float64 x
  | .string s => string s
  | .array items => array (ofJsonItems items)
  | .object members => object (ofJsonMembers members)

/-- The values of the items. -/
def ofJsonItems : List Json → List Value
  | [] => []
  | item :: items => ofJson item :: ofJsonItems items

/-- The values of the members. -/
def ofJsonMembers : List (String × Json) → List (String × Value)
  | [] => []
  | (key, value) :: members => (key, ofJson value) :: ofJsonMembers members
end

/-- The JSON value of a number, `null` if it is not finite. -/
def jsonOfFloat (x : Binary64) : Json := if x.isFinite then .float x else .null

mutual
/-- The JSON value of a value. -/
def toJson : Value → Json
  | null => .null
  | bool b => .bool b
  | int32 n => .int n.toInt
  | int64 n => .int n.toInt
  | float32 x => jsonOfFloat x.widen
  | float64 x => jsonOfFloat x
  | string s => .string s
  | array items => .array (toJsonItems items)
  | object members => .object (toJsonMembers members)
  | json j => j

/-- The JSON values of the items. -/
def toJsonItems : List Value → List Json
  | [] => []
  | item :: items => toJson item :: toJsonItems items

/-- The JSON values of the members. -/
def toJsonMembers : List (String × Value) → List (String × Json)
  | [] => []
  | (key, value) :: members => (key, toJson value) :: toJsonMembers members
end

mutual
/-- The value with embedded JSON replaced at every depth. -/
def cast : Value → Value
  | json j => ofJson j
  | array items => array (castItems items)
  | object members => object (castMembers members)
  | null => null
  | bool b => bool b
  | int32 n => int32 n
  | int64 n => int64 n
  | float32 x => float32 x
  | float64 x => float64 x
  | string s => string s

/-- The items with embedded JSON replaced. -/
def castItems : List Value → List Value
  | [] => []
  | item :: items => cast item :: castItems items

/-- The members with embedded JSON replaced. -/
def castMembers : List (String × Value) → List (String × Value)
  | [] => []
  | (key, value) :: members => (key, cast value) :: castMembers members
end

/-- Whether the value is `null`, embedded or not. -/
def isNull : Value → Bool
  | null => true
  | json .null => true
  | _ => false

/-- The name of the kind of value. -/
def typeName : Value → String
  | null => "null"
  | bool _ => "bool"
  | int32 _ => "number"
  | int64 _ => "number"
  | float32 _ => "number"
  | float64 _ => "number"
  | string _ => "string"
  | array _ => "array"
  | object _ => "object"
  | json j => j.typeName

/-- The items of an array. -/
def items? : Value → Option (List Value)
  | array items => some items
  | _ => none

/-- The attributes of an object. -/
def attributes? : Value → Option Document
  | object members => some members
  | _ => none

/-- The text of a string. -/
def text? : Value → Option String
  | string s => some s
  | _ => none

/-- Whether the value is a number that is not embedded in JSON. -/
def isNumber : Value → Bool
  | int32 _ => true
  | int64 _ => true
  | float32 _ => true
  | float64 _ => true
  | _ => false

end Value

end AqlBuilder

/-!
## Casting twice

A value that was read from JSON holds no embedded JSON, so casting leaves it as it is, and casting a
second time changes nothing.

- `Value.cast_cast` says so.
-/

namespace AqlBuilder.Value

mutual
/-- A value that JSON is read as has no embedded JSON, so casting leaves it as it is. -/
theorem cast_ofJson : (j : Json) → (ofJson j).cast = ofJson j
  | .null => rfl
  | .bool _ => rfl
  | .int n => by
    change (ofInt n).cast = ofInt n
    unfold ofInt
    split <;> rfl
  | .float _ => rfl
  | .string _ => rfl
  | .array items => congrArg array (castItems_ofJsonItems items)
  | .object members => congrArg object (castMembers_ofJsonMembers members)

/-- Casting leaves the items of a JSON array as they are. -/
theorem castItems_ofJsonItems :
    (items : List Json) → castItems (ofJsonItems items) = ofJsonItems items
  | [] => rfl
  | item :: items => by
    rw [ofJsonItems, castItems, cast_ofJson item, castItems_ofJsonItems items]

/-- Casting leaves the members of a JSON object as they are. -/
theorem castMembers_ofJsonMembers : (members : List (String × Json)) →
    castMembers (ofJsonMembers members) = ofJsonMembers members
  | [] => rfl
  | (key, value) :: members => by
    rw [ofJsonMembers, castMembers, cast_ofJson value, castMembers_ofJsonMembers members]
end

mutual
/-- Casting a second time changes nothing. -/
theorem cast_cast : (v : Value) → v.cast.cast = v.cast
  | json j => cast_ofJson j
  | array items => congrArg array (castItems_castItems items)
  | object members => congrArg object (castMembers_castMembers members)
  | null => rfl
  | bool _ => rfl
  | int32 _ => rfl
  | int64 _ => rfl
  | float32 _ => rfl
  | float64 _ => rfl
  | string _ => rfl

/-- Items that are cast once are cast for good. -/
theorem castItems_castItems : (items : List Value) → castItems (castItems items) = castItems items
  | [] => rfl
  | item :: items => by
    rw [castItems, castItems, cast_cast item, castItems_castItems items]

/-- Members that are cast once are cast for good. -/
theorem castMembers_castMembers : (members : List (String × Value)) →
    castMembers (castMembers members) = castMembers members
  | [] => rfl
  | (key, value) :: members => by
    rw [castMembers, castMembers, cast_cast value, castMembers_castMembers members]
end

end AqlBuilder.Value
