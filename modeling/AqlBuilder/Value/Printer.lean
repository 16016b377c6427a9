import AqlBuilder.Value
import AqlBuilder.Json.Printer

/-!
# The JSON text of a value

Values are written like the JSON values they stand for, except that a narrow floating point number
has the digits and the layout of its own format.
-/

namespace AqlBuilder.Value

open Number

/-- Narrow floating point numbers are written plainly from a millionth up to thirteen digits. -/
def narrowFloatLayout : Layout := ⟨-6, 12⟩

mutual
/-- The JSON text of a value. -/
def text : Value → String
  | null => Json.text .null
  | bool b => Json.text (.bool b)
  | int32 n => Json.text (.int n.toInt)
  | int64 n => Json.text (.int n.toInt)
  | float32 x => Json.floatText narrowFloatLayout binary32 x.decode
  | float64 x => Json.floatText Json.floatLayout binary64 x.decode
  | string s => Json.quote s
  | array items => Json.arrayText (itemTexts items)
  | object members => Json.objectText (memberTexts members)
  | json j => j.text

/-- The texts of the items. -/
def itemTexts : List Value → List String
  | [] => []
  | item :: items => text item :: itemTexts items

/-- The keys with the texts of the members. -/
def memberTexts : List (String × Value) → List (String × String)
  | [] => []
  | (key, value) :: members => (key, text value) :: memberTexts members
end

end AqlBuilder.Value
