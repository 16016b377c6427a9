import AqlBuilder.Json

/-!
# Rows as characters

A row type: characters have a key, perhaps a name, and an age that is zero if it is not known.
-/

namespace AqlBuilder

/-- A character. -/
structure Character where
  id : String
  name : Option String
  age : Int

namespace Character

-- Powers are those of core, whatever else is imported.
attribute [local instance (2000)] instPowNat

/-- The name in a row; it may be missing or `null`. -/
def nameIn? (members : List (String × Json)) : Option (Option String) :=
  match Entries.get? "name" members with
  | none => some none
  | some .null => some none
  | some (.string name) => some (some name)
  | some _ => none

/-- The age in a row, a signed 64-bit integer; it may be missing. -/
def ageIn? (members : List (String × Json)) : Option Int :=
  match Entries.get? "age" members with
  | none => some 0
  | some (.int n) => if n < 2 ^ (63 : Nat) then some n else none
  | some _ => none

/-- The character of a row. -/
def ofRow? : Json → Option Character
  | .object members => do
    match Entries.get? "id" members with
    | some (.string id) => some ⟨id, ← nameIn? members, ← ageIn? members⟩
    | _ => none
  | _ => none

end Character

end AqlBuilder
