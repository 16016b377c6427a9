import AqlBuilder.Error
import AqlBuilder.Text.Split

/-!
# Operators

A comparison operator is its text in a statement. Callers may use the spellings of other query
languages; `Operator.ofSpelling` understands them. Operators written by the caller are taken as they
are, and are the same operator as a named one with the same text.
-/

namespace AqlBuilder

/-- A comparison operator. -/
structure Operator where
  text : String
  deriving DecidableEq, Inhabited

namespace Operator

/-- Equality. -/
def equal : Operator := ⟨"=="⟩
/-- Inequality. -/
def notEqual : Operator := ⟨"!="⟩
/-- Pattern match with wildcards. -/
def like : Operator := ⟨"LIKE"⟩
/-- Negated pattern match with wildcards. -/
def notLike : Operator := ⟨"NOT LIKE"⟩
/-- Pattern match in either case, which is compiled to a function call. -/
def likeAnyCase : Operator := ⟨"ILIKE"⟩
/-- Membership in an array. -/
def member : Operator := ⟨"IN"⟩
/-- Negated membership in an array. -/
def notMember : Operator := ⟨"NOT IN"⟩
/-- Bits that are set in both numbers. -/
def bitAnd : Operator := ⟨"&"⟩
/-- Bits that are set in one of the numbers. -/
def bitOr : Operator := ⟨"|"⟩
/-- Bits that are set in exactly one of the numbers. -/
def bitXor : Operator := ⟨"^"⟩
/-- Bits moved up. -/
def shiftLeft : Operator := ⟨"<<"⟩
/-- Bits moved down. -/
def shiftRight : Operator := ⟨">>"⟩

/-- The accepted spellings of the operators, in small letters and with single blanks. -/
def spellings : List (String × Operator) := [
  ("=", equal), ("==", equal), ("<=>", equal),
  ("!=", notEqual), ("<>", notEqual),
  (">", ⟨">"⟩), ("<", ⟨"<"⟩), (">=", ⟨">="⟩), ("<=", ⟨"<="⟩),
  ("like", like), ("not like", notLike), ("ilike", likeAnyCase),
  ("=~", ⟨"=~"⟩), ("rlike", ⟨"=~"⟩), ("regexp", ⟨"=~"⟩),
  ("!~", ⟨"!~"⟩), ("not rlike", ⟨"!~"⟩), ("not regexp", ⟨"!~"⟩),
  ("in", member), ("not in", notMember),
  ("any ==", ⟨"ANY =="⟩), ("all ==", ⟨"ALL =="⟩), ("none ==", ⟨"NONE =="⟩),
  ("any in", ⟨"ANY IN"⟩), ("all in", ⟨"ALL IN"⟩), ("none in", ⟨"NONE IN"⟩),
  ("&", bitAnd), ("|", bitOr), ("^", bitXor), ("<<", shiftLeft), (">>", shiftRight)]

/-- A spelling with single blanks and in small letters. -/
def normalized (spelling : String) : String :=
  String.ofList (Text.lowerChars ([' '].intercalate (Text.words spelling.toList)))

/-- The operator with a spelling. -/
def ofSpelling (spelling : String) : Except Error Operator :=
  match spellings.lookup (normalized spelling) with
  | some operator => .ok operator
  | none => .error (.invalidArgument (.illegalOperator spelling))

/-- Whether the right-hand side has to be an array or a sub-query. -/
def isMembership (operator : Operator) : Bool := operator = member || operator = notMember

/-- The function that carries out a bitwise operator. -/
def bitFunction? (operator : Operator) : Option String :=
  if operator = bitAnd then some "BIT_AND"
  else if operator = bitOr then some "BIT_OR"
  else if operator = bitXor then some "BIT_XOR"
  else if operator = shiftLeft then some "BIT_SHIFT_LEFT"
  else if operator = shiftRight then some "BIT_SHIFT_RIGHT"
  else none

/-- Whether the operator works on bits. -/
def isBitwise (operator : Operator) : Bool := operator.bitFunction?.isSome

/-- Whether the operator moves bits. -/
def isShift (operator : Operator) : Bool := operator = shiftLeft || operator = shiftRight

/-- Whether the operator may be paired with `null`. -/
def acceptsNull (operator : Operator) : Bool := operator = equal || operator = notEqual

end Operator

end AqlBuilder
