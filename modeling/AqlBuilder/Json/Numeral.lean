import AqlBuilder.Json

/-!
# Numerals

A number of a JSON text, as written: its sign, its digits before and after the point, and its
exponent. `Numeral.value?` reads it.

Digits are collected in a 64-bit significand. Digits that no longer fit are dropped and only move
the decimal exponent. The significand is then multiplied or divided by a power of ten, each step
rounded to the nearest floating point number, so the result can differ from the nearest one in its
last place. A number beyond the greatest floating point number has no value.
-/

namespace AqlBuilder.Json

open Number

-- Powers are those of core, whatever else is imported.
attribute [local instance (2000)] instPowNat

/-- A number as written. -/
structure Numeral where
  negative : Bool
  whole : List Nat
  /-- The digits after the point, if there is one. -/
  fraction : Option (List Nat)
  /-- Whether the exponent is negative, and its digits. -/
  exponent : Option (Bool × List Nat)

/-- Digits appended to a significand while they fit into 64 bits, and the count of those left. -/
def collect (significand : Nat) : List Nat → Nat × Nat
  | [] => (significand, 0)
  | d :: rest =>
    if significand * 10 + d < 2 ^ (64 : Nat) then collect (significand * 10 + d) rest
    else (significand, rest.length + 1)

/-- The power of ten nearest to `10 ^ n`. -/
def powerOfTen (n : Nat) : Float := Float.ofScientific 1 false n

/-- A number scaled by a power of ten. Exponents beyond the table of powers are approached in steps
of 308; a nonzero number is zero after three of them. -/
def scale (x : Float) (exponent : Int) : Nat → Option Float
  | 0 => some x
  | steps + 1 =>
    if exponent.natAbs ≤ 308 then
      if exponent < 0 then some (x / powerOfTen exponent.natAbs)
      else
        let y := x * powerOfTen exponent.natAbs
        if y.isInf then none else some y
    else if x == 0 then some x
    else if 0 ≤ exponent then none
    else scale (x / powerOfTen 308) (exponent + 308) steps

/-- The floating point number with a sign, a significand and a decimal exponent. -/
def ofParts? (negative : Bool) (significand : Nat) (exponent : Int) : Option Json :=
  (scale (Float.ofNat significand) exponent 4).map fun x =>
    float (.ofFloat (if negative then -x else x))

/-- The value of digits. -/
def digitsValue (digits : List Nat) : Nat := digits.foldl (fun n d => n * 10 + d) 0

/-- The number with a significand, a decimal exponent and a further written exponent. -/
def Numeral.withExponent? (n : Numeral) (significand : Nat) (start : Int) : Option Json :=
  match n.exponent with
  | none => ofParts? n.negative significand start
  | some (down, digits) =>
    let exponent := digitsValue digits
    if exponent < 2 ^ (31 : Nat) then
      ofParts? n.negative significand (if down then start - exponent else start + exponent)
    else if significand != 0 && !down then none
    else ofParts? n.negative 0 0

/-- The integer with a sign and a magnitude that fits into 64 bits. Negative zero and negative
numbers beyond the signed range are floating point numbers. -/
def ofMagnitude (negative : Bool) (magnitude : Nat) : Json :=
  if !negative then int magnitude
  else if 0 < magnitude && magnitude ≤ 2 ^ (63 : Nat) then int (-magnitude)
  else float (.ofFloat (-Float.ofNat magnitude))

/-- The number that a numeral stands for. -/
def Numeral.value? (n : Numeral) : Option Json :=
  let (significand, dropped) := collect 0 n.whole
  match n.fraction with
  | some digits =>
    let (significand, unread) := collect significand digits
    n.withExponent? significand (dropped - (digits.length - unread : Nat))
  | none =>
    if dropped = 0 && n.exponent.isNone then some (ofMagnitude n.negative significand)
    else n.withExponent? significand dropped

end AqlBuilder.Json
