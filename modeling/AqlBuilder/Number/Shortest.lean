import AqlBuilder.Number.Binary

/-!
# Shortest decimals

The decimal text of a binary number is the shortest one that reads back as the same number. Around
each number lies the interval of the reals that round to it; its ends belong to it when the
significand is even. For one digit, two digits, and so on, the two decimals next to the number are
tried, and the first count of digits for which one of them lies in the interval is enough.

Everything is computed on integers: a number and its interval are scaled to a common denominator.
-/

namespace AqlBuilder.Number

-- Powers are those of core, whatever else is imported.
attribute [local instance (2000)] instPowNat

/-- The digits of a positive number, most significant first and without trailing zeros, and the
decimal exponent of the first digit. -/
structure Decimal where
  digits : List Nat
  exponent : Int

/-- A positive number as a ratio, with the interval of the reals that round to it. -/
structure Neighbourhood where
  low : Nat
  value : Nat
  high : Nat
  denominator : Nat
  /-- Whether the ends of the interval round to the number. -/
  closed : Bool

/-- The neighbourhood of a significand and an exponent. Below a power of two the numbers are twice
as dense, and half of the interval is half as long. -/
def neighbourhood (format : BinaryFormat) (significand : Nat) (exponent : Int) : Neighbourhood :=
  let dense := significand == 2 ^ format.fractionBits && exponent > format.lowestExponent
  let scale := 2 ^ (exponent - 2).toNat
  { low := (4 * significand - if dense then 1 else 2) * scale
    value := 4 * significand * scale
    high := (4 * significand + 2) * scale
    denominator := 2 ^ (2 - exponent).toNat
    closed := significand % 2 == 0 }

/-- Count up from `start` until the test holds, at most `steps` times. -/
def firstFrom (holds : Nat → Bool) : Nat → Nat → Nat
  | 0, start => start
  | steps + 1, start => if holds start then start else firstFrom holds steps (start + 1)

/-- The decimal exponent of the first digit of a positive ratio. -/
def leadingExponent (numerator denominator : Nat) : Int :=
  if denominator ≤ numerator then
    (Nat.toDigits 10 (numerator / denominator)).length - 1
  else
    -(firstFrom (fun k => denominator ≤ numerator * 10 ^ k) 400 1 : Nat)

/-- Whether a decimal `count · 10 ^ exponent` rounds to the number. -/
def Neighbourhood.has (n : Neighbourhood) (count : Nat) (exponent : Int) : Bool :=
  let scaled := count * 10 ^ exponent.toNat * n.denominator
  let unit := 10 ^ (-exponent).toNat
  if n.closed then n.low * unit ≤ scaled && scaled ≤ n.high * unit
  else n.low * unit < scaled && scaled < n.high * unit

/-- The nearest decimal with a last digit of the given exponent, if it rounds to the number. Of two
equally near ones the even one is taken. -/
def Neighbourhood.nearest? (n : Neighbourhood) (exponent : Int) : Option Nat :=
  let value := n.value * 10 ^ (-exponent).toNat
  let unit := n.denominator * 10 ^ exponent.toNat
  let below := value / unit
  let rest := value % unit
  let up := 2 * rest > unit || (2 * rest == unit && below % 2 == 1)
  let (first, second) := if up then (below + 1, below) else (below, below + 1)
  if n.has first exponent then some first
  else if n.has second exponent then some second
  else none

/-- The nearest decimal with the fewest digits, trying `count` digits and then more. -/
def Neighbourhood.fewest (n : Neighbourhood) (leading : Int) : Nat → Nat → Nat × Int
  | 0, count => ((n.nearest? (leading - count)).getD 0, leading - count)
  | tries + 1, count =>
    match n.nearest? (leading - count) with
    | some found => (found, leading - count)
    | none => n.fewest leading tries (count + 1)

/-- The digits of a positive integer, most significant first. -/
def digitsOf (n : Nat) : List Nat := (Nat.toDigits 10 n).map fun c => c.toNat - '0'.toNat

/-- The shortest decimal that reads back as the number. -/
def shortest (format : BinaryFormat) (significand : Nat) (exponent : Int) : Decimal :=
  let n := neighbourhood format significand exponent
  let leading := leadingExponent n.value n.denominator
  let (count, last) := n.fewest leading 17 0
  let digits := digitsOf count
  { digits := (digits.reverse.dropWhile (· == 0)).reverse
    exponent := last + (digits.length - 1 : Nat) }

/-- How decimals are laid out. Exponents from `plainFrom` to `plainTo` are written without an
exponent and with at least one decimal place; all others follow the first digit, the exponent with
its sign. -/
structure Layout where
  plainFrom : Int
  plainTo : Int

/-- The characters of digits. -/
def digitChars (digits : List Nat) : String :=
  String.ofList (digits.map fun d => Char.ofNat ('0'.toNat + d))

/-- The text of a decimal. -/
def Layout.render (layout : Layout) (d : Decimal) : String :=
  let zeros (n : Nat) := String.ofList (List.replicate n '0')
  if layout.plainFrom ≤ d.exponent && d.exponent ≤ layout.plainTo then
    if d.exponent < 0 then "0." ++ zeros (-d.exponent - 1).toNat ++ digitChars d.digits
    else
      let whole := d.exponent.toNat + 1
      let places := if d.digits.length ≤ whole then "0" else digitChars (d.digits.drop whole)
      digitChars (d.digits.take whole) ++ zeros (whole - d.digits.length) ++ "." ++ places
  else
    let places := if d.digits.length ≤ 1 then "" else "." ++ digitChars (d.digits.drop 1)
    let sign := if d.exponent < 0 then "-" else "+"
    digitChars (d.digits.take 1) ++ places ++ "e" ++ sign ++ toString d.exponent.natAbs

/-- The text of a decoded number of a format, unless it is not finite. -/
def Layout.text? (layout : Layout) (format : BinaryFormat) : Decoded → Option String
  | .finite negative significand exponent =>
    let sign := if negative then "-" else ""
    some (sign ++ if significand = 0 then "0.0" else
      layout.render (shortest format significand exponent))
  | _ => none

end AqlBuilder.Number
