/-!
# Binary floating point numbers

Numbers of the two binary formats are kept as their bits, so that equal values are equal bits and
zero keeps its sign. A not-a-number has one representation here.

- `decode` reads the bits as a sign and an integer times a power of two.
- `Binary32.widen` gives the same number in the wider format.
-/

namespace AqlBuilder.Number

-- Powers are those of core, whatever else is imported.
attribute [local instance (2000)] instPowNat

/-- A number in the 64-bit binary format. -/
structure Binary64 where
  bits : UInt64
  deriving DecidableEq, Inhabited

/-- A number in the 32-bit binary format. -/
structure Binary32 where
  bits : UInt32
  deriving DecidableEq, Inhabited

/-- The widths of a binary format. -/
structure BinaryFormat where
  /-- Bits of the fraction, without the leading one. -/
  fractionBits : Nat
  /-- Bits of the exponent. -/
  exponentBits : Nat

/-- The 64-bit format. -/
def binary64 : BinaryFormat := ⟨52, 11⟩

/-- The 32-bit format. -/
def binary32 : BinaryFormat := ⟨23, 8⟩

/-- A decoded number. -/
inductive Decoded
  | notANumber
  | infinite (negative : Bool)
  /-- The significand times two to the exponent. -/
  | finite (negative : Bool) (significand : Nat) (exponent : Int)

/-- The exponent of the smallest numbers of a format. -/
def BinaryFormat.lowestExponent (format : BinaryFormat) : Int :=
  2 - 2 ^ (format.exponentBits - 1) - format.fractionBits

/-- The sign, the significand and the exponent that bits stand for. -/
def BinaryFormat.decode (format : BinaryFormat) (bits : Nat) : Decoded :=
  let fraction := bits % 2 ^ format.fractionBits
  let field := bits / 2 ^ format.fractionBits % 2 ^ format.exponentBits
  let negative := bits / 2 ^ (format.fractionBits + format.exponentBits) % 2 == 1
  if field = 2 ^ format.exponentBits - 1 then
    if fraction = 0 then .infinite negative else .notANumber
  else if field = 0 then .finite negative fraction format.lowestExponent
  else .finite negative (2 ^ format.fractionBits + fraction) (format.lowestExponent + (field - 1))

/-- The sign, the significand and the exponent of a number. -/
def Binary64.decode (x : Binary64) : Decoded := binary64.decode x.bits.toNat

/-- The sign, the significand and the exponent of a number. -/
def Binary32.decode (x : Binary32) : Decoded := binary32.decode x.bits.toNat

/-- Whether the number is neither infinite nor a not-a-number. -/
def Binary64.isFinite (x : Binary64) : Bool :=
  x.bits.toNat / 2 ^ (52 : Nat) % 2 ^ (11 : Nat) != 2 ^ (11 : Nat) - 1

/-- Whether the number is neither infinite nor a not-a-number. -/
def Binary32.isFinite (x : Binary32) : Bool :=
  x.bits.toNat / 2 ^ (23 : Nat) % 2 ^ (8 : Nat) != 2 ^ (8 : Nat) - 1

/-- The bits of a core float, with one representation for what is not a number. -/
def Binary64.ofFloat (x : Float) : Binary64 := ⟨x.toBits⟩

/-- The core float with these bits. -/
def Binary64.toFloat (x : Binary64) : Float := Float.ofBits x.bits

/-- The number nearest to an integer. -/
def Binary64.ofInt (n : Int) : Binary64 := .ofFloat (Float.ofInt n)

/-- The one representation of what is not a number. -/
def Binary64.notANumber : Binary64 := ⟨0x7ff8000000000000⟩

/-- The same number with the other representation of what is not a number replaced. -/
def Binary64.canonical (x : Binary64) : Binary64 :=
  match x.decode with
  | .notANumber => .notANumber
  | _ => x

/-- The same number in the wider format, which holds all numbers of the narrower one. -/
def Binary32.widen (x : Binary32) : Binary64 :=
  let sign (negative : Bool) : Nat := if negative then 2 ^ (63 : Nat) else 0
  match x.decode with
  | .notANumber => .notANumber
  | .infinite negative => ⟨UInt64.ofNat (sign negative + 2047 * 2 ^ (52 : Nat))⟩
  | .finite negative 0 _ => ⟨UInt64.ofNat (sign negative)⟩
  | .finite negative significand exponent =>
    let shift := 52 - significand.log2
    let field := (exponent - shift + 1075).toNat
    ⟨UInt64.ofNat (sign negative + field * 2 ^ (52 : Nat)
      + (significand * 2 ^ shift - 2 ^ (52 : Nat)))⟩

end AqlBuilder.Number
