import ServiceBroker.Decimal.Shortest

/-!
# Numbers of JSON documents

A number is an integer or a double. A literal without fraction and exponent is an integer as long as
it fits 64 bits, signed or unsigned; every other literal, and `-0`, is a double. The two kinds are
never equal.
-/
namespace ServiceBroker

inductive Number where
  | int (n : Int)
  | double (x : Float)
  deriving DecidableEq

namespace Number

/-- Equality of numbers; zeros of either sign are equal. -/
def same : Number → Number → Bool
  | .int m, .int n => m == n
  | .double x, .double y => x == y
  | _, _ => false

/-! ## Reading -/

/-- A number as it is written. -/
structure Literal where
  negative : Bool
  whole : List Char
  fraction : Option (List Char)
  /-- Whether the exponent is negative, and its digits. -/
  power : Option (Bool × List Char)
  deriving DecidableEq, Repr

def digitValue (c : Char) : Nat := c.toNat - '0'.toNat

def digitsValue (cs : List Char) : Nat := cs.foldl (fun n c => 10 * n + digitValue c) 0

/-- Integers of 64 bits without a sign are below this one … -/
def unsignedLimit : Nat := 0x10000000000000000

/-- … and those with a minus sign go down to this one. -/
def signedLimit : Nat := 0x8000000000000000

/-- Appends digits to a significand for as long as it fits 64 bits. The second part counts the
digits that were taken. -/
def extend (significand : Nat) : List Char → Nat × Nat
  | [] => (significand, 0)
  | c :: cs =>
    let next := 10 * significand + digitValue c
    if next < unsignedLimit then
      let (s, taken) := extend next cs
      (s, taken + 1)
    else (significand, 0)

private def powerOfTen (n : Nat) : Float := Float.ofScientific 1 false n

/-- Divides by a power of ten, in steps that a double can hold. -/
private def scaleDown (x : Float) (n : Nat) : Float :=
  if n ≤ 308 then x / powerOfTen n
  else if x == 0 then x
  else scaleDown (x / powerOfTen 308) (n - 308)
termination_by n

/-- `significand · 10 ^ power` by one floating point operation; `none` when it is out of range. -/
private def scale (significand : Nat) (power : Int) : Option Float :=
  let x := Float.ofNat significand
  if power < 0 then some (scaleDown x power.natAbs)
  else if power ≤ 308 then
    let y := x * powerOfTen power.toNat
    if y.isInf then none else some y
  else if significand = 0 then some x else none

def signed (negative : Bool) (x : Float) : Number := .double (if negative then -x else x)

def integer (negative : Bool) (n : Nat) : Number :=
  if negative then
    if n = 0 ∨ signedLimit < n then signed true (Float.ofNat n) else .int (-n)
  else .int n

namespace Literal

def exponent (l : Literal) : Int :=
  match l.power with
  | none => 0
  | some (negative, digits) => if negative then -digitsValue digits else digitsValue digits

/-- The number that a literal stands for, or `none` when no double is large enough. -/
def number? (l : Literal) : Option Number :=
  let (significand, taken) := extend 0 l.whole
  let dropped := l.whole.length - taken
  if l.fraction.isNone && l.power.isNone && dropped == 0 then some (integer l.negative significand)
  else
    let (significand, places) := extend significand (l.fraction.getD [])
    (scale significand (dropped - places + l.exponent)).map (signed l.negative)

end Literal

/-! ## Writing -/

/-- Doubles are written positionally from `1e-5` up to `1e16`. -/
def layout : Decimal.Layout := ⟨-5, 16, 'e'⟩

example : layout.write ⟨1, 2⟩ = ['1', '0', '0', '.', '0'] := by decide +kernel

example : layout.write ⟨25, -2⟩ = ['0', '.', '2', '5'] := by decide +kernel

example : layout.write ⟨12, 15⟩ = ['1', '.', '2', 'e', '+', '1', '6'] := by decide +kernel

example : layout.write ⟨1, -6⟩ = ['1', 'e', '-', '6'] := by decide +kernel

/-- The highest bit of a double is its sign. -/
def signBit : Nat := 0x8000000000000000

private def doubleChars (x : Float) : List Char :=
  let bits := x.toBits.toNat
  let sign := if signBit ≤ bits then ['-'] else []
  let magnitude := bits % signBit
  if magnitude = 0 then sign ++ ['0', '.', '0']
  else sign ++ layout.write (Decimal.shortest (Decimal.Binary.ofBits magnitude))

def intChars (n : Int) : List Char :=
  if n < 0 then '-' :: Nat.toDigits 10 n.natAbs else Nat.toDigits 10 n.natAbs

def chars : Number → List Char
  | .int n => intChars n
  | .double x => doubleChars x

end Number
end ServiceBroker
