/-!
# Shortest decimals

`shortest` finds, for a binary floating point value, the decimal with the fewest digits among those
that read back as the same value, and of several such the one nearest to it. All arithmetic is on
natural numbers: a value is given by its significand and its binary exponent.
-/
namespace ServiceBroker

/-- The decimal `digits · 10 ^ exponent`. -/
structure Decimal where
  digits : Nat
  exponent : Int
  deriving DecidableEq, Repr

namespace Decimal

/-- A positive value `significand · 2 ^ exponent` together with the half gaps to its neighbours. -/
structure Binary where
  significand : Nat
  exponent : Int
  /-- The neighbour below is only half as far away as the one above. -/
  nearBelow : Bool
  deriving DecidableEq, Repr

namespace Binary

/-- A double has 52 bits for its fraction, so many fractions there are. -/
def fractions : Nat := 0x10000000000000

/-- Above the fraction it has 11 bits for its scale. -/
def scales : Nat := 0x800

/-- Splits the bits of a finite positive double. -/
def ofBits (bits : Nat) : Binary :=
  let fraction := bits % fractions
  let scale := bits / fractions % scales
  if scale = 0 then ⟨fraction, -1074, false⟩
  else ⟨fraction + fractions, (scale : Int) - 1075, fraction = 0 && scale != 1⟩

/-- Ends of the interval that rounds to the value, and the value, as multiples of a quarter of the
gap above it. -/
def low (b : Binary) : Nat := 4 * b.significand - (if b.nearBelow then 1 else 2)

def mid (b : Binary) : Nat := 4 * b.significand

def high (b : Binary) : Nat := 4 * b.significand + 2

/-- The ends of the interval belong to it exactly when the significand is even. -/
def closed (b : Binary) : Bool := b.significand % 2 = 0

/-- A power of ten above the value. -/
def ceilingExponent (b : Binary) : Int :=
  (b.exponent + Nat.log2 b.significand + 1) * 30103 / 100000 + 2

end Binary

/-- Numerator and denominator of `2 ^ two * 10 ^ ten`. -/
private def ratio (two ten : Int) : Nat × Nat :=
  (Nat.pow 2 two.toNat * Nat.pow 10 ten.toNat, Nat.pow 2 (-two).toNat * Nat.pow 10 (-ten).toNat)

/-- The multiple of `10 ^ k` nearest to the value among those that round to it, if there is one; a
tie goes to the even multiple. -/
def onGrid? (b : Binary) (k : Int) : Option Decimal :=
  let (num, den) := ratio (b.exponent - 2) (-k)
  let inside (n : Nat) : Bool :=
    if b.closed then b.low * num ≤ n * den && n * den ≤ b.high * num
    else b.low * num < n * den && n * den < b.high * num
  let below := b.mid * num / den
  let above := below + 1
  let twice := 2 * (b.mid * num)
  let half := (below + above) * den
  let nearerBelow := twice < half || twice = half && below % 2 = 0
  if inside below && (nearerBelow || !inside above) then some ⟨below, k⟩
  else if inside above then some ⟨above, k⟩
  else none

private def dropZeros : Nat → Nat → Int → Decimal
  | 0, digits, k => ⟨digits, k⟩
  | fuel + 1, digits, k =>
    if digits ≠ 0 ∧ digits % 10 = 0 then dropZeros fuel (digits / 10) (k + 1) else ⟨digits, k⟩

/-- The coarsest decimal grid that meets the interval of the value gives the fewest digits. -/
def shortest (b : Binary) : Decimal :=
  let top := b.ceilingExponent
  let found := (List.range 24).findSome? fun (i : Nat) => onGrid? b (top - i)
  let d := found.getD ⟨b.significand, b.exponent⟩
  dropZeros 20 d.digits d.exponent

/-- The bits of a tenth, of the least positive double and of ten to the 23rd. -/
example :
    shortest (.ofBits 0x3fb999999999999a) = ⟨1, -1⟩ ∧ shortest (.ofBits 1) = ⟨5, -324⟩ ∧
      shortest (.ofBits 0x44b52d02c7e14af6) = ⟨1, 23⟩ := by decide +kernel

/-- How a decimal is laid out as text. -/
structure Layout where
  /-- Decimal exponents from here on are written positionally … -/
  positionalFrom : Int
  /-- … up to but not including this one. -/
  positionalBelow : Int
  /-- Stands between digits and exponent. -/
  mark : Char

namespace Layout

private def zeros (n : Nat) : List Char := List.replicate n '0'

private def positional (digits : List Char) (exponent : Int) : List Char :=
  let point : Int := digits.length + exponent
  if 0 ≤ exponent then digits ++ zeros exponent.toNat ++ ['.', '0']
  else if 0 < point then digits.take point.toNat ++ '.' :: digits.drop point.toNat
  else '0' :: '.' :: zeros (-point).toNat ++ digits

private def scientific (layout : Layout) (digits : List Char) (power : Int) : List Char :=
  let fraction := if digits.length ≤ 1 then [] else '.' :: digits.drop 1
  digits.take 1 ++ fraction ++ layout.mark :: (if power < 0 then '-' else '+') ::
    Nat.toDigits 10 power.natAbs

/-- A decimal as text; a positional one always has a point and a digit behind it. -/
def write (layout : Layout) (d : Decimal) : List Char :=
  let digits := Nat.toDigits 10 d.digits
  let power : Int := digits.length + d.exponent - 1
  if layout.positionalFrom ≤ power ∧ power < layout.positionalBelow then
    positional digits d.exponent
  else layout.scientific digits power

end Layout
end Decimal
end ServiceBroker
