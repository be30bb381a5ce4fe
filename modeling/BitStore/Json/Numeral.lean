import BitStore.Json.Reader

namespace BitStore
namespace Json

/-!
# Numerals

A numeral without sign, fraction and exponent is a natural number as long as it
fits in 64 bits.  Any other numeral only has to be of a magnitude that double
precision can express.  Its digits are kept as far as their number fits in 64
bits; those of the integer part that do not fit count as powers of ten, and
those of the fraction are ignored.
-/

/-- What a numeral stands for: a natural number of 64 bits, or a number that is negative, broken
or greater. -/
inductive Numeral where
  | natural (value : Nat)
  | other
  deriving DecidableEq, Repr

/-! ## Magnitudes -/

/-- The double precision number nearest to a natural number, ties going to the
even one: 53 binary digits are kept. -/
def nearestDouble (n : Nat) : Nat :=
  let unit := 1 <<< (n.log2 + 1 - 53)
  let kept := n / unit
  let lost := n % unit
  if unit < 2 * lost || (unit = 2 * lost && kept % 2 = 1) then (kept + 1) * unit
  else kept * unit

/-- A number by its digits and a power of ten. -/
structure Magnitude where
  digits : Nat
  exponent : Int
  deriving DecidableEq, Repr

/-- Whether double precision can express the magnitude.  Digits and power are
rounded before they are multiplied. -/
def Magnitude.isFinite (magnitude : Magnitude) : Bool :=
  magnitude.digits = 0 || magnitude.exponent < 0 ||
    (magnitude.exponent ≤ 308 &&
      nearestDouble (nearestDouble magnitude.digits *
        nearestDouble (Nat.pow 10 magnitude.exponent.toNat)) < 1 <<< 1024)

/-! ## Digits -/

def isDigit (c : Char) : Bool :=
  '0' ≤ c && c ≤ '9'

def digitValue (c : Char) : Nat :=
  c.toNat - '0'.toNat

/-- The number that digits spell behind those that spell `value`. -/
def decimal (value : Nat) (digits : List Char) : Nat :=
  digits.foldl (fun value c => 10 * value + digitValue c) value

/-- Append digits to a value while it fits in 64 bits; the digits left over are
returned beside it. -/
def absorb (value : Nat) : List Char -> Nat × List Char
  | [] => (value, [])
  | c :: rest =>
      if 10 * value + digitValue c < 1 <<< 64 then absorb (10 * value + digitValue c) rest
      else (value, c :: rest)

/-! ## Reading -/

namespace Reader

def digits : Reader (List Char) := do
  let first ← next
  if isDigit first then return first :: (← takeWhile isDigit)
  else throw .malformed

/-- The digits in front of a fraction; a zero in front stands alone. -/
def integerDigits : Reader (List Char) := do
  match ← digits with
  | '0' :: _ :: _ => throw .malformed
  | found => return found

/-- The digits of a fraction, with the point in front of them; none without a
point. -/
def fractionDigits : Reader (Option (List Char)) := do
  if ← accept '.' then return some (← digits)
  else return none

def exponent? : Reader (Option Int) := do
  match ← peek? with
  | some 'e' | some 'E' =>
      drop
      let negative ← match ← peek? with
        | some '+' => drop *> pure false
        | some '-' => drop *> pure true
        | _ => pure false
      let size := decimal 0 (← digits)
      return some (if negative then -(size : Int) else size)
  | _ => return none

def numeral : Reader Numeral := do
  let negative ← accept '-'
  let (value, beyond) := absorb 0 (← integerDigits)
  let fraction ← fractionDigits
  let (value, ignored) := absorb value (fraction.getD [])
  let exponent ← exponent?
  if !negative && beyond.isEmpty && fraction.isNone && exponent.isNone then
    return .natural value
  let places : Int := (fraction.getD []).length - ignored.length
  let magnitude : Magnitude :=
    { digits := value, exponent := beyond.length - places + exponent.getD 0 }
  if magnitude.isFinite then return .other
  else throw .malformed

end Reader
end Json
end BitStore
