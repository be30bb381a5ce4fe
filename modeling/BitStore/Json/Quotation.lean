import BitStore.Json.Reader
import BitStore.Text.Length

namespace BitStore
namespace Json

/-!
# Quoted texts

Between quotes every character stands for itself, except the quote, the
backslash and the characters below the blank.  A backslash starts an escape: a
letter for one of eight characters, or four digits in base sixteen for a unit
of sixteen bits.  A character beyond sixteen bits takes two such units.  Where
a quoted text is only passed over, its units need not form characters.
-/

/-- What an escape says. -/
inductive Escape where
  | char (c : Char)
  | unit (value : Nat)
  deriving DecidableEq, Repr

def escapeLetter? : Char -> Option Char
  | '"' => some '"'
  | '\\' => some '\\'
  | '/' => some '/'
  | 'b' => some (Char.ofNat 8)
  | 'f' => some (Char.ofNat 12)
  | 'n' => some '\n'
  | 'r' => some '\r'
  | 't' => some '\t'
  | _ => none

def hexValue? (c : Char) : Option Nat :=
  if '0' ≤ c && c ≤ '9' then some (c.toNat - '0'.toNat)
  else if 'a' ≤ c && c ≤ 'f' then some (c.toNat - 'a'.toNat + 10)
  else if 'A' ≤ c && c ≤ 'F' then some (c.toNat - 'A'.toNat + 10)
  else none

/-- Whether a unit is the first one of a pair. -/
def isLeading (unit : Nat) : Bool :=
  0xD800 ≤ unit && unit ≤ 0xDBFF

def isTrailing (unit : Nat) : Bool :=
  0xDC00 ≤ unit && unit ≤ 0xDFFF

def pairedUnits (leading trailing : Nat) : Char :=
  Char.ofNat (0x10000 + (leading - 0xD800) * 0x400 + (trailing - 0xDC00))

namespace Reader

/-- Four digits in base sixteen.  The text ends too early if fewer than four
bytes are left of it. -/
def unit : Reader Nat := do
  let text ← get
  if utf8Length (text.take 4) < 4 then throw .truncated
  set (text.drop 4)
  match (text.take 4).mapM hexValue? with
  | some [a, b, c, d] => return ((a * 16 + b) * 16 + c) * 16 + d
  | _ => throw .malformed

/-- An escape, behind its backslash. -/
def escape : Reader Escape := do
  let letter ← next
  if letter = 'u' then return .unit (← unit)
  match escapeLetter? letter with
  | some c => return .char c
  | none => throw .malformed

/-- The character that starts with a unit. -/
def character (first : Nat) : Reader Char := do
  if isTrailing first then throw .malformed
  if isLeading first then
    word ['\\', 'u']
    let second ← unit
    if isTrailing second then return pairedUnits first second
    throw .malformed
  return Char.ofNat first

/-- The characters up to the closing quote, which is taken too.  A text of
`fuel` characters needs no more rounds than that. -/
def quoted : (fuel : Nat) -> Reader (List Char)
  | 0 => throw .truncated
  | fuel + 1 => do
      let c ← next
      if c = '"' then return []
      if c = '\\' then
        let c ← match ← escape with
          | .char c => pure c
          | .unit first => character first
        return c :: (← quoted fuel)
      if c.toNat < 32 then throw .malformed
      return c :: (← quoted fuel)

def quotation : Reader String := do
  mark '"'
  return String.ofList (← quoted (← get).length)

def skipQuoted : (fuel : Nat) -> Reader Unit
  | 0 => throw .truncated
  | fuel + 1 => do
      let c ← next
      if c = '"' then return
      if c = '\\' then
        let _ ← escape
        skipQuoted fuel
      else if c.toNat < 32 then throw .malformed
      else skipQuoted fuel

def skipQuotation : Reader Unit := do
  mark '"'
  skipQuoted (← get).length

end Reader
end Json
end BitStore
