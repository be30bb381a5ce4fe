import BitStore.Json.Numeral
import BitStore.Json.Quotation

namespace BitStore
namespace Json

/-!
# Passing over a value

A value that nobody asks for is passed over: its brackets have to match and
its parts have to be well formed, but its numerals may be of any size and its
quoted texts may hold units that form no character.  A numeral that lacks a
digit is malformed even where the text ends.
-/

namespace Reader

def skipDigits : Reader Unit := do
  if (← takeWhile isDigit).isEmpty then throw .malformed

def skipNumeral : Reader Unit := do
  let _ ← accept '-'
  match ← takeWhile isDigit with
  | [] => throw .malformed
  | '0' :: _ :: _ => throw .malformed
  | _ => pure ()
  if ← accept '.' then skipDigits
  match ← peek? with
  | some 'e' | some 'E' =>
      drop
      match ← peek? with
      | some '+' | some '-' => drop
      | _ => pure ()
      skipDigits
  | _ => return

mutual

def skipValue : (fuel : Nat) -> Reader Unit
  | 0 => throw .truncated
  | fuel + 1 => do
      match ← visible with
      | 'n' => word ['n', 'u', 'l', 'l']
      | 't' => word ['t', 'r', 'u', 'e']
      | 'f' => word ['f', 'a', 'l', 's', 'e']
      | '"' => skipQuotation
      | '[' =>
          drop
          if (← visible) = ']' then drop else skipElements fuel
      | '{' =>
          drop
          if (← visible) = '}' then drop else skipMembers fuel
      | c => if c = '-' || isDigit c then skipNumeral else throw .malformed

/-- Pass over the elements of a list, up to its end. -/
def skipElements : (fuel : Nat) -> Reader Unit
  | 0 => throw .truncated
  | fuel + 1 => do
      skipValue fuel
      match ← visible with
      | ',' => drop *> skipElements fuel
      | ']' => drop
      | _ => throw .malformed

/-- Pass over the members of an object, up to its end. -/
def skipMembers : (fuel : Nat) -> Reader Unit
  | 0 => throw .truncated
  | fuel + 1 => do
      skipQuotation
      mark ':'
      skipValue fuel
      match ← visible with
      | ',' => drop *> skipMembers fuel
      | '}' => drop
      | _ => throw .malformed

end

/-- Pass over one value. -/
def skip : Reader Unit := do
  skipValue (2 * (← get).length + 1)

end Reader
end Json
end BitStore
