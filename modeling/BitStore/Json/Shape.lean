import BitStore.Json.Skip

namespace BitStore
namespace Json

/-!
# Values of a given shape

A reader that asks for a value of one kind refuses every other value.  The value
is then read as far as its first part goes: if that is malformed or cut short,
the refusal says so instead.  A name is not one of these kinds: where a name is
due, only a quote can come next, and a text that goes on with anything else is
malformed.
-/

namespace Reader

/-- Refuse the value that comes next. -/
def mismatch {α : Type} : Reader α := do
  match ← visible with
  | 'n' => word ['n', 'u', 'l', 'l']
  | 't' => word ['t', 'r', 'u', 'e']
  | 'f' => word ['f', 'a', 'l', 's', 'e']
  | '"' => discard quotation
  | '[' | '{' => pure ()
  | c =>
      if c = '-' || isDigit c then discard numeral
      else throw .malformed
  throw .shape

def natural : Reader Nat := do
  let c ← visible
  if c = '-' || isDigit c then
    match ← numeral with
    | .natural value => return value
    | .other => throw .shape
  else mismatch

/-- A quoted name with a meaning. -/
def named {α : Type} (meaning : String -> Option α) : Reader α := do
  match meaning (← quotation) with
  | some value => return value
  | none => throw .shape

def null : Reader Unit := do
  if (← visible) = 'n' then word ['n', 'u', 'l', 'l']
  else mismatch

/-- A name with a meaning, quoted or wrapped. -/
def choice {α : Type} (meaning : String -> Option α) : Reader α := do
  match ← visible with
  | '"' => named meaning
  | '{' =>
      drop
      let value ← named meaning
      mark ':'
      null
      mark '}'
      return value
  | _ => throw .malformed

end Reader
end Json
end BitStore
