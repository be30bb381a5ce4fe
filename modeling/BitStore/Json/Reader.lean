namespace BitStore
namespace Json

/-!
# Reading a text from its front

A reader takes its part of a text and leaves the rest.  Readers run in the
order of the text, so the first thing that is wrong in it decides how a text is
refused: it may be malformed, it may end too early, or it may be well formed so
far and still not have the shape that is asked for.
-/

/-- Why a text is refused: it is not of the shape asked for but well formed so far, it is not
well formed, or it ends too early. -/
inductive TextFault where
  | shape
  | malformed
  | truncated
  deriving DecidableEq, Repr

/-- What takes a value from the front of a text. -/
abbrev Reader (α : Type) := StateT (List Char) (Except TextFault) α

/-- The four characters that may stand between the parts of a text. -/
def isBlank (c : Char) : Bool :=
  c = ' ' || c = '\t' || c = '\n' || c = '\r'

namespace Reader

/-- The first character, which stays. -/
def peek? : Reader (Option Char) := do
  return (← get).head?

def drop : Reader Unit :=
  modify List.tail

def next : Reader Char := do
  match ← peek? with
  | none => throw .truncated
  | some c =>
      drop
      return c

def accept (c : Char) : Reader Bool := do
  if (← peek?) = some c then
    drop
    return true
  else
    return false

def takeWhile (test : Char -> Bool) : Reader (List Char) := do
  let text ← get
  set (text.dropWhile test)
  return text.takeWhile test

def skipBlanks : Reader Unit :=
  modify fun text => text.dropWhile isBlank

/-- The first character behind blanks, which stays. -/
def visible : Reader Char := do
  skipBlanks
  match ← peek? with
  | none => throw .truncated
  | some c => return c

def word : List Char -> Reader Unit
  | [] => return
  | c :: rest => do
      if (← next) = c then word rest
      else throw .malformed

/-- Take one character behind blanks, which must be this one. -/
def mark (c : Char) : Reader Unit := do
  if (← visible) = c then drop
  else throw .malformed

/-- Read a text to its end; only blanks may follow what the reader takes. -/
def readAll {α : Type} (reader : Reader α) (text : String) : Except TextFault α := do
  let (value, rest) ← reader.run text.toList
  if (rest.dropWhile isBlank).isEmpty then return value
  else throw .malformed

end Reader
end Json
end BitStore
