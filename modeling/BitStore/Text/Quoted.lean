import BitStore.Text.Hidden

namespace BitStore
namespace Quoted

/-!
# Quoted text

A text in double quotes, in which the quote, the backslash and the hidden
characters are escaped.  Null, tabulator, line feed and carriage return have a
letter; any other hidden character is written by its number in base sixteen.
Every other character stands for itself.
-/

/-- The digits of a number in base sixteen. -/
def hexDigits (number : Nat) : List Char :=
  Nat.toDigits 16 number

/-- How a character is written between the quotes. -/
def escape (c : Char) : List Char :=
  if c = '"' then ['\\', '"']
  else if c = '\\' then ['\\', '\\']
  else if c = '\n' then ['\\', 'n']
  else if c = '\r' then ['\\', 'r']
  else if c = '\t' then ['\\', 't']
  else if c.toNat = 0 then ['\\', '0']
  else if isHidden c then ['\\', 'u', '{'] ++ hexDigits c.toNat ++ ['}']
  else [c]

/-- The quoted form of a text. -/
def encode (text : String) : String :=
  String.ofList ('"' :: text.toList.flatMap escape ++ ['"'])

end Quoted
end BitStore
