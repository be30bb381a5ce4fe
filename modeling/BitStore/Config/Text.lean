import BitStore.Config.Options
import BitStore.Json.Shape

namespace BitStore

/-!
# Configurations as text

Options are written as an object with the members `capacity`, `backing` and
`write_mode`, in this order and without blanks.  More is read than is written.
Members may come in any order, and those with other names are passed over;
only the capacity has to be there, and no member of a known name may be there
twice.  A list of the values in the order of writing is read too, and may leave
out values from its end.  A name may be wrapped into an object whose value is
null.
-/

open Json Json.Reader

namespace WriteMode

def parse (text : String) : Except TextFault WriteMode :=
  readAll (choice ofName?) text

def render (mode : WriteMode) : String :=
  "\"" ++ mode.name ++ "\""

end WriteMode

namespace Backing

def parse (text : String) : Except TextFault Backing :=
  readAll (choice ofName?) text

def render (backing : Backing) : String :=
  "\"" ++ backing.name ++ "\""

end Backing

namespace Options

def render (options : Options) : String :=
  "\x7b\"capacity\":" ++ toString options.capacity ++
    ",\"backing\":" ++ options.backing.render ++
    ",\"write_mode\":" ++ options.writeMode.render ++ "\x7d"

/-! ## Members in any order -/

/-- The members that have been read so far. -/
structure Draft where
  capacity : Option Nat := none
  backing : Option Backing := none
  writeMode : Option WriteMode := none
  deriving DecidableEq, Repr

/-- The options of a draft, which must have a capacity. -/
def Draft.complete (draft : Draft) : Except TextFault Options :=
  match draft.capacity with
  | none => .error .shape
  | some capacity => .ok {
      capacity := capacity
      backing := draft.backing.getD .memory
      writeMode := draft.writeMode.getD .durable }

/-- Refuse a member that has been read before. -/
def requireFirst {α : Type} (earlier : Option α) : Reader Unit :=
  if earlier.isSome then throw .shape else return

def readMember (draft : Draft) (name : String) : Reader Draft := do
  if name == "capacity" then
    requireFirst draft.capacity
    mark ':'
    return { draft with capacity := some (← natural) }
  else if name == "backing" then
    requireFirst draft.backing
    mark ':'
    return { draft with backing := some (← choice Backing.ofName?) }
  else if name == "write_mode" then
    requireFirst draft.writeMode
    mark ':'
    return { draft with writeMode := some (← choice WriteMode.ofName?) }
  else
    mark ':'
    skip
    return draft

/-- Read members into a draft, up to the end of the object, which stays. -/
def readMembers (draft : Draft) : (fuel : Nat) -> Reader Draft
  | 0 => throw .truncated
  | fuel + 1 => do
      let draft ← readMember draft (← quotation)
      match ← visible with
      | ',' =>
          drop
          readMembers draft fuel
      | '}' => return draft
      | _ => throw .malformed

/-! ## Values in the order of writing -/

/-- Read one more value of a list, if there is one; `missing` otherwise. -/
def readElement {α : Type} (reader : Reader α) (missing : α) : Reader α := do
  match ← visible with
  | ']' => return missing
  | ',' =>
      drop
      if (← visible) = ']' then throw .malformed
      reader
  | _ => throw .malformed

/-- Options, as an object or as a list. -/
def reader : Reader Options := do
  match ← visible with
  | '{' =>
      drop
      let draft ← if (← visible) = '}' then pure {} else readMembers {} (← get).length
      let options ← draft.complete
      mark '}'
      return options
  | '[' =>
      drop
      if (← visible) = ']' then throw .shape
      let capacity ← natural
      let backing ← readElement (choice Backing.ofName?) .memory
      let writeMode ← readElement (choice WriteMode.ofName?) .durable
      mark ']'
      return { capacity := capacity, backing := backing, writeMode := writeMode }
  | _ => mismatch

def parse (text : String) : Except TextFault Options :=
  readAll reader text

end Options
end BitStore
