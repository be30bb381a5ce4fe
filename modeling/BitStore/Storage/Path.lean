import BitStore.Fault.Storage
import BitStore.Text.Length

namespace BitStore

/-!
# Paths

A path is text; what it says is a `Route`: the segments on the way, the last
segment, and whether a slash after it asks for a directory.  Repeated slashes
count once.  A path that cannot be handed to the system at all, because it is
empty, too long or holds a null character, has no route.
-/

abbrev Name := List Char

def Name.tooLong (name : Name) : Bool :=
  255 < utf8Length name

/-- One step of a route, to the directory itself, to the one above or to an entry. -/
inductive Segment where
  | here
  | parent
  | name (name : Name)
  deriving DecidableEq, Repr

/-- One dot and two dots have a meaning of their own. -/
def Segment.ofName : Name -> Segment
  | ['.'] => .here
  | ['.', '.'] => .parent
  | other => .name other

/-- What a path says.  A slash that follows the last segment is kept apart. -/
structure Route where
  way : List Segment
  last : Segment
  slash : Bool
  deriving DecidableEq, Repr

/-- The pieces of a text between its slashes, empty ones included. -/
def splitAtSlashes : List Char -> List Name
  | [] => [[]]
  | c :: rest =>
      if c = '/' then [] :: splitAtSlashes rest
      else match splitAtSlashes rest with
        | [] => [[c]]
        | piece :: pieces => (c :: piece) :: pieces

namespace Route

def segments (text : List Char) : List Segment :=
  ((splitAtSlashes text).filter fun piece => !piece.isEmpty).map Segment.ofName

def ofText (path : String) : Except StorageError Route :=
  let text := path.toList
  if text.contains (Char.ofNat 0) then .error .nullInPath
  else if text.isEmpty then .error .notFound
  else if 4096 ≤ utf8Length text then .error .nameTooLong
  else match (segments text).reverse with
    | [] => .ok { way := [], last := .here, slash := true }
    | last :: before =>
        .ok {
          way := before.reverse
          last := last
          slash := text.getLast? == some '/' }

end Route
end BitStore
