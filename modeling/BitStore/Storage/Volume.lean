import BitStore.Storage.Content
import BitStore.Storage.Path

namespace BitStore

/-!
# A volume: a tree of directories and the contents of its files

Entries are listed by their location, the names that lead to them from the
root.  A file entry refers to a content by number, so a content stays readable
through a handle after its entry is gone, and two handles on one file see one
content.  Contents are never given back.
-/

/-- The names that lead from the root to an entry; the root itself has none. -/
abbrev Location := List Name

/-- The number of a file's content in its volume. -/
abbrev FileId := Nat

inductive Entry where
  | directory
  | file (id : FileId)
  deriving DecidableEq, Repr

/-- A tree of directories and files, with the contents of all files. -/
structure Volume where
  entries : List (Location × Entry) := []
  contents : List Content := []
  deriving Repr

namespace Volume

def content (volume : Volume) (file : FileId) : Content :=
  volume.contents[file]?.getD .empty

def updateContent (volume : Volume) (file : FileId) (change : Content -> Content) :
    Volume :=
  { volume with contents := volume.contents.modify file change }

def entry? (volume : Volume) (location : Location) : Option Entry :=
  if location.isEmpty then some .directory else volume.entries.lookup location

def addEntry (volume : Volume) (location : Location) (entry : Entry) : Volume :=
  { volume with entries := (location, entry) :: volume.entries }

/-- The volume with a new, empty file at a location, and the file's number. -/
def addFile (volume : Volume) (location : Location) : FileId × Volume :=
  let file := volume.contents.length
  (file, { (volume.addEntry location (.file file)) with
    contents := volume.contents ++ [.empty] })

/-! ## Following a route -/

/-- The directory that a segment leads to from a directory. -/
def enter (volume : Volume) (directory : Location) :
    Segment -> Except StorageError Location
  | .here => .ok directory
  | .parent => .ok directory.dropLast
  | .name name =>
      if name.tooLong then .error .nameTooLong
      else match volume.entry? (directory ++ [name]) with
        | some .directory => .ok (directory ++ [name])
        | some (.file _) => .error .notADirectory
        | none => .error .notFound

/-- The directory that a sequence of segments leads to. -/
def follow (volume : Volume) (way : List Segment) : Except StorageError Location :=
  way.foldlM volume.enter []

/-- What a path finds.  A file is not found behind a slash. -/
def find (volume : Volume) (path : String) : Except StorageError (Location × Entry) := do
  let route ← Route.ofText path
  let directory ← volume.follow route.way
  match route.last with
  | .name name =>
      if name.tooLong then throw .nameTooLong
      match volume.entry? (directory ++ [name]) with
      | none => throw .notFound
      | some .directory => return (directory ++ [name], .directory)
      | some (.file file) =>
          if route.slash then throw .notADirectory
          return (directory ++ [name], .file file)
  | segment => return (← volume.enter directory segment, .directory)

def isPresent (volume : Volume) (path : String) : Bool :=
  match volume.find path with
  | .ok _ => true
  | .error _ => false

def isFile (volume : Volume) (path : String) : Bool :=
  match volume.find path with
  | .ok (_, .file _) => true
  | _ => false

/-! ## Opening, making and removing -/

/-- The file that a path opens.  With `create` a missing file is made, but a
slash at the end then asks for a directory, which cannot be opened. -/
def openFile (volume : Volume) (path : String) (create : Bool) :
    Except StorageError (FileId × Volume) := do
  let route ← Route.ofText path
  let directory ← volume.follow route.way
  match route.last with
  | .name name =>
      if create && route.slash then throw .isADirectory
      if name.tooLong then throw .nameTooLong
      match volume.entry? (directory ++ [name]) with
      | some .directory => throw .isADirectory
      | some (.file file) =>
          if route.slash then throw .notADirectory
          return (file, volume)
      | none =>
          if create then return volume.addFile (directory ++ [name])
          throw .notFound
  | _ => throw .isADirectory

def makeDirectory (volume : Volume) (path : String) : Except StorageError Volume := do
  let route ← Route.ofText path
  let directory ← volume.follow route.way
  match route.last with
  | .name name =>
      if name.tooLong then throw .nameTooLong
      match volume.entry? (directory ++ [name]) with
      | some _ => throw .alreadyExists
      | none => return volume.addEntry (directory ++ [name]) .directory
  | _ => throw .alreadyExists

/-- The volume without a file's entry; the content stays for open handles. -/
def removeFile (volume : Volume) (path : String) : Except StorageError Volume := do
  match ← volume.find path with
  | (_, .directory) => throw .isADirectory
  | (location, .file _) =>
      return { volume with
        entries := volume.entries.filter fun entry => entry.1 != location }

end Volume
end BitStore
