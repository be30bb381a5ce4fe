import BitStore.Proofs.Arrays.Preparing

namespace BitStore

/-!
# What a refused array leaves behind

An array can be refused at several points, and by then something may have happened to
its file.  An argument that is wrong is noticed before anything happens at all: first
that a path leads to something that is no file, then that the capacity is zero.  An
array over a file changes nothing where it is refused, since a file that has to be
there is not made, and extending it is the last thing that can fail.  A mapping is
asked for when the file has been made and extended, so that a file may be left over
that was not there or was shorter; but what it held is still there.

Opening by options is opening with the backing that they name, once it is clear that
the backing has the path that it needs.
-/

namespace Backing

/-- Open an array of this backing; one in memory has no use for the path. -/
def openAt (backing : Backing) (path : String) (capacity : Nat) (mode : WriteMode) :
    ArrayM BitArray :=
  match backing with
  | .memory => return .memory (← MemoryArray.ofCapacity capacity)
  | .file => return .file (← FileArray.openAt path capacity mode)
  | .mappedFile => return .mapped (← MappedArray.openAt path capacity mode)

/-- Whether a path leads to what the backing can be kept in: a file has to be there, or,
for a mapping, nothing else. -/
def admits (backing : Backing) (volume : Volume) (path : String) : Bool :=
  match backing with
  | .memory => true
  | .file => volume.isFile path
  | .mappedFile => !MappedArray.occupied volume path

/-- A path that leads elsewhere is noticed first. -/
theorem runFrom_openAt_elsewhere {backing : Backing} {host : Host} {path : String}
    (elsewhere : backing.admits host.volume path = false) (capacity : Nat) (mode : WriteMode) :
    runFrom (backing.openAt path capacity mode) host =
      (.error (.invalidArgument "backing_file" s!"{path} does not represent a valid file"),
        host) := by
  cases backing with
  | memory => contradiction
  | file =>
      simp only [openAt, runFrom_bind, FileArray.runFrom_openAt_absent elsewhere]
  | mappedFile =>
      have taken : MappedArray.occupied host.volume path = true := by
        simpa only [admits, Bool.not_eq_false'] using elsewhere
      simp only [openAt, runFrom_bind, MappedArray.runFrom_openAt_occupied taken]

/-- A capacity of zero is noticed next, and the file is not opened. -/
theorem runFrom_openAt_empty {backing : Backing} {host : Host} {path : String}
    (admitted : backing.admits host.volume path = true) (mode : WriteMode) :
    runFrom (backing.openAt path 0 mode) host =
      (.error (.invalidArgument "capacity" "capacity > 0"), host) := by
  have none : Layout.ofCapacity 0 =
      .error (.invalidArgument "capacity" "capacity > 0") := rfl
  cases backing with
  | memory => rfl
  | file =>
      simp only [openAt, runFrom_bind, FileArray.runFrom_openAt admitted, Host.prepare,
        runFrom_outcome, none]
  | mappedFile =>
      have free : MappedArray.occupied host.volume path = false := by
        simpa only [admits, Bool.not_eq_true'] using admitted
      simp only [openAt, runFrom_bind, MappedArray.runFrom_openAt free, Host.prepare,
        runFrom_outcome, none]

end Backing

namespace MappedArray

/-- What a volume has become where a mapping was refused, by the fault: nothing has
happened, or a missing file was made and could not be extended, or the file was made
long enough for a mapping that the system did not grant. -/
inductive Leftover (before : Volume) (path : String) (capacity : Nat) :
    Fault -> Volume -> Prop where
  | nothing (fault : Fault) : Leftover before path capacity fault before
  | emptyFile {cause : StorageError} {after : Volume} (missing : before.isPresent path = false)
      (made : before.Extends path 0 after) :
      Leftover before path capacity (.storage s!"extend {path}" cause) after
  | unmapped {cause : StorageError} {after : Volume}
      (extended : before.Extends path (capacity / 8 + 2) after) :
      Leftover before path capacity (refusal path cause) after

theorem not_isInvalidArgument_refusal (path : String) (cause : StorageError) :
    (refusal path cause).isInvalidArgument = false := by
  unfold refusal
  split <;> rfl

end MappedArray

namespace Host.Prepares

variable {host after : Host} {path : String} {capacity : Nat} {create : Bool}
  {prepared : Prepared} {fault : Fault}

/-- No argument is found wrong once the file was opened. -/
theorem eq_of_isInvalidArgument (ends : host.Prepares path capacity create (.error fault) after)
    (wrong : fault.isInvalidArgument = true) : after = host := by
  cases ends with
  | empty none => rfl
  | unopened | unextended => contradiction

/-- A file that is not made ready is as it was, unless it was missing and is now empty. -/
theorem volume_of_error (linked : host.volume.Linked)
    (ends : host.Prepares path capacity create (.error fault) after) :
    after.volume = host.volume ∨
      create = true ∧ MappedArray.Leftover host.volume path capacity fault after.volume := by
  cases ends with
  | empty | unopened => exact .inl rfl
  | unextended positive opened limits =>
      rcases Volume.openFile_finds opened with ⟨same, _⟩ | ⟨creating, missing, _⟩
      · exact .inl same
      · exact .inr ⟨creating, .emptyFile missing (Volume.opened_extends linked opened).2.2.2⟩

/-- A file that is ready was extended as far as it has to reach. -/
theorem extends_of_ok (linked : host.volume.Linked)
    (ends : host.Prepares path capacity create (.ok prepared) after) :
    host.volume.Extends path (capacity / 8 + 2) after.volume := by
  cases ends with
  | ready laid opened long longer =>
      rcases Volume.opened_extends linked opened with ⟨_, held, ⟨location, found⟩, extension⟩
      have lengthened := extension.lengthen held found prepared.layout.fileLength
      rw [longer.volume, ← laid]
      exact lengthened

end Host.Prepares

namespace FileArray

variable {host after : Host} {path : String} {capacity : Nat} {mode : WriteMode} {fault : Fault}

/-- An array over a file that is refused leaves the volume as it was. -/
theorem volume_of_refused (linked : host.volume.Linked)
    (refused : runFrom (openAt path capacity mode) host = (.error fault, after)) :
    after.volume = host.volume ∧ (fault.isInvalidArgument = true -> after = host) := by
  cases present : host.volume.isFile path with
  | false =>
      rw [runFrom_openAt_absent present] at refused
      cases refused
      exact ⟨rfl, fun _ => rfl⟩
  | true =>
      rw [runFrom_openAt present] at refused
      have ends := host.prepares path capacity mode false
      generalize runFrom (Host.prepare path capacity mode false) host = result at ends refused
      rcases result with ⟨outcome, last⟩
      cases outcome with
      | ok prepared => cases refused
      | error cause =>
          cases refused
          constructor
          · rcases ends.volume_of_error linked with same | ⟨creating, _⟩
            · exact same
            · contradiction
          · exact ends.eq_of_isInvalidArgument

end FileArray

namespace MappedArray

variable {host after : Host} {path : String} {capacity : Nat} {mode : WriteMode} {fault : Fault}

theorem leftover_of_refused (linked : host.volume.Linked)
    (refused : runFrom (openAt path capacity mode) host = (.error fault, after)) :
    Leftover host.volume path capacity fault after.volume ∧
      (fault.isInvalidArgument = true -> after = host) := by
  cases taken : occupied host.volume path with
  | true =>
      rw [runFrom_openAt_occupied taken] at refused
      cases refused
      exact ⟨.nothing _, fun _ => rfl⟩
  | false =>
      rw [runFrom_openAt taken] at refused
      have ends := host.prepares path capacity mode true
      generalize runFrom (Host.prepare path capacity mode true) host = result at ends refused
      rcases result with ⟨outcome, middle⟩
      cases outcome with
      | error cause =>
          cases refused
          constructor
          · rcases ends.volume_of_error linked with same | ⟨_, left⟩
            · rw [same]
              exact .nothing _
            · exact left
          · exact ends.eq_of_isInvalidArgument
      | ok prepared =>
          have extended := ends.extends_of_ok linked
          dsimp only at refused
          rcases Region.map_cases middle prepared.handle prepared.length with
            ⟨region, last, mapped, _⟩ | ⟨cause, unmapped⟩
          · rw [mapped] at refused
            cases refused
          · rw [unmapped] at refused
            cases refused
            refine ⟨.unmapped extended, fun wrong => ?_⟩
            rw [not_isInvalidArgument_refusal] at wrong
            contradiction

end MappedArray

namespace Options

/-- With a path, options say no more than which array is to be opened. -/
theorem openAt_some (options : Options) (path : String) :
    options.openAt (some path) =
      options.backing.openAt path options.capacity options.writeMode := by
  rcases options with ⟨capacity, _ | _ | _, mode⟩ <;> rfl

/-- The lack of a path is noticed whatever else there is. -/
theorem runFrom_openAt_none {options : Options} (persistent : options.backing.isPersistent = true)
    (host : Host) :
    runFrom (options.openAt none) host =
      (.error (.invalidArgument "path" s!"{options.backing.label} backing requires a file path"),
        host) := by
  rcases options with ⟨capacity, _ | _ | _, mode⟩
  · contradiction
  · rfl
  · rfl

/-- An array in memory takes no notice of a path, nor of the host. -/
theorem runFrom_openAt_memory {options : Options} (inMemory : options.backing = .memory)
    (path : Option String) (host : Host) :
    runFrom (options.openAt path) host =
      ((MemoryArray.ofCapacity options.capacity).map BitArray.memory, host) := by
  simp only [openAt, inMemory, runFrom_bind, runFrom_outcome, runFrom_pure]
  cases MemoryArray.ofCapacity options.capacity <;> rfl

end Options

/-! ## All backings at once -/

/-- What is relied on where an array cannot be opened at a path of a host. -/
structure Host.Withstands (host : Host) (path : String) (capacity : Nat) (mode : WriteMode) :
    Prop where
  -- A wrong argument leaves everything as it was.
  argument : forall (backing : Backing) fault after,
    runFrom (backing.openAt path capacity mode) host = (.error fault, after) ->
    fault.isInvalidArgument = true -> after = host
  -- An array over a file makes no file and changes none.
  file : forall fault after,
    runFrom (Backing.file.openAt path capacity mode) host = (.error fault, after) ->
    after.volume = host.volume
  -- An array over a mapping changes what is at its own path at most.
  mapped : forall fault after,
    runFrom (Backing.mappedFile.openAt path capacity mode) host = (.error fault, after) ->
    MappedArray.Leftover host.volume path capacity fault after.volume
  -- What the path leads to is looked at first.
  elsewhere : forall backing : Backing, backing.admits host.volume path = false ->
    runFrom (backing.openAt path capacity mode) host =
      (.error (.invalidArgument "backing_file" s!"{path} does not represent a valid file"),
        host)
  -- The capacity is looked at next, before a file is opened or made.
  empty : forall backing : Backing, backing.admits host.volume path = true -> capacity = 0 ->
    runFrom (backing.openAt path capacity mode) host =
      (.error (.invalidArgument "capacity" "capacity > 0"), host)

namespace Backing

theorem withstands {host : Host} (linked : host.volume.Linked) (path : String) (capacity : Nat)
    (mode : WriteMode) : host.Withstands path capacity mode := by
  constructor
  case argument =>
    intro backing fault after refused
    cases backing with
    | memory =>
        intro _
        simp only [openAt, runFrom_bind, runFrom_outcome, runFrom_pure] at refused
        cases made : MemoryArray.ofCapacity capacity with
        | error cause =>
            rw [made] at refused
            cases refused
            rfl
        | ok array =>
            rw [made] at refused
            cases refused
    | file => exact (FileArray.volume_of_refused linked (runFrom_error_of_return refused)).2
    | mappedFile =>
        exact (MappedArray.leftover_of_refused linked (runFrom_error_of_return refused)).2
  case file =>
    intro fault after refused
    exact (FileArray.volume_of_refused linked (runFrom_error_of_return refused)).1
  case mapped =>
    intro fault after refused
    exact (MappedArray.leftover_of_refused linked (runFrom_error_of_return refused)).1
  case elsewhere =>
    intro backing elsewhere
    exact runFrom_openAt_elsewhere elsewhere capacity mode
  case empty =>
    intro backing admitted none
    subst none
    exact runFrom_openAt_empty admitted mode

end Backing

/-- An array that is refused leaves the volume as it was, but for the file at its own
path, and there only where a mapping is made.  By options, the same happens as without
them, unless a path is wanting or is not looked at. -/
theorem refused_array_leaves_volume {host : Host} (linked : host.volume.Linked) :
    (forall path capacity mode, host.Withstands path capacity mode) ∧
      (forall (options : Options) path,
        options.openAt (some path) =
          options.backing.openAt path options.capacity options.writeMode) ∧
      (forall options : Options, options.backing.isPersistent = true ->
        runFrom (options.openAt none) host =
          (.error (.invalidArgument "path"
            s!"{options.backing.label} backing requires a file path"), host)) ∧
      forall (options : Options) path, options.backing = .memory ->
        runFrom (options.openAt path) host =
          ((MemoryArray.ofCapacity options.capacity).map BitArray.memory, host) := by
  refine ⟨Backing.withstands linked, Options.openAt_some, ?_, ?_⟩
  · intro options persistent
    exact Options.runFrom_openAt_none persistent host
  · intro options path inMemory
    exact Options.runFrom_openAt_memory inMemory path host

namespace Unmappable

/-- A host with one file, on a platform that cannot map files. -/
def host : Host where
  volume := { entries := [([['a']], .file 0)], contents := [{ length := 4 }] }
  platform := .withoutMapping

theorem linked : host.volume.Linked := by
  intro location file listed
  cases List.mem_singleton.mp listed
  exact Nat.zero_lt_one

end Unmappable

/-- A mapping of a missing file is refused when the file was made for it, and the file
stays. -/
theorem refused_array_leaves_volume_unmappable :
    let ended := runFrom (Backing.mappedFile.openAt "b" 12 .durable) Unmappable.host
    Unmappable.host.volume.Linked ∧
      MappedArray.Leftover Unmappable.host.volume "b" 12
        (MappedArray.refusal "b" .mappingUnavailable) ended.2.volume ∧
      ended.2.volume.bytesAt "b" = [0, 0, 0] := by
  intro ended
  refine ⟨Unmappable.linked, ?_, rfl⟩
  exact ((refused_array_leaves_volume Unmappable.linked).1 "b" 12 .durable).mapped _ _ rfl

end BitStore
