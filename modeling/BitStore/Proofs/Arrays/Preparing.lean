import BitStore.Config.Options
import BitStore.Proofs.Storage.Effects

namespace BitStore

/-!
# Making a file ready for an array

All arrays over files are opened alike in the main: the capacity is laid out, the
file is opened, and it is made long enough.  `Host.prepare` is that part.  What
differs stands around it: what a path must lead to is checked before, and a mapping
is asked for afterwards.

`Host.Prepares` lists the points at which the work can end, with what is left of the
host at each of them.  It is all that is said of opening anywhere else.
-/

namespace Host

/-- A file that is ready for an array. -/
structure Prepared where
  layout : Layout
  handle : Handle
  length : { length : Nat // layout.fileLength ≤ length }

/-- Lay a capacity out, open a file, and make it long enough. -/
def prepare (path : String) (capacity : Nat) (mode : WriteMode) (create : Bool) :
    ArrayM Prepared := do
  let layout ← Layout.ofCapacity capacity
  let handle ← HostM.within s!"open {path}" (Handle.openAt path mode create)
  let length ← HostM.within s!"extend {path}" (handle.ensureLength layout.fileLength)
  return { layout := layout, handle := handle, length := length }

/-- How making a file ready ends. -/
inductive Prepares (host : Host) (path : String) (capacity : Nat) (create : Bool) :
    Except Fault Prepared -> Host -> Prop where
  | empty (none : capacity = 0) :
      Prepares host path capacity create
        (.error (.invalidArgument "capacity" "capacity > 0")) host
  | unopened {cause : StorageError} (positive : 0 < capacity)
      (refused : host.volume.openFile path create = .error cause) :
      Prepares host path capacity create (.error (.storage s!"open {path}" cause)) host
  | unextended {file : FileId} {after : Host} {cause : StorageError} (positive : 0 < capacity)
      (opened : host.volume.openFile path create = .ok (file, after.volume))
      (limits : after.limits = host.limits) :
      Prepares host path capacity create (.error (.storage s!"extend {path}" cause)) after
  | ready {prepared : Prepared} {volume : Volume} {after : Host}
      (laid : prepared.layout.capacity = capacity)
      (opened : host.volume.openFile path create = .ok (prepared.handle.file, volume))
      (long : prepared.length.val =
        max (volume.content prepared.handle.file).length prepared.layout.fileLength)
      (longer : { host with volume := volume }.Lengthens prepared.handle.file
        prepared.layout.fileLength after) :
      Prepares host path capacity create (.ok prepared) after

theorem prepares (host : Host) (path : String) (capacity : Nat) (mode : WriteMode)
    (create : Bool) :
    host.Prepares path capacity create (runFrom (prepare path capacity mode create) host).1
      (runFrom (prepare path capacity mode create) host).2 := by
  by_cases positive : 0 < capacity
  case neg =>
    simp only [prepare, Layout.ofCapacity, dif_neg positive, runFrom_bind, runFrom_outcome]
    exact .empty (Nat.eq_zero_of_not_pos positive)
  simp only [prepare, Layout.ofCapacity, dif_pos positive, runFrom_bind, runFrom_outcome,
    runFrom_within]
  cases opened : host.volume.openFile path create with
  | error cause =>
      simp only [Handle.runFrom_openAt_refused host opened mode, mapError_error]
      exact .unopened positive opened
  | ok pair =>
      rcases pair with ⟨file, volume⟩
      simp only [Handle.runFrom_openAt host opened mode, mapError_ok]
      let handle : Handle := { file := file, mode := mode }
      rcases handle.ensureLength_cases { host with volume := volume }
          (Layout.fileLength ⟨capacity, positive⟩) with
        ⟨length, after, extended, long, longer⟩ | ⟨cause, after, refused, same, limits⟩
      · simp only [handle] at extended
        simp only [extended, mapError_ok, runFrom_pure]
        exact .ready rfl opened long longer
      · simp only [handle] at refused
        simp only [refused, mapError_error]
        have unchanged : host.volume.openFile path create = .ok (file, after.volume) := by
          rw [same, opened]
        exact .unextended positive unchanged limits

end Host

/-! ## The arrays that are made -/

namespace FileArray

/-- The array over a file that is ready. -/
def ofPrepared (prepared : Host.Prepared) (path : String) (mode : WriteMode) : FileArray where
  layout := prepared.layout
  handle := some prepared.handle
  path := path
  mode := mode

theorem runFrom_openAt_absent {host : Host} {path : String}
    (absent : host.volume.isFile path = false) (capacity : Nat) (mode : WriteMode) :
    runFrom (openAt path capacity mode) host =
      (.error (.invalidArgument "backing_file" s!"{path} does not represent a valid file"),
        host) := by
  simp only [openAt, runFrom_bind, runFrom_get, absent, Bool.false_eq_true, if_false,
    runFrom_throw]

theorem runFrom_openAt {host : Host} {path : String} (present : host.volume.isFile path = true)
    (capacity : Nat) (mode : WriteMode) :
    runFrom (openAt path capacity mode) host =
      match runFrom (Host.prepare path capacity mode false) host with
      | (.error fault, after) => (.error fault, after)
      | (.ok prepared, after) =>
          (.ok (ofPrepared prepared path mode),
            after.recorded (.openedFile path capacity prepared.layout.byteLength
              prepared.length mode)) := by
  simp only [openAt, Host.prepare, runFrom_bind, runFrom_get, present, if_true, runFrom_pure,
    runFrom_outcome, runFrom_liftM, Host.record_apply]
  cases Layout.ofCapacity capacity with
  | error fault => rfl
  | ok layout =>
      dsimp only
      rcases runFrom (HostM.within s!"open {path}" (Handle.openAt path mode false)) host with
        ⟨_ | handle, middle⟩
      · rfl
      · dsimp only
        rcases runFrom (HostM.within s!"extend {path}" (handle.ensureLength layout.fileLength))
          middle with ⟨_ | length, after⟩ <;> rfl

end FileArray

namespace MappedArray

/-- The array over a file that is ready and mapped. -/
def ofPrepared (prepared : Host.Prepared)
    (region : { region : Region // region.length = prepared.length }) (path : String) :
    MappedArray where
  layout := prepared.layout
  region := some region.val
  path := path
  covered := by
    intro mapped live
    cases live
    exact Nat.le_trans prepared.length.property (Nat.le_of_eq region.property.symm)

/-- Whether a path leads to something that is no file. -/
def occupied (volume : Volume) (path : String) : Bool :=
  volume.isPresent path && !volume.isFile path

theorem runFrom_openAt_occupied {host : Host} {path : String}
    (taken : occupied host.volume path = true) (capacity : Nat) (mode : WriteMode) :
    runFrom (openAt path capacity mode) host =
      (.error (.invalidArgument "backing_file" s!"{path} does not represent a valid file"),
        host) := by
  unfold occupied at taken
  simp only [openAt, runFrom_bind, runFrom_get, taken, if_true, runFrom_throw]

theorem runFrom_openAt {host : Host} {path : String}
    (free : occupied host.volume path = false) (capacity : Nat) (mode : WriteMode) :
    runFrom (openAt path capacity mode) host =
      match runFrom (Host.prepare path capacity mode true) host with
      | (.error fault, after) => (.error fault, after)
      | (.ok prepared, after) =>
          match runFrom (Region.map prepared.handle prepared.length) after with
          | (.error cause, last) => (.error (refusal path cause), last)
          | (.ok region, last) =>
              (.ok (ofPrepared prepared region path),
                last.recorded (.openedMapping path capacity prepared.layout.byteLength
                  prepared.length)) := by
  unfold occupied at free
  simp only [openAt, Host.prepare, runFrom_bind, runFrom_get, free, Bool.false_eq_true, if_false,
    runFrom_pure, runFrom_outcome, runFrom_liftM, Host.record_apply]
  cases Layout.ofCapacity capacity with
  | error fault => rfl
  | ok layout =>
      dsimp only
      rcases runFrom (HostM.within s!"open {path}" (Handle.openAt path mode true)) host with
        ⟨_ | handle, middle⟩
      · rfl
      · dsimp only
        rcases runFrom (HostM.within s!"extend {path}" (handle.ensureLength layout.fileLength))
          middle with ⟨_ | length, after⟩
        · rfl
        · simp only [runFrom_adapt]
          rcases runFrom (Region.map handle length) after with ⟨_ | region, last⟩ <;> rfl

end MappedArray
end BitStore
