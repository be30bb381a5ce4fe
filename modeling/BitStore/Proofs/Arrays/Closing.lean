import BitStore.Proofs.Arrays.Closed
import BitStore.Proofs.Storage.Effects
import BitStore.Proofs.Storage.Fronts

namespace BitStore

/-!
# Giving arrays up

An array that is closed is closed from then on, in whatever state its file is, and
whether or not the system takes a mapping back or syncs the file.  Only the last shows
in the answer: a buffered array over a file answers why it could not be synced, and then
leaves no record of its end.  Neither closing nor giving an array up in silence changes a
byte of any file: nothing has to be written back, since nothing was held back.
-/

namespace Host

/-- Where no front was changed, no byte was. -/
theorem Confines.quiet {file : FileId} {before after : Host}
    (confines : before.Confines file 0 after) : before.Quiet after := by
  apply quiet_of_contents confines.length _ confines.entries confines.held confines.limits
  intro other place
  by_cases same : other = file
  · rw [same, confines.tail place (Nat.zero_le place)]
  · rw [confines.others other same]

theorem confines_recorded (host : Host) (event : Event) (file : FileId) :
    host.Confines file 0 (host.recorded event) :=
  Confines.of_same rfl rfl rfl rfl rfl

/-- A release asks for no sync. -/
theorem fileSyncs_release (host : Host) (mapping : Mapping) :
    (runFrom (release mapping) host).2.fileSyncs = host.fileSyncs := by
  simp only [release, runFrom_bind, runFrom_get, runFrom_ite, runFrom_throw, runFrom_set,
    runFrom_pure]
  split
  · rfl
  · split <;> rfl

/-- What is recorded of an attempt to release a mapping: nothing, if it succeeded. -/
def noted (host : Host) (path : String) (outcome : Except StorageError Unit) : Host :=
  match outcome with
  | .ok () => host
  | .error cause => host.recorded (.unmapFailed path cause)

end Host

/-- The array without its file. -/
def FileArray.closed (array : FileArray) : FileArray :=
  { array with handle := none }

/-- No mapping has nothing to cover. -/
theorem MappedArray.covered_none (array : MappedArray) :
    forall mapped, mapped ∈ (none : Option Region) ->
      array.layout.fileLength ≤ mapped.length := by
  intro mapped none
  contradiction

/-- The array without its mapping. -/
def MappedArray.closed (array : MappedArray) : MappedArray :=
  { array with
    region := none
    covered := array.covered_none }

namespace FileArray

/-- What being done with a file answers: why it was not synced, if it was to be. -/
def finishOutcome (path : String) (mode : WriteMode) (host : Host) : Except Fault Unit :=
  match mode, host.syncRefusal with
  | .buffered, some cause => .error (.storage s!"sync {path}" cause)
  | _, _ => .ok ()

variable (path : String) (mode : WriteMode) (handle : Handle) (host : Host)

theorem finish_outcome :
    (runFrom (finish path mode handle) host).1 = finishOutcome path mode host := by
  cases mode with
  | durable => rfl
  | buffered =>
      cases answer : host.syncRefusal with
      | none =>
          simp only [finish, finishOutcome, answer, syncFile, runFrom_bind, runFrom_within,
            handle.runFrom_sync_granted answer, mapError_ok, runFrom_liftM]
      | some cause =>
          simp only [finish, finishOutcome, answer, syncFile, runFrom_bind, runFrom_within,
            handle.runFrom_sync_refused answer, mapError_error]

variable {handle host}

theorem finishOutcome_of_granted {path : String} {mode : WriteMode}
    (granted : host.syncRefusal = none) : finishOutcome path mode host = .ok () := by
  cases mode with
  | durable => rfl
  | buffered => simp only [finishOutcome, granted]

/-- What being done with a file comes to: a record, behind a sync that was granted if it was
to be synced, or else no more than the request. -/
theorem finish_state (path : String) (mode : WriteMode) (handle : Handle) (host : Host) :
    (runFrom (finish path mode handle) host).2 =
      match mode, host.syncRefusal with
      | .durable, _ => host.recorded (.closedFile path)
      | .buffered, none => (runFrom handle.sync host).2.recorded (.closedFile path)
      | .buffered, some _ => host.synced := by
  cases mode with
  | durable => rfl
  | buffered =>
      cases answer : host.syncRefusal with
      | none =>
          simp only [finish, syncFile, runFrom_bind, runFrom_within,
            handle.runFrom_sync_granted answer, mapError_ok, runFrom_liftM, Host.record_apply]
      | some cause =>
          simp only [finish, syncFile, runFrom_bind, runFrom_within,
            handle.runFrom_sync_refused answer, mapError_error]

theorem confines_finish (path : String) (mode : WriteMode) (held : host.volume.Holds handle.file) :
    host.Confines handle.file 0 (runFrom (finish path mode handle) host).2 := by
  have recorded (last : Host) := last.confines_recorded (.closedFile path) handle.file
  rw [finish_state]
  split
  · exact recorded host
  · rcases handle.changes_sync host held with ⟨changes, same⟩
    exact (Host.Confines.of_changesOnly changes fun place _ => same place).trans (recorded _)
  · exact Host.Confines.of_changesOnly (.synced (some handle.file) host) fun _ _ => rfl

/-- No byte is changed, also if the file is not there any more. -/
theorem quiet_finish (path : String) (mode : WriteMode) (handle : Handle) (host : Host) :
    host.Quiet (runFrom (finish path mode handle) host).2 := by
  have recorded (last : Host) : last.Quiet (last.recorded (.closedFile path)) :=
    Host.quiet_of_same rfl rfl
  rw [finish_state]
  split
  · exact recorded host
  · exact (handle.quiet_sync host).trans (recorded _)
  · exact Host.quiet_of_same rfl rfl

/-- Of being done with a file there is no record if it fails. -/
theorem events_finish (path : String) (mode : WriteMode) (handle : Handle) {fault : Fault}
    (failed : finishOutcome path mode host = .error fault) :
    (runFrom (finish path mode handle) host).2.events = host.events := by
  rw [finish_state]
  cases mode with
  | durable => contradiction
  | buffered =>
      cases answer : host.syncRefusal with
      | none =>
          rw [finishOutcome_of_granted answer] at failed
          contradiction
      | some cause => rfl

end FileArray

namespace MappedArray

/-- A mapping is given up whether or not the system takes it back. -/
theorem finish_apply (path : String) (region : Region) (host : Host) :
    finish path region host = ((),
      ((runFrom region.unmap host).2.noted path (runFrom region.unmap host).1).recorded
        (.closedMapping path)) := by
  rcases unmapped : runFrom region.unmap host with ⟨outcome, after⟩
  have run : region.unmap.run host = (outcome, after) := unmapped
  cases outcome with
  | ok | error =>
      simp only [finish, bind_apply, run, Host.record_apply, Host.noted]

theorem confines_finish (path : String) (region : Region) (host : Host) :
    host.Confines region.file 0 (finish path region host).2 := by
  have released : host.Confines region.file 0 (runFrom region.unmap host).2 :=
    host.confines_release region.mapping
  rw [finish_apply]
  apply Host.Confines.trans _ (Host.confines_recorded _ (.closedMapping path) region.file)
  cases (runFrom region.unmap host).1 with
  | ok => exact released
  | error cause =>
      exact released.trans (Host.confines_recorded _ (.unmapFailed path cause) region.file)

/-- No file is synced for it. -/
theorem fileSyncs_finish (path : String) (region : Region) (host : Host) :
    (finish path region host).2.fileSyncs = host.fileSyncs := by
  rw [finish_apply, ← host.fileSyncs_release region.mapping]
  change ((runFrom region.unmap host).2.noted path _).fileSyncs = _
  cases (runFrom region.unmap host).1 <;> rfl

end MappedArray

namespace BitArray

theorem close_file {array : FileArray} {handle : Handle}
    (live : array.handle = some handle) (host : Host) :
    (BitArray.file array).close host =
      ((FileArray.finishOutcome array.path array.mode host, .file array.closed),
        (runFrom (FileArray.finish array.path array.mode handle) host).2) := by
  rw [← FileArray.finish_outcome array.path array.mode handle host]
  simp only [close, FileArray.close, live]
  rfl

theorem close_mapped {array : MappedArray} {region : Region}
    (live : array.region = some region) (host : Host) :
    (BitArray.mapped array).close host =
      ((.ok (), .mapped array.closed), (MappedArray.finish array.path region host).2) := by
  simp only [close, MappedArray.close, live]
  rfl

/-- What closing an array answers: only an open one in a file may fail. -/
def closeOutcome (array : BitArray) (host : Host) : Except Fault Unit :=
  match array with
  | .file array =>
      if array.isClosed then .ok () else FileArray.finishOutcome array.path array.mode host
  | _ => .ok ()

theorem closeOutcome_file {array : FileArray} {handle : Handle}
    (live : array.handle = some handle) (host : Host) :
    (BitArray.file array).closeOutcome host =
      FileArray.finishOutcome array.path array.mode host := by
  simp only [closeOutcome, FileArray.isClosed, live, Option.isNone_some, Bool.false_eq_true,
    if_false]

variable {array : BitArray} {host : Host} {file : FileId}

theorem Closed.closeOutcome (closed : array.Closed) (host : Host) :
    array.closeOutcome host = .ok () := by
  cases closed with
  | file gone => simp only [BitArray.closeOutcome, FileArray.isClosed, gone, Option.isNone_none,
      if_true]
  | mapped gone => rfl

/-- An array that is closed is closed from then on, whatever closing it answers, and no
byte is changed. -/
theorem close_open (kept : array.file? = some file) (held : host.volume.Holds file) :
    Exists fun next => Exists fun after =>
      array.close host = ((array.closeOutcome host, next), after) ∧ next.Closed ∧
      next.layout = array.layout ∧ next.inFile = array.inFile ∧ host.Confines file 0 after := by
  cases array with
  | memory array => contradiction
  | file array =>
      rcases Option.map_eq_some_iff.mp kept with ⟨handle, live, rfl⟩
      refine ⟨.file array.closed, _, ?_, .file rfl, rfl, rfl,
        FileArray.confines_finish array.path array.mode held⟩
      rw [close_file live, closeOutcome_file live]
  | mapped array =>
      rcases Option.map_eq_some_iff.mp kept with ⟨region, live, rfl⟩
      exact ⟨.mapped array.closed, _, close_mapped live host, .mapped rfl, rfl, rfl,
        MappedArray.confines_finish array.path region host⟩

/-- Nor does giving it up in silence. -/
theorem confines_drop (kept : array.file? = some file) :
    host.Confines file 0 (array.drop host).2 := by
  cases array with
  | memory array => contradiction
  | file array => exact Host.Confines.refl file 0 host
  | mapped array =>
      rcases Option.map_eq_some_iff.mp kept with ⟨region, live, rfl⟩
      simp only [drop, MappedArray.drop, live]
      exact host.confines_release region.mapping

end BitArray
end BitStore
