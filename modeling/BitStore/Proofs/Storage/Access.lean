import BitStore.Proofs.Storage.Contents

namespace BitStore

/-!
# Reading and writing inside a file

What handles and regions do where they stay inside the file: they read its
bytes, and they write without changing its length.  A handle's write has to be
allowed by the system as well, while a store through a region has not.
-/

namespace Content

/-- The byte of a place once bytes were put at a position. -/
def placed (content : Content) (position : Nat) (bytes : Bytes) (place : Nat) : UInt8 :=
  if position ≤ place ∧ place < position + bytes.length
  then bytes[place - position]?.getD 0 else content.byte place

theorem placed_one (content : Content) (position : Nat) (value : UInt8) (place : Nat) :
    content.placed position [value] place =
      if place = position then value else content.byte place := by
  by_cases same : place = position
  · subst same
    rw [placed, if_pos rfl, if_pos (by simp), Nat.sub_self]
    rfl
  · rw [placed, if_neg same, if_neg]
    simp only [List.length_singleton]
    omega

theorem placed_front (content : Content) (bytes : Bytes) (place : Nat) :
    content.placed 0 bytes place =
      if place < bytes.length then bytes[place]?.getD 0 else content.byte place := by
  simp only [placed, Nat.zero_le, true_and, Nat.zero_add, Nat.sub_zero]

theorem byte_of_le (content : Content) {place : Nat} (past : content.length ≤ place) :
    content.byte place = 0 := by
  rw [byte, if_neg (Nat.not_lt_of_le past)]

/-- A file is extended by zeros. -/
theorem byte_resize_of_le (content : Content) {size : Nat} (longer : content.length ≤ size)
    (place : Nat) : (content.resize size).byte place = content.byte place := by
  rw [byte_resize]
  split
  next => rfl
  next outside => rw [byte_of_le content (by omega)]

/-- As far as the file reaches, a mapping shows its bytes, also where the mapping goes on
behind the end. -/
theorem take_mappedFront {content : Content} {count total : Nat} (mapped : count ≤ total)
    (inside : count ≤ content.length) :
    (content.mappedFront total).take count = content.window 0 count := by
  rw [mappedFront, ← List.map_take, List.take_range, Nat.min_eq_left mapped, window,
    List.range_eq_range']
  apply List.map_congr_left
  intro place member
  have below := (List.mem_range'_1.mp member).2
  exact mappedByte_of_lt content place (by omega)

end Content

namespace Host

theorem length_admitted (host : Host) (position : Nat) (bytes : Bytes) :
    (host.admitted position bytes).length =
      min (host.limits.fileLength - position) bytes.length :=
  List.length_take

theorem admitted_of_le (host : Host) {position : Nat} {bytes : Bytes}
    (allowed : position + bytes.length ≤ host.limits.fileLength) :
    host.admitted position bytes = bytes :=
  List.take_of_length_le (by omega)

/-- Whether the system writes mappings back when it is asked to. -/
def WritesBack (host : Host) : Prop :=
  host.platform = .mapping ∧ host.syncRefused = false

theorem runFrom_sync {host : Host} {mapping : Mapping} (writesBack : host.WritesBack) :
    runFrom (sync mapping) host = (.ok (), host) := by
  simp only [sync, runFrom_bind, runFrom_get, writesBack.1, writesBack.2, reduceCtorEq, if_false,
    Bool.false_eq_true, runFrom_pure]

theorem runFrom_sync_refused {host : Host} (mapping : Mapping) (refused : ¬ host.WritesBack) :
    Exists fun cause => runFrom (sync mapping) host = (.error cause, host) := by
  by_cases unmapped : host.platform = .withoutMapping
  · refine ⟨.bare .unsupported, ?_⟩
    simp only [sync, runFrom_bind, runFrom_get, unmapped, if_true, runFrom_throw]
  · have mapped : host.platform = .mapping := by
      cases platform : host.platform with
      | mapping => rfl
      | withoutMapping => exact absurd platform unmapped
    have refusing : host.syncRefused = true := by
      cases outcome : host.syncRefused with
      | true => rfl
      | false => exact absurd ⟨mapped, outcome⟩ refused
    refine ⟨.noMemory, ?_⟩
    simp only [sync, runFrom_bind, runFrom_get, if_neg unmapped, refusing, if_true,
      runFrom_throw]

/-- Whether the system syncs files whenever it is asked to. -/
def SyncsFiles (host : Host) : Prop :=
  forall answer, answer ∈ host.fileSyncs -> answer = none

theorem SyncsFiles.of_suffix {before after : Host} (syncsFiles : before.SyncsFiles)
    (later : after.fileSyncs <:+ before.fileSyncs) : after.SyncsFiles :=
  fun answer listed => syncsFiles answer (later.mem listed)

theorem SyncsFiles.syncRefusal {host : Host} (syncsFiles : host.SyncsFiles) :
    host.syncRefusal = none := by
  rw [Host.syncRefusal]
  cases answers : host.fileSyncs with
  | nil => rfl
  | cons answer rest =>
      have granted := syncsFiles answer (by rw [answers]; exact List.mem_cons_self)
      rw [granted]
      rfl

/-- Whether the system brings to stable storage whatever it is asked for. -/
structure Serves (host : Host) : Prop where
  writesBack : host.WritesBack
  syncsFiles : host.SyncsFiles

end Host

namespace Handle

variable (handle : Handle) (host : Host)

@[simp] theorem byte_written (position : Nat) (bytes : Bytes)
    (content : Content) (place : Nat) :
    (handle.written position bytes content).byte place =
      content.placed position bytes place := by
  rw [written]
  split
  next empty =>
    rw [List.isEmpty_iff.mp empty, Content.placed, if_neg]
    simp only [List.length_nil]
    omega
  next =>
    cases handle.mode <;>
      simp only [Content.byte_settleFront, Content.byte_write, Content.placed]

theorem length_written (position : Nat) {bytes : Bytes}
    (some : bytes ≠ []) (content : Content) :
    (handle.written position bytes content).length =
      max content.length (position + bytes.length) := by
  rw [written, if_neg (by simpa only [List.isEmpty_iff] using some)]
  cases handle.mode <;>
    simp only [Content.length_settleFront, Content.length_write _ _ _ some]

/-- Writing nothing says nothing of the content, nor of its pages. -/
theorem written_nil (position : Nat) : handle.written position [] = id := rfl

theorem runFrom_readByte (position : Nat)
    (inside : position < (host.volume.content handle.file).length)
    (expressible : position + 1 < offsetBound) :
    runFrom (handle.readByte position) host =
      (.ok ((host.volume.content handle.file).byte position), host) := by
  simp only [readByte, if_neg (Nat.not_le_of_lt expressible), runFrom_bind,
    runFrom_liftM, Host.content_apply, if_neg (Nat.not_lt_of_le (Nat.succ_le_of_lt inside)),
    runFrom_pure]

theorem runFrom_read (position count : Nat)
    (inside : position + count ≤ (host.volume.content handle.file).length)
    (expressible : position + count < offsetBound) :
    runFrom (handle.read position count) host =
      (.ok ((host.volume.content handle.file).window position count), host) := by
  by_cases none : count = 0
  · subst none
    rfl
  · simp only [read, if_neg none, if_neg (Nat.not_le_of_lt expressible),
      runFrom_bind, runFrom_liftM, Host.content_apply, if_neg (Nat.not_lt_of_le inside),
      runFrom_pure]

/-- The bytes in front of the size limit are written, also if there are others. -/
theorem runFrom_write_of_lt (position : Nat) {bytes : Bytes} (some : bytes ≠ [])
    (expressible : position + bytes.length < offsetBound) :
    runFrom (handle.write position bytes) host =
      (if host.limits.fileLength < position + bytes.length then .error .fileTooLarge else .ok (),
        host.withContent handle.file
          (handle.written position (host.admitted position bytes))) := by
  have filled : ¬ bytes.isEmpty = true := by
    simpa only [List.isEmpty_iff] using some
  simp only [write, if_neg filled, if_neg (Nat.not_le_of_lt expressible), runFrom_bind,
    runFrom_get, runFrom_liftM, Host.updateContent_apply, runFrom_ite, runFrom_throw,
    runFrom_pure]
  split <;> rfl

theorem runFrom_write (position : Nat) {bytes : Bytes} (some : bytes ≠ [])
    (allowed : position + bytes.length ≤ host.limits.fileLength) :
    runFrom (handle.write position bytes) host =
      (.ok (), host.withContent handle.file (handle.written position bytes)) := by
  have expressible := Nat.lt_of_le_of_lt allowed host.limits.expressible
  rw [handle.runFrom_write_of_lt host position some expressible,
    if_neg (Nat.not_lt_of_le allowed), host.admitted_of_le allowed]

/-- A byte at the limit or behind it is not written. -/
theorem runFrom_writeByte_refused {position : Nat} (value : UInt8)
    (beyond : host.limits.fileLength < position + 1) :
    Exists fun cause => runFrom (handle.writeByte position value) host = (.error cause, host) := by
  by_cases expressible : position + 1 < offsetBound
  · have nothing : host.admitted position [value] = [] := by
      rw [Host.admitted, Nat.sub_eq_zero_of_le (Nat.le_of_lt_succ beyond), List.take_zero]
    refine ⟨.fileTooLarge, ?_⟩
    have wrote := handle.runFrom_write_of_lt host position (List.cons_ne_nil value []) expressible
    rwa [List.length_singleton, if_pos beyond, nothing, written_nil, host.withContent_id] at wrote
  · refine ⟨.invalidPosition, ?_⟩
    simp only [writeByte, write, List.isEmpty_cons, Bool.false_eq_true, if_false,
      List.length_singleton, if_pos (Nat.le_of_not_lt expressible), runFrom_bind, runFrom_throw]

/-! ## Syncing -/

theorem runFrom_sync_granted {host : Host} (granted : host.syncRefusal = none) :
    runFrom handle.sync host =
      (.ok (), host.synced.withContent handle.file Content.settle) := by
  simp only [sync, runFrom_bind, Host.runFrom_requestSync, granted, runFrom_liftM,
    Host.updateContent_apply]

theorem runFrom_sync_refused {host : Host} {cause : StorageError}
    (refused : host.syncRefusal = some cause) :
    runFrom handle.sync host = (.error cause, host.synced) := by
  simp only [sync, runFrom_bind, Host.runFrom_requestSync, refused]

/-- Syncing a file changes no byte of it, whether or not the system refuses. -/
theorem changes_sync (held : host.volume.Holds handle.file) :
    host.ChangesOnly (.some handle.file) (runFrom handle.sync host).2 ∧
      forall place, ((runFrom handle.sync host).2.volume.content handle.file).byte place =
        (host.volume.content handle.file).byte place := by
  have asked := Host.ChangesOnly.synced (.some handle.file) host
  cases answer : host.syncRefusal with
  | some cause =>
      rw [handle.runFrom_sync_refused answer]
      exact ⟨asked, fun _ => rfl⟩
  | none =>
      have heldSynced : host.synced.volume.Holds handle.file := held
      rw [handle.runFrom_sync_granted answer]
      refine ⟨asked.trans (Host.ChangesOnly.withContent heldSynced rfl), ?_⟩
      intro place
      rw [Host.withContent, Volume.content_updateContent_self heldSynced]
      rfl

/-- Inside the file a write changes the bytes that it passes and nothing else. -/
theorem changes_written (position : Nat) {bytes : Bytes} (some : bytes ≠ [])
    (inside : position + bytes.length ≤ (host.volume.content handle.file).length) :
    host.ChangesOnly (.some handle.file)
        (host.withContent handle.file (handle.written position bytes)) ∧
      forall place, ((host.withContent handle.file
          (handle.written position bytes)).volume.content handle.file).byte place =
        (host.volume.content handle.file).placed position bytes place := by
  have length := List.length_pos_iff.mpr some
  have held : host.volume.Holds handle.file := Volume.holds_of_length_pos (by omega)
  constructor
  · apply Host.ChangesOnly.withContent held
    rw [length_written handle position some]
    exact Nat.max_eq_left inside
  · intro place
    rw [Host.withContent, Volume.content_updateContent_self held, byte_written]

end Handle

namespace Region

variable (region : Region) (host : Host)

/-- As far as the file reaches, a mapping shows its bytes. -/
theorem load_apply (position : Nat)
    (inside : position < (host.volume.content region.file).length) :
    region.load position host =
      ((host.volume.content region.file).byte position, host) := by
  have shown := Content.mappedByte_of_lt (host.volume.content region.file) position inside
  simp only [load, bind_apply, pure_apply, Host.content_apply, shown]

theorem store_apply (position : Nat) (bytes : Bytes)
    (inside : position + bytes.length ≤ region.length) :
    region.store position bytes host =
      ((), host.withContent region.file fun content => content.store position bytes) := by
  have all : bytes.take (region.length - position) = bytes :=
    List.take_of_length_le (by omega)
  simp only [store, Host.updateContent_apply, all]

/-- A store changes the bytes of the file that it passes and nothing else. -/
theorem changes_store (position : Nat) {bytes : Bytes} (some : bytes ≠ [])
    (inside : position + bytes.length ≤ (host.volume.content region.file).length) :
    host.ChangesOnly (.some region.file)
        (host.withContent region.file fun content => content.store position bytes) ∧
      forall place, ((host.withContent region.file
          fun content => content.store position bytes).volume.content region.file).byte place =
        (host.volume.content region.file).placed position bytes place := by
  have length := List.length_pos_iff.mpr some
  have held : host.volume.Holds region.file := Volume.holds_of_length_pos (by omega)
  constructor
  · exact Host.ChangesOnly.withContent held rfl
  · intro place
    rw [Host.withContent, Volume.content_updateContent_self held]
    by_cases within : place < (host.volume.content region.file).length
    · exact Content.byte_store _ position bytes place within
    · have outside : ¬ (position ≤ place ∧ place < position + bytes.length) := by omega
      rw [Content.placed, if_neg outside, Content.byte, Content.byte, Content.length_store,
        if_neg within, if_neg within]

/-! ## Writing back -/

theorem runFrom_flush_granted {host : Host} (writesBack : host.WritesBack) :
    runFrom region.flush host = (.ok (), host.withContent region.file
      fun content => content.settleFront region.length) := by
  simp only [flush, runFrom_bind, Host.runFrom_sync writesBack, runFrom_liftM,
    Host.updateContent_apply]

theorem runFrom_flush_refused {host : Host} (refused : ¬ host.WritesBack) :
    Exists fun cause => runFrom region.flush host = (.error cause, host) := by
  rcases Host.runFrom_sync_refused region.mapping refused with ⟨cause, refusal⟩
  refine ⟨cause, ?_⟩
  simp only [flush, runFrom_bind, refusal]

/-- Writing a mapping back changes no byte of the file, whether or not the system refuses. -/
theorem changes_flush (held : host.volume.Holds region.file) :
    host.ChangesOnly (.some region.file) (runFrom region.flush host).2 ∧
      forall place, ((runFrom region.flush host).2.volume.content region.file).byte place =
        (host.volume.content region.file).byte place := by
  by_cases writesBack : host.WritesBack
  · rw [region.runFrom_flush_granted writesBack]
    refine ⟨Host.ChangesOnly.withContent held (Content.length_settleFront _ _), ?_⟩
    intro place
    rw [Host.withContent, Volume.content_updateContent_self held, Content.byte_settleFront]
  · rcases region.runFrom_flush_refused writesBack with ⟨cause, refused⟩
    rw [refused]
    exact ⟨Host.ChangesOnly.refl _ host, fun _ => rfl⟩

end Region
end BitStore
