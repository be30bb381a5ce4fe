import BitStore.Proofs.Storage.Evolution
import BitStore.Proofs.Storage.Paths

namespace BitStore

/-!
# What handles and regions do to contents

Each action on storage either fails and leaves the contents as they were, or lets
them evolve in one way, which is stated with it.  Only a write may fail halfway: what
it concedes then are the bytes in front of the size limit.  Nothing here depends on the
state of the platform or on whether the system refuses to sync files, to write mappings
back or to take them back: that only decides which of the two happens.
-/

namespace Host

variable {host : Host}

/-- Opening a path changes no content; what it opens is there. -/
theorem quiet_of_opened {volume : Volume} {file : FileId} {path : String} {create : Bool}
    (opened : host.volume.openFile path create = .ok (file, volume)) (sound : host.Sound) :
    host.Quiet { host with volume := volume } ∧ volume.Holds file := by
  rcases Volume.openFile_finds opened with
    ⟨rfl, location, _, listed, _⟩ | ⟨_, _, location, _, _, made, _⟩
  · exact ⟨Quiet.refl host, sound.entries location file
      (Volume.mem_of_found listed)⟩
  · have newFile : file = (host.volume.addFile location).1 := (congrArg Prod.fst made).symm
    have newVolume : volume = (host.volume.addFile location).2 := (congrArg Prod.snd made).symm
    have contents (other : FileId) := host.volume.content_addFile location other
    subst newFile newVolume
    constructor
    case right => exact host.volume.holds_addFile location (.inr rfl)
    case left =>
      constructor
      case bits =>
        intro other position
        simp only [bit, contents, Option.getD_none]
      case length =>
        intro other
        simp only [contents, Nat.max_zero]
      case held => exact fun other held => host.volume.holds_addFile location (.inl held)
      case limits => rfl
      case sound =>
        intro _
        constructor
        · intro place other member
          rcases List.mem_cons.mp member with same | listed
          · cases same
            exact host.volume.holds_addFile location (.inr rfl)
          · exact host.volume.holds_addFile location (.inl (sound.entries place other listed))
        · intro other
          simp only [contents]
          exact sound.limited other

/-- The second host differs from the first in that a file is long enough, and in
records. -/
structure Lengthens (before : Host) (file : FileId) (least : Nat) (after : Host) : Prop where
  volume : after.volume = before.volume.lengthen file least
  limits : after.limits = before.limits
  allowed : least ≤ (before.volume.content file).length ∨ least ≤ before.limits.fileLength

theorem Lengthens.evolves {file : FileId} {least : Nat} {after : Host}
    (longer : host.Lengthens file least after) (held : host.volume.Holds file) :
    host.Evolves after (fun _ _ => none) (onlyLength file least) := by
  have volume := longer.volume
  unfold Volume.lengthen at volume
  split at volume
  next enough =>
    have reached : host.Evolves host (fun _ _ => none) (onlyLength file least) := by
      apply evolves_of_reached
      intro other
      rw [onlyLength]
      split
      next same => rwa [same]
      next => exact Nat.zero_le _
    exact reached.then_quiet (quiet_of_same volume longer.limits)
  next short =>
    have long := Nat.le_of_lt (Nat.lt_of_not_le short)
    have grown : host.Evolves (host.withContent file fun content => content.resize least)
        (only file fun _ => none) (onlyLength file least) := by
      apply evolves_withContent held _ _ (longer.allowed.resolve_left short)
      · intro position
        exact congrArg (Byte.bit · _) (Content.byte_resize_of_le _ long _)
      · exact (Nat.max_eq_right long).symm
    rw [only_none] at grown
    exact grown.then_quiet (quiet_of_same volume longer.limits)

end Host

/-! ## Handles -/

namespace Handle

variable (handle : Handle) (host : Host)

theorem runFrom_openAt {file : FileId} {volume : Volume} {path : String} {create : Bool}
    (opened : host.volume.openFile path create = .ok (file, volume)) (mode : WriteMode) :
    runFrom (openAt path mode create) host =
      (.ok { file := file, mode := mode }, { host with volume := volume }) := by
  simp only [openAt, runFrom_bind, runFrom_get, opened, runFrom_outcome, runFrom_set,
    runFrom_pure]

theorem runFrom_openAt_refused {cause : StorageError} {path : String} {create : Bool}
    (refused : host.volume.openFile path create = .error cause) (mode : WriteMode) :
    runFrom (openAt path mode create) host = (.error cause, host) := by
  simp only [openAt, runFrom_bind, runFrom_get, refused, runFrom_outcome]

/-- A handle gets at a file that is there. -/
theorem openAt_cases {host : Host} (sound : host.Sound) (path : String) (mode : WriteMode)
    (create : Bool) :
    (Exists fun opened => Exists fun after =>
      runFrom (openAt path mode create) host = (.ok opened, after) ∧
      host.volume.openFile path create = .ok (opened.file, after.volume) ∧
      host.Quiet after ∧ after.volume.Holds opened.file) ∨
    Exists fun cause => runFrom (openAt path mode create) host = (.error cause, host) := by
  cases found : host.volume.openFile path create with
  | error cause => exact .inr ⟨cause, runFrom_openAt_refused host found mode⟩
  | ok pair =>
      rcases pair with ⟨file, volume⟩
      rcases Host.quiet_of_opened found sound with ⟨quiet, held⟩
      exact .inl ⟨{ file := file, mode := mode }, { host with volume := volume },
        runFrom_openAt host found mode, rfl, quiet, held⟩

/-- A file is extended unless the system does not let it become so long. -/
theorem setLength_cases {size : Nat} (longer : (host.volume.content handle.file).length < size) :
    (size ≤ host.limits.fileLength ∧ runFrom (handle.setLength size) host =
      (.ok (), host.withContent handle.file fun content => content.resize size)) ∨
    Exists fun cause => runFrom (handle.setLength size) host = (.error cause, host) := by
  by_cases unexpressible : offsetBound ≤ size
  · refine .inr ⟨.lengthOutOfRange, ?_⟩
    simp only [setLength, if_pos unexpressible, runFrom_bind, runFrom_throw]
  · by_cases allowed : size ≤ host.limits.fileLength
    · refine .inl ⟨allowed, ?_⟩
      simp only [setLength, if_neg unexpressible, Handle.length, runFrom_bind, runFrom_liftM,
        Host.content_apply, runFrom_pure, runFrom_get, Nat.not_lt_of_le allowed, decide_false,
        Bool.and_false, Bool.false_eq_true, if_false, Host.updateContent_apply]
    · refine .inr ⟨.fileTooLarge, ?_⟩
      simp only [setLength, if_neg unexpressible, Handle.length, runFrom_bind, runFrom_liftM,
        Host.content_apply, runFrom_pure, runFrom_get, Nat.lt_of_not_le allowed, longer,
        decide_true, Bool.and_self, if_true, runFrom_throw]

/-- Extending a file gives its length, which is now at least as asked for; where the
system does not let the file become so long, it stays as it is. -/
theorem ensureLength_cases (least : Nat) :
    (Exists fun length => Exists fun after =>
      runFrom (handle.ensureLength least) host = (.ok length, after) ∧
      length.val = max (host.volume.content handle.file).length least ∧
      host.Lengthens handle.file least after) ∨
    Exists fun cause => Exists fun after =>
      runFrom (handle.ensureLength least) host = (.error cause, after) ∧
      after.volume = host.volume ∧ after.limits = host.limits := by
  by_cases enough : least ≤ (host.volume.content handle.file).length
  · refine .inl ⟨⟨_, enough⟩, host, ?_, (Nat.max_eq_left enough).symm, ?_, rfl, .inl enough⟩
    · simp only [ensureLength, Handle.length, runFrom_bind, runFrom_liftM, Host.content_apply,
        runFrom_pure, dif_pos enough]
    · rw [Volume.lengthen, if_pos enough]
  · have longer := Nat.lt_of_not_le enough
    let begun := host.recorded (.growing (host.volume.content handle.file).length least)
    rcases handle.setLength_cases begun longer with ⟨allowed, grown⟩ | ⟨cause, refused⟩
    · let after := begun.withContent handle.file fun content => content.resize least
      refine .inl ⟨⟨least, Nat.le_refl least⟩, after, ?_,
        (Nat.max_eq_right (Nat.le_of_lt longer)).symm, ?_, rfl, .inr allowed⟩
      · simp only [ensureLength, Handle.length, runFrom_bind, runFrom_liftM, Host.content_apply,
          runFrom_pure, dif_neg enough, Host.record_apply]
        rw [grown]
      · rw [Volume.lengthen, if_neg enough]
        rfl
    · refine .inr ⟨cause, begun, ?_, rfl, rfl⟩
      simp only [ensureLength, Handle.length, runFrom_bind, runFrom_liftM, Host.content_apply,
        runFrom_pure, dif_neg enough, Host.record_apply]
      rw [refused]

/-- Bytes that the system lets be written are where they belong. -/
theorem evolves_written (held : host.volume.Holds handle.file) (place : Nat) (bytes : Bytes)
    (allowed : bytes ≠ [] -> place + bytes.length ≤ host.limits.fileLength) :
    host.Evolves (host.withContent handle.file (handle.written place bytes))
      (Host.only handle.file (bytes.bitsAt place))
      (Host.onlyLength handle.file (bytes.extent place)) := by
  by_cases none : bytes = []
  · subst none
    rw [written_nil, Host.withContent_id, Bytes.bitsAt_nil, Host.only_none, Bytes.extent,
      if_pos rfl, Host.onlyLength_zero]
    exact Host.Quiet.refl host
  · rw [Bytes.extent, if_neg none]
    apply Host.evolves_withContent held _ _ (allowed none)
    · intro position
      rw [byte_written, Bytes.bit_placed]
      rfl
    · exact handle.length_written place none _

/-- The bytes that a refused write has written: none, if it was not even begun. -/
def conceded (host : Host) (place : Nat) (bytes : Bytes) : Bytes :=
  if place + bytes.length < offsetBound then host.admitted place bytes else []

theorem conceded_prefix (host : Host) (place : Nat) (bytes : Bytes) :
    conceded host place bytes <+: bytes := by
  rw [conceded]
  split
  · exact List.take_prefix _ bytes
  · exact List.nil_prefix

/-- A write puts its bytes where they belong.  Where it is refused, what it concedes is
in its place. -/
theorem write_cases (held : host.volume.Holds handle.file) (place : Nat) (bytes : Bytes) :
    (Exists fun after =>
      runFrom (handle.write place bytes) host = (.ok (), after) ∧
      host.Evolves after (Host.only handle.file (bytes.bitsAt place))
        (Host.onlyLength handle.file (bytes.extent place))) ∨
    Exists fun cause => Exists fun after =>
      runFrom (handle.write place bytes) host = (.error cause, after) ∧
      host.Evolves after (Host.only handle.file ((conceded host place bytes).bitsAt place))
        (Host.onlyLength handle.file ((conceded host place bytes).extent place)) := by
  by_cases none : bytes = []
  · subst none
    have nothing := handle.evolves_written host held place [] (absurd rfl)
    rw [written_nil, Host.withContent_id] at nothing
    exact .inl ⟨host, rfl, nothing⟩
  by_cases expressible : place + bytes.length < offsetBound
  · have run := handle.runFrom_write_of_lt host place none expressible
    have evolves := handle.evolves_written host held place (host.admitted place bytes) (by
      intro some
      have length := host.length_admitted place bytes
      have positive := List.length_pos_iff.mpr some
      omega)
    by_cases beyond : host.limits.fileLength < place + bytes.length
    · rw [if_pos beyond] at run
      rw [conceded, if_pos expressible]
      exact .inr ⟨_, _, run, evolves⟩
    · rw [host.admitted_of_le (Nat.le_of_not_lt beyond)] at run evolves
      rw [if_neg beyond] at run
      exact .inl ⟨_, run, evolves⟩
  · have filled : ¬ bytes.isEmpty = true := by
      simpa only [List.isEmpty_iff] using none
    have nothing := handle.evolves_written host held place [] (absurd rfl)
    rw [written_nil, Host.withContent_id] at nothing
    refine .inr ⟨.invalidPosition, host, ?_, ?_⟩
    · simp only [write, if_neg filled, if_pos (Nat.le_of_not_lt expressible), runFrom_bind,
        runFrom_throw]
    · rw [conceded, if_neg expressible]
      exact nothing

/-- A read gives the bytes of the file or fails. -/
theorem read_cases (position count : Nat) :
    ((count = 0 ∨ position + count ≤ (host.volume.content handle.file).length) ∧
      runFrom (handle.read position count) host =
        (.ok ((host.volume.content handle.file).window position count), host)) ∨
    Exists fun cause => runFrom (handle.read position count) host = (.error cause, host) := by
  by_cases none : count = 0
  · subst none
    exact .inl ⟨.inl rfl, rfl⟩
  · by_cases unexpressible : offsetBound ≤ position + count
    · refine .inr ⟨.invalidPosition, ?_⟩
      simp only [read, if_neg none, if_pos unexpressible, runFrom_bind, runFrom_throw]
    · by_cases inside : position + count ≤ (host.volume.content handle.file).length
      · exact .inl ⟨.inr inside,
          handle.runFrom_read host position count inside (Nat.lt_of_not_le unexpressible)⟩
      · refine .inr ⟨.endOfFile, ?_⟩
        simp only [read, if_neg none, if_neg unexpressible, runFrom_bind, runFrom_liftM,
          Host.content_apply, if_pos (Nat.lt_of_not_le inside), runFrom_throw]

theorem readByte_cases (position : Nat) :
    (position < (host.volume.content handle.file).length ∧
      runFrom (handle.readByte position) host =
        (.ok ((host.volume.content handle.file).byte position), host)) ∨
    Exists fun cause => runFrom (handle.readByte position) host = (.error cause, host) := by
  by_cases unexpressible : offsetBound ≤ position + 1
  · refine .inr ⟨.invalidPosition, ?_⟩
    simp only [readByte, if_pos unexpressible, runFrom_bind, runFrom_throw]
  · by_cases inside : position < (host.volume.content handle.file).length
    · exact .inl ⟨inside,
        handle.runFrom_readByte host position inside (Nat.lt_of_not_le unexpressible)⟩
    · refine .inr ⟨.endOfFile, ?_⟩
      simp only [readByte, if_neg unexpressible, runFrom_bind, runFrom_liftM,
        Host.content_apply, if_pos (Nat.lt_succ_of_le (Nat.le_of_not_lt inside)), runFrom_throw]

/-- Bringing a file to stable storage changes no byte, whether or not the system refuses. -/
theorem quiet_sync (handle : Handle) (host : Host) :
    host.Quiet (runFrom handle.sync host).2 := by
  have asked : host.Quiet host.synced := Host.quiet_of_same rfl rfl
  cases answer : host.syncRefusal with
  | some cause =>
      rw [handle.runFrom_sync_refused answer]
      exact asked
  | none =>
      rw [handle.runFrom_sync_granted answer]
      exact asked.trans (Host.quiet_withContent _ handle.file (fun _ _ => rfl) (fun _ => rfl))

end Handle

/-! ## Regions -/

namespace Host

variable (host : Host)

/-- The ledger holds no content. -/
theorem grant_cases (length : Nat) :
    (Exists fun mapping => Exists fun after =>
      runFrom (grant length) host = (.ok mapping, after) ∧
      after.volume = host.volume ∧ after.limits = host.limits) ∨
    Exists fun cause => runFrom (grant length) host = (.error cause, host) := by
  by_cases unmapped : host.platform = .withoutMapping
  · refine .inr ⟨.mappingUnavailable, ?_⟩
    simp only [grant, runFrom_bind, runFrom_get, unmapped, if_true, runFrom_throw]
  · by_cases nothing : length = 0
    · refine .inr ⟨.emptyMapping, ?_⟩
      simp only [grant, runFrom_bind, runFrom_get, if_neg unmapped, nothing, if_true,
        runFrom_throw]
    · by_cases crowded : host.limits.mappingLength ≤ length
      · refine .inr ⟨.noMemory, ?_⟩
        simp only [grant, runFrom_bind, runFrom_get, if_neg unmapped, if_neg nothing,
          if_pos crowded, runFrom_throw]
      · let mapping : Mapping := { address := host.ledger.granted.length + 1, length := length }
        refine .inl ⟨⟨mapping, rfl⟩, { host with
          ledger := { host.ledger with granted := host.ledger.granted ++ [mapping] } }, ?_,
          rfl, rfl⟩
        simp only [grant, runFrom_bind, runFrom_get, if_neg unmapped, if_neg nothing,
          if_neg crowded, runFrom_set, runFrom_pure]
        rfl

theorem quiet_release (mapping : Mapping) : host.Quiet (runFrom (release mapping) host).2 := by
  by_cases unmapped : host.platform = .withoutMapping
  · simp only [release, runFrom_bind, runFrom_get, unmapped, if_true, runFrom_throw]
    exact Quiet.refl host
  · simp only [release, runFrom_bind, runFrom_get, if_neg unmapped, runFrom_set, runFrom_ite,
      runFrom_throw, runFrom_pure]
    split <;> exact quiet_of_same rfl rfl

theorem quiet_forbidRelease (mapping : Mapping) :
    host.Quiet (forbidRelease mapping host).2 :=
  quiet_of_same rfl rfl

end Host

namespace Region

variable (region : Region) (host : Host)

/-- A mapping is one of the handle's file. -/
theorem map_cases (handle : Handle) (length : Nat) :
    (Exists fun mapped => Exists fun after =>
      runFrom (Region.map handle length) host = (.ok mapped, after) ∧
      mapped.val.file = handle.file ∧ after.volume = host.volume ∧
      after.limits = host.limits) ∨
    Exists fun cause => runFrom (Region.map handle length) host = (.error cause, host) := by
  rcases host.grant_cases length with ⟨mapping, after, granted, same⟩ | ⟨cause, refused⟩
  · refine .inl ⟨⟨{ mapping := mapping.val, file := handle.file }, mapping.property⟩, after, ?_,
      rfl, same⟩
    simp only [map, runFrom_bind, granted, runFrom_pure]
  · refine .inr ⟨cause, ?_⟩
    simp only [map, runFrom_bind, refused]

/-- The bits that a store defines: its bytes go as far as the mapping and the file
reach. -/
def defines (region : Region) (host : Host) (place : Nat) (bytes : Bytes) :
    FileId -> Nat -> Option Bool :=
  Host.only region.file fun position =>
    if position / 8 < (host.volume.content region.file).length
    then Bytes.bitsAt (bytes.take (region.length - place)) place position else none

/-- A store puts its bytes where they belong. -/
theorem store_evolves (held : host.volume.Holds region.file) (place : Nat) (bytes : Bytes) :
    host.Evolves (region.store place bytes host).2 (region.defines host place bytes)
      (fun _ => 0) := by
  rw [← Host.onlyLength_zero region.file]
  apply Host.evolves_withContent held _ _ (Nat.zero_le _)
  · intro position
    split
    next inside => rw [Content.byte_store _ _ _ _ inside, ← Content.placed, Bytes.bit_placed,
      Host.bit]
    next outside =>
      have past := Nat.le_of_not_lt outside
      have stored : ((host.volume.content region.file).store place
          (bytes.take (region.length - place))).length ≤ position / 8 := past
      rw [Option.getD_none, Host.bit, Content.byte_of_le _ stored, Content.byte_of_le _ past]
  · exact (Nat.max_zero _).symm

/-- As far as the file reaches, a view shows its bytes. -/
theorem view_shows {place : Nat} (mapped : place < region.length)
    (inside : place < (host.volume.content region.file).length) :
    (region.view host).1[place]? = some ((host.volume.content region.file).byte place) := by
  simp only [view, bind_apply, pure_apply, Host.content_apply, Content.mappedFront,
    List.getElem?_map, List.getElem?_range mapped, Option.map_some,
    Content.mappedByte_of_lt _ place inside]

/-- Writing back changes no byte, whether or not the system refuses it. -/
theorem quiet_flush : host.Quiet (runFrom region.flush host).2 := by
  by_cases writesBack : host.WritesBack
  · rw [region.runFrom_flush_granted writesBack]
    exact Host.quiet_withContent host region.file
      (fun content place => Content.byte_settleFront content region.length place)
      (fun content => Content.length_settleFront content region.length)
  · rcases region.runFrom_flush_refused writesBack with ⟨cause, refused⟩
    rw [refused]
    exact Host.Quiet.refl host

/-- Nor does giving the mapping up, whether or not the system takes it back. -/
theorem quiet_unmap : host.Quiet (runFrom region.unmap host).2 :=
  host.quiet_release region.mapping

theorem quiet_drop : host.Quiet (region.drop host).2 :=
  region.quiet_unmap host

end Region
end BitStore
