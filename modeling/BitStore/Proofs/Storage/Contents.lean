import BitStore.Proofs.Running
import BitStore.Storage.Region

namespace BitStore

/-!
# Contents on a volume, and what a change leaves alone

A volume numbers its contents, and a change under one number shows under no
other.  `Host.ChangesOnly` is the frame of everything that arrays do to storage:
the bytes of one file may differ, requests to sync a file may have been answered, and
records may be added; lengths, other files, the tree, the ledger and the settings of
the system stay.
-/

namespace Volume

/-- Whether a content has this number. -/
def Holds (volume : Volume) (file : FileId) : Prop :=
  file < volume.contents.length

theorem content_updateContent_self {volume : Volume} {file : FileId}
    (held : volume.Holds file) (change : Content -> Content) :
    (volume.updateContent file change).content file = change (volume.content file) := by
  have inside : file < volume.contents.length := held
  simp only [content, updateContent, List.getElem?_modify_eq,
    List.getElem?_eq_getElem inside, Option.map_eq_map, Option.map_some, Option.getD_some]

theorem content_updateContent_of_ne (volume : Volume) {file other : FileId}
    (different : other ≠ file) (change : Content -> Content) :
    (volume.updateContent file change).content other = volume.content other := by
  simp only [content, updateContent]
  rw [List.getElem?_modify_ne _ _ (Ne.symm different)]

@[simp] theorem holds_updateContent (volume : Volume) (file other : FileId)
    (change : Content -> Content) :
    (volume.updateContent file change).Holds other ↔ volume.Holds other := by
  simp only [Holds, updateContent, List.length_modify]

/-- Only a content that is there has a length. -/
theorem holds_of_length_pos {volume : Volume} {file : FileId}
    (long : 0 < (volume.content file).length) : volume.Holds file := by
  apply Classical.byContradiction
  intro missing
  have absent : volume.contents[file]? = none :=
    List.getElem?_eq_none (Nat.le_of_not_lt missing)
  rw [content, absent] at long
  exact Nat.lt_irrefl 0 long

end Volume

namespace Host

/-- The host with the content of a file changed. -/
def withContent (host : Host) (file : FileId) (change : Content -> Content) : Host :=
  { host with volume := host.volume.updateContent file change }

/-- Nothing is changed that stays as it is. -/
theorem withContent_id (host : Host) (file : FileId) : host.withContent file id = host := by
  rw [withContent, Volume.updateContent, List.modify_id]

theorem updateContent_apply (host : Host) (file : FileId) (change : Content -> Content) :
    updateContent file change host = ((), host.withContent file change) := rfl

theorem content_apply (host : Host) (file : FileId) :
    content file host = (host.volume.content file, host) := rfl

/-- The host with one more record. -/
def recorded (host : Host) (event : Event) : Host :=
  { host with events := host.events ++ [event] }

theorem record_apply (host : Host) (event : Event) :
    record event host = ((), host.recorded event) := rfl

/-- The host with one more request to sync a file answered. -/
def synced (host : Host) : Host :=
  { host with fileSyncs := host.fileSyncs.tail }

theorem runFrom_requestSync (host : Host) :
    runFrom requestSync host =
      (match host.syncRefusal with
        | none => .ok ()
        | some cause => .error cause, host.synced) := by
  simp only [requestSync, runFrom_bind, runFrom_get, runFrom_set]
  cases host.syncRefusal <;> rfl

/-- The second host differs from the first in the bytes of one file, if any, in requests
to sync that were answered, and in records, at most. -/
structure ChangesOnly (file : Option FileId) (before after : Host) : Prop where
  entries : after.volume.entries = before.volume.entries
  held : forall other, after.volume.Holds other ↔ before.volume.Holds other
  others : forall other, file ≠ some other ->
    after.volume.content other = before.volume.content other
  length : forall other,
    (after.volume.content other).length = (before.volume.content other).length
  platform : after.platform = before.platform
  limits : after.limits = before.limits
  ledger : after.ledger = before.ledger
  syncRefused : after.syncRefused = before.syncRefused
  fileSyncs : after.fileSyncs <:+ before.fileSyncs

namespace ChangesOnly

variable {file : Option FileId} {first second third : Host}

theorem trans (before : ChangesOnly file first second)
    (after : ChangesOnly file second third) : ChangesOnly file first third where
  entries := after.entries.trans before.entries
  held other := (after.held other).trans (before.held other)
  others other different :=
    (after.others other different).trans (before.others other different)
  length other := (after.length other).trans (before.length other)
  platform := after.platform.trans before.platform
  limits := after.limits.trans before.limits
  ledger := after.ledger.trans before.ledger
  syncRefused := after.syncRefused.trans before.syncRefused
  fileSyncs := after.fileSyncs.trans before.fileSyncs

/-- Where only records and answers differ, no file was changed at all. -/
theorem of_same (file : Option FileId) (volume : second.volume = first.volume)
    (platform : second.platform = first.platform) (limits : second.limits = first.limits)
    (ledger : second.ledger = first.ledger) (syncRefused : second.syncRefused = first.syncRefused)
    (fileSyncs : second.fileSyncs <:+ first.fileSyncs) : ChangesOnly file first second where
  entries := by rw [volume]
  held other := by rw [volume]
  others other _ := by rw [volume]
  length other := by rw [volume]
  platform := platform
  limits := limits
  ledger := ledger
  syncRefused := syncRefused
  fileSyncs := fileSyncs

theorem refl (file : Option FileId) (host : Host) : ChangesOnly file host host :=
  of_same file rfl rfl rfl rfl rfl List.suffix_rfl

theorem recorded (file : Option FileId) (host : Host) (event : Event) :
    ChangesOnly file host (host.recorded event) :=
  of_same file rfl rfl rfl rfl rfl List.suffix_rfl

theorem synced (file : Option FileId) (host : Host) : ChangesOnly file host host.synced :=
  of_same file rfl rfl rfl rfl rfl (List.tail_suffix host.fileSyncs)

theorem withContent {host : Host} {file : FileId} (held : host.volume.Holds file)
    {change : Content -> Content}
    (length : (change (host.volume.content file)).length =
      (host.volume.content file).length) :
    ChangesOnly (some file) host (host.withContent file change) where
  entries := rfl
  held other := Volume.holds_updateContent host.volume file other change
  others other different := by
    apply Volume.content_updateContent_of_ne
    intro same
    exact different (congrArg some same.symm)
  length other := by
    by_cases same : other = file
    · subst same
      exact (congrArg Content.length
        (Volume.content_updateContent_self held change)).trans length
    · exact congrArg Content.length
        (Volume.content_updateContent_of_ne host.volume same change)
  platform := rfl
  limits := rfl
  ledger := rfl
  syncRefused := rfl
  fileSyncs := List.suffix_rfl

end ChangesOnly

/-- Nothing has happened but that records were added. -/
def RecordsOnly (before after : Host) : Prop :=
  after = { before with events := after.events }

namespace RecordsOnly

variable {first second third : Host}

theorem refl (host : Host) : host.RecordsOnly host := rfl

theorem recorded (host : Host) (event : Event) : host.RecordsOnly (host.recorded event) := rfl

theorem trans (before : first.RecordsOnly second) (after : second.RecordsOnly third) :
    first.RecordsOnly third := by
  rw [RecordsOnly] at before after ⊢
  rw [after, before]

theorem volume (records : first.RecordsOnly second) : second.volume = first.volume := by
  rw [records]

theorem fileSyncs (records : first.RecordsOnly second) : second.fileSyncs = first.fileSyncs := by
  rw [records]

theorem changesNone (records : first.RecordsOnly second) : ChangesOnly none first second := by
  rw [records]
  exact .of_same none rfl rfl rfl rfl rfl List.suffix_rfl

end RecordsOnly
end Host
end BitStore
