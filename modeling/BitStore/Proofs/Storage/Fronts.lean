import BitStore.Proofs.Storage.Access

namespace BitStore

/-!
# The fronts of files

An array has to do with the bytes at the front of its file.  Whether it keeps to them
is asked of two runs at once: they begin on hosts whose files agree at the front and
may differ behind it, in length as in bytes.  Two actions are parallel if from such
hosts they come to related ends, neither of them has changed anything behind its own
front, and the fronts agree once more.

Parallel actions compose, so that for composite actions it is enough to look at their
parts.  The parts that touch a file are the accesses of handles and regions inside of
the front.
-/

namespace Host

/-- The second host differs from the first in the front of one file, in the ledger, in
requests to sync that were answered, and in records, at most. -/
structure Confines (file : FileId) (count : Nat) (before after : Host) : Prop where
  entries : after.volume.entries = before.volume.entries
  held : forall other, after.volume.Holds other ↔ before.volume.Holds other
  others : forall other, other ≠ file ->
    after.volume.content other = before.volume.content other
  length : forall other,
    (after.volume.content other).length = (before.volume.content other).length
  tail : forall place, count ≤ place ->
    (after.volume.content file).byte place = (before.volume.content file).byte place
  platform : after.platform = before.platform
  limits : after.limits = before.limits
  syncRefused : after.syncRefused = before.syncRefused
  fileSyncs : after.fileSyncs <:+ before.fileSyncs

namespace Confines

variable {file : FileId} {count : Nat} {first second third : Host}

theorem of_same (volume : second.volume = first.volume)
    (platform : second.platform = first.platform) (limits : second.limits = first.limits)
    (syncRefused : second.syncRefused = first.syncRefused)
    (fileSyncs : second.fileSyncs = first.fileSyncs) : Confines file count first second where
  entries := by rw [volume]
  held other := by rw [volume]
  others other _ := by rw [volume]
  length other := by rw [volume]
  tail place _ := by rw [volume]
  platform := platform
  limits := limits
  syncRefused := syncRefused
  fileSyncs := by simp only [fileSyncs, List.suffix_rfl]

theorem refl (file : FileId) (count : Nat) (host : Host) : Confines file count host host :=
  of_same rfl rfl rfl rfl rfl

theorem trans (before : Confines file count first second)
    (after : Confines file count second third) : Confines file count first third where
  entries := after.entries.trans before.entries
  held other := (after.held other).trans (before.held other)
  others other different := (after.others other different).trans (before.others other different)
  length other := (after.length other).trans (before.length other)
  tail place behind := (after.tail place behind).trans (before.tail place behind)
  platform := after.platform.trans before.platform
  limits := after.limits.trans before.limits
  syncRefused := after.syncRefused.trans before.syncRefused
  fileSyncs := after.fileSyncs.trans before.fileSyncs

theorem of_changesOnly (changes : ChangesOnly (some file) first second)
    (tail : forall place, count ≤ place ->
      (second.volume.content file).byte place = (first.volume.content file).byte place) :
    Confines file count first second where
  entries := changes.entries
  held := changes.held
  others other different := changes.others other fun same => different (Option.some.inj same).symm
  length := changes.length
  tail := tail
  platform := changes.platform
  limits := changes.limits
  syncRefused := changes.syncRefused
  fileSyncs := changes.fileSyncs

/-- Where a smaller front was kept to, so is a larger one. -/
theorem mono {larger : Nat} (confines : Confines file count first second)
    (wider : count ≤ larger) : Confines file larger first second :=
  { confines with tail := fun place behind =>
      confines.tail place (Nat.le_trans wider behind) }

theorem of_changesNone (changes : ChangesOnly none first second) :
    Confines file count first second := by
  have contents (other : FileId) : second.volume.content other = first.volume.content other :=
    changes.others other nofun
  apply of_changesOnly
  · exact { changes with others := fun other _ => contents other }
  · intro place _
    rw [contents]

end Confines

/-- What is said of a content at most about its pages on stable storage. -/
theorem confines_withContent {host : Host} {file : FileId} (held : host.volume.Holds file)
    {change : Content -> Content}
    (length : (change (host.volume.content file)).length = (host.volume.content file).length)
    (same : forall place, (change (host.volume.content file)).byte place =
      (host.volume.content file).byte place) :
    host.Confines file 0 (host.withContent file change) := by
  apply Confines.of_changesOnly (ChangesOnly.withContent held length)
  intro place _
  rw [withContent, Volume.content_updateContent_self held, same]

/-- A release, whether or not it is refused, is entered in the ledger. -/
theorem confines_release (host : Host) (mapping : Mapping) {file : FileId} {count : Nat} :
    host.Confines file count (runFrom (release mapping) host).2 := by
  simp only [release, runFrom_bind, runFrom_get, runFrom_ite, runFrom_throw, runFrom_set,
    runFrom_pure]
  split
  · exact Confines.refl file count host
  · split <;> exact Confines.of_same rfl rfl rfl rfl rfl

end Host

/-- The fronts of two files: as many bytes of each of them.  Where syncs may be refused,
the two files have to be synced alike: by arrays of one mode, and of one path, which a
refusal names. -/
structure Fronts where
  left : FileId
  right : FileId
  count : Nat
  syncedAlike : Bool := true

namespace Fronts

/-- Two hosts answer requests to sync alike, or else they grant all of them. -/
def Answers (fronts : Fronts) (first second : Host) : Prop :=
  if fronts.syncedAlike then second.fileSyncs = first.fileSyncs
  else first.SyncsFiles ∧ second.SyncsFiles

/-- On two hosts that are set up alike, both files go on behind their fronts, which hold
the same bytes. -/
structure Agree (fronts : Fronts) (first second : Host) : Prop where
  platform : second.platform = first.platform
  limits : second.limits = first.limits
  syncRefused : second.syncRefused = first.syncRefused
  answers : fronts.Answers first second
  left : fronts.count < (first.volume.content fronts.left).length
  right : fronts.count < (second.volume.content fronts.right).length
  bytes : forall place, place < fronts.count ->
    (second.volume.content fronts.right).byte place =
      (first.volume.content fronts.left).byte place

theorem Answers.granted {fronts : Fronts} {first second : Host}
    (answers : fronts.Answers first second) (apart : fronts.syncedAlike = false) :
    first.SyncsFiles ∧ second.SyncsFiles := by
  rwa [Answers, apart, if_neg Bool.false_ne_true] at answers

theorem answers_of_granted {fronts : Fronts} {first second : Host}
    (apart : fronts.syncedAlike = false) (granted : first.SyncsFiles ∧ second.SyncsFiles) :
    fronts.Answers first second := by
  rwa [Answers, apart, if_neg Bool.false_ne_true]

theorem Answers.syncRefusal {fronts : Fronts} {first second : Host}
    (answers : fronts.Answers first second) : second.syncRefusal = first.syncRefusal := by
  unfold Answers at answers
  split at answers
  · rw [Host.syncRefusal, Host.syncRefusal, answers]
  · rw [answers.1.syncRefusal, answers.2.syncRefusal]

theorem Answers.synced {fronts : Fronts} {first second : Host}
    (answers : fronts.Answers first second) : fronts.Answers first.synced second.synced := by
  unfold Answers at answers ⊢
  split at answers
  next alike =>
    rw [if_pos alike]
    exact congrArg List.tail answers
  next apart =>
    rw [if_neg apart]
    exact ⟨answers.1.of_suffix (List.tail_suffix _), answers.2.of_suffix (List.tail_suffix _)⟩

/-- How two hosts have moved on: each within its front, and the fronts still agree. -/
structure Move (fronts : Fronts) (first second after other : Host) : Prop where
  left : first.Confines fronts.left fronts.count after
  right : second.Confines fronts.right fronts.count other
  agree : fronts.Agree after other

/-- Two outcomes: related values, or the same failure. -/
inductive Outcomes {ε α β : Type} (relates : α -> β -> Prop) :
    Except ε α -> Except ε β -> Prop where
  | ok {value : α} {other : β} (related : relates value other) :
      Outcomes relates (.ok value) (.ok other)
  | error (reason : ε) : Outcomes relates (.error reason) (.error reason)

/-- From hosts that agree, two actions come to related outcomes, each within its front,
and to hosts that agree. -/
def Parallel {ε α β : Type} (fronts : Fronts) (relates : α -> β -> Prop)
    (action : ExceptT ε (StateM Host) α) (other : ExceptT ε (StateM Host) β) : Prop :=
  forall first second, fronts.Agree first second ->
    Outcomes relates (runFrom action first).1 (runFrom other second).1 ∧
      fronts.Move first second (runFrom action first).2 (runFrom other second).2

variable {ε α β : Type} {fronts : Fronts} {first second after other : Host}

theorem Agree.move (agree : fronts.Agree first second) : fronts.Move first second first second where
  left := Host.Confines.refl fronts.left fronts.count first
  right := Host.Confines.refl fronts.right fronts.count second
  agree := agree

/-- Hosts that were changed within their fronts, and alike, agree as before. -/
theorem Agree.moved (agree : fronts.Agree first second)
    (left : first.Confines fronts.left fronts.count after)
    (right : second.Confines fronts.right fronts.count other)
    (answers : fronts.Answers after other)
    (bytes : forall place, place < fronts.count ->
      (other.volume.content fronts.right).byte place =
        (after.volume.content fronts.left).byte place) :
    fronts.Move first second after other where
  left := left
  right := right
  agree := {
    platform := right.platform.trans (agree.platform.trans left.platform.symm)
    limits := right.limits.trans (agree.limits.trans left.limits.symm)
    syncRefused := right.syncRefused.trans (agree.syncRefused.trans left.syncRefused.symm)
    answers := answers
    left := (left.length fronts.left).symm ▸ agree.left
    right := (right.length fronts.right).symm ▸ agree.right
    bytes := bytes }

/-- The same bytes put at the same position of both fronts. -/
theorem Agree.placed (agree : fronts.Agree first second) {position : Nat} {bytes : Bytes}
    (inside : position + bytes.length ≤ fronts.count)
    (left : first.ChangesOnly (some fronts.left) after)
    (leftBytes : forall place, (after.volume.content fronts.left).byte place =
      (first.volume.content fronts.left).placed position bytes place)
    (right : second.ChangesOnly (some fronts.right) other)
    (rightBytes : forall place, (other.volume.content fronts.right).byte place =
      (second.volume.content fronts.right).placed position bytes place)
    (answers : fronts.Answers after other) :
    fronts.Move first second after other := by
  apply agree.moved _ _ answers
  · intro place front
    rw [leftBytes, rightBytes, Content.placed, Content.placed, agree.bytes place front]
  · apply Host.Confines.of_changesOnly left
    intro place behind
    rw [leftBytes, Content.placed, if_neg (by omega)]
  · apply Host.Confines.of_changesOnly right
    intro place behind
    rw [rightBytes, Content.placed, if_neg (by omega)]

/-- No byte of either file was changed. -/
theorem Agree.kept (agree : fronts.Agree first second)
    (left : first.Confines fronts.left 0 after) (right : second.Confines fronts.right 0 other)
    (answers : fronts.Answers after other) : fronts.Move first second after other := by
  apply agree.moved (left.mono (Nat.zero_le _)) (right.mono (Nat.zero_le _)) answers
  intro place front
  rw [left.tail place (Nat.zero_le place), right.tail place (Nat.zero_le place)]
  exact agree.bytes place front

/-- The bytes at the front of either file are the same. -/
theorem Agree.window (agree : fronts.Agree first second) :
    (second.volume.content fronts.right).window 0 fronts.count =
      (first.volume.content fronts.left).window 0 fronts.count := by
  apply List.ext_getElem
  · rw [Content.length_window, Content.length_window]
  · intro place inRight inLeft
    have front : place < fronts.count := by rwa [Content.length_window] at inLeft
    simp only [Content.window, List.getElem_map, List.getElem_range', Nat.zero_add, Nat.one_mul]
    exact agree.bytes place front

theorem Move.trans {third fourth : Host} (before : fronts.Move first second after other)
    (rest : fronts.Move after other third fourth) : fronts.Move first second third fourth where
  left := before.left.trans rest.left
  right := before.right.trans rest.right
  agree := rest.agree

theorem Outcomes.refl (outcome : Except ε α) : Outcomes Eq outcome outcome := by
  cases outcome with
  | error reason => exact .error reason
  | ok value => exact .ok rfl

theorem Outcomes.eq {outcome mate : Except ε α} (outcomes : Outcomes Eq outcome mate) :
    outcome = mate := by
  cases outcomes with
  | error reason => rfl
  | ok related => rw [related]

/-! ## Composing parallel actions -/

variable {relates : α -> β -> Prop} {action : ExceptT ε (StateM Host) α}
  {partner : ExceptT ε (StateM Host) β}

theorem parallel_pure {value : α} {mate : β} (related : relates value mate) :
    fronts.Parallel relates (pure value : ExceptT ε (StateM Host) α)
      (pure mate : ExceptT ε (StateM Host) β) := by
  intro first second agree
  exact ⟨.ok related, agree.move⟩

theorem parallel_outcome {outcome : Except ε α} {mate : Except ε β}
    (related : Outcomes relates outcome mate) :
    fronts.Parallel relates (liftM outcome : ExceptT ε (StateM Host) α)
      (liftM mate : ExceptT ε (StateM Host) β) := by
  intro first second agree
  exact ⟨related, agree.move⟩

theorem Parallel.imp {weaker : α -> β -> Prop} (parallel : fronts.Parallel relates action partner)
    (weaken : forall value mate, relates value mate -> weaker value mate) :
    fronts.Parallel weaker action partner := by
  intro first second agree
  rcases parallel first second agree with ⟨outcomes, move⟩
  refine ⟨?_, move⟩
  generalize (runFrom action first).1 = outcome at outcomes ⊢
  generalize (runFrom partner second).1 = mate at outcomes ⊢
  cases outcomes with
  | ok related => exact .ok (weaken _ _ related)
  | error reason => exact .error reason

theorem Parallel.bind {γ δ : Type} {relatesNext : γ -> δ -> Prop}
    {next : α -> ExceptT ε (StateM Host) γ} {nextPartner : β -> ExceptT ε (StateM Host) δ}
    (begun : fronts.Parallel relates action partner)
    (rest : forall value mate, relates value mate ->
      fronts.Parallel relatesNext (next value) (nextPartner mate)) :
    fronts.Parallel relatesNext (action >>= next) (partner >>= nextPartner) := by
  intro first second agree
  rcases begun first second agree with ⟨outcomes, move⟩
  rw [runFrom_bind, runFrom_bind]
  generalize runFrom action first = ended at outcomes move ⊢
  generalize runFrom partner second = endedPartner at outcomes move ⊢
  rcases ended with ⟨outcome, after⟩
  rcases endedPartner with ⟨mate, other⟩
  cases outcomes with
  | error reason => exact ⟨.error reason, move⟩
  | ok related =>
      rcases rest _ _ related after other move.agree with ⟨outcomesNext, moveNext⟩
      exact ⟨outcomesNext, move.trans moveNext⟩

/-- What is read alike is answered alike. -/
theorem Parallel.answered {γ : Type} {action partner : ExceptT ε (StateM Host) α}
    (read : fronts.Parallel Eq action partner) (answer : α -> γ) :
    fronts.Parallel Eq (do return answer (← action)) (do return answer (← partner)) := by
  apply read.bind
  rintro value _ rfl
  exact parallel_pure rfl

/-- Failures may be given in other words. -/
theorem Parallel.within {relates : α -> β -> Prop} {action : HostM α} {partner : HostM β}
    (parallel : fronts.Parallel relates action partner) (context : String) :
    fronts.Parallel relates (HostM.within context action) (HostM.within context partner) := by
  intro first second agree
  rcases parallel first second agree with ⟨outcomes, move⟩
  rw [runFrom_within, runFrom_within]
  refine ⟨?_, move⟩
  generalize (runFrom action first).1 = outcome at outcomes ⊢
  generalize (runFrom partner second).1 = mate at outcomes ⊢
  cases outcomes with
  | ok related => exact .ok related
  | error reason => exact .error _

/-- A record is not looked at. -/
theorem parallel_record (event mate : Event) :
    fronts.Parallel (fun _ _ => True) (liftM (Host.record event) : ExceptT ε (StateM Host) Unit)
      (liftM (Host.record mate) : ExceptT ε (StateM Host) Unit) := by
  intro first second agree
  rw [runFrom_liftM, runFrom_liftM, Host.record_apply, Host.record_apply]
  exact ⟨.ok trivial, agree.moved (Host.Confines.of_same rfl rfl rfl rfl rfl)
    (Host.Confines.of_same rfl rfl rfl rfl rfl) agree.answers agree.bytes⟩

/-! ## Handles -/

variable {handle mate : Handle}

theorem parallel_readByte (left : handle.file = fronts.left) (right : mate.file = fronts.right)
    {place : Nat} (front : place < fronts.count) :
    fronts.Parallel Eq (handle.readByte place) (mate.readByte place) := by
  intro first second agree
  by_cases unexpressible : offsetBound ≤ place + 1
  · simp only [Handle.readByte, if_pos unexpressible, runFrom_bind, runFrom_throw]
    exact ⟨.error _, agree.move⟩
  · have expressible := Nat.lt_of_not_le unexpressible
    have insideLeft : place < (first.volume.content handle.file).length :=
      left ▸ Nat.lt_trans front agree.left
    have insideRight : place < (second.volume.content mate.file).length :=
      right ▸ Nat.lt_trans front agree.right
    rw [handle.runFrom_readByte first place insideLeft expressible,
      mate.runFrom_readByte second place insideRight expressible, left, right]
    exact ⟨.ok (agree.bytes place front).symm, agree.move⟩

theorem parallel_read (left : handle.file = fronts.left) (right : mate.file = fronts.right) :
    fronts.Parallel Eq (handle.read 0 fronts.count) (mate.read 0 fronts.count) := by
  intro first second agree
  by_cases unexpressible : offsetBound ≤ 0 + fronts.count
  · by_cases none : fronts.count = 0
    · rw [none]
      exact ⟨.ok rfl, agree.move⟩
    · simp only [Handle.read, if_neg none, if_pos unexpressible, runFrom_bind, runFrom_throw]
      exact ⟨.error _, agree.move⟩
  · have expressible := Nat.lt_of_not_le unexpressible
    have insideLeft : 0 + fronts.count ≤ (first.volume.content handle.file).length := by
      rw [left, Nat.zero_add]
      exact Nat.le_of_lt agree.left
    have insideRight : 0 + fronts.count ≤ (second.volume.content mate.file).length := by
      rw [right, Nat.zero_add]
      exact Nat.le_of_lt agree.right
    rw [handle.runFrom_read first 0 fronts.count insideLeft expressible,
      mate.runFrom_read second 0 fronts.count insideRight expressible, left, right]
    exact ⟨.ok agree.window.symm, agree.move⟩

theorem parallel_write (left : handle.file = fronts.left) (right : mate.file = fronts.right)
    {position : Nat} {bytes : Bytes} (front : position + bytes.length ≤ fronts.count) :
    fronts.Parallel Eq (handle.write position bytes) (mate.write position bytes) := by
  intro first second agree
  by_cases none : bytes = []
  · rw [none]
    exact ⟨.ok rfl, agree.move⟩
  by_cases unexpressible : offsetBound ≤ position + bytes.length
  · have filled : ¬ bytes.isEmpty = true := by
      simpa only [List.isEmpty_iff] using none
    simp only [Handle.write, if_neg filled, if_pos unexpressible, runFrom_bind, runFrom_throw]
    exact ⟨.error _, agree.move⟩
  have expressible := Nat.lt_of_not_le unexpressible
  have admitted : second.admitted position bytes = first.admitted position bytes := by
    rw [Host.admitted, Host.admitted, agree.limits]
  rw [handle.runFrom_write_of_lt first position none expressible,
    mate.runFrom_write_of_lt second position none expressible, admitted, agree.limits]
  have length := first.length_admitted position bytes
  generalize first.admitted position bytes = cut at length
  refine ⟨Outcomes.refl _, ?_⟩
  by_cases nothing : cut = []
  · rw [nothing, Handle.written_nil, Handle.written_nil, Host.withContent_id, Host.withContent_id]
    exact agree.move
  have within : position + cut.length ≤ fronts.count := by omega
  rcases handle.changes_written first position nothing
    (by rw [left]; exact Nat.le_trans within (Nat.le_of_lt agree.left)) with ⟨changes, bytes⟩
  rcases mate.changes_written second position nothing
    (by rw [right]; exact Nat.le_trans within (Nat.le_of_lt agree.right)) with
    ⟨changesMate, bytesMate⟩
  rw [left] at changes bytes ⊢
  rw [right] at changesMate bytesMate ⊢
  exact agree.placed within changes bytes changesMate bytesMate agree.answers

/-- Bringing a file to stable storage changes no byte, and is refused alike. -/
theorem parallel_sync (left : handle.file = fronts.left) (right : mate.file = fronts.right) :
    fronts.Parallel Eq handle.sync mate.sync := by
  intro first second agree
  have heldLeft : first.volume.Holds handle.file :=
    Volume.holds_of_length_pos (Nat.zero_lt_of_lt (left ▸ agree.left))
  have heldRight : second.volume.Holds mate.file :=
    Volume.holds_of_length_pos (Nat.zero_lt_of_lt (right ▸ agree.right))
  rcases handle.changes_sync first heldLeft with ⟨changes, bytes⟩
  rcases mate.changes_sync second heldRight with ⟨changesMate, bytesMate⟩
  have still : first.Confines handle.file 0 (runFrom handle.sync first).2 :=
    .of_changesOnly changes fun place _ => bytes place
  have stillMate : second.Confines mate.file 0 (runFrom mate.sync second).2 :=
    .of_changesOnly changesMate fun place _ => bytesMate place
  rw [left] at still
  rw [right] at stillMate
  have refusal := agree.answers.syncRefusal
  have move := agree.kept still stillMate
  cases answer : first.syncRefusal with
  | none =>
      rw [handle.runFrom_sync_granted answer, mate.runFrom_sync_granted (refusal.trans answer)]
        at move ⊢
      exact ⟨.ok rfl, move agree.answers.synced⟩
  | some cause =>
      rw [handle.runFrom_sync_refused answer, mate.runFrom_sync_refused (refusal.trans answer)]
        at move ⊢
      exact ⟨.error cause, move agree.answers.synced⟩

/-! ## Regions -/

variable {region mirror : Region}

theorem parallel_load (left : region.file = fronts.left) (right : mirror.file = fronts.right)
    {place : Nat} (front : place < fronts.count) :
    fronts.Parallel Eq (liftM (region.load place) : ExceptT ε (StateM Host) UInt8)
      (liftM (mirror.load place) : ExceptT ε (StateM Host) UInt8) := by
  intro first second agree
  have insideLeft : place < (first.volume.content region.file).length :=
    left ▸ Nat.lt_trans front agree.left
  have insideRight : place < (second.volume.content mirror.file).length :=
    right ▸ Nat.lt_trans front agree.right
  rw [runFrom_liftM, runFrom_liftM, region.load_apply first place insideLeft,
    mirror.load_apply second place insideRight, left, right]
  exact ⟨.ok (agree.bytes place front).symm, agree.move⟩

/-- A view need not end with the file; its front is the front of the file. -/
theorem parallel_view (left : region.file = fronts.left) (right : mirror.file = fronts.right)
    (reaches : fronts.count ≤ region.length) (reachesMirror : fronts.count ≤ mirror.length) :
    fronts.Parallel (fun shown mirrored =>
        shown.take fronts.count = mirrored.take fronts.count ∧
          (shown.take fronts.count).length = fronts.count)
      (liftM region.view : ExceptT ε (StateM Host) Bytes)
      (liftM mirror.view : ExceptT ε (StateM Host) Bytes) := by
  intro first second agree
  simp only [runFrom_liftM, Region.view, bind_apply, pure_apply, Host.content_apply, left, right]
  refine ⟨.ok ?_, agree.move⟩
  rw [Content.take_mappedFront reaches (Nat.le_of_lt agree.left),
    Content.take_mappedFront reachesMirror (Nat.le_of_lt agree.right), agree.window]
  exact ⟨rfl, Content.length_window _ _ _⟩

theorem parallel_store (left : region.file = fronts.left) (right : mirror.file = fronts.right)
    (reaches : fronts.count ≤ region.length) (reachesMirror : fronts.count ≤ mirror.length)
    {position : Nat} {bytes : Bytes} (some : bytes ≠ [])
    (front : position + bytes.length ≤ fronts.count) :
    fronts.Parallel Eq (liftM (region.store position bytes) : ExceptT ε (StateM Host) Unit)
      (liftM (mirror.store position bytes) : ExceptT ε (StateM Host) Unit) := by
  intro first second agree
  rw [runFrom_liftM, runFrom_liftM,
    region.store_apply first position bytes (Nat.le_trans front reaches),
    mirror.store_apply second position bytes (Nat.le_trans front reachesMirror)]
  rcases region.changes_store first position some
    (by rw [left]; exact Nat.le_trans front (Nat.le_of_lt agree.left)) with ⟨changes, bytes⟩
  rcases mirror.changes_store second position some
    (by rw [right]; exact Nat.le_trans front (Nat.le_of_lt agree.right)) with
    ⟨changesMirror, bytesMirror⟩
  rw [left] at changes bytes ⊢
  rw [right] at changesMirror bytesMirror ⊢
  exact ⟨.ok rfl, agree.placed front changes bytes changesMirror bytesMirror agree.answers⟩

/-- What the system says of writing back is a matter of how it is set up. -/
theorem parallel_writeBack (mapping mirrored : Mapping) :
    fronts.Parallel Eq (Host.sync mapping) (Host.sync mirrored) := by
  intro first second agree
  simp only [Host.sync, runFrom_bind, runFrom_get, runFrom_ite, runFrom_throw, runFrom_pure,
    agree.platform, agree.syncRefused]
  split
  · exact ⟨.error _, agree.move⟩
  · split
    · exact ⟨.error _, agree.move⟩
    · exact ⟨.ok rfl, agree.move⟩

theorem parallel_flush (left : region.file = fronts.left) (right : mirror.file = fronts.right) :
    fronts.Parallel Eq region.flush mirror.flush := by
  apply (parallel_writeBack region.mapping mirror.mapping).bind
  intro _ _ _ first second agree
  have heldLeft : first.volume.Holds fronts.left :=
    Volume.holds_of_length_pos (Nat.zero_lt_of_lt agree.left)
  have heldRight : second.volume.Holds fronts.right :=
    Volume.holds_of_length_pos (Nat.zero_lt_of_lt agree.right)
  rw [runFrom_liftM, runFrom_liftM, left, right, Host.updateContent_apply,
    Host.updateContent_apply]
  refine ⟨.ok rfl, agree.kept ?_ ?_ agree.answers⟩
  · exact Host.confines_withContent heldLeft (Content.length_settleFront _ _)
      (Content.byte_settleFront _ _)
  · exact Host.confines_withContent heldRight (Content.length_settleFront _ _)
      (Content.byte_settleFront _ _)

end Fronts
end BitStore
