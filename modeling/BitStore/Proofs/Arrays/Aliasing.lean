import BitStore.Config.Options
import BitStore.Proofs.Arrays.Guests
import BitStore.Proofs.Arrays.Ready

namespace BitStore

/-!
# Merging arrays that share their storage

The operand of a merge is read as a whole before the first byte of the receiver is looked at.
An array in a file then reads each of its bytes before it writes this one, so what is found at
a place is always what was there when the merge began.  Therefore a merge combines the two
snapshots that could have been taken before it, whatever bytes the two arrays share, and
merging an array into another one over the same bytes changes nothing.

A merge that has succeeded tells that it could: every byte was found in the file, and the
system has let it be written.  `FileArray.bounds_of_mergeFrom` has this by induction on the
bytes, so that nothing need be assumed about the length of the file.
-/

/-! ## Merging a byte into itself -/

namespace Merge

theorem combine_self (kind : Merge) (byte : UInt8) : kind.combine byte byte = byte := by
  cases kind with
  | and => exact UInt8.and_self
  | or => exact UInt8.or_self

theorem apply_self (kind : Merge) (bytes : Bytes) : kind.apply bytes bytes = bytes := by
  rw [kind.apply_of_length rfl, List.zipWith_self]
  simp only [combine_self, List.map_id']

end Merge

/-! ## What a merge that has succeeded tells -/

namespace FileArray

variable {array : FileArray} {handle : Handle} {host after : Host}

theorem readByte_ok (live : array.handle = some handle) {place : Nat} {value : UInt8}
    (read : runFrom (array.readByte place) host = (.ok value, after)) :
    place < (host.volume.content handle.file).length ∧ after = host := by
  simp only [readByte, FileArray.live, live, runFrom_bind, runFrom_outcome,
    runFrom_within] at read
  rcases handle.readByte_cases host place with ⟨inside, found⟩ | ⟨cause, failed⟩
  · rw [found] at read
    cases read
    exact ⟨inside, rfl⟩
  · rw [failed] at read
    cases read

theorem writeByte_allowed (live : array.handle = some handle) {place : Nat} {value : UInt8}
    (wrote : runFrom (array.writeByte place value) host = (.ok (), after)) :
    place < host.limits.fileLength := by
  apply Nat.lt_of_not_le
  intro beyond
  rcases handle.runFrom_writeByte_refused host value (Nat.lt_succ_of_le beyond) with
    ⟨cause, refused⟩
  simp only [writeByte, FileArray.live, live, runFrom_bind, runFrom_outcome, runFrom_within,
    refused, mapError_error] at wrote
  cases wrote

/-- Bytes that were merged were all in the file, and could all be written. -/
theorem bounds_of_mergeFrom (live : array.handle = some handle) (merge : Merge)
    {bytes : Bytes} (some : bytes ≠ []) {index : Nat}
    (run : runFrom (array.mergeFrom merge index bytes) host = (.ok (), after)) :
    index + bytes.length ≤ (host.volume.content handle.file).length ∧
      index + bytes.length ≤ host.limits.fileLength := by
  induction bytes generalizing index host with
  | nil => exact absurd rfl some
  | cons byte rest inductionHypothesis =>
      rcases runFrom_bind_ok run with ⟨current, middle, read, writes⟩
      rcases readByte_ok live read with ⟨inside, rfl⟩
      rcases runFrom_bind_ok writes with ⟨_, last, wrote, merges⟩
      have allowed := writeByte_allowed live wrote
      cases rest with
      | nil => exact ⟨inside, allowed⟩
      | cons next rest =>
          -- the byte was written in front of the end, so the file is as long as before
          rw [runFrom_writeByte live _ index _ allowed] at wrote
          cases wrote
          have changes := (handle.changes_written middle index
            (List.cons_ne_nil (merge.combine current byte) []) inside).1
          have bounds := inductionHypothesis (List.cons_ne_nil next rest) merges
          rw [changes.length, changes.limits] at bounds
          simp only [List.length_cons] at bounds ⊢
          omega

end FileArray

namespace BitArray

variable {array next operand : BitArray} {host after : Host} {kind : Merge} {reply : Reply}

/-- The file that an array is kept in, if any, is on the volume. -/
def Held (array : BitArray) (host : Host) : Prop :=
  forall file, array.file? = some file -> host.volume.Holds file

/-- Bytes that were absorbed went into an open array, and all of its bytes were there. -/
theorem ready_of_absorb {bytes : Bytes} (held : array.Held host) (some : bytes ≠ [])
    (size : bytes.length = array.layout.byteLength)
    (absorbed : runFrom (array.absorb kind bytes) host = (.ok next, after)) :
    array.Ready host ∧ array.Reaches host array.layout.byteLength := by
  cases array with
  | memory array => exact ⟨.memory array, trivial⟩
  | file array =>
      cases live : array.handle with
      | none =>
          cases bytes with
          | nil => exact absurd rfl some
          | cons byte rest =>
              simp only [absorb, FileArray.mergeFrom, FileArray.readByte, FileArray.live, live,
                runFrom_bind, runFrom_liftM, runFrom_outcome] at absorbed
              cases absorbed
      | some handle =>
          rcases runFrom_bind_ok absorbed with ⟨_, begun, recorded, rest⟩
          rcases runFrom_bind_ok rest with ⟨_, last, run, _⟩
          cases recorded
          have bounds := FileArray.bounds_of_mergeFrom live kind some run
          rw [Nat.zero_add, size] at bounds
          refine ⟨.file ⟨live, held _ (file?_file live), bounds.2⟩, ?_⟩
          intro other same
          cases live.symm.trans same
          exact bounds.1
  | mapped array =>
      cases live : array.region with
      | none =>
          simp only [absorb, MappedArray.live, live, runFrom_bind, runFrom_liftM,
            runFrom_outcome] at absorbed
          cases absorbed
      | some region => exact ⟨.mapped live (held _ (file?_mapped live)), trivial⟩

/-- A merge that has succeeded had an operand that fits and can be read, and a receiver all of
whose bytes are there. -/
theorem ready_of_merge (held : array.Held host)
    (merged : array.step (.merge kind operand) host = ((.ok reply, next), after)) :
    operand.layout.byteLength = array.layout.byteLength ∧
      array.Ready host ∧ array.Reaches host array.layout.byteLength ∧
      Exists fun bytes => operand.reading host = .ok bytes := by
  by_cases fits : operand.layout.byteLength = array.layout.byteLength
  · have required := (array.layout.requireOperand_eq_ok_iff operand.layout.byteLength).mpr fits
    have brought := runFrom_container_snapshot operand host
    cases read : operand.reading host with
    | error fault =>
        rw [read] at brought
        rw [step_merge_error (runFrom_merge_unread kind required brought)] at merged
        cases merged
    | ok bytes =>
        rw [read] at brought
        have size : bytes.length = array.layout.byteLength := (length_of_snapshot read).trans fits
        have some : bytes ≠ [] := by
          apply List.ne_nil_of_length_pos
          rw [size]
          exact array.layout.byteLength_pos
        have absorbs := runFrom_merge_read kind required brought
        rcases absorbed : runFrom (array.absorb kind bytes) host with ⟨fault | other, last⟩
        · rw [step_merge_error (absorbs.trans absorbed)] at merged
          cases merged
        · rcases ready_of_absorb held some size absorbed with ⟨ready, reached⟩
          exact ⟨fits, ready, reached, bytes, rfl⟩
  · have refused : array.layout.requireOperand operand.layout.byteLength = .error _ := if_neg fits
    rw [step_merge_error (runFrom_merge_misfit host kind refused)] at merged
    cases merged

/-! ## Snapshots -/

/-- Two snapshots from before a merge, and what the receiver has after it. -/
structure Combines (array : BitArray) (read : Except Fault Bytes) (kind : Merge) (host : Host)
    (next : BitArray) (after : Host) (receiver operand : Bytes) : Prop where
  own : array.reading host = .ok receiver
  handed : read = .ok operand
  size : receiver.length = array.layout.byteLength
  fits : operand.length = array.layout.byteLength
  combined : next.reading after = .ok (List.zipWith kind.combine receiver operand)

/-- A merge combines the snapshots of the two arrays. -/
theorem combines_of_merge (held : array.Held host)
    (merged : array.step (.merge kind operand) host = ((.ok reply, next), after)) :
    Exists fun bytes =>
      array.Combines (operand.reading host) kind host next after (array.face host) bytes := by
  rcases ready_of_merge held merged with ⟨fits, ready, reached, bytes, read⟩
  rcases ready.step_merge kind fits read reached with ⟨other, last, again, turns⟩
  cases merged.symm.trans again
  have size : bytes.length = array.layout.byteLength := (length_of_snapshot read).trans fits
  refine ⟨bytes, ready.reading reached, read, ready.length_face, size, ?_⟩
  rw [turns.reading reached, kind.apply_of_length (size.trans ready.length_face.symm)]

/-- So does one whose operand is of another type. -/
theorem combines_of_merge_candid {ω : Type} [BitContainer ω] {guest : ω}
    (held : array.Held host) (candid : Candid host guest)
    (merged : array.step (.merge kind guest) host = ((.ok reply, next), after)) :
    Exists fun bytes =>
      array.Combines (handsOut host guest) kind host next after (array.face host) bytes := by
  have named : forall other, (Operation.merge kind guest).operand? = some other ->
      Candid host other := by
    rintro other ⟨⟩
    exact candid
  cases found : standIn array.layout host guest with
  | none =>
      have missing : (Operation.merge kind guest).resolve (standIn array.layout host) = none := by
        rw [Operation.resolve, found]
        rfl
      rcases step_of_unfit named missing with ⟨fault, refused⟩
      rw [refused] at merged
      cases merged
  | some stand =>
      have resolved : (Operation.merge kind guest).resolve (standIn array.layout host) =
          some (.merge kind stand) := by
        rw [Operation.resolve, found]
        rfl
      rw [step_of_standIn named resolved] at merged
      rcases candid.standIn found with ⟨bytes, handed, read, _⟩
      rcases combines_of_merge held merged with ⟨other, combines⟩
      cases combines.handed.symm.trans read
      exact ⟨bytes, { combines with handed := handed }⟩

/-! ## Two arrays over one file -/

/-- An array stays intact while its own file only gets longer. -/
theorem Intact.of_longer (intact : array.Intact host) (limits : after.limits = host.limits)
    (longer : forall file, array.file? = some file ->
      (host.volume.content file).length ≤ (after.volume.content file).length) :
    array.Intact after := by
  cases intact with
  | memory array => exact .memory array
  | file live whole allowed =>
      exact .file live (Nat.le_trans whole (longer _ (file?_file live))) (limits ▸ allowed)
  | mapped live whole => exact .mapped live (Nat.le_trans whole (longer _ (file?_mapped live)))

/-- What is merged into a file is in it already. -/
theorem Intact.merge_same_file {file : FileId} (intact : array.Intact host)
    (guest : operand.Intact host) (kept : array.file? = some file)
    (shared : operand.file? = some file)
    (fits : array.layout.byteLength = operand.layout.byteLength) (kind : Merge) :
    Exists fun next => Exists fun after =>
      array.step (.merge kind operand) host = ((.ok .done, next), after) ∧
      forall other, (after.volume.content other).toList = (host.volume.content other).toList := by
  have same : operand.storage host = array.storage host := by
    rw [storage_eq_window kept, storage_eq_window shared, fits]
  have required := (array.layout.requireOperand_eq_ok_iff _).mpr fits.symm
  have expected : array.layout.respond (array.storage host) (fun operand => operand.reading host)
      (.merge kind operand) = (.ok .done, array.storage host) := by
    simp only [Layout.respond, required, guest.reading, same, kind.apply_self]
  rcases step_meets intact (.merge kind operand) with ⟨reply, next, after, stepped, becomes, meets⟩
  rw [expected] at becomes meets
  have answered : reply = .ok .done := meets fun flushes => by cases flushes
  subst answered
  refine ⟨next, after, stepped, fun other => ?_⟩
  apply Content.toList_eq
  · rw [Content.length_toList, becomes.changes.length]
  · intro place
    rw [Content.getElem?_toList]
    by_cases own : array.file? = some other
    · rcases Nat.lt_or_ge place array.layout.byteLength with inside | beyond
      · rw [← storage_getElem? after (becomes.file?.trans own) (becomes.layout ▸ inside),
          becomes.storage, storage_getElem? host own inside]
      · exact becomes.tail other place own beyond
    · rw [becomes.changes.others other own]

/-- Arrays that were opened are intact for as long as nobody cuts their files.  Of two intact
arrays over one file with as many bytes, each can be merged into the other, and no byte of
any file changes.  Whatever storage a receiver shares with its operand, and of whatever type
the operand is, a merge that succeeds leaves the combination of what the receiver and the
operand would have been read as just before. -/
theorem merges_combine_snapshots :
    (forall (options : Options) path (host opened later : Host) (array : BitArray),
      host.Sound -> runFrom (options.openAt path) host = (.ok array, opened) ->
      later.limits = opened.limits ->
      (forall file, array.file? = some file ->
        (opened.volume.content file).length ≤ (later.volume.content file).length) ->
      array.Intact later) ∧
    (forall (left right : BitArray) (host : Host) file kind,
      left.Intact host -> right.Intact host ->
      left.file? = some file -> right.file? = some file ->
      left.layout.byteLength = right.layout.byteLength ->
      Exists fun next => Exists fun after =>
        left.step (.merge kind right) host = ((.ok .done, next), after) ∧
        forall other, (after.volume.content other).toList = (host.volume.content other).toList) ∧
    forall (ω : Type) [BitContainer ω] (array next : BitArray) (guest : ω) kind reply
      (host after : Host), array.Held host -> Candid host guest ->
      array.step (.merge kind guest) host = ((.ok reply, next), after) ->
      Exists fun receiver => Exists fun operand =>
        array.Combines (handsOut host guest) kind host next after receiver operand := by
  refine ⟨?_, ?_, ?_⟩
  · intro options path host opened later array sound run limits longer
    rcases options.openAt_cases sound path with ⟨_, _, ran, intact, _⟩ | ⟨_, _, refused, _⟩
    · cases ran.symm.trans run
      exact intact.of_longer limits longer
    · cases refused.symm.trans run
  · intro left right host file kind intact guest kept shared fits
    exact intact.merge_same_file guest kept shared fits kind
  · intro ω _ array next guest kind reply host after held candid merged
    exact ⟨_, combines_of_merge_candid held candid merged⟩

end BitArray

namespace Tandem

/-- A file that an array of the capacity twelve is kept in, with two bytes behind it. -/
def host : Host where
  volume := { contents := [.ofBytes [6, 129, 7, 7]] }

/-- A mapping of the same file.  Its capacity is another one, which needs as many bytes. -/
def mapped : MappedArray where
  layout := { capacity := 15, capacity_pos := by decide }
  region := some { mapping := { address := 4096, length := 4 }, file := 0 }
  path := "a"
  covered := by decide

/-- Two bytes that are not kept in any file. -/
def guest : LooseArray where
  capacity := 12
  bytes := [3, 128]
  refuses := false

theorem file_intact : (BitArray.file Twelve.file).Intact host :=
  .file rfl (by decide) (by decide)

theorem mapped_intact : (BitArray.mapped mapped).Intact host :=
  .mapped rfl (by decide)

end Tandem

/-- An array that was just opened, a mapping merged into the file that it maps, and a merge
with an operand of another type. -/
theorem BitArray.merges_combine_snapshots_tandem :
    let ended := (BitArray.file Twelve.file).step (.merge .or Tandem.guest) Tandem.host
    Tailed.array.Intact Tailed.opened ∧
      (Exists fun next => Exists fun after =>
        (BitArray.file Twelve.file).step (.merge .and (BitArray.mapped Tandem.mapped))
          Tandem.host = ((.ok .done, next), after) ∧
        forall other, (after.volume.content other).toList =
          (Tandem.host.volume.content other).toList) ∧
      (Exists fun receiver => Exists fun operand =>
        (BitArray.file Twelve.file).Combines (handsOut Tandem.host Tandem.guest) .or Tandem.host
          ended.1.2 ended.2 receiver operand) ∧
      ended.1.2.reading ended.2 = .ok [7, 129] := by
  intro ended
  have held : (BitArray.file Twelve.file).Held Tandem.host := by
    rintro file ⟨⟩
    exact Nat.zero_lt_one
  have merged : ended = ((.ok .done, ended.1.2), ended.2) := rfl
  refine ⟨?_, ?_, ?_, rfl⟩
  · exact merges_combine_snapshots.1 ⟨12, .file, .buffered⟩ (some "a") Tailed.host Tailed.opened
      Tailed.opened Tailed.array Tailed.sound rfl rfl fun _ _ => Nat.le_refl _
  · exact merges_combine_snapshots.2.1 (.file Twelve.file) (.mapped Tandem.mapped) Tandem.host 0
      .and Tandem.file_intact Tandem.mapped_intact rfl rfl rfl
  · exact merges_combine_snapshots.2.2 LooseArray (.file Twelve.file) ended.1.2 Tandem.guest .or
      .done Tandem.host ended.2 held (candid_loose Tandem.guest Tandem.host) merged

end BitStore
