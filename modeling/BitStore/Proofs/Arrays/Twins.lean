import BitStore.Proofs.Arrays.Merging
import BitStore.Proofs.Storage.Fronts

namespace BitStore

/-!
# Twin arrays

Twins are arrays of one backing and one layout, each over a file of its own.  Where the
files agree at the front, as far as the layout reaches, every call on one twin is
parallel to the same call on the other: they answer alike, and what they change lies in
the front.  How long the files are, how far the mappings reach, and in what mode they
were opened has no part in it.
-/

variable {fronts : Fronts}

/-- An index is located in one of the layout's bytes, or refused, without the host. -/
theorem Fronts.parallel_located (layout : Layout) (index : Nat) :
    fronts.Parallel (fun address other => address = other ∧ address.byte < layout.byteLength)
      (liftM (layout.locate index) : ArrayM BitAddress)
      (liftM (layout.locate index) : ArrayM BitAddress) := by
  apply parallel_outcome
  cases located : layout.locate index with
  | error fault => exact .error fault
  | ok address => exact .ok ⟨rfl, layout.byte_lt_byteLength located⟩

/-! ## Arrays in files -/

namespace FileArray

/-- Arrays of one layout, each over the file whose front is compared. -/
structure Twin (fronts : Fronts) (array other : FileArray) : Prop where
  layout : other.layout = array.layout
  alike : fronts.syncedAlike = true -> other.path = array.path ∧ other.mode = array.mode
  left : array.handle.map Handle.file = some fronts.left
  right : other.handle.map Handle.file = some fronts.right

variable {array other : FileArray}

theorem Twin.parallel_live (twin : Twin fronts array other) :
    fronts.Parallel (fun handle mate => handle.file = fronts.left ∧ mate.file = fronts.right)
      (liftM array.live : ArrayM Handle) (liftM other.live : ArrayM Handle) := by
  rcases Option.map_eq_some_iff.mp twin.left with ⟨handle, live, left⟩
  rcases Option.map_eq_some_iff.mp twin.right with ⟨mate, liveMate, right⟩
  rw [FileArray.live, FileArray.live, live, liveMate]
  exact Fronts.parallel_outcome (.ok ⟨left, right⟩)

theorem Twin.parallel_readByte (twin : Twin fronts array other) {place : Nat}
    (front : place < fronts.count) :
    fronts.Parallel Eq (array.readByte place) (other.readByte place) := by
  apply twin.parallel_live.bind
  rintro handle mate ⟨left, right⟩
  exact (Fronts.parallel_readByte left right front).within _

theorem Twin.parallel_writeByte (twin : Twin fronts array other) {place : Nat} (value : UInt8)
    (front : place < fronts.count) :
    fronts.Parallel Eq (array.writeByte place value) (other.writeByte place value) := by
  apply twin.parallel_live.bind
  rintro handle mate ⟨left, right⟩
  exact (Fronts.parallel_write left right (Nat.succ_le_of_lt front)).within _

theorem Twin.parallel_snapshot (twin : Twin fronts array other)
    (count : array.layout.byteLength = fronts.count) :
    fronts.Parallel Eq array.snapshot other.snapshot := by
  apply twin.parallel_live.bind
  rintro handle mate ⟨left, right⟩
  rw [twin.layout, count]
  exact (Fronts.parallel_read left right).within _

theorem Twin.parallel_getBit (twin : Twin fronts array other)
    (count : array.layout.byteLength = fronts.count) (index : Nat) :
    fronts.Parallel Eq (array.getBit index) (other.getBit index) := by
  unfold getBit
  rw [twin.layout]
  apply (Fronts.parallel_located array.layout index).bind
  rintro address _ ⟨rfl, front⟩
  apply (twin.parallel_readByte (count ▸ front)).bind
  rintro byte _ rfl
  exact Fronts.parallel_pure rfl

theorem Twin.parallel_changeBit (twin : Twin fronts array other)
    (count : array.layout.byteLength = fronts.count) (index : Nat)
    (change : BitAddress -> UInt8 -> UInt8) :
    fronts.Parallel Eq (array.changeBit index change) (other.changeBit index change) := by
  unfold changeBit
  rw [twin.layout]
  apply (Fronts.parallel_located array.layout index).bind
  rintro address _ ⟨rfl, front⟩
  apply (twin.parallel_readByte (count ▸ front)).bind
  rintro byte _ rfl
  exact twin.parallel_writeByte _ (count ▸ front)

theorem Twin.parallel_clear (twin : Twin fronts array other)
    (count : array.layout.byteLength = fronts.count) :
    fronts.Parallel Eq array.clear other.clear := by
  apply twin.parallel_live.bind
  rintro handle mate ⟨left, right⟩
  rw [twin.layout, count]
  apply (Fronts.parallel_write left right _).within
  apply Nat.le_of_eq
  rw [Bytes.length_zeros, Nat.zero_add]

/-- By induction on the bytes: each of them is merged inside of the front. -/
theorem Twin.parallel_mergeFrom (twin : Twin fronts array other) (merge : Merge) (bytes : Bytes)
    (index : Nat) (front : index + bytes.length ≤ fronts.count) :
    fronts.Parallel Eq (array.mergeFrom merge index bytes)
      (other.mergeFrom merge index bytes) := by
  induction bytes generalizing index with
  | nil => exact Fronts.parallel_pure rfl
  | cons byte rest inductionHypothesis =>
      rw [List.length_cons] at front
      apply (twin.parallel_readByte (by omega)).bind
      rintro current _ rfl
      apply (twin.parallel_writeByte _ (by omega)).bind
      rintro _ _ _
      exact inductionHypothesis (index + 1) (by omega)

/-- A refusal names the path, so that it has to be one path where syncs may be refused. -/
theorem Twin.parallel_syncFile (twin : Twin fronts array other) {handle mate : Handle}
    (left : handle.file = fronts.left) (right : mate.file = fronts.right) :
    fronts.Parallel Eq (syncFile array.path handle) (syncFile other.path mate) := by
  have synced := Fronts.parallel_sync left right
  cases alike : fronts.syncedAlike with
  | true =>
      rw [syncFile, syncFile, (twin.alike alike).1]
      exact synced.within _
  | false =>
      intro first second agree
      have granted := agree.answers.granted alike
      have move := (synced first second agree).2
      rw [syncFile, syncFile, runFrom_within, runFrom_within]
      rw [handle.runFrom_sync_granted granted.1.syncRefusal,
        mate.runFrom_sync_granted granted.2.syncRefusal] at move ⊢
      exact ⟨.ok rfl, move⟩

theorem Twin.parallel_flush (twin : Twin fronts array other) :
    fronts.Parallel Eq array.flush other.flush := by
  apply twin.parallel_live.bind
  rintro handle mate ⟨left, right⟩
  exact twin.parallel_syncFile left right

end FileArray

/-! ## Arrays in mappings -/

namespace MappedArray

/-- Arrays of one layout and one name, each over the file whose front is compared. -/
structure Twin (fronts : Fronts) (array other : MappedArray) : Prop where
  layout : other.layout = array.layout
  path : other.path = array.path
  left : array.region.map Region.file = some fronts.left
  right : other.region.map Region.file = some fronts.right

variable {array other : MappedArray}

/-- Both mappings reach as far as the layout. -/
theorem Twin.parallel_live (twin : Twin fronts array other)
    (count : array.layout.byteLength = fronts.count) :
    fronts.Parallel (fun region mirror =>
        (region.file = fronts.left ∧ mirror.file = fronts.right) ∧
          fronts.count ≤ region.length ∧ fronts.count ≤ mirror.length)
      (liftM array.live : ArrayM Region) (liftM other.live : ArrayM Region) := by
  rcases Option.map_eq_some_iff.mp twin.left with ⟨region, live, left⟩
  rcases Option.map_eq_some_iff.mp twin.right with ⟨mirror, liveMirror, right⟩
  have shorter := array.layout.byteLength_lt_fileLength
  have covered := array.covered region live
  have coveredMirror := other.covered mirror liveMirror
  rw [twin.layout] at coveredMirror
  rw [MappedArray.live, MappedArray.live, live, liveMirror]
  exact Fronts.parallel_outcome (.ok ⟨⟨left, right⟩, by omega, by omega⟩)

theorem Twin.parallel_snapshot (twin : Twin fronts array other)
    (count : array.layout.byteLength = fronts.count) :
    fronts.Parallel (fun bytes mirrored => bytes = mirrored ∧ bytes.length = fronts.count)
      array.snapshot other.snapshot := by
  apply (twin.parallel_live count).bind
  rintro region mirror ⟨⟨left, right⟩, reaches, reachesMirror⟩
  apply (Fronts.parallel_view left right reaches reachesMirror).bind
  rintro shown mirrored ⟨same, long⟩
  apply Fronts.parallel_pure
  rw [twin.layout, count]
  exact ⟨same, long⟩

theorem Twin.parallel_getBit (twin : Twin fronts array other)
    (count : array.layout.byteLength = fronts.count) (index : Nat) :
    fronts.Parallel Eq (array.getBit index) (other.getBit index) := by
  unfold getBit
  rw [twin.layout]
  apply (twin.parallel_live count).bind
  rintro region mirror ⟨⟨left, right⟩, _⟩
  apply (Fronts.parallel_located array.layout index).bind
  rintro address _ ⟨rfl, front⟩
  apply (Fronts.parallel_load left right (count ▸ front)).bind
  rintro byte _ rfl
  exact Fronts.parallel_pure rfl

theorem Twin.parallel_changeBit (twin : Twin fronts array other)
    (count : array.layout.byteLength = fronts.count) (index : Nat)
    (change : BitAddress -> UInt8 -> UInt8) :
    fronts.Parallel Eq (array.changeBit index change) (other.changeBit index change) := by
  unfold changeBit
  rw [twin.layout]
  apply (twin.parallel_live count).bind
  rintro region mirror ⟨⟨left, right⟩, reaches, reachesMirror⟩
  apply (Fronts.parallel_located array.layout index).bind
  rintro address _ ⟨rfl, front⟩
  apply (Fronts.parallel_load left right (count ▸ front)).bind
  rintro byte _ rfl
  exact Fronts.parallel_store left right reaches reachesMirror (List.cons_ne_nil _ _)
    (count ▸ Nat.succ_le_of_lt front)

theorem Twin.parallel_clear (twin : Twin fronts array other)
    (count : array.layout.byteLength = fronts.count) :
    fronts.Parallel Eq array.clear other.clear := by
  apply (twin.parallel_live count).bind
  rintro region mirror ⟨⟨left, right⟩, reaches, reachesMirror⟩
  have size := Bytes.length_zeros fronts.count
  rw [twin.layout, count]
  apply Fronts.parallel_store left right reaches reachesMirror
  · apply List.ne_nil_of_length_pos
    rw [size, ← count]
    exact array.layout.byteLength_pos
  · apply Nat.le_of_eq
    rw [size, Nat.zero_add]

theorem Twin.parallel_flush (twin : Twin fronts array other)
    (count : array.layout.byteLength = fronts.count) :
    fronts.Parallel Eq array.flush other.flush := by
  unfold flush
  rw [twin.path]
  apply (twin.parallel_live count).bind
  rintro region mirror ⟨⟨left, right⟩, _⟩
  exact (Fronts.parallel_flush left right).within _

end MappedArray

/-! ## Arrays over any storage -/

namespace BitArray

/-- Open arrays of one backing that are twins. -/
inductive Twin (fronts : Fronts) : BitArray -> BitArray -> Prop where
  | file {array other : FileArray} (twin : FileArray.Twin fronts array other) :
      Twin fronts (.file array) (.file other)
  | mapped {array other : MappedArray} (twin : MappedArray.Twin fronts array other) :
      Twin fronts (.mapped array) (.mapped other)

variable {array other : BitArray}

theorem Twin.layout (twin : array.Twin fronts other) : other.layout = array.layout := by
  cases twin with
  | file twin => exact twin.layout
  | mapped twin => exact twin.layout

/-- An open array over a file is its own twin. -/
theorem Twin.refl {file : FileId} (kept : array.file? = some file) (count : Nat) :
    array.Twin { left := file, right := file, count := count } array := by
  cases array with
  | memory array => contradiction
  | file array => exact .file ⟨rfl, fun _ => ⟨rfl, rfl⟩, kept, kept⟩
  | mapped array => exact .mapped ⟨rfl, rfl, kept, kept⟩

theorem Twin.parallel_snapshot (twin : array.Twin fronts other)
    (count : array.layout.byteLength = fronts.count) :
    fronts.Parallel Eq array.snapshot other.snapshot := by
  cases twin with
  | file twin => exact twin.parallel_snapshot count
  | mapped twin => exact (twin.parallel_snapshot count).imp fun _ _ same => same.1

theorem Twin.parallel_getBit (twin : array.Twin fronts other)
    (count : array.layout.byteLength = fronts.count) (index : Nat) :
    fronts.Parallel Eq (array.getBit index) (other.getBit index) := by
  cases twin with
  | file twin => exact twin.parallel_getBit count index
  | mapped twin => exact twin.parallel_getBit count index

/-- Each of the two actions gives its array back. -/
def Returns (array other : BitArray) (given mate : BitArray) : Prop :=
  given = array ∧ mate = other

theorem Twin.parallel_changeBit (twin : array.Twin fronts other)
    (count : array.layout.byteLength = fronts.count) (index : Nat)
    (change : BitAddress -> UInt8 -> UInt8) :
    fronts.Parallel (fun done mate => done.1 = mate.1 ∧ Returns array other done.2 mate.2)
      (liftM (array.changeBit change index) : ArrayM (Except Fault Unit × BitArray))
      (liftM (other.changeBit change index) : ArrayM (Except Fault Unit × BitArray)) := by
  intro first second agree
  rw [runFrom_liftM, runFrom_liftM]
  cases twin with
  | @file array other twin =>
      rcases twin.parallel_changeBit count index change first second agree with ⟨outcomes, move⟩
      rw [changeBit_file, changeBit_file]
      exact ⟨.ok ⟨outcomes.eq, rfl, rfl⟩, move⟩
  | @mapped array other twin =>
      rcases twin.parallel_changeBit count index change first second agree with ⟨outcomes, move⟩
      rw [changeBit_mapped, changeBit_mapped]
      exact ⟨.ok ⟨outcomes.eq, rfl, rfl⟩, move⟩

theorem Twin.parallel_setBit (twin : array.Twin fronts other)
    (count : array.layout.byteLength = fronts.count) (index : Nat) :
    fronts.Parallel (Returns array other) (array.setBit index) (other.setBit index) := by
  apply (twin.parallel_changeBit count index BitAddress.raise).bind
  rintro ⟨outcome, given⟩ ⟨_, mate⟩ ⟨rfl, returns⟩
  apply (Fronts.parallel_outcome (Fronts.Outcomes.refl outcome)).bind
  rintro _ _ _
  exact Fronts.parallel_pure returns

theorem Twin.parallel_clearBit (twin : array.Twin fronts other)
    (count : array.layout.byteLength = fronts.count) (index : Nat) :
    fronts.Parallel (Returns array other) (array.clearBit index) (other.clearBit index) := by
  apply (twin.parallel_changeBit count index BitAddress.lower).bind
  rintro ⟨outcome, given⟩ ⟨_, mate⟩ ⟨rfl, returns⟩
  apply (Fronts.parallel_outcome (Fronts.Outcomes.refl outcome)).bind
  rintro _ _ _
  exact Fronts.parallel_pure returns

theorem Twin.parallel_setBitIfUnset (twin : array.Twin fronts other)
    (count : array.layout.byteLength = fronts.count) (index : Nat) :
    fronts.Parallel (fun done mate => done.1 = mate.1 ∧ Returns array other done.2 mate.2)
      (BitContainer.setBitIfUnset array index) (BitContainer.setBitIfUnset other index) := by
  apply (twin.parallel_getBit count index).bind
  rintro (_ | _) _ rfl
  · apply (twin.parallel_setBit count index).bind
    rintro given mate returns
    exact Fronts.parallel_pure ⟨rfl, returns⟩
  · exact Fronts.parallel_pure ⟨rfl, rfl, rfl⟩

theorem Twin.parallel_clear (twin : array.Twin fronts other)
    (count : array.layout.byteLength = fronts.count) :
    fronts.Parallel (Returns array other) array.clear other.clear := by
  cases twin with
  | file twin =>
      apply (twin.parallel_clear count).bind
      rintro _ _ _
      exact Fronts.parallel_pure ⟨rfl, rfl⟩
  | mapped twin =>
      apply (twin.parallel_clear count).bind
      rintro _ _ _
      exact Fronts.parallel_pure ⟨rfl, rfl⟩

theorem Twin.parallel_absorb (twin : array.Twin fronts other)
    (count : array.layout.byteLength = fronts.count) (merge : Merge) {bytes : Bytes}
    (size : bytes.length = fronts.count) :
    fronts.Parallel (Returns array other) (array.absorb merge bytes)
      (other.absorb merge bytes) := by
  cases twin with
  | file twin =>
      apply (Fronts.parallel_record _ _).bind
      rintro _ _ _
      apply (twin.parallel_mergeFrom merge bytes 0 (by omega)).bind
      rintro _ _ _
      exact Fronts.parallel_pure ⟨rfl, rfl⟩
  | @mapped array other twin =>
      apply (Fronts.parallel_record _ _).bind
      rintro _ _ _
      apply (twin.parallel_live count).bind
      rintro region mirror ⟨⟨left, right⟩, reaches, reachesMirror⟩
      apply (twin.parallel_snapshot count).bind
      rintro current _ ⟨rfl, long⟩
      have total : (merge.apply current bytes).length = fronts.count := by
        rw [Merge.length_apply, long]
      have some : merge.apply current bytes ≠ [] := by
        apply List.ne_nil_of_length_pos
        rw [total, ← count]
        exact array.layout.byteLength_pos
      apply (Fronts.parallel_store left right reaches reachesMirror some (by omega)).bind
      rintro _ _ _
      exact Fronts.parallel_pure ⟨rfl, rfl⟩

theorem Twin.parallel_flush (twin : array.Twin fronts other)
    (count : array.layout.byteLength = fronts.count) :
    fronts.Parallel Eq array.flush other.flush := by
  cases twin with
  | file twin => exact twin.parallel_flush
  | mapped twin => exact twin.parallel_flush count

/-! ## Searches: of snapshots -/

theorem Twin.parallel_highest (twin : array.Twin fronts other)
    (count : array.layout.byteLength = fronts.count) :
    fronts.Parallel Eq array.highest? other.highest? := by
  have shot := twin.parallel_snapshot count
  cases twin with
  | file twin | mapped twin => exact shot.answered Bytes.highest?

theorem Twin.parallel_lowest (twin : array.Twin fronts other)
    (count : array.layout.byteLength = fronts.count) :
    fronts.Parallel Eq array.lowest? other.lowest? := by
  have shot := twin.parallel_snapshot count
  cases twin with
  | file twin | mapped twin => exact shot.answered Bytes.lowest?

theorem Twin.parallel_count (twin : array.Twin fronts other)
    (count : array.layout.byteLength = fronts.count) :
    fronts.Parallel Eq array.count other.count := by
  have shot := twin.parallel_snapshot count
  cases twin with
  | file twin | mapped twin => exact shot.answered Bytes.count

/-- Where an array in a file takes no snapshot, neither does its twin. -/
theorem Twin.parallel_next (twin : array.Twin fronts other)
    (count : array.layout.byteLength = fronts.count) (first : Nat) :
    fronts.Parallel Eq (array.next? first) (other.next? first) := by
  have shot := twin.parallel_snapshot count
  cases twin with
  | @file array other twin =>
      have capacity : BitContainer.capacity other = BitContainer.capacity array :=
        congrArg Layout.capacity twin.layout
      simp only [next?, BitContainer.next?, capacity]
      split
      · exact Fronts.parallel_pure rfl
      · exact shot.answered _
  | @mapped array other twin =>
      simp only [next?, MappedArray.next?, twin.layout]
      exact shot.answered _

theorem Twin.parallel_positions (twin : array.Twin fronts other)
    (count : array.layout.byteLength = fronts.count) :
    fronts.Parallel Eq (BitContainer.positions array) (BitContainer.positions other) := by
  have capacity : BitContainer.capacity other = BitContainer.capacity array :=
    congrArg Layout.capacity twin.layout
  simp only [BitContainer.positions, capacity]
  split
  · exact Fronts.parallel_pure rfl
  · exact (twin.parallel_snapshot count).answered _

end BitArray
end BitStore
