import BitStore.Proofs.Arrays.Intact

namespace BitStore

/-!
# Single calls on intact arrays

One statement for each call, the same for all three backings: what the call
answers, and which bytes the array then has.  A file is read and written byte by
byte and a mapping is loaded and stored, so the proofs go by the backing; the
statements do not.
-/

/-! ## Bytes of an array in a file -/

namespace FileArray

variable {array : FileArray} {handle : Handle} {host : Host}

theorem runFrom_readByte (live : array.handle = some handle) (host : Host) (place : Nat)
    (inside : place < (host.volume.content handle.file).length)
    (allowed : place < host.limits.fileLength) :
    runFrom (array.readByte place) host =
      (.ok ((host.volume.content handle.file).byte place), host) := by
  have expressible := host.limits.expressible
  have read := handle.runFrom_readByte host place inside (by omega)
  simp only [readByte, FileArray.live, live, runFrom_bind, runFrom_outcome, runFrom_within,
    read, mapError_ok]

theorem runFrom_writeByte (live : array.handle = some handle) (host : Host) (place : Nat)
    (value : UInt8) (allowed : place < host.limits.fileLength) :
    runFrom (array.writeByte place value) host =
      (.ok (), host.withContent handle.file (handle.written place [value])) := by
  have written := handle.runFrom_write host place
    (List.cons_ne_nil value []) (Nat.succ_le_of_lt allowed)
  simp only [writeByte, Handle.writeByte, FileArray.live, live, runFrom_bind, runFrom_outcome,
    runFrom_within, written, mapError_ok]

/-! A bit is read from the byte that holds it, and changed by reading and writing this byte.
Without the byte it is neither read nor changed. -/

section Bit

variable {index : Nat} {address : BitAddress} {fault : Fault}

theorem runFrom_getBit_refused (located : array.layout.locate index = .error fault) (host : Host) :
    runFrom (array.getBit index) host = (.error fault, host) := by
  simp only [getBit, runFrom_bind, runFrom_outcome, located]

theorem runFrom_changeBit_refused (located : array.layout.locate index = .error fault)
    (change : BitAddress -> UInt8 -> UInt8) (host : Host) :
    runFrom (array.changeBit index change) host = (.error fault, host) := by
  simp only [changeBit, runFrom_bind, runFrom_outcome, located]

theorem runFrom_getBit_unread (located : array.layout.locate index = .ok address)
    (unread : runFrom (array.readByte address.byte) host = (.error fault, host)) :
    runFrom (array.getBit index) host = (.error fault, host) := by
  simp only [getBit, runFrom_bind, runFrom_outcome, located, unread]

theorem runFrom_changeBit_unread (located : array.layout.locate index = .ok address)
    (unread : runFrom (array.readByte address.byte) host = (.error fault, host))
    (change : BitAddress -> UInt8 -> UInt8) :
    runFrom (array.changeBit index change) host = (.error fault, host) := by
  simp only [changeBit, runFrom_bind, runFrom_outcome, located, unread]

theorem runFrom_getBit (live : array.handle = some handle)
    (located : array.layout.locate index = .ok address)
    (inside : address.byte < (host.volume.content handle.file).length)
    (allowed : address.byte < host.limits.fileLength) :
    runFrom (array.getBit index) host =
      (.ok (address.test ((host.volume.content handle.file).byte address.byte)), host) := by
  simp only [getBit, runFrom_bind, runFrom_outcome, located,
    runFrom_readByte live host address.byte inside allowed, runFrom_pure]

theorem runFrom_changeBit (live : array.handle = some handle)
    (change : BitAddress -> UInt8 -> UInt8) (located : array.layout.locate index = .ok address)
    (inside : address.byte < (host.volume.content handle.file).length)
    (allowed : address.byte < host.limits.fileLength) :
    runFrom (array.changeBit index change) host =
      (.ok (), host.withContent handle.file (handle.written address.byte
        [change address ((host.volume.content handle.file).byte address.byte)])) := by
  simp only [changeBit, runFrom_bind, runFrom_outcome, located,
    runFrom_readByte live host address.byte inside allowed,
    runFrom_writeByte live host address.byte _ allowed]

end Bit

/-- Bytes are merged in one after the other.  Each is read before it is written,
so what is found in the file is always what was there at the beginning. -/
theorem runFrom_mergeFrom (live : array.handle = some handle) (host : Host) (merge : Merge)
    (bytes : Bytes) (index : Nat)
    (inside : index + bytes.length ≤ (host.volume.content handle.file).length)
    (allowed : index + bytes.length ≤ host.limits.fileLength) :
    Exists fun after =>
      runFrom (array.mergeFrom merge index bytes) host = (.ok (), after) ∧
      host.ChangesOnly (some handle.file) after ∧
      forall place, (after.volume.content handle.file).byte place =
        if index ≤ place ∧ place < index + bytes.length
        then merge.combine ((host.volume.content handle.file).byte place)
          (bytes[place - index]?.getD 0)
        else (host.volume.content handle.file).byte place := by
  induction bytes generalizing index host with
  | nil =>
      refine ⟨host, rfl, Host.ChangesOnly.refl _ host, ?_⟩
      intro place
      rw [if_neg]
      simp only [List.length_nil]
      omega
  | cons byte rest inductionHypothesis =>
      simp only [List.length_cons] at inside allowed ⊢
      have read := runFrom_readByte live host index (by omega) (by omega)
      have wrote := runFrom_writeByte live host index
        (merge.combine ((host.volume.content handle.file).byte index) byte) (by omega)
      rcases handle.changes_written host index
        (List.cons_ne_nil (merge.combine ((host.volume.content handle.file).byte index) byte) [])
        (by simp only [List.length_singleton]; omega) with ⟨changed, stored⟩
      generalize host.withContent handle.file (handle.written index _) = middle
        at wrote changed stored
      rcases inductionHypothesis middle (index + 1)
        (by rw [changed.length]; omega) (by rw [changed.limits]; omega)
        with ⟨after, run, changes, merged⟩
      refine ⟨after, ?_, changed.trans changes, ?_⟩
      · simp only [mergeFrom, runFrom_bind, read, wrote, run]
      · intro place
        rw [merged, stored, Content.placed_one]
        by_cases first : place = index
        · subst first
          rw [if_neg (by omega), if_pos rfl, if_pos (by omega), Nat.sub_self]
          rfl
        · rw [if_neg first]
          by_cases later : index + 1 ≤ place ∧ place < index + 1 + rest.length
          · rw [if_pos later, if_pos (by omega),
              show place - index = place - (index + 1) + 1 by omega, List.getElem?_cons_succ]
          · rw [if_neg later, if_neg (by omega)]

/-- All bytes of the array are read at once. -/
theorem runFrom_snapshot (live : array.handle = some handle)
    (inside : array.layout.byteLength ≤ (host.volume.content handle.file).length)
    (expressible : array.layout.byteLength < offsetBound) :
    runFrom array.snapshot host =
      (.ok ((host.volume.content handle.file).window 0 array.layout.byteLength), host) := by
  have read := handle.runFrom_read host 0 array.layout.byteLength
    (by rwa [Nat.zero_add]) (by rwa [Nat.zero_add])
  simp only [snapshot, FileArray.live, live, runFrom_bind, runFrom_outcome, runFrom_within, read,
    mapError_ok]

/-- All bytes of the array are written at once. -/
theorem runFrom_clear (live : array.handle = some handle) (host : Host)
    (allowed : array.layout.byteLength ≤ host.limits.fileLength) :
    runFrom array.clear host =
      (.ok (), host.withContent handle.file
        (handle.written 0 (Bytes.zeros array.layout.byteLength))) := by
  have written := handle.runFrom_write host 0 array.layout.zeros_ne_nil
    (by rw [Bytes.length_zeros]; omega)
  simp only [clear, FileArray.live, live, runFrom_bind, runFrom_outcome, runFrom_within,
    written, mapError_ok]

end FileArray

/-! ## Bytes of an array in a mapping -/

namespace MappedArray

variable {array : MappedArray} {region : Region} {host : Host}

theorem runFrom_changeBit (live : array.region = some region) {index : Nat}
    {address : BitAddress} (change : BitAddress -> UInt8 -> UInt8)
    (located : array.layout.locate index = .ok address)
    (whole : region.length ≤ (host.volume.content region.file).length) :
    runFrom (array.changeBit index change) host =
      (.ok (), host.withContent region.file fun content => content.store address.byte
        [change address ((host.volume.content region.file).byte address.byte)]) := by
  have covered := array.covered region live
  have shorter := array.layout.byteLength_lt_fileLength
  have below := array.layout.byte_lt_byteLength located
  have loaded := region.load_apply host address.byte (by omega)
  have stored := region.store_apply host address.byte
    [change address ((host.volume.content region.file).byte address.byte)]
    (by simp only [List.length_singleton]; omega)
  simp only [changeBit, MappedArray.live, live, runFrom_bind, runFrom_outcome, located,
    runFrom_liftM, loaded, stored]

/-- The array is a part of what the mapping shows. -/
theorem runFrom_snapshot (live : array.region = some region)
    (inside : array.layout.byteLength ≤ (host.volume.content region.file).length) :
    runFrom array.snapshot host =
      (.ok ((host.volume.content region.file).window 0 array.layout.byteLength), host) := by
  have covered := array.covered region live
  have shorter := array.layout.byteLength_lt_fileLength
  have front := Content.take_mappedFront
    (show array.layout.byteLength ≤ region.length by omega) inside
  simp only [snapshot, MappedArray.live, live, runFrom_bind, runFrom_outcome, runFrom_liftM,
    runFrom_pure, Region.view, bind_apply, pure_apply, Host.content_apply, front]

/-- A store of as many bytes as the array has. -/
theorem storeFront_apply (live : array.region = some region) (host : Host) {bytes : Bytes}
    (size : bytes.length = array.layout.byteLength) :
    region.store 0 bytes host =
      ((), host.withContent region.file fun content => content.store 0 bytes) := by
  have covered := array.covered region live
  have shorter := array.layout.byteLength_lt_fileLength
  exact region.store_apply host 0 bytes (by omega)

end MappedArray

namespace BitArray

variable {array : BitArray} {host after : Host} {file : FileId}

theorem file?_file {array : FileArray} {handle : Handle} (live : array.handle = some handle) :
    (BitArray.file array).file? = some handle.file := by
  simp only [file?, live, Option.map_some]

theorem file?_mapped {array : MappedArray} {region : Region}
    (live : array.region = some region) :
    (BitArray.mapped array).file? = some region.file := by
  simp only [file?, live, Option.map_some]

/-- An open array is in memory or has a file. -/
theorem memory_or_file?_of_isOpen (isOpen : array.isClosed = false) :
    (Exists fun source => array = .memory source) ∨
      Exists fun file => array.file? = some file := by
  cases array with
  | memory array => exact .inl ⟨array, rfl⟩
  | file array =>
      cases live : array.handle with
      | none => simp only [isClosed, FileArray.isClosed, live, Option.isNone_none,
          Bool.true_eq_false] at isOpen
      | some handle => exact .inr ⟨handle.file, file?_file live⟩
  | mapped array =>
      cases live : array.region with
      | none => simp only [isClosed, MappedArray.isClosed, live, Option.isNone_none,
          Bool.true_eq_false] at isOpen
      | some region => exact .inr ⟨region.file, file?_mapped live⟩

theorem storage_eq_window (kept : array.file? = some file) (host : Host) :
    array.storage host =
      (host.volume.content file).window 0 array.layout.byteLength := by
  cases array with
  | memory array => contradiction
  | file array =>
      cases live : array.handle with
      | none => simp only [file?, live, Option.map_none, reduceCtorEq] at kept
      | some handle =>
          simp only [file?, live, Option.map_some, Option.some.injEq] at kept
          simp only [storage, live, kept, layout]
  | mapped array =>
      cases live : array.region with
      | none => simp only [file?, live, Option.map_none, reduceCtorEq] at kept
      | some region =>
          simp only [file?, live, Option.map_some, Option.some.injEq] at kept
          simp only [storage, live, kept, layout]

@[simp] theorem Intact.length_storage (intact : array.Intact host) :
    (array.storage host).length = array.layout.byteLength := by
  cases intact with
  | memory array =>
      simp only [storage, MemoryArray.toBytes, Array.length_toList, array.size_eq, layout]
  | file live whole allowed => simp only [storage, live, Content.length_window, layout]
  | mapped live whole => simp only [storage, live, Content.length_window, layout]

/-- The bytes of an intact array lie inside its file. -/
theorem Intact.byteLength_lt (intact : array.Intact host) (kept : array.file? = some file) :
    array.layout.byteLength < (host.volume.content file).length := by
  cases intact with
  | memory array => contradiction
  | @file array handle live whole allowed =>
      simp only [file?, live, Option.map_some, Option.some.injEq] at kept
      subst kept
      exact Nat.lt_of_lt_of_le array.layout.byteLength_lt_fileLength whole
  | @mapped array region live whole =>
      simp only [file?, live, Option.map_some, Option.some.injEq] at kept
      subst kept
      have covered := array.covered region live
      exact Nat.lt_of_lt_of_le array.layout.byteLength_lt_fileLength
        (Nat.le_trans covered whole)

theorem Intact.holds (intact : array.Intact host) (kept : array.file? = some file) :
    host.volume.Holds file :=
  Volume.holds_of_length_pos (Nat.lt_of_le_of_lt (Nat.zero_le _) (intact.byteLength_lt kept))

/-- An array over a file has become what is now at the front of the file. -/
theorem becomes_storage (intact : array.Intact host) (kept : array.file? = some file)
    (changes : host.ChangesOnly (some file) after) {bytes : Bytes}
    (storage : array.storage after = bytes)
    (tail : forall place, array.layout.byteLength ≤ place ->
      (after.volume.content file).byte place = (host.volume.content file).byte place) :
    array.Becomes host array after bytes where
  layout := rfl
  file? := rfl
  intact := intact.changesOnly changes
  storage := storage
  changes := kept ▸ changes
  tail other place same beyond := by
    have equal : file = other := Option.some.inj (kept.symm.trans same)
    subst equal
    exact tail place beyond

/-- One byte of a file has changed, and with it a byte of the array over it. -/
theorem storage_modify (kept : array.file? = some file) {index : Nat} {change : UInt8 -> UInt8}
    (bytes : forall place, (after.volume.content file).byte place =
      if place = index then change ((host.volume.content file).byte index)
      else (host.volume.content file).byte place) :
    array.storage after = (array.storage host).modify index change := by
  rw [storage_eq_window kept, storage_eq_window kept]
  apply List.ext_getElem
  · rw [List.length_modify, Content.length_window, Content.length_window]
  · intro place inside _
    rw [Content.getElem_window, bytes, List.getElem_modify, Content.getElem_window]
    simp only [eq_comm (a := index)]
    split
    next same => rw [same]
    next => rfl

theorem becomes_modify (intact : array.Intact host) (kept : array.file? = some file)
    (changes : host.ChangesOnly (some file) after) {index : Nat} {change : UInt8 -> UInt8}
    (inside : index < array.layout.byteLength)
    (bytes : forall place, (after.volume.content file).byte place =
      if place = index then change ((host.volume.content file).byte index)
      else (host.volume.content file).byte place) :
    array.Becomes host array after ((array.storage host).modify index change) := by
  apply becomes_storage intact kept changes (storage_modify kept bytes)
  intro place beyond
  rw [bytes, if_neg (by omega)]

/-- All bytes of an array over a file have been replaced. -/
theorem storage_replaced (kept : array.file? = some file) {bytes : Bytes}
    (size : bytes.length = array.layout.byteLength)
    (replaced : forall place, (after.volume.content file).byte place =
      if place < bytes.length then bytes[place]?.getD 0
      else (host.volume.content file).byte place) : array.storage after = bytes := by
  rw [storage_eq_window kept, ← size]
  apply Content.window_eq
  intro place inside
  rw [replaced, if_pos inside, List.getElem?_eq_getElem inside, Option.getD_some]

theorem becomes_replaced (intact : array.Intact host) (kept : array.file? = some file)
    (changes : host.ChangesOnly (some file) after) {bytes : Bytes}
    (size : bytes.length = array.layout.byteLength)
    (replaced : forall place, (after.volume.content file).byte place =
      if place < bytes.length then bytes[place]?.getD 0
      else (host.volume.content file).byte place) :
    array.Becomes host array after bytes := by
  apply becomes_storage intact kept changes (storage_replaced kept size replaced)
  intro place beyond
  rw [replaced, if_neg (by omega)]

/-- No byte of the file has changed. -/
theorem becomes_same (intact : array.Intact host) (kept : array.file? = some file)
    (changes : host.ChangesOnly (some file) after)
    (same : forall place, (after.volume.content file).byte place =
      (host.volume.content file).byte place) :
    array.Becomes host array after (array.storage host) := by
  refine becomes_storage intact kept changes ?_ fun place _ => same place
  rw [storage_eq_window kept, storage_eq_window kept]
  exact List.map_congr_left fun place _ => same place

/-! ## Reading -/

/-- A byte of the storage, as it stands in the file. -/
theorem storage_getElem? (host : Host) (kept : array.file? = some file) {place : Nat}
    (inside : place < array.layout.byteLength) :
    (array.storage host)[place]?.getD 0 = (host.volume.content file).byte place := by
  rw [storage_eq_window kept, Content.window_getElem? _ _ _ _ inside, Nat.zero_add]
  rfl

theorem runFrom_snapshot (intact : array.Intact host) :
    runFrom array.snapshot host = (.ok (array.storage host), host) := by
  cases intact with
  | memory array => rfl
  | @file array handle live whole allowed =>
      have below := array.layout.byteLength_lt_fileLength
      have expressible := host.limits.expressible
      simp only [snapshot, storage, live]
      exact FileArray.runFrom_snapshot live (by omega) (by omega)
  | @mapped array region live whole =>
      have covered := array.covered region live
      have below := array.layout.byteLength_lt_fileLength
      simp only [snapshot, storage, live]
      exact MappedArray.runFrom_snapshot live (by omega)

/-- A bit is read from the byte that holds it; an index out of range is a fault. -/
theorem runFrom_getBit (intact : array.Intact host) (index : Nat) :
    runFrom (array.getBit index) host =
      ((array.layout.locate index).map fun address =>
        address.test ((array.storage host)[address.byte]?.getD 0), host) := by
  cases located : array.layout.locate index with
  | error fault =>
      cases intact with
      | memory array =>
          simp only [layout] at located
          simp only [getBit, MemoryArray.getBit, located]
          rfl
      | file live whole allowed => exact FileArray.runFrom_getBit_refused located host
      | mapped live whole =>
          simp only [layout] at located
          simp only [getBit, MappedArray.getBit, MappedArray.live, live, runFrom_bind,
            runFrom_outcome, located]
          rfl
  | ok address =>
      have below := array.layout.byte_lt_byteLength located
      have stored (file : FileId) (kept : array.file? = some file) :=
        storage_getElem? host kept below
      cases intact with
      | memory array =>
          simp only [layout] at located
          simp only [getBit, MemoryArray.getBit, located, storage, MemoryArray.toBytes,
            Array.getElem?_toList]
          rfl
      | @file array handle live whole allowed =>
          simp only [layout] at located below
          have shorter := array.layout.byteLength_lt_fileLength
          simp only [getBit, Except.map, stored handle.file (file?_file live)]
          exact FileArray.runFrom_getBit live located (by omega) (by omega)
      | @mapped array region live whole =>
          simp only [layout] at located below
          have covered := array.covered region live
          have shorter := array.layout.byteLength_lt_fileLength
          have loaded := region.load_apply host address.byte (by omega)
          simp only [getBit, MappedArray.getBit, MappedArray.live, live, runFrom_bind,
            runFrom_outcome, located, runFrom_liftM, loaded, runFrom_pure, Except.map,
            stored region.file (file?_mapped live)]

/-! ## Changing -/

theorem changeBit_file (array : FileArray) (change : BitAddress -> UInt8 -> UInt8)
    (index : Nat) (host : Host) :
    (BitArray.file array).changeBit change index host =
      (((runFrom (array.changeBit index change) host).1, .file array),
        (runFrom (array.changeBit index change) host).2) := rfl

theorem changeBit_mapped (array : MappedArray) (change : BitAddress -> UInt8 -> UInt8)
    (index : Nat) (host : Host) :
    (BitArray.mapped array).changeBit change index host =
      (((runFrom (array.changeBit index change) host).1, .mapped array),
        (runFrom (array.changeBit index change) host).2) := rfl

/-- A change of an index out of range changes nothing. -/
theorem changeBit_refused (intact : array.Intact host) {index : Nat} {fault : Fault}
    (change : BitAddress -> UInt8 -> UInt8) (located : array.layout.locate index = .error fault) :
    array.changeBit change index host = ((.error fault, array), host) := by
  cases intact with
  | memory array =>
      simp only [layout] at located
      simp only [changeBit, MemoryArray.changeBit, located]
      rfl
  | file live whole allowed =>
      rw [changeBit_file, FileArray.runFrom_changeBit_refused located]
  | mapped live whole =>
      simp only [layout] at located
      rw [changeBit_mapped]
      simp only [MappedArray.changeBit, MappedArray.live, live, runFrom_bind,
        runFrom_outcome, located]

/-- A change of an index in range changes the byte that holds the bit. -/
theorem changeBit_located (intact : array.Intact host) {index : Nat} {address : BitAddress}
    (change : BitAddress -> UInt8 -> UInt8) (located : array.layout.locate index = .ok address) :
    Exists fun next => Exists fun after =>
      array.changeBit change index host = ((.ok (), next), after) ∧
      array.Becomes host next after
        ((array.storage host).modify address.byte (change address)) := by
  have below := array.layout.byte_lt_byteLength located
  cases intact with
  | memory array =>
      simp only [layout] at located
      have bytes : (array.modifyByte address.byte (change address)).toBytes =
          array.toBytes.modify address.byte (change address) := by
        simp only [MemoryArray.toBytes, MemoryArray.modifyByte, Array.toList_modify]
      have becomes :=
        becomes_memory array (array.modifyByte address.byte (change address)) rfl host
      rw [bytes] at becomes
      refine ⟨_, host, ?_, becomes⟩
      simp only [changeBit, MemoryArray.changeBit, located]
      rfl
  | @file array handle live whole allowed =>
      have intact := Intact.file live whole allowed
      have shorter := array.layout.byteLength_lt_fileLength
      simp only [layout] at located below
      rcases handle.changes_written host address.byte
        (List.cons_ne_nil
          (change address ((host.volume.content handle.file).byte address.byte)) [])
        (by simp only [List.length_singleton]; omega) with ⟨changes, bytes⟩
      simp only [Content.placed_one] at bytes
      refine ⟨.file array, _, ?_, becomes_modify intact (file?_file live) changes below bytes⟩
      rw [changeBit_file, FileArray.runFrom_changeBit live change located (by omega) (by omega)]
  | @mapped array region live whole =>
      have intact := Intact.mapped live whole
      have inside := intact.byteLength_lt (file?_mapped live)
      simp only [layout] at located below inside
      rcases region.changes_store host address.byte
        (List.cons_ne_nil
          (change address ((host.volume.content region.file).byte address.byte)) [])
        (by simp only [List.length_singleton]; omega) with ⟨changes, bytes⟩
      simp only [Content.placed_one] at bytes
      refine ⟨.mapped array, _, ?_, becomes_modify intact (file?_mapped live) changes below bytes⟩
      rw [changeBit_mapped, MappedArray.runFrom_changeBit live change located whole]

end BitArray
end BitStore
