import BitStore.Proofs.Arrays.Calls

namespace BitStore

/-!
# Whole arrays: operands, merging, clearing and writing back

Reading an operand is the same for all receivers: it changes nothing, and if it
succeeds it brings exactly as many bytes as the operand has.  The operand is
read before the receiver is looked at, so a merge meets the receiver's bytes as
they were, whatever storage the two share.  When it was read, the rest of the merge
is a matter of the receiver and of the bytes alone; that rest is `BitArray.absorb`.
-/

/-! ## Operands -/

namespace Handle

theorem runFrom_read_state (handle : Handle) (position count : Nat) (host : Host) :
    (runFrom (handle.read position count) host).2 = host := by
  simp only [read, runFrom_ite, runFrom_pure]
  split
  · rfl
  · split
    · rfl
    · simp only [runFrom_bind, runFrom_liftM, Host.content_apply, runFrom_ite]
      split <;> rfl

theorem runFrom_readByte_state (handle : Handle) (position : Nat) (host : Host) :
    (runFrom (handle.readByte position) host).2 = host := by
  simp only [readByte, runFrom_bind, runFrom_ite, runFrom_throw, runFrom_pure, runFrom_liftM,
    Host.content_apply]
  split
  · rfl
  · split <;> rfl

theorem length_of_read {handle : Handle} {position count : Nat} {host : Host} {bytes : Bytes}
    (read : (runFrom (handle.read position count) host).1 = .ok bytes) :
    bytes.length = count := by
  simp only [Handle.read, runFrom_ite, runFrom_pure] at read
  split at read
  next none =>
    cases read
    exact none.symm
  next =>
    split at read
    · contradiction
    · simp only [runFrom_bind, runFrom_liftM, Host.content_apply, runFrom_ite] at read
      split at read
      · contradiction
      · cases read
        exact Content.length_window _ position count

end Handle

namespace BitArray

variable {array operand : BitArray} {host after : Host} {file : Option FileId}

/-- Taking a snapshot changes nothing, in whatever state the array is. -/
theorem runFrom_snapshot_state (array : BitArray) (host : Host) :
    (runFrom array.snapshot host).2 = host := by
  cases array with
  | memory array => rfl
  | file array =>
      cases live : array.handle with
      | none => simp only [snapshot, FileArray.snapshot, FileArray.live, live, runFrom_bind,
          runFrom_outcome]
      | some handle => simp only [snapshot, FileArray.snapshot, FileArray.live, live,
          runFrom_bind, runFrom_outcome, runFrom_within, Handle.runFrom_read_state]
  | mapped array =>
      cases live : array.region with
      | none => simp only [snapshot, MappedArray.snapshot, MappedArray.live, live, runFrom_bind,
          runFrom_outcome]
      | some region => simp only [snapshot, MappedArray.snapshot, MappedArray.live, live,
          runFrom_bind, runFrom_outcome, runFrom_liftM, runFrom_pure, Region.view, bind_apply,
          pure_apply, Host.content_apply]

/-- A snapshot that is taken has all the bytes of the layout. -/
theorem length_of_snapshot {bytes : Bytes}
    (read : (runFrom array.snapshot host).1 = .ok bytes) :
    bytes.length = array.layout.byteLength := by
  cases array with
  | memory array =>
      cases read
      simp only [MemoryArray.toBytes, Array.length_toList, array.size_eq, layout]
  | file array =>
      cases live : array.handle with
      | none => simp only [snapshot, FileArray.snapshot, FileArray.live, live, runFrom_bind,
          runFrom_outcome, reduceCtorEq] at read
      | some handle =>
          simp only [snapshot, FileArray.snapshot, FileArray.live, live, runFrom_bind,
            runFrom_outcome, runFrom_within] at read
          cases found : (runFrom (handle.read 0 array.layout.byteLength) host).1 with
          | error cause => simp only [found, mapError_error, reduceCtorEq] at read
          | ok bytes =>
              simp only [found, mapError_ok, Except.ok.injEq] at read
              exact read ▸ Handle.length_of_read found
  | mapped array =>
      cases live : array.region with
      | none => simp only [snapshot, MappedArray.snapshot, MappedArray.live, live, runFrom_bind,
          runFrom_outcome, reduceCtorEq] at read
      | some region =>
          have covered := array.covered region live
          have shorter := array.layout.byteLength_lt_fileLength
          simp only [snapshot, MappedArray.snapshot, MappedArray.live, live, runFrom_bind,
            runFrom_outcome, runFrom_liftM, runFrom_pure, Region.view, bind_apply,
            pure_apply, Host.content_apply, Except.ok.injEq] at read
          rw [← read, List.length_take, Content.length_mappedFront, layout]
          omega

/-- What reading an operand brings. -/
def reading (operand : BitArray) (host : Host) : Except Fault Bytes :=
  (runFrom operand.snapshot host).1

theorem runFrom_container_snapshot (operand : BitArray) (host : Host) :
    runFrom (BitContainer.snapshot operand) host = (operand.reading host, host) :=
  Prod.ext rfl (runFrom_snapshot_state operand host)

/-- An intact array can be read. -/
theorem Intact.reading (intact : array.Intact host) :
    array.reading host = .ok (array.storage host) := by
  rw [BitArray.reading, runFrom_snapshot intact]

/-! ## What is elsewhere stays as it is -/

/-- An array has its bytes from nowhere but its own file. -/
theorem storage_congr (same : forall kept, array.file? = some kept ->
    after.volume.content kept = host.volume.content kept) :
    array.storage after = array.storage host := by
  cases array with
  | memory array => rfl
  | file array =>
      cases live : array.handle with
      | none => simp only [storage, live]
      | some handle => simp only [storage, live, same _ (file?_file live)]
  | mapped array =>
      cases live : array.region with
      | none => simp only [storage, live]
      | some region => simp only [storage, live, same _ (file?_mapped live)]

/-- Nor is it read elsewhere, also where it is closed or cut short. -/
theorem reading_congr (same : forall kept, array.file? = some kept ->
    after.volume.content kept = host.volume.content kept) :
    array.reading after = array.reading host := by
  cases array with
  | memory array => rfl
  | file array =>
      cases live : array.handle with
      | none => simp only [reading, snapshot, FileArray.snapshot, FileArray.live, live,
          runFrom_bind, runFrom_outcome]
      | some handle =>
          have content := same _ (file?_file live)
          simp only [reading, snapshot, FileArray.snapshot, FileArray.live, live, runFrom_bind,
            runFrom_outcome, runFrom_within, Handle.read, runFrom_ite, runFrom_pure,
            runFrom_throw, runFrom_liftM, Host.content_apply, content]
          split
          · rfl
          · split
            · rfl
            · split <;> rfl
  | mapped array =>
      cases live : array.region with
      | none => simp only [reading, snapshot, MappedArray.snapshot, MappedArray.live, live,
          runFrom_bind, runFrom_outcome]
      | some region =>
          have content := same _ (file?_mapped live)
          simp only [reading, snapshot, MappedArray.snapshot, MappedArray.live, live,
            runFrom_bind, runFrom_outcome, runFrom_liftM, runFrom_pure, Region.view, bind_apply,
            pure_apply, Host.content_apply, content]

/-- An array does not notice a change in a file that is not its own. -/
theorem storage_elsewhere (changes : host.ChangesOnly file after)
    (elsewhere : forall kept, array.file? = some kept -> file ≠ some kept) :
    array.storage after = array.storage host :=
  storage_congr fun kept own => changes.others kept (elsewhere kept own)

theorem reading_elsewhere (changes : host.ChangesOnly file after)
    (elsewhere : forall kept, array.file? = some kept -> file ≠ some kept) :
    array.reading after = array.reading host :=
  reading_congr fun kept own => changes.others kept (elsewhere kept own)

/-! ## Merging -/

/-- An operand of another length is refused, whatever else is the matter. -/
theorem runFrom_merge_misfit {ω : Type} [BitContainer ω] {operand : ω} {fault : Fault}
    (host : Host) (merge : Merge)
    (misfit : array.layout.requireOperand (BitContainer.byteLength operand) = .error fault) :
    runFrom (array.merge merge operand) host = (.error fault, host) := by
  cases array with
  | memory array =>
      simp only [layout] at misfit
      simp only [BitArray.merge, MemoryArray.merge, runFrom_bind, runFrom_outcome, misfit]
  | file array =>
      simp only [layout] at misfit
      simp only [BitArray.merge, FileArray.merge, runFrom_bind, runFrom_outcome, misfit]
  | mapped array =>
      simp only [layout] at misfit
      simp only [BitArray.merge, MappedArray.merge, runFrom_bind, runFrom_outcome, misfit]

/-- An operand that cannot be read passes its fault on. -/
theorem runFrom_merge_unread {ω : Type} [BitContainer ω] {operand : ω} {fault : Fault}
    {after : Host} (merge : Merge)
    (fits : array.layout.requireOperand (BitContainer.byteLength operand) = .ok ())
    (unread : runFrom (BitContainer.snapshot operand) host = (.error fault, after)) :
    runFrom (array.merge merge operand) host = (.error fault, after) := by
  cases array with
  | memory array =>
      simp only [layout] at fits
      simp only [BitArray.merge, MemoryArray.merge, runFrom_bind, runFrom_outcome, fits, unread]
  | file array =>
      simp only [layout] at fits
      simp only [BitArray.merge, FileArray.merge, runFrom_bind, runFrom_outcome, fits, unread]
  | mapped array =>
      simp only [layout] at fits
      simp only [BitArray.merge, MappedArray.merge, runFrom_bind, runFrom_outcome, fits, unread]

/-- Merge bytes that were read from an operand. -/
def absorb (merge : Merge) (bytes : Bytes) : BitArray -> ArrayM BitArray
  | .memory array => return .memory (array.combine merge bytes)
  | .file array => do
      Host.record (.mergingFile merge array.path)
      array.mergeFrom merge 0 bytes
      return .file array
  | .mapped array => do
      Host.record (.mergingMapping merge array.path)
      let region ← array.live
      let current ← array.snapshot
      region.store 0 (merge.apply current bytes)
      return .mapped array

/-- An operand that fits and was read is absorbed. -/
theorem runFrom_merge_read {ω : Type} [BitContainer ω] {array : BitArray} {operand : ω}
    {host after : Host} {bytes : Bytes} (merge : Merge)
    (fits : array.layout.requireOperand (BitContainer.byteLength operand) = .ok ())
    (read : runFrom (BitContainer.snapshot operand) host = (.ok bytes, after)) :
    runFrom (array.merge merge operand) host = runFrom (array.absorb merge bytes) after := by
  cases array with
  | memory array =>
      simp only [layout] at fits
      simp only [BitArray.merge, MemoryArray.merge, absorb, runFrom_bind, runFrom_outcome, fits,
        read, runFrom_pure]
  | file array =>
      simp only [layout] at fits
      simp only [BitArray.merge, FileArray.merge, absorb, runFrom_bind, runFrom_outcome, fits,
        read, runFrom_liftM]
  | mapped array =>
      simp only [layout] at fits
      simp only [BitArray.merge, MappedArray.merge, absorb, runFrom_bind, runFrom_outcome, fits,
        read, runFrom_liftM]
      generalize array.live = lived
      cases lived with
      | error fault => rfl
      | ok region =>
          dsimp only
          rcases runFrom array.snapshot _ with ⟨_ | current, last⟩ <;> rfl

/-- The bytes at the front of a file, each with its partner. -/
def merged (merge : Merge) (bytes : Bytes) (content : Content) (place : Nat) : UInt8 :=
  if place < bytes.length
  then merge.combine (content.byte place) (bytes[place]?.getD 0) else content.byte place

theorem runFrom_absorb_file {array : FileArray} {handle : Handle} {bytes : Bytes}
    (live : array.handle = some handle) (merge : Merge)
    (inside : bytes.length ≤ (host.volume.content handle.file).length)
    (allowed : bytes.length ≤ host.limits.fileLength) :
    Exists fun after =>
      runFrom (absorb merge bytes (.file array)) host = (.ok (.file array), after) ∧
      host.ChangesOnly (some handle.file) after ∧
      forall place, (after.volume.content handle.file).byte place =
        merged merge bytes (host.volume.content handle.file) place := by
  -- the record of the merge comes before the first byte
  let begun := host.recorded (.mergingFile merge array.path)
  rcases FileArray.runFrom_mergeFrom live begun merge bytes 0
    (by rw [Nat.zero_add]; exact inside) (by rw [Nat.zero_add]; exact allowed)
    with ⟨after, run, changes, combined⟩
  refine ⟨after, ?_, (Host.ChangesOnly.recorded _ host _).trans changes, ?_⟩
  · simp only [absorb, runFrom_bind, runFrom_liftM, Host.record_apply]
    rw [run]
    rfl
  · intro place
    rw [combined, merged]
    simp only [Nat.zero_le, true_and, Nat.zero_add, Nat.sub_zero]
    rfl

theorem runFrom_absorb_mapped {array : MappedArray} {region : Region} {bytes : Bytes}
    (live : array.region = some region) (merge : Merge)
    (size : bytes.length = array.layout.byteLength)
    (inside : array.layout.byteLength ≤ (host.volume.content region.file).length) :
    Exists fun after =>
      runFrom (absorb merge bytes (.mapped array)) host = (.ok (.mapped array), after) ∧
      host.ChangesOnly (some region.file) after ∧
      forall place, (after.volume.content region.file).byte place =
        merged merge bytes (host.volume.content region.file) place := by
  let begun := host.recorded (.mergingMapping merge array.path)
  let current := (host.volume.content region.file).window 0 array.layout.byteLength
  have long : current.length = array.layout.byteLength := Content.length_window _ _ _
  have total : (merge.apply current bytes).length = array.layout.byteLength := by
    rw [Merge.length_apply, long]
  have some : merge.apply current bytes ≠ [] := by
    apply List.ne_nil_of_length_pos
    rw [total]
    exact array.layout.byteLength_pos
  have shot : runFrom array.snapshot begun = (.ok current, begun) :=
    MappedArray.runFrom_snapshot live inside
  have stored := MappedArray.storeFront_apply live begun total
  rcases region.changes_store begun 0 some
    (by rw [total, Nat.zero_add]; exact inside) with ⟨changes, placed⟩
  refine ⟨_, ?_, (Host.ChangesOnly.recorded _ host _).trans changes, ?_⟩
  · simp only [absorb, MappedArray.live, live, runFrom_bind, runFrom_outcome, runFrom_liftM,
      Host.record_apply]
    rw [shot]
    simp only [stored]
    rfl
  · intro place
    rw [placed, Content.placed_front, Merge.getElem?_apply merge (by omega), total, merged, size]
    split
    next front =>
      rw [Content.window_getElem? _ 0 _ _ front, Nat.zero_add]
      rfl
    next => rfl

/-- As far as the file reaches, absorbing changes the bytes of the array, and nothing else. -/
theorem runFrom_absorb {file : FileId} {bytes : Bytes} (kept : array.file? = some file)
    (merge : Merge) (size : bytes.length = array.layout.byteLength)
    (inside : array.layout.byteLength ≤ (host.volume.content file).length)
    (allowed : forall source, array = .file source ->
      array.layout.byteLength ≤ host.limits.fileLength) :
    Exists fun after =>
      runFrom (array.absorb merge bytes) host = (.ok array, after) ∧
      host.ChangesOnly (some file) after ∧
      forall place, (after.volume.content file).byte place =
        merged merge bytes (host.volume.content file) place := by
  cases array with
  | memory array => contradiction
  | file array =>
      rcases Option.map_eq_some_iff.mp kept with ⟨handle, live, rfl⟩
      exact runFrom_absorb_file live merge (size ▸ inside) (size ▸ allowed array rfl)
  | mapped array =>
      rcases Option.map_eq_some_iff.mp kept with ⟨region, live, rfl⟩
      exact runFrom_absorb_mapped live merge size inside

/-- An operand that fits and can be read is merged into the bytes that the
receiver had when the merge began. -/
theorem runFrom_merge (intact : array.Intact host) (merge : Merge) {bytes : Bytes}
    (fits : operand.layout.byteLength = array.layout.byteLength)
    (read : operand.reading host = .ok bytes) :
    Exists fun next => Exists fun after =>
      runFrom (array.merge merge operand) host = (.ok next, after) ∧
      array.Becomes host next after (merge.apply (array.storage host) bytes) := by
  have size : bytes.length = array.layout.byteLength := (length_of_snapshot read).trans fits
  have required : array.layout.requireOperand (BitContainer.byteLength operand) = .ok () :=
    (array.layout.requireOperand_eq_ok_iff _).mpr fits
  have brought := runFrom_container_snapshot operand host
  rw [read] at brought
  rw [runFrom_merge_read merge required brought]
  rcases memory_or_file?_of_isOpen intact.isOpen with ⟨source, rfl⟩ | ⟨file, kept⟩
  · have combined : (source.combine merge bytes).toBytes = merge.apply source.toBytes bytes := by
      simp only [MemoryArray.toBytes, MemoryArray.combine]
    have becomes := becomes_memory source (source.combine merge bytes) rfl host
    rw [combined] at becomes
    exact ⟨_, host, rfl, becomes⟩
  · have bounded : bytes.length ≤ (array.storage host).length :=
      Nat.le_of_eq (size.trans intact.length_storage.symm)
    have total : (merge.apply (array.storage host) bytes).length = array.layout.byteLength := by
      rw [Merge.length_apply, intact.length_storage]
    have allowed : forall source, array = .file source ->
        array.layout.byteLength ≤ host.limits.fileLength := by
      rintro source rfl
      cases intact with
      | file live whole allowed => exact Nat.le_of_lt allowed
    rcases runFrom_absorb kept merge size (Nat.le_of_lt (intact.byteLength_lt kept)) allowed with
      ⟨after, run, changes, combined⟩
    refine ⟨array, after, run, becomes_replaced intact kept changes total ?_⟩
    intro place
    rw [combined, Merge.getElem?_apply merge bounded, total, merged, size]
    split
    next inside => rw [storage_getElem? host kept inside]
    next => rfl

/-- Clearing makes every byte zero. -/
theorem runFrom_clear (intact : array.Intact host) :
    Exists fun next => Exists fun after =>
      runFrom array.clear host = (.ok next, after) ∧
      array.Becomes host next after (Bytes.zeros array.layout.byteLength) := by
  have size := Bytes.length_zeros array.layout.byteLength
  have some := array.layout.zeros_ne_nil
  cases intact with
  | memory array =>
      have zeros : array.clear.toBytes = Bytes.zeros array.layout.byteLength := by
        simp only [MemoryArray.toBytes, MemoryArray.clear, Array.toList_replicate, Bytes.zeros]
      have becomes := becomes_memory array array.clear rfl host
      rw [zeros] at becomes
      exact ⟨_, host, rfl, becomes⟩
  | @file array handle live whole allowed =>
      have intact := Intact.file live whole allowed
      have inside := intact.byteLength_lt (file?_file live)
      have shorter := array.layout.byteLength_lt_fileLength
      simp only [layout] at inside size some
      have cleared := FileArray.runFrom_clear live host (by omega)
      rcases handle.changes_written host 0 some
        (by rw [size]; omega) with ⟨changes, placed⟩
      simp only [Content.placed_front] at placed
      refine ⟨.file array, _, ?_, becomes_replaced intact (file?_file live) changes size placed⟩
      simp only [clear, runFrom_bind, cleared, runFrom_pure]
  | @mapped array region live whole =>
      have intact := Intact.mapped live whole
      have inside := intact.byteLength_lt (file?_mapped live)
      simp only [layout] at inside size some
      have stored := MappedArray.storeFront_apply live host size
      rcases region.changes_store host 0 some
        (by rw [size]; omega) with ⟨changes, placed⟩
      simp only [Content.placed_front] at placed
      refine ⟨.mapped array, _, ?_, becomes_replaced intact (file?_mapped live) changes size placed⟩
      simp only [clear, MappedArray.clear, MappedArray.live, live, runFrom_bind,
        runFrom_outcome, runFrom_liftM, stored, runFrom_pure]

/-! ## Writing back -/

theorem runFrom_flush_file {array : FileArray} {handle : Handle}
    (live : array.handle = some handle) (host : Host) :
    runFrom (BitArray.file array).flush host =
      ((runFrom handle.sync host).1.mapError (Fault.storage s!"sync {array.path}"),
        (runFrom handle.sync host).2) := by
  simp only [flush, FileArray.flush, FileArray.live, live, FileArray.syncFile, runFrom_bind,
    runFrom_outcome, runFrom_within]

theorem runFrom_flush_mapped {array : MappedArray} {region : Region}
    (live : array.region = some region) (host : Host) :
    runFrom (BitArray.mapped array).flush host =
      ((runFrom region.flush host).1.mapError (Fault.storage s!"flush mapping of {array.path}"),
        (runFrom region.flush host).2) := by
  simp only [flush, MappedArray.flush, MappedArray.live, live, MappedArray.flushRegion,
    runFrom_bind, runFrom_outcome, runFrom_within]

/-- Writing back brings no byte of the array into question, also where the system
refuses it. -/
theorem runFrom_flush (intact : array.Intact host) :
    Exists fun outcome => Exists fun after =>
      runFrom array.flush host = (outcome, after) ∧
      array.Becomes host array after (array.storage host) ∧
      (host.Serves -> outcome = .ok ()) := by
  cases intact with
  | memory array =>
      exact ⟨.ok (), host, rfl, becomes_self (.memory array) (Host.ChangesOnly.refl _ host),
        fun _ => rfl⟩
  | @file array handle live whole allowed =>
      have intact := Intact.file live whole allowed
      have held := intact.holds (file?_file live)
      rcases handle.changes_sync host held with ⟨changes, same⟩
      refine ⟨_, _, runFrom_flush_file live host,
        becomes_same intact (file?_file live) changes same, ?_⟩
      intro serves
      rw [handle.runFrom_sync_granted serves.syncsFiles.syncRefusal, mapError_ok]
  | @mapped array region live whole =>
      have intact := Intact.mapped live whole
      have held := intact.holds (file?_mapped live)
      rcases region.changes_flush host held with ⟨changes, same⟩
      refine ⟨_, _, runFrom_flush_mapped live host,
        becomes_same intact (file?_mapped live) changes same, ?_⟩
      intro serves
      rw [region.runFrom_flush_granted serves.writesBack, mapError_ok]

end BitArray
end BitStore
