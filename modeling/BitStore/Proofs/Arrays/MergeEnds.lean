import BitStore.Proofs.Arrays.Sharing

namespace BitStore

/-!
# How a merge ends

A merge can go wrong in four ways, and several may be the case at once.  The length of
the operand is looked at first, then the operand is read, and only then does the
receiver come into it: a closed one has nowhere to put the bytes, and one whose file
was cut runs out of bytes on the way.  In that last case alone has something been
changed when the merge fails, for an array over a file merges byte by byte.

`BitArray.MergeEnds` has a case for each of these and one for success.  The conditions
of the cases exclude one another, so that the case tells which of them was met.
-/

namespace Merge

/-- Bytes of one length all have a partner. -/
theorem apply_of_length (merge : Merge) {receiver operand : Bytes}
    (fits : operand.length = receiver.length) :
    merge.apply receiver operand = List.zipWith merge.combine receiver operand := by
  rw [apply, fits, List.drop_length, List.append_nil]

end Merge

namespace Content

/-- Bytes that were combined place by place, as a whole. -/
theorem window_combined {before after : Content} {count : Nat} {bytes : Bytes} (merge : Merge)
    (enough : count ≤ bytes.length)
    (combined : forall place, place < count ->
      after.byte place = merge.combine (before.byte place) (bytes[place]?.getD 0)) :
    after.window 0 count = List.zipWith merge.combine (before.window 0 count) bytes := by
  have size : (List.zipWith merge.combine (before.window 0 count) bytes).length = count := by
    rw [List.length_zipWith, length_window, Nat.min_eq_left enough]
  apply Bytes.ext_getD
  · rw [length_window, size]
  · intro place
    by_cases inside : place < count
    · have partner : place < bytes.length := Nat.lt_of_lt_of_le inside enough
      rw [window_getElem? _ _ _ _ inside, List.getElem?_zipWith, window_getElem? _ _ _ _ inside,
        List.getElem?_eq_getElem partner, Nat.zero_add]
      simp only [Option.getD_some]
      rw [combined place inside, List.getElem?_eq_getElem partner, Option.getD_some]
    · rw [List.getElem?_eq_none (by rw [length_window]; omega),
        List.getElem?_eq_none (by rw [size]; omega)]

end Content

/-! ## A file that ends too early -/

namespace FileArray

variable {array : FileArray} {handle : Handle} {host : Host}

/-- Merging bytes is merging the first of them and then the others. -/
theorem mergeFrom_append (array : FileArray) (merge : Merge) (front rest : Bytes)
    (index : Nat) :
    array.mergeFrom merge index (front ++ rest) = (do
      array.mergeFrom merge index front
      array.mergeFrom merge (index + front.length) rest) := by
  induction front generalizing index with
  | nil => simp only [List.nil_append, mergeFrom, pure_bind, List.length_nil, Nat.add_zero]
  | cons byte front inductionHypothesis =>
      have next : index + 1 + front.length = index + (front.length + 1) := by omega
      simp only [List.cons_append, mergeFrom, bind_assoc, inductionHypothesis, List.length_cons,
        next]

/-- No byte is read behind the end of the file. -/
theorem runFrom_readByte_behind (live : array.handle = some handle) {place : Nat}
    (behind : (host.volume.content handle.file).length ≤ place)
    (expressible : place + 1 < offsetBound) :
    runFrom (array.readByte place) host =
      (.error (.storage "unable to read bit array from disk" .endOfFile), host) := by
  have short : (host.volume.content handle.file).length < place + 1 := Nat.lt_succ_of_le behind
  simp only [readByte, FileArray.live, live, Handle.readByte, runFrom_bind, runFrom_outcome,
    runFrom_within, if_neg (Nat.not_le_of_lt expressible), runFrom_liftM, Host.content_apply,
    if_pos short, runFrom_throw, mapError_error]

/-- Where the file ends before the bytes do, they are merged as far as the file goes. -/
theorem runFrom_mergeFrom_cut (live : array.handle = some handle) (host : Host) (merge : Merge)
    {bytes : Bytes} (short : (host.volume.content handle.file).length < bytes.length)
    (allowed : (host.volume.content handle.file).length ≤ host.limits.fileLength)
    (expressible : bytes.length < offsetBound) :
    Exists fun after =>
      runFrom (array.mergeFrom merge 0 bytes) host =
        (.error (.storage "unable to read bit array from disk" .endOfFile), after) ∧
      host.ChangesOnly (some handle.file) after ∧
      (after.volume.content handle.file).toList =
        List.zipWith merge.combine (host.volume.content handle.file).toList bytes := by
  let reached := (host.volume.content handle.file).length
  have size : (bytes.take reached).length = reached := by
    rw [List.length_take]
    exact Nat.min_eq_left (Nat.le_of_lt short)
  rcases runFrom_mergeFrom live host merge (bytes.take reached) 0
    (Nat.le_of_eq ((Nat.zero_add _).trans size)) (by rw [size, Nat.zero_add]; exact allowed)
    with ⟨after, run, changes, combined⟩
  refine ⟨after, ?_, changes, ?_⟩
  · -- the next byte to be merged is the first that the file does not have
    have behind : (after.volume.content handle.file).length ≤ reached :=
      Nat.le_of_eq (changes.length handle.file)
    have failed := runFrom_readByte_behind live behind (by omega)
    have parted : bytes = bytes.take reached ++ bytes[reached] :: bytes.drop (reached + 1) := by
      rw [List.getElem_cons_drop, List.take_append_drop]
    rw [parted, mergeFrom_append, runFrom_bind, run, size, Nat.zero_add]
    simp only [mergeFrom, runFrom_bind, failed]
  · rw [Content.toList, Content.toList, changes.length handle.file]
    apply Content.window_combined merge (Nat.le_of_lt short)
    intro place inside
    rw [combined, if_pos ⟨Nat.zero_le _, by rw [size, Nat.zero_add]; exact inside⟩,
      Nat.sub_zero, List.getElem?_take_of_lt inside]

end FileArray

namespace BitArray

/-! ## The cases -/

/-- What a merge relies on in its receiver, which may be closed.  A file may have been
cut to any length, and has to be writable as far as it reaches; a mapped file was not
cut. -/
inductive Stands (host : Host) : BitArray -> Prop where
  | memory (array : MemoryArray) : Stands host (.memory array)
  | file {array : FileArray} (word : array.layout.capacity < UInt64.size)
      (allowed : forall handle, array.handle = some handle ->
        min (host.volume.content handle.file).length array.layout.byteLength ≤
          host.limits.fileLength) :
      Stands host (.file array)
  | mapped {array : MappedArray}
      (whole : forall region, array.region = some region ->
        array.layout.byteLength ≤ (host.volume.content region.file).length) :
      Stands host (.mapped array)

/-- How a merge into a receiver ends: the reply, the array and the host that it leaves. -/
inductive MergeEnds (receiver operand : BitArray) (kind : Merge) (host : Host) :
    Except Fault Reply -> BitArray -> Host -> Prop where
  -- The operand is of another length.
  | misfit (differ : operand.layout.byteLength ≠ receiver.layout.byteLength) :
      MergeEnds receiver operand kind host
        (.error (.invalidArgument "other" ("bit array to combine with must be of equal length " ++
          s!"({operand.layout.byteLength} != {receiver.layout.byteLength})"))) receiver host
  -- The operand fits, but cannot be read.
  | unread {fault : Fault} (fits : operand.layout.byteLength = receiver.layout.byteLength)
      (unread : operand.reading host = .error fault) :
      MergeEnds receiver operand kind host (.error fault) receiver host
  -- The operand was read, but the receiver is closed.
  | closed {bytes : Bytes} {after : Host}
      (fits : operand.layout.byteLength = receiver.layout.byteLength)
      (read : operand.reading host = .ok bytes) (gone : receiver.isClosed = true)
      (changes : host.ChangesOnly none after) :
      MergeEnds receiver operand kind host (.error .closed) receiver after
  -- The receiver is open over a file that ends before the array does.  All bytes that
  -- the file has are combined.
  | cut {array : FileArray} {handle : Handle} {bytes : Bytes} {after : Host}
      (fits : operand.layout.byteLength = receiver.layout.byteLength)
      (read : operand.reading host = .ok bytes) (own : receiver = .file array)
      (live : array.handle = some handle)
      (short : (host.volume.content handle.file).length < receiver.layout.byteLength)
      (changes : host.ChangesOnly (some handle.file) after)
      (combined : (after.volume.content handle.file).toList =
        List.zipWith kind.combine (host.volume.content handle.file).toList bytes) :
      MergeEnds receiver operand kind host
        (.error (.storage "unable to read bit array from disk" .endOfFile)) receiver after
  -- The receiver is open and all there.  All its bytes are combined, and no others.
  | done {bytes : Bytes} {next : BitArray} {after : Host}
      (fits : operand.layout.byteLength = receiver.layout.byteLength)
      (read : operand.reading host = .ok bytes) (isOpen : receiver.isClosed = false)
      (whole : forall file, receiver.file? = some file ->
        receiver.layout.byteLength ≤ (host.volume.content file).length)
      (layout : next.layout = receiver.layout) (file? : next.file? = receiver.file?)
      (changes : host.ChangesOnly receiver.file? after)
      (combined : next.storage after =
        List.zipWith kind.combine (receiver.storage host) bytes)
      (tail : forall file place, receiver.file? = some file ->
        receiver.layout.byteLength ≤ place ->
        (after.volume.content file).byte place = (host.volume.content file).byte place) :
      MergeEnds receiver operand kind host (.ok .done) next after

variable {receiver operand : BitArray} {kind : Merge} {host after : Host} {bytes : Bytes}

/-- A merge changes no file but that of its receiver. -/
theorem MergeEnds.changesOnly {reply : Except Fault Reply} {next : BitArray}
    (ends : MergeEnds receiver operand kind host reply next after) :
    host.ChangesOnly receiver.file? after := by
  cases ends with
  | misfit | unread => exact Host.ChangesOnly.refl _ host
  | closed fits read gone changes =>
      rw [(closed_of_isClosed gone).file?]
      exact changes
  | cut fits read own live short changes combined =>
      rw [own, file?_file live]
      exact changes
  | done fits read isOpen whole layout file? changes combined tail => exact changes

/-! ## Which of them is met -/

theorem step_merge_ok {next : BitArray}
    (run : runFrom (receiver.merge kind operand) host = (.ok next, after)) :
    receiver.step (.merge kind operand) host = ((.ok .done, next), after) := by
  apply step_of_ok
  simp only [perform, runFrom_bind, run, runFrom_pure]

theorem step_merge_error {fault : Fault}
    (run : runFrom (receiver.merge kind operand) host = (.error fault, after)) :
    receiver.step (.merge kind operand) host = ((.error fault, receiver), after) := by
  apply step_of_error
  simp only [perform, runFrom_bind, run]

/-- As far as the file of an open receiver reaches, if it has one, bytes are absorbed. -/
theorem absorb_ends (fits : operand.layout.byteLength = receiver.layout.byteLength)
    (read : operand.reading host = .ok bytes) (isOpen : receiver.isClosed = false)
    (whole : forall file, receiver.file? = some file ->
      receiver.layout.byteLength ≤ (host.volume.content file).length)
    (allowed : forall source, receiver = .file source ->
      receiver.layout.byteLength ≤ host.limits.fileLength) :
    Exists fun next => Exists fun after =>
      runFrom (receiver.absorb kind bytes) host = (.ok next, after) ∧
      MergeEnds receiver operand kind host (.ok .done) next after := by
  have size : bytes.length = receiver.layout.byteLength := (length_of_snapshot read).trans fits
  rcases memory_or_file?_of_isOpen isOpen with ⟨array, rfl⟩ | ⟨file, kept⟩
  · have total : bytes.length = array.toBytes.length := by
      rw [size, MemoryArray.toBytes, Array.length_toList, array.size_eq, layout]
    refine ⟨_, host, rfl, .done fits read isOpen whole rfl rfl (Host.ChangesOnly.refl _ host) ?_
      (fun _ _ _ _ => rfl)⟩
    rw [storage, storage, ← Merge.apply_of_length kind total]
    simp only [MemoryArray.toBytes, MemoryArray.combine]
  · rcases runFrom_absorb kept kind size (whole file kept) allowed with
      ⟨after, run, changes, combined⟩
    refine ⟨receiver, after, run, .done fits read isOpen whole rfl rfl (kept ▸ changes) ?_ ?_⟩
    · rw [storage_eq_window kept, storage_eq_window kept]
      apply Content.window_combined kind (Nat.le_of_eq size.symm)
      intro place inside
      rw [combined, merged, if_pos (size ▸ inside)]
    · intro other place same beyond
      cases kept.symm.trans same
      rw [combined, merged, if_neg (by omega)]

/-- Bytes that were read are absorbed by an open receiver, unless its file was cut. -/
theorem absorb_ends_or_cut (stands : receiver.Stands host)
    (fits : operand.layout.byteLength = receiver.layout.byteLength)
    (read : operand.reading host = .ok bytes) (isOpen : receiver.isClosed = false) :
    (Exists fun next => Exists fun after =>
      runFrom (receiver.absorb kind bytes) host = (.ok next, after) ∧
      MergeEnds receiver operand kind host (.ok .done) next after) ∨
    Exists fun fault => Exists fun after =>
      runFrom (receiver.absorb kind bytes) host = (.error fault, after) ∧
      MergeEnds receiver operand kind host (.error fault) receiver after := by
  cases stands with
  | memory array => exact .inl (absorb_ends fits read isOpen nofun nofun)
  | @mapped array whole =>
      refine .inl (absorb_ends fits read isOpen ?_ nofun)
      intro file kept
      rcases Option.map_eq_some_iff.mp kept with ⟨region, live, rfl⟩
      exact whole region live
  | @file array word allowed =>
      have size : bytes.length = array.layout.byteLength := (length_of_snapshot read).trans fits
      rcases memory_or_file?_of_isOpen isOpen with ⟨_, ⟨⟩⟩ | ⟨file, kept⟩
      rcases Option.map_eq_some_iff.mp kept with ⟨handle, live, rfl⟩
      have allowed := allowed handle live
      rcases Nat.lt_or_ge (host.volume.content handle.file).length array.layout.byteLength
        with short | enough
      · rw [Nat.min_eq_left (Nat.le_of_lt short)] at allowed
        have expressible : bytes.length < offsetBound :=
          size ▸ Layout.byteLength_lt_offsetBound word
        -- the record of the merge comes before the first byte
        let begun := host.recorded (.mergingFile kind array.path)
        rcases FileArray.runFrom_mergeFrom_cut live begun kind (size ▸ short) allowed
          expressible with ⟨after, run, changes, combined⟩
        refine .inr ⟨_, after, ?_, .cut fits read rfl live short
          ((Host.ChangesOnly.recorded _ host _).trans changes) combined⟩
        simp only [absorb, runFrom_bind, runFrom_liftM, Host.record_apply]
        rw [run]
      · rw [Nat.min_eq_right enough] at allowed
        refine .inl (absorb_ends fits read isOpen ?_ ?_)
        · intro file kept
          cases (file?_file live).symm.trans kept
          exact enough
        · rintro source ⟨⟩
          exact allowed

/-- Every merge ends in one of the cases. -/
theorem step_merge_ends (stands : receiver.Stands host) (operand : BitArray) (kind : Merge) :
    MergeEnds receiver operand kind host (receiver.step (.merge kind operand) host).1.1
      (receiver.step (.merge kind operand) host).1.2
      (receiver.step (.merge kind operand) host).2 := by
  by_cases fits : operand.layout.byteLength = receiver.layout.byteLength
  · have required := (receiver.layout.requireOperand_eq_ok_iff operand.layout.byteLength).mpr fits
    have brought := runFrom_container_snapshot operand host
    cases read : operand.reading host with
    | error fault =>
        rw [read] at brought
        rw [step_merge_error (runFrom_merge_unread kind required brought)]
        exact .unread fits read
    | ok bytes =>
        rw [read] at brought
        have size : bytes.length = receiver.layout.byteLength :=
          (length_of_snapshot read).trans fits
        cases gone : receiver.isClosed with
        | true =>
            have some : ¬ (receiver.inFile = true ∧ bytes = []) := by
              rintro ⟨_, rfl⟩
              exact Nat.ne_of_lt receiver.layout.byteLength_pos size
            rcases (closed_of_isClosed gone).runFrom_merge kind required brought with
              ⟨last, run, changes⟩
            rw [if_neg some] at run
            rw [step_merge_error run]
            exact .closed fits read gone changes.changesNone
        | false =>
            have absorbed := runFrom_merge_read kind required brought
            rcases absorb_ends_or_cut stands fits read gone with
              ⟨next, after, run, ends⟩ | ⟨fault, after, run, ends⟩
            · rw [step_merge_ok (absorbed.trans run)]
              exact ends
            · rw [step_merge_error (absorbed.trans run)]
              exact ends
  · have refused : receiver.layout.requireOperand operand.layout.byteLength = .error _ :=
      if_neg fits
    rw [step_merge_error (runFrom_merge_misfit host kind refused)]
    exact .misfit fits

/-- A merge that fails has changed nothing, unless the file of the receiver was cut, and the
operand is never changed. -/
theorem merge_ends {receiver : BitArray} {host : Host} (stands : receiver.Stands host)
    (operand : BitArray) (kind : Merge) :
    let ended := receiver.step (.merge kind operand) host
    MergeEnds receiver operand kind host ended.1.1 ended.1.2 ended.2 ∧
      ((forall file, operand.file? = some file -> receiver.file? ≠ some file) ->
        operand.reading ended.2 = operand.reading host ∧
        forall file, operand.file? = some file ->
          ended.2.volume.content file = host.volume.content file) := by
  intro ended
  have ends := step_merge_ends stands operand kind
  refine ⟨ends, fun apart => ?_⟩
  exact ⟨reading_elsewhere ends.changesOnly apart,
    fun file own => ends.changesOnly.others file (apart file own)⟩

end BitArray

namespace Shortened

/-- A host where the first file was cut to a single byte, which is less than an array of the
capacity twelve has. -/
def host : Host where
  volume := { contents := [.ofBytes [1], .ofBytes [6, 6, 0, 0, 0]] }

theorem stands : (BitArray.file Twelve.file).Stands host := by
  refine .file (by decide) ?_
  rintro handle ⟨⟩
  decide

theorem apart : forall file, (BitArray.mapped Twelve.mapped).file? = some file ->
    (BitArray.file Twelve.file).file? ≠ some file := by
  rintro file ⟨⟩
  decide

end Shortened

/-- The byte that is left is combined before the lack of the second is noticed. -/
theorem BitArray.merge_ends_shortened :
    let ended :=
      (BitArray.file Twelve.file).step (.merge .or (BitArray.mapped Twelve.mapped)) Shortened.host
    (BitArray.file Twelve.file).Stands Shortened.host ∧
      MergeEnds (.file Twelve.file) (.mapped Twelve.mapped) .or Shortened.host ended.1.1
        ended.1.2 ended.2 ∧
      (BitArray.mapped Twelve.mapped).reading ended.2 = .ok [6, 6] ∧
      ended.1.1 = .error (.storage "unable to read bit array from disk" .endOfFile) ∧
      (ended.2.volume.content 0).toList = [7] := by
  intro ended
  rcases merge_ends Shortened.stands (.mapped Twelve.mapped) .or with ⟨ends, unchanged⟩
  exact ⟨Shortened.stands, ends, (unchanged Shortened.apart).1, rfl, rfl⟩

end BitStore
