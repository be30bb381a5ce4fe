import BitStore.Proofs.Arrays.Truncation

namespace BitStore

/-!
# What an open array shows

An open array shows as many bytes as its layout has, whatever has become of its file.  Where
the file ends in front of them, an array in the file shows zeros, and one in a mapping shows
what the mapping keeps there.  `BitArray.face` are these bytes.  They are the storage of an
array whose file was not cut, and wherever a snapshot can be taken they are the snapshot.

Nothing more is asked of an array here than that it is open, that its file is still there,
and that the system would let the file become as long as the array.  A change of such an
array reaches its bytes if the file does, and `BitArray.Turns` says what it then leaves.  In
a mapping every byte is reached.
-/

namespace Content

variable (content : Content) {count place : Nat}

theorem getElem_mappedFront (inside : place < (content.mappedFront count).length) :
    (content.mappedFront count)[place] = content.mappedByte place := by
  simp only [mappedFront, List.getElem_map, List.getElem_range]

theorem getElem?_mappedFront (inside : place < count) :
    (content.mappedFront count)[place]?.getD 0 = content.mappedByte place := by
  rw [List.getElem?_eq_getElem (by rwa [length_mappedFront]), Option.getD_some,
    getElem_mappedFront]

/-- One byte is stored, made from the byte that was there. -/
theorem mappedFront_store_one (change : UInt8 -> UInt8) (position : Nat) :
    (content.store position [change (content.mappedByte position)]).mappedFront count =
      (content.mappedFront count).modify position change := by
  apply List.ext_getElem
  · rw [List.length_modify, length_mappedFront, length_mappedFront]
  · intro place inside _
    rw [getElem_mappedFront, mappedByte_store, List.getElem_modify, getElem_mappedFront]
    by_cases same : position = place
    · subst same
      rw [if_pos (by simp), if_pos rfl, Nat.sub_self]
      rfl
    · rw [if_neg (by simp only [List.length_singleton]; omega), if_neg same]

/-- All bytes are stored. -/
theorem mappedFront_store_front (bytes : Bytes) :
    (content.store 0 bytes).mappedFront bytes.length = bytes := by
  apply List.ext_getElem
  · rw [length_mappedFront]
  · intro place _ inside
    rw [getElem_mappedFront, mappedByte_store, if_pos ⟨Nat.zero_le _, by omega⟩, Nat.sub_zero,
      List.getElem?_eq_getElem inside, Option.getD_some]

/-- The front of what a mapping shows. -/
theorem take_mappedFront_self {total : Nat} (inside : count ≤ total) :
    (content.mappedFront total).take count = content.mappedFront count := by
  rw [mappedFront, mappedFront, ← List.map_take, List.take_range, Nat.min_eq_left inside]

/-- A mapping of a file that was not cut shows the file. -/
theorem mappedFront_eq_window (inside : count ≤ content.length) :
    content.mappedFront count = content.window 0 count := by
  rw [← take_mappedFront (Nat.le_refl count) inside, take_mappedFront_self _ (Nat.le_refl _)]

end Content

theorem Host.ChangesOnly.lasts {file : Option FileId} {host after : Host}
    (changes : host.ChangesOnly file after) : host.Lasts after where
  limits := changes.limits
  held other := (changes.held other).mpr

namespace BitArray

/-- The bytes that an open array shows: its own, those at the front of its file with zeros
behind the end, or those at the front of its mapping. -/
def face (array : BitArray) (host : Host) : Bytes :=
  match array with
  | .memory _ | .file _ => array.storage host
  | .mapped array =>
      match array.region with
      | some region => (host.volume.content region.file).mappedFront array.layout.byteLength
      | none => []

/-- An open array, over a file that is still there and that the system lets become as long
as the array. -/
inductive Ready (host : Host) : BitArray -> Prop where
  | memory (array : MemoryArray) : Ready host (.memory array)
  | file {array : FileArray} {handle : Handle} (attached : array.Attached handle host) :
      Ready host (.file array)
  | mapped {array : MappedArray} {region : Region} (live : array.region = some region)
      (held : host.volume.Holds region.file) : Ready host (.mapped array)

/-- The file of an array that is not mapped has so many bytes. -/
def Reaches (array : BitArray) (host : Host) (reach : Nat) : Prop :=
  match array with
  | .file array => forall handle, array.handle = some handle ->
      reach ≤ (host.volume.content handle.file).length
  | _ => True

/-- What a change has made of an array that is ready: it is still ready and shows the given
bytes, and nothing has happened to other files or to the length of its own. -/
structure Turns (array : BitArray) (host : Host) (next : BitArray) (after : Host)
    (bytes : Bytes) : Prop where
  ready : next.Ready after
  layout : next.layout = array.layout
  file? : next.file? = array.file?
  face : next.face after = bytes
  changes : host.ChangesOnly array.file? after
  reaches : forall reach, next.Reaches after reach ↔ array.Reaches host reach

/-- The array is kept elsewhere than the other one. -/
def Apart (array other : BitArray) : Prop :=
  forall file, array.file? = some file -> other.file? ≠ some file

variable {array operand : BitArray} {host after : Host}

/-- Whether bytes are reached depends on the lengths of the files only. -/
theorem reaches_of_changes {file : Option FileId} (changes : host.ChangesOnly file after)
    (array : BitArray) (reach : Nat) : array.Reaches after reach ↔ array.Reaches host reach := by
  cases array <;> simp only [Reaches, changes.length]

/-! ## Arrays that are ready -/

theorem Ready.holds (ready : array.Ready host) {file : FileId} (kept : array.file? = some file) :
    host.volume.Holds file := by
  cases ready with
  | memory array => contradiction
  | file attached =>
      cases (file?_file attached.live).symm.trans kept
      exact attached.held
  | mapped live held =>
      cases (file?_mapped live).symm.trans kept
      exact held

/-- An array stays ready whatever happens to the bytes and the length of its file. -/
theorem Ready.lasts (ready : array.Ready host) (lasts : host.Lasts after) : array.Ready after := by
  cases ready with
  | memory array => exact .memory array
  | file attached => exact .file (attached.lasts lasts)
  | mapped live held => exact .mapped live (lasts.held _ held)

theorem Intact.ready (intact : array.Intact host) : array.Ready host := by
  cases intact with
  | memory array => exact .memory array
  | @file array handle live whole allowed =>
      have held := (Intact.file live whole allowed).holds (file?_file live)
      exact .file ⟨live, held,
        Nat.le_trans (Nat.le_of_lt array.layout.byteLength_lt_fileLength) allowed⟩
  | mapped live whole => exact .mapped live ((Intact.mapped live whole).holds (file?_mapped live))

@[simp] theorem Ready.length_face (ready : array.Ready host) :
    (array.face host).length = array.layout.byteLength := by
  cases ready with
  | memory array =>
      have intact : (BitArray.memory array).Intact host := .memory array
      exact intact.length_storage
  | file attached => simp only [face, storage, attached.live, Content.length_window, layout]
  | mapped live held => simp only [face, live, Content.length_mappedFront, layout]

/-! ## Snapshots -/

/-- Where all bytes are reached, they are read. -/
theorem Ready.reading (ready : array.Ready host)
    (reached : array.Reaches host array.layout.byteLength) :
    array.reading host = .ok (array.face host) := by
  cases ready with
  | memory array => rfl
  | @file array handle attached =>
      have shot := attached.runFrom_snapshot (reached handle attached.live)
      exact congrArg Prod.fst shot
  | @mapped array region live held =>
      have covered := array.covered region live
      have shorter := array.layout.byteLength_lt_fileLength
      rw [BitArray.reading, runFrom_snapshot_mapped live,
        Content.take_mappedFront_self _ (by omega)]
      simp only [face, live]

/-- What is read is what is shown, and all of it is reached. -/
theorem face_of_reading {bytes : Bytes} (read : array.reading host = .ok bytes) :
    array.face host = bytes ∧ array.Reaches host array.layout.byteLength := by
  cases array with
  | memory array =>
      cases read
      exact ⟨rfl, trivial⟩
  | file array =>
      cases live : array.handle with
      | none =>
          simp only [reading, snapshot, FileArray.snapshot, FileArray.live, live, runFrom_bind,
            runFrom_outcome, reduceCtorEq] at read
      | some handle =>
          have some : array.layout.byteLength ≠ 0 := Nat.ne_of_gt array.layout.byteLength_pos
          simp only [reading, snapshot, FileArray.snapshot, FileArray.live, live, runFrom_bind,
            runFrom_outcome, runFrom_within, Handle.read, if_neg some, runFrom_ite,
            runFrom_throw, runFrom_liftM, Host.content_apply, runFrom_pure, Nat.zero_add] at read
          split at read
          · contradiction
          · split at read
            · contradiction
            next enough =>
              refine ⟨?_, ?_⟩
              · simp only [face, storage, live]
                exact Except.ok.inj read
              · rintro other same
                cases live.symm.trans same
                exact Nat.le_of_not_lt enough
  | mapped array =>
      cases live : array.region with
      | none =>
          simp only [reading, snapshot, MappedArray.snapshot, MappedArray.live, live,
            runFrom_bind, runFrom_outcome, reduceCtorEq] at read
      | some region =>
          have covered := array.covered region live
          have shorter := array.layout.byteLength_lt_fileLength
          rw [BitArray.reading, runFrom_snapshot_mapped live,
            Content.take_mappedFront_self _ (by omega)] at read
          refine ⟨?_, trivial⟩
          simp only [face, live]
          exact Except.ok.inj read

/-- The face of an array whose file was not cut is its storage. -/
theorem Intact.face (intact : array.Intact host) : array.face host = array.storage host :=
  (face_of_reading intact.reading).1

/-! ## What changes leave -/

theorem turns_memory (array next : MemoryArray) (layout : next.layout = array.layout)
    (host : Host) : (BitArray.memory array).Turns host (.memory next) host next.toBytes where
  ready := .memory next
  layout := layout
  file? := rfl
  face := rfl
  changes := Host.ChangesOnly.refl none host
  reaches _ := Iff.rfl

theorem turns_file {array : FileArray} {handle : Handle} {bytes : Bytes}
    (attached : array.Attached handle host) (changes : host.ChangesOnly (some handle.file) after)
    (storage : (BitArray.file array).storage after = bytes) :
    (BitArray.file array).Turns host (.file array) after bytes where
  ready := .file (attached.lasts changes.lasts)
  layout := rfl
  file? := rfl
  face := storage
  changes := file?_file attached.live ▸ changes
  reaches := reaches_of_changes changes _

theorem turns_mapped {array : MappedArray} {region : Region} (live : array.region = some region)
    (held : host.volume.Holds region.file) (change : Content -> Content)
    (length : forall content, (change content).length = content.length) :
    (BitArray.mapped array).Turns host (.mapped array) (host.withContent region.file change)
      ((change (host.volume.content region.file)).mappedFront array.layout.byteLength) where
  ready := .mapped live ((Volume.holds_updateContent _ _ _ _).mpr held)
  layout := rfl
  file? := rfl
  face := by
    simp only [face, live, Host.withContent, Volume.content_updateContent_self held]
  changes := file?_mapped live ▸ Host.ChangesOnly.withContent held (length _)
  reaches _ := Iff.rfl

/-- Nothing has become of an array where no file was touched. -/
theorem Ready.turns_self (ready : array.Ready host) (changes : host.ChangesOnly none after) :
    array.Turns host array after (array.face host) where
  ready := ready.lasts changes.lasts
  layout := rfl
  file? := rfl
  face := by
    have contents : after.volume.content = host.volume.content :=
      funext fun file => changes.others file nofun
    cases array <;> simp only [BitArray.face, storage, contents]
  changes := { changes with others := fun file _ => changes.others file nofun }
  reaches := reaches_of_changes changes array

/-- A record that comes before a change is no change itself. -/
theorem Turns.of_recorded {event : Event} {next : BitArray} {bytes : Bytes}
    (turns : array.Turns (host.recorded event) next after bytes) :
    array.Turns host next after bytes :=
  { turns with changes := (Host.ChangesOnly.recorded _ host event).trans turns.changes }

/-! ## Single bits -/

section Bit

variable {operation : Operation BitArray} {index : Nat} {address : BitAddress}

theorem Ready.step_outside (ready : array.Ready host) (single : operation.index? = some index)
    (outside : array.layout.capacity < index) :
    array.step operation host =
      ((.error (.indexOutOfRange index array.layout.capacity), array), host) := by
  have located := array.layout.locate_of_gt outside
  cases ready with
  | memory array =>
      have intact : (BitArray.memory array).Intact host := .memory array
      have read := BitArray.runFrom_getBit intact index
      rw [located] at read
      exact step_bit_refused _ single read fun change => changeBit_refused intact change located
  | file attached => exact FileArray.step_bit_outside single host outside
  | @mapped array region live held =>
      simp only [layout] at located
      apply step_bit_refused _ single
      · simp only [getBit, MappedArray.getBit, MappedArray.live, live, runFrom_bind,
          runFrom_outcome, located]
        rfl
      · intro change
        rw [changeBit_mapped]
        simp only [MappedArray.changeBit, MappedArray.live, live, runFrom_bind,
          runFrom_outcome, located]
        rfl

/-- A bit is read from the byte that shows it. -/
theorem Ready.runFrom_getBit (ready : array.Ready host)
    (located : array.layout.locate index = .ok address)
    (reached : array.Reaches host (address.byte + 1)) :
    runFrom (array.getBit index) host =
      (.ok (address.test ((array.face host)[address.byte]?.getD 0)), host) := by
  have below := array.layout.byte_lt_byteLength located
  cases ready with
  | memory array =>
      rw [BitArray.runFrom_getBit (.memory array), located]
      rfl
  | @file array handle attached =>
      have allowed := attached.allowed
      have stored := storage_getElem? host (file?_file attached.live) below
      rw [face, stored]
      exact FileArray.runFrom_getBit attached.live located (reached handle attached.live)
        (Nat.lt_of_lt_of_le below allowed)
  | @mapped array region live held =>
      simp only [layout] at located below
      simp only [face, live, Content.getElem?_mappedFront _ below, getBit, MappedArray.getBit,
        MappedArray.live, runFrom_bind, runFrom_outcome, located, runFrom_liftM, Region.load,
        bind_apply, pure_apply, Host.content_apply, runFrom_pure]

/-- A bit is changed in the byte that shows it. -/
theorem Ready.changeBit (ready : array.Ready host)
    (located : array.layout.locate index = .ok address)
    (reached : array.Reaches host (address.byte + 1)) (change : BitAddress -> UInt8 -> UInt8) :
    Exists fun next => Exists fun after =>
      array.changeBit change index host = ((.ok (), next), after) ∧
      array.Turns host next after ((array.face host).modify address.byte (change address)) := by
  have below := array.layout.byte_lt_byteLength located
  cases ready with
  | memory array =>
      have bytes : (array.modifyByte address.byte (change address)).toBytes =
          array.toBytes.modify address.byte (change address) := by
        simp only [MemoryArray.toBytes, MemoryArray.modifyByte, Array.toList_modify]
      simp only [layout] at located
      have turns := turns_memory array (array.modifyByte address.byte (change address)) rfl host
      refine ⟨_, host, ?_, bytes ▸ turns⟩
      simp only [BitArray.changeBit, MemoryArray.changeBit, located]
      rfl
  | @file array handle attached =>
      rcases attached.changeBit located (reached handle attached.live) change
        with ⟨next, after, changed, rfl, leaves⟩
      exact ⟨_, after, changed, turns_file attached leaves.changes leaves.storage⟩
  | @mapped array region live held =>
      simp only [layout] at located below
      have covered := array.covered region live
      have shorter := array.layout.byteLength_lt_fileLength
      let value := change address ((host.volume.content region.file).mappedByte address.byte)
      have stored := region.store_apply host address.byte [value]
        (by simp only [List.length_singleton]; omega)
      have turns := turns_mapped live held
        (fun content => content.store address.byte [value]) fun _ => rfl
      rw [Content.mappedFront_store_one] at turns
      refine ⟨.mapped array, host.withContent region.file fun content =>
        content.store address.byte [value], ?_, ?_⟩
      · rw [changeBit_mapped]
        simp only [MappedArray.changeBit, MappedArray.live, live, runFrom_bind, runFrom_outcome,
          located, runFrom_liftM, Region.load, bind_apply, pure_apply, Host.content_apply, stored,
          value]
      · simpa only [face, live] using turns

/-- A reached bit is served as expected. -/
theorem Ready.step_bit (ready : array.Ready host) (single : operation.index? = some index)
    (inside : index ≤ array.layout.capacity) (reached : array.Reaches host (index / 8 + 1)) :
    Exists fun reply => Exists fun next => Exists fun after =>
      array.step operation host = ((.ok reply, next), after) ∧
      array.Turns host next after (array.layout.respond (array.face host)
        (fun operand => operand.reading host) operation).2 := by
  have located := array.layout.locate_of_le inside
  rcases array.step_bit_served (array.Turns host) single located
    (ready.runFrom_getBit located reached) (ready.turns_self (Host.ChangesOnly.refl none host))
    (ready.changeBit located reached) (fun operand => operand.reading host)
    with ⟨reply, next, after, stepped, _, turns⟩
  exact ⟨reply, next, after, stepped, turns⟩

end Bit

/-! ## Merging -/

/-- Bytes are absorbed where all bytes of the receiver are reached. -/
theorem Ready.absorb (ready : array.Ready host) (kind : Merge) {bytes : Bytes}
    (size : bytes.length = array.layout.byteLength)
    (reached : array.Reaches host array.layout.byteLength) :
    Exists fun next => Exists fun after =>
      runFrom (array.absorb kind bytes) host = (.ok next, after) ∧
      array.Turns host next after (kind.apply (array.face host) bytes) := by
  cases ready with
  | memory array =>
      have combined : (array.combine kind bytes).toBytes = kind.apply array.toBytes bytes := by
        simp only [MemoryArray.toBytes, MemoryArray.combine]
      exact ⟨_, host, rfl, combined ▸ turns_memory array (array.combine kind bytes) rfl host⟩
  | @file array handle attached =>
      have inside := reached handle attached.live
      have kept := file?_file attached.live
      have long : ((BitArray.file array).storage host).length =
          (BitArray.file array).layout.byteLength := (Ready.file attached).length_face
      have total : (kind.apply ((BitArray.file array).storage host) bytes).length =
          (BitArray.file array).layout.byteLength := (Merge.length_apply _ _ _).trans long
      rcases runFrom_absorb_file attached.live kind (size ▸ inside)
        (size ▸ attached.allowed) with ⟨after, run, changes, combined⟩
      refine ⟨.file array, after, run, turns_file attached changes ?_⟩
      apply storage_replaced kept total
      intro place
      rw [combined, Merge.getElem?_apply kind (Nat.le_of_eq (size.trans long.symm)), total,
        merged, size]
      split
      next front => rw [storage_getElem? host kept front]
      next => rfl
  | @mapped array region live held =>
      let begun := host.recorded (.mergingMapping kind array.path)
      let current := (host.volume.content region.file).mappedFront array.layout.byteLength
      have covered := array.covered region live
      have shorter := array.layout.byteLength_lt_fileLength
      have total : (kind.apply current bytes).length = array.layout.byteLength := by
        rw [Merge.length_apply, Content.length_mappedFront]
      have shot : runFrom array.snapshot begun = (.ok current, begun) := by
        have front := runFrom_snapshot_mapped live begun
        rwa [Content.take_mappedFront_self _ (by omega)] at front
      have stored := MappedArray.storeFront_apply live begun total
      have heldThen : begun.volume.Holds region.file := held
      have turns := turns_mapped live heldThen
        (fun content => content.store 0 (kind.apply current bytes)) fun _ => rfl
      have front := Content.mappedFront_store_front (begun.volume.content region.file)
        (kind.apply current bytes)
      have shown : (BitArray.mapped array).face host = current := by
        simp only [face, live, current]
      rw [total] at front
      rw [front] at turns
      refine ⟨.mapped array, begun.withContent region.file fun content =>
        content.store 0 (kind.apply current bytes), ?_, shown ▸ turns.of_recorded⟩
      simp only [BitArray.absorb, MappedArray.live, live, runFrom_bind, runFrom_outcome,
        runFrom_liftM, Host.record_apply]
      rw [shot]
      simp only [stored]
      rfl

/-- An operand that fits and can be read is merged into what the receiver shows. -/
theorem Ready.step_merge (ready : array.Ready host) (kind : Merge) {bytes : Bytes}
    (fits : operand.layout.byteLength = array.layout.byteLength)
    (read : operand.reading host = .ok bytes)
    (reached : array.Reaches host array.layout.byteLength) :
    Exists fun next => Exists fun after =>
      array.step (.merge kind operand) host = ((.ok .done, next), after) ∧
      array.Turns host next after (kind.apply (array.face host) bytes) := by
  have required : array.layout.requireOperand (BitContainer.byteLength operand) = .ok () :=
    (array.layout.requireOperand_eq_ok_iff _).mpr fits
  have brought := runFrom_container_snapshot operand host
  rw [read] at brought
  rcases ready.absorb kind ((length_of_snapshot read).trans fits) reached
    with ⟨next, after, absorbed, turns⟩
  have merged := (runFrom_merge_read kind required brought).trans absorbed
  exact ⟨next, after, step_merge_ok merged, turns⟩

/-- Where all bytes are reached, the snapshot after a change is what the array shows then. -/
theorem Turns.reading {next : BitArray} {bytes : Bytes}
    (turns : array.Turns host next after bytes)
    (reached : array.Reaches host array.layout.byteLength) : next.reading after = .ok bytes := by
  rw [turns.ready.reading ((turns.reaches _).mpr (turns.layout ▸ reached)), turns.face]

/-- An array that is kept elsewhere does not notice a change. -/
theorem Turns.reading_apart {next other : BitArray} {bytes : Bytes}
    (turns : array.Turns host next after bytes) (apart : other.Apart array) :
    other.reading after = other.reading host :=
  reading_elsewhere turns.changes apart

end BitArray
end BitStore
