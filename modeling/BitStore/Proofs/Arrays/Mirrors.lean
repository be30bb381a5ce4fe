import BitStore.Proofs.Arrays.Raw

namespace BitStore

/-!
# What parts do is what arrays do

An action on parts mirrors an action on arrays if it is not stopped, answers the same, and
leaves the same host; an array that is given back is given back as its parts.  This goes along
binds, so that each operation is followed line by line, and the checks are met where they
stand.  They are met because the types of arrays say how their parts fit, and because the
capacity is a word.
-/

/-- The parts of an array. -/
def BitArray.raw : BitArray -> RawArray
  | .memory array => { layout := array.layout.raw, storage := .memory array.toBytes }
  | .file array =>
      { layout := array.layout.raw, storage := .file array.handle array.path array.mode }
  | .mapped array => { layout := array.layout.raw, storage := .mapped array.region array.path }

/-- The one action is not stopped and does what the other does, which cannot be stopped.  What
the other brings is brought as its parts. -/
def Mirrors {α β : Type} (parts : α -> β) (raw : RawM β) (plain : ArrayM α) (host : Host) : Prop :=
  raw.run.run host = .ok ((runFrom plain host).1.map parts, (runFrom plain host).2)

namespace Mirrors

variable {α β γ δ : Type} {parts : α -> β} {partsNext : γ -> δ} {raw : RawM β}
  {plain : ArrayM α} {host : Host}

theorem pure (value : α) : Mirrors parts (pure (parts value)) (pure value) host := rfl

theorem throw (fault : Fault) : Mirrors parts (throw fault) (throw fault) host := rfl

/-- An action of storage. -/
theorem array (action : ArrayM α) : Mirrors id (liftM action) action host := by
  change Except.ok (runFrom action host) = .ok ((runFrom action host).1.map id, _)
  rcases runFrom action host with ⟨_ | _, _⟩ <;> rfl

theorem storage {action : ArrayM β}
    (same : runFrom action host = ((runFrom plain host).1.map parts, (runFrom plain host).2)) :
    Mirrors parts (liftM action) plain host :=
  congrArg Except.ok same

/-- An action of storage that cannot fail. -/
theorem system (action : StateM Host α) :
    Mirrors id (liftM action) (liftM action) host := rfl

theorem bind {rawNext : β -> RawM δ} {next : α -> ArrayM γ}
    (first : Mirrors parts raw plain host)
    (second : forall value after, runFrom plain host = (.ok value, after) ->
      Mirrors partsNext (rawNext (parts value)) (next value) after) :
    Mirrors partsNext (raw >>= rawNext) (plain >>= next) host := by
  rw [Mirrors] at first
  rw [Mirrors, ExceptT.run_bind, StateT.run_bind, first, runFrom_bind, Checked.ok_bind]
  rcases ended : runFrom plain host with ⟨fault | value, after⟩
  · rfl
  · exact second value after ended

/-- What the one action brings is the parts of what the other brings. -/
theorem brought {made : β} {after : Host} (mirrors : Mirrors parts raw plain host)
    (run : raw.run.run host = .ok (.ok made, after)) :
    Exists fun value => runFrom plain host = (.ok value, after) ∧ parts value = made := by
  rw [Mirrors, run] at mirrors
  rcases ended : runFrom plain host with ⟨fault | value, last⟩
  · rw [ended] at mirrors
    cases mirrors
  · rw [ended] at mirrors
    cases mirrors
    exact ⟨value, rfl, rfl⟩

theorem returns {value : α} {made : β} (ended : runFrom plain host = (.ok value, host))
    (same : parts value = made) : Mirrors parts (Pure.pure made) plain host := by
  rw [Mirrors, ended, ← same]
  rfl

/-- What is known to bring a value, and to leave everything as it is, can be left out. -/
theorem known {raw : RawM β} {value : β} {rawNext : β -> RawM δ} {plain : ArrayM γ}
    (ended : raw.run.run host = .ok (.ok value, host))
    (rest : Mirrors partsNext (rawNext value) plain host) :
    Mirrors partsNext (raw >>= rawNext) plain host := by
  rw [Mirrors, ExceptT.run_bind, StateT.run_bind, ended, Checked.ok_bind]
  exact rest

/-- What is known to bring a value in the other action only. -/
theorem taken {action : ArrayM γ} {value : γ} {next : γ -> ArrayM α}
    (ended : runFrom action host = (.ok value, host)) (rest : Mirrors parts raw (next value) host) :
    Mirrors parts raw (action >>= next) host := by
  rw [Mirrors, runFrom_bind, ended]
  exact rest

theorem congr {other : ArrayM α} (same : runFrom other host = runFrom plain host)
    (mirrors : Mirrors parts raw plain host) : Mirrors parts raw other host := by
  rw [Mirrors, same]
  exact mirrors

/-- What is decided without storage. -/
theorem decided {action : ExceptT Fault Checked β} {outcome : Except Fault α}
    (ended : action.run = .ok (outcome.map parts)) :
    Mirrors parts (liftM action) (liftM outcome) host := by
  change (do return (← action.run, host)) = _
  rw [ended]
  rfl

/-- An outcome that is there. -/
theorem outcome {first second : Except Fault α} (same : first = second) :
    Mirrors id (liftM first) (liftM second) host := by
  subst same
  cases first <;> rfl

theorem run_decided {action : ExceptT Fault Checked β} {outcome : Except Fault β}
    (ended : action.run = .ok outcome) (host : Host) :
    (liftM action : RawM β).run.run host = .ok (outcome, host) := by
  change (do return (← action.run, host)) = _
  rw [ended]
  rfl

/-- Both fail in the same way. -/
theorem refused {raw : RawM β} {fault : Fault} {rawNext : β -> RawM δ} {plain : ArrayM γ}
    (ended : raw.run.run host = .ok (.error fault, host))
    (failed : runFrom plain host = (.error fault, host)) :
    Mirrors partsNext (raw >>= rawNext) plain host := by
  rw [Mirrors, ExceptT.run_bind, StateT.run_bind, ended, Checked.ok_bind, failed]
  rfl

theorem answers {action : Checked α} {value : α} (ended : action = .ok value) :
    Mirrors id (liftM action) (Pure.pure value) host := by
  subst ended
  rfl

theorem begun : Mirrors id (get : RawM Host) (get : ArrayM Host) host := rfl

theorem branch {condition : Prop} [Decidable condition] {rawElse : RawM β} {plainElse : ArrayM α}
    (first : Mirrors parts raw plain host) (second : Mirrors parts rawElse plainElse host) :
    Mirrors parts (if condition then raw else rawElse) (if condition then plain else plainElse)
      host := by
  split
  · exact first
  · exact second

/-- What is computed without storage and without a reason to fail. -/
theorem computed {action : Checked β} {value : β} {rawNext : β -> RawM δ} {plain : ArrayM γ}
    (ended : action = .ok value) (rest : Mirrors partsNext (rawNext value) plain host) :
    Mirrors partsNext (liftM action >>= rawNext) plain host := by
  subst ended
  exact rest

end Mirrors

theorem FileArray.raw_live (array : FileArray) : RawArray.live array.handle = array.live := by
  rw [live]
  cases array.handle <;> rfl

theorem FileArray.readByte_mirrors (array : FileArray) (place : Nat) (host : Host) :
    Mirrors id (liftM (RawArray.readByte array.handle place)) (array.readByte place) host := by
  have same : RawArray.readByte array.handle place = array.readByte place := by
    rw [RawArray.readByte, array.raw_live, FileArray.readByte]
  rw [same]
  exact Mirrors.array _

theorem FileArray.writeByte_mirrors (array : FileArray) (place : Nat) (value : UInt8)
    (host : Host) :
    Mirrors id (liftM (RawArray.writeByte array.handle place value)) (array.writeByte place value)
      host := by
  have same : RawArray.writeByte array.handle place value = array.writeByte place value := by
    rw [RawArray.writeByte, array.raw_live, FileArray.writeByte]
  rw [same]
  exact Mirrors.array _

theorem Mirrors.located (layout : Layout) (index : Nat) {host : Host} :
    Mirrors id (liftM (layout.raw.locate index)) (liftM (layout.locate index)) host := by
  apply Mirrors.decided
  rw [layout.run_raw_locate]
  cases layout.locate index <;> rfl

namespace MappedArray

theorem raw_live (array : MappedArray) : RawArray.live array.region = array.live := by
  rw [live]
  cases array.region <;> rfl

/-- What is live is the mapping that the array has. -/
theorem region_of_live {array : MappedArray} {region : Region} {host after : Host}
    (lives : runFrom (liftM array.live : ArrayM Region) host = (.ok region, after)) :
    array.region = some region ∧ after = host := by
  rw [runFrom_outcome, live] at lives
  cases kept : array.region <;> rw [kept] at lives <;> cases lives
  exact ⟨rfl, rfl⟩

variable {array : MappedArray} {region : Region}

/-- The bytes of an array in its mapping. -/
def front (array : MappedArray) (region : Region) (host : Host) : Bytes :=
  ((host.volume.content region.file).mappedFront region.length).take array.layout.byteLength

theorem length_front (live : array.region = some region) (host : Host) :
    (array.front region host).length = array.layout.byteLength := by
  have covered : array.layout.fileLength ≤ region.length := array.covered region live
  rw [front, List.length_take, Content.length_mappedFront]
  exact Nat.min_eq_left (Nat.le_of_succ_le covered)

theorem front_getD (live : array.region = some region) {index : Nat} {address : BitAddress}
    (located : array.layout.locate index = .ok address) (host : Host) :
    (array.front region host)[address.byte]?.getD 0 =
      (host.volume.content region.file).mappedByte address.byte := by
  have covered : array.layout.fileLength ≤ region.length := array.covered region live
  rw [front, Content.take_mappedFront_self _ (Nat.le_of_succ_le covered),
    Content.getElem?_mappedFront _ (array.layout.byte_lt_byteLength located)]

/-- The mapping has room for them. -/
theorem run_window (live : array.region = some region) (host : Host) :
    (RawArray.window array.layout.raw region).run.run host =
      .ok (.ok (array.front region host), host) := by
  have covered : array.layout.fileLength ≤ region.length := array.covered region live
  have inside : array.layout.byteLength ≤
      ((host.volume.content region.file).mappedFront region.length).length := by
    rw [Content.length_mappedFront]
    exact Nat.le_of_succ_le covered
  have sliced := Checked.slice_of_le (Nat.zero_le _) inside
  change (liftM (Checked.slice ((host.volume.content region.file).mappedFront region.length) 0
    array.layout.byteLength) : RawM Bytes).run.run host = _
  rw [sliced]
  rfl

/-- An array in a mapping first looks for its mapping, and then for its bytes in it. -/
theorem windowed {γ δ : Type} {parts : γ -> δ} {rawNext : Region -> Bytes -> RawM δ}
    {next : Region -> ArrayM γ} (array : MappedArray) (host : Host)
    (rest : forall region, array.region = some region ->
      Mirrors parts (rawNext region (array.front region host)) (next region) host) :
    Mirrors parts
      (do
        let region ← RawArray.live array.region
        rawNext region (← RawArray.window array.layout.raw region))
      (do next (← array.live)) host := by
  refine Mirrors.bind (Mirrors.outcome array.raw_live) fun region after lives => ?_
  rcases region_of_live lives with ⟨live, rfl⟩
  exact Mirrors.known (run_window live after) (rest region live)

end MappedArray

theorem FileArray.changeBit_mirrors (array : FileArray) (change : BitAddress -> UInt8 -> UInt8)
    (index : Nat) (host : Host) :
    Mirrors id (RawArray.changeFile array.layout.raw array.handle change index)
      (array.changeBit index change) host := by
  refine Mirrors.bind (Mirrors.located array.layout index) fun address after _ => ?_
  refine Mirrors.bind (array.readByte_mirrors address.byte after) fun byte after _ => ?_
  exact array.writeByte_mirrors address.byte (change address byte) after

theorem MappedArray.changeBit_mirrors (array : MappedArray)
    (change : BitAddress -> UInt8 -> UInt8) (index : Nat) (host : Host) :
    Mirrors id (RawArray.changeMapping array.layout.raw array.region change index)
      (array.changeBit index change) host := by
  refine array.windowed host fun region live => ?_
  have decided := Mirrors.run_decided
    (Layout.run_raw_change change (MappedArray.length_front live host) index) host
  cases located : array.layout.locate index with
  | error fault =>
      rw [located] at decided
      exact Mirrors.refused decided rfl
  | ok address =>
      have loaded := MappedArray.front_getD live located host
      simp only [located, Except.map, loaded] at decided
      exact Mirrors.known decided (Mirrors.system _)

theorem FileArray.clear_mirrors (array : FileArray) (host : Host) :
    Mirrors id (RawArray.clearFile array.layout.raw array.handle) array.clear host := by
  refine Mirrors.bind (Mirrors.outcome array.raw_live) fun handle after _ => ?_
  exact Mirrors.array _

theorem MappedArray.clear_mirrors (array : MappedArray) (host : Host) :
    Mirrors id (RawArray.clearMapping array.layout.raw array.region) array.clear host := by
  refine array.windowed host fun region live => ?_
  rw [MappedArray.length_front live]
  exact Mirrors.system _

namespace BitArray

variable {change : BitAddress -> UInt8 -> UInt8} {index : Nat} {host : Host}

theorem raw_layout (array : BitArray) : array.raw.layout = array.layout.raw := by
  cases array <;> rfl

/-- A merge looks at the lengths, then reads the operand, and absorbs what it has read. -/
theorem runFrom_merge_eq (array operand : BitArray) (kind : Merge) (host : Host) :
    runFrom (array.merge kind operand) host =
      runFrom (do
        array.layout.requireOperand operand.layout.byteLength
        array.absorb kind (← operand.snapshot) : ArrayM BitArray) host := by
  cases required : array.layout.requireOperand operand.layout.byteLength with
  | error fault =>
      rw [runFrom_merge_misfit host kind required]
      simp only [runFrom_bind, runFrom_outcome]
  | ok =>
      rcases shot : runFrom operand.snapshot host with ⟨fault | bytes, after⟩
      · rw [runFrom_merge_unread kind required shot]
        simp only [runFrom_bind, runFrom_outcome, shot]
      · rw [runFrom_merge_read kind required shot]
        simp only [runFrom_bind, runFrom_outcome, shot]

/-- Change one bit; what fails gives no array. -/
def changed (array : BitArray) (change : BitAddress -> UInt8 -> UInt8) (index : Nat) :
    ArrayM BitArray := do
  let (outcome, array) ← array.changeBit change index
  outcome
  return array

theorem runFrom_changed (array : BitArray) (change : BitAddress -> UInt8 -> UInt8) (index : Nat)
    (host : Host) : runFrom (array.changed change index) host =
      ((array.changeBit change index host).1.1.map fun () =>
        (array.changeBit change index host).1.2, (array.changeBit change index host).2) := by
  rcases ended : array.changeBit change index host with ⟨⟨outcome, next⟩, after⟩
  simp only [changed, runFrom_bind, runFrom_liftM, ended, runFrom_outcome, runFrom_pure]
  cases outcome <;> rfl

/-- A persistent array is given back as it was. -/
theorem runFrom_changed_of_run {array : BitArray} {action : ArrayM Unit}
    (runs : array.changeBit change index = do return (← action.run, array)) :
    runFrom (array.changed change index) host =
      runFrom (do action; return array) host := by
  rcases ended : runFrom action host with ⟨outcome, after⟩
  have changed : array.changeBit change index host = ((outcome, array), after) := by
    rw [runs]
    change ((((action.run host).1, array), (action.run host).2)) = _
    change (((runFrom action host).1, array), (runFrom action host).2) = _
    rw [ended]
  rw [runFrom_changed, changed, runFrom_bind, ended]
  cases outcome <;> rfl

/-- A snapshot is short enough for its positions to be words. -/
theorem shot_le (array : BitArray) (word : array.layout.capacity < 1 <<< 64) {bytes : Bytes}
    {after : Host} (shot : runFrom array.snapshot host = (.ok bytes, after)) :
    bytes.length ≤ 1 <<< 61 := by
  rw [length_of_snapshot (congrArg Prod.fst shot)]
  exact Layout.byteLength_le word

theorem snapshot_mirrors (array : BitArray) (host : Host) :
    Mirrors id array.raw.snapshot array.snapshot host := by
  cases array with
  | memory array => exact Mirrors.pure array.toBytes
  | file array =>
      refine Mirrors.bind (Mirrors.outcome array.raw_live) fun handle after _ => ?_
      exact Mirrors.array _
  | mapped array =>
      refine Mirrors.bind (Mirrors.outcome array.raw_live) fun region after lives => ?_
      rcases MappedArray.region_of_live lives with ⟨live, rfl⟩
      exact MappedArray.run_window live after

theorem getBit_mirrors (array : BitArray) (index : Nat) (host : Host) :
    Mirrors id (array.raw.getBit index) (array.getBit index) host := by
  cases array with
  | memory array =>
      have size : array.toBytes.length = array.layout.byteLength := array.size_eq
      refine Mirrors.decided ((Layout.run_raw_test size index).trans ?_)
      simp only [MemoryArray.getBit, MemoryArray.toBytes, Array.getElem?_toList]
      cases array.layout.locate index <;> rfl
  | file array =>
      refine Mirrors.bind (Mirrors.located array.layout index) fun address after _ => ?_
      exact Mirrors.bind (FileArray.readByte_mirrors array address.byte after)
        fun byte after _ => Mirrors.pure (address.test byte)
  | mapped array =>
      refine array.windowed host fun region live => ?_
      have tested := Layout.run_raw_test (MappedArray.length_front live host) index
      refine (Mirrors.run_decided tested host).trans ?_
      cases located : array.layout.locate index with
      | error fault => simp only [runFrom_bind, runFrom_outcome, Except.map]
      | ok address =>
          have loaded := MappedArray.front_getD live located host
          simp only [runFrom_bind, runFrom_outcome, Except.map, loaded, Region.load, Host.content,
            runFrom_liftM, runFrom_pure]
          rfl

theorem changed_mirrors (array : BitArray) (change : BitAddress -> UInt8 -> UInt8) (index : Nat)
    (host : Host) :
    Mirrors raw (array.raw.changed change index) (array.changed change index) host := by
  cases array with
  | memory array =>
      have size : array.toBytes.length = array.layout.byteLength := array.size_eq
      have decided := Mirrors.run_decided (Layout.run_raw_change change size index) host
      have changed : runFrom ((BitArray.memory array).changed change index) host =
          ((array.layout.locate index).map fun address =>
            .memory (array.modifyByte address.byte (change address)), host) := by
        rw [runFrom_changed]
        simp only [changeBit, MemoryArray.changeBit, pure_apply]
        cases array.layout.locate index <;> rfl
      cases located : array.layout.locate index with
      | error fault =>
          rw [located] at decided changed
          exact Mirrors.refused decided changed
      | ok address =>
          rw [located] at decided changed
          refine Mirrors.known decided (Mirrors.returns changed ?_)
          simp only [raw, MemoryArray.toBytes, MemoryArray.modifyByte, Array.toList_modify,
            List.modify_eq_set]
          rfl
  | file array =>
      refine Mirrors.congr (runFrom_changed_of_run rfl) ?_
      refine Mirrors.bind (FileArray.changeBit_mirrors array change index host) fun _ after _ => ?_
      exact Mirrors.pure (BitArray.file array)
  | mapped array =>
      refine Mirrors.congr (runFrom_changed_of_run rfl) ?_
      refine Mirrors.bind (MappedArray.changeBit_mirrors array change index host)
        fun _ after _ => ?_
      exact Mirrors.pure (BitArray.mapped array)

theorem setBitIfUnset_mirrors (array : BitArray) (index : Nat) (host : Host) :
    Mirrors (Prod.map id raw) (array.raw.setBitIfUnset index)
      (BitContainer.setBitIfUnset array index) host := by
  refine Mirrors.bind (array.getBit_mirrors index host) fun set after _ => ?_
  cases set with
  | true => exact Mirrors.pure (false, array)
  | false =>
      refine Mirrors.bind (array.changed_mirrors BitAddress.raise index after)
        fun next after _ => ?_
      exact Mirrors.pure (true, next)

theorem clear_mirrors (array : BitArray) (host : Host) :
    Mirrors raw array.raw.clear array.clear host := by
  cases array with
  | memory array =>
      have size : array.toBytes.length = array.layout.byteLength := array.size_eq
      have blank : raw (.memory array.clear) =
          { layout := array.layout.raw
            storage := .memory (Bytes.zeros array.toBytes.length) } := by
        rw [size, raw, MemoryArray.toBytes, MemoryArray.clear, Array.toList_replicate]
        rfl
      exact Mirrors.returns rfl blank
  | file array =>
      refine Mirrors.bind (array.clear_mirrors host) fun _ after _ => ?_
      exact Mirrors.pure (BitArray.file array)
  | mapped array =>
      refine Mirrors.bind (array.clear_mirrors host) fun _ after _ => ?_
      exact Mirrors.pure (BitArray.mapped array)

/-- Bytes are merged in without leaving the words, as far as all of their places are words. -/
theorem mergeFrom_mirrors (array : FileArray) (kind : Merge) (bytes : Bytes) (place : Nat)
    (host : Host) (words : place + bytes.length < 1 <<< 64) :
    Mirrors id (RawArray.mergeFrom array.handle kind place bytes)
      (array.mergeFrom kind place bytes) host := by
  induction bytes generalizing place host with
  | nil => exact Mirrors.pure ()
  | cons byte rest inductionHypothesis =>
      rw [List.length_cons] at words
      refine Mirrors.bind (array.readByte_mirrors place host) fun current after _ => ?_
      refine Mirrors.bind (array.writeByte_mirrors place (kind.combine current byte) after)
        fun _ after _ => ?_
      refine Mirrors.computed (Checked.add_of_lt (by omega)) ?_
      exact inductionHypothesis (place + 1) after (by omega)

theorem absorb_mirrors (array : BitArray) (kind : Merge) {bytes : Bytes}
    (size : bytes.length = array.layout.byteLength) (word : array.layout.capacity < 1 <<< 64)
    (host : Host) : Mirrors raw (array.raw.absorb kind bytes) (array.absorb kind bytes) host := by
  cases array with
  | memory array =>
      refine Mirrors.computed (RawArray.combine_of_eq kind (array.size_eq.trans size.symm)) ?_
      exact Mirrors.pure (BitArray.memory (array.combine kind bytes))
  | file array =>
      refine Mirrors.bind (Mirrors.system _) fun _ after _ => ?_
      have words : 0 + bytes.length < 1 <<< 64 := by
        have small := Layout.byteLength_le word
        omega
      refine Mirrors.bind (mergeFrom_mirrors array kind bytes 0 after words) fun _ after _ => ?_
      exact Mirrors.pure (BitArray.file array)
  | mapped array =>
      refine Mirrors.bind (Mirrors.system _) fun _ after _ => ?_
      refine array.windowed after fun region live => ?_
      have length := MappedArray.length_front live after
      refine Mirrors.computed (RawArray.combine_of_eq kind (length.trans size.symm)) ?_
      refine Mirrors.taken (runFrom_snapshot_mapped live after) ?_
      refine Mirrors.bind (Mirrors.system _) fun _ after _ => ?_
      exact Mirrors.pure (BitArray.mapped array)

theorem merge_mirrors (array operand : BitArray) (kind : Merge)
    (word : array.layout.capacity < 1 <<< 64) (host : Host) :
    Mirrors raw (array.raw.merge kind operand.raw) (array.merge kind operand) host := by
  have required : RawArray.requireOperand array.raw.layout operand.raw.layout.byteLength =
      array.layout.requireOperand operand.layout.byteLength := by
    rw [raw_layout, raw_layout]
    rfl
  refine Mirrors.congr (runFrom_merge_eq array operand kind host) ?_
  refine Mirrors.bind (Mirrors.outcome required) fun _ after fits => ?_
  refine Mirrors.bind (operand.snapshot_mirrors after) fun bytes last shot => ?_
  have same : operand.layout.byteLength = array.layout.byteLength :=
    (array.layout.requireOperand_eq_ok_iff _).mp (congrArg Prod.fst fits)
  have size : bytes.length = array.layout.byteLength :=
    (length_of_snapshot (congrArg Prod.fst shot)).trans same
  exact array.absorb_mirrors kind size word last

/-! ## Searches -/

theorem highest?_mirrors (array : BitArray) (word : array.layout.capacity < 1 <<< 64)
    (host : Host) : Mirrors id array.raw.highest? array.highest? host := by
  rw [highest?_eq]
  refine Mirrors.bind (array.snapshot_mirrors host) fun bytes after shot => ?_
  exact Mirrors.answers (Checked.highest?_eq (array.shot_le word shot))

theorem lowest?_mirrors (array : BitArray) (word : array.layout.capacity < 1 <<< 64)
    (host : Host) : Mirrors id array.raw.lowest? array.lowest? host := by
  rw [lowest?_eq]
  refine Mirrors.bind (array.snapshot_mirrors host) fun bytes after shot => ?_
  exact Mirrors.answers (Checked.lowest?_eq (array.shot_le word shot))

theorem count_mirrors (array : BitArray) (host : Host) :
    Mirrors id array.raw.count array.count host := by
  rw [count_eq]
  refine Mirrors.bind (array.snapshot_mirrors host) fun bytes after _ => ?_
  exact Mirrors.pure bytes.count

theorem last?_raw (array : BitArray) :
    RawArray.last? array.raw.layout = some (array.layout.capacity - 1) := by
  rw [raw_layout]
  exact if_neg (Nat.not_lt_of_le array.layout.capacity_pos)

theorem nextOfSnapshot?_mirrors (array : BitArray) (word : array.layout.capacity < 1 <<< 64)
    (first : Nat) (host : Host) :
    Mirrors id (array.raw.nextOfSnapshot? first) (BitContainer.next? array first) host := by
  have positive := array.layout.capacity_pos
  have small : array.layout.capacity - 1 < 1 <<< 64 := Nat.lt_of_le_of_lt (Nat.sub_le ..) word
  rw [RawArray.nextOfSnapshot?, last?_raw, BitContainer.next?]
  dsimp only [BitContainer.capacity]
  rcases Nat.lt_or_ge first array.layout.capacity with inside | beyond
  · rw [if_neg (by omega), if_neg (Nat.not_le_of_lt inside)]
    refine Mirrors.bind (array.snapshot_mirrors host) fun bytes after _ => ?_
    exact Mirrors.answers (Checked.next?_eq bytes first small)
  · rw [if_pos (by omega), if_pos beyond]
    exact Mirrors.pure none

theorem nextInPlace?_mirrors (array : BitArray) (word : array.layout.capacity < 1 <<< 64)
    (first : Nat) (host : Host) :
    Mirrors id (array.raw.nextInPlace? first)
      (do return (← array.snapshot).next? first array.layout.lastSearchable) host := by
  have small : array.layout.lastSearchable < 1 <<< 64 := Nat.lt_of_le_of_lt (Nat.sub_le ..) word
  refine Mirrors.bind (array.snapshot_mirrors host) fun bytes after _ => ?_
  rw [raw_layout]
  refine Mirrors.computed array.layout.raw_lastSearchable ?_
  exact Mirrors.answers (Checked.next?_eq bytes first small)

theorem next?_mirrors (array : BitArray) (word : array.layout.capacity < 1 <<< 64) (first : Nat)
    (host : Host) : Mirrors id (array.raw.next? first) (array.next? first) host := by
  cases array with
  | memory array => exact nextInPlace?_mirrors (.memory array) word first host
  | file array => exact nextOfSnapshot?_mirrors (.file array) word first host
  | mapped array => exact nextInPlace?_mirrors (.mapped array) word first host

theorem positions_mirrors (array : BitArray) (word : array.layout.capacity < 1 <<< 64)
    (host : Host) : Mirrors id array.raw.positions (BitContainer.positions array) host := by
  have positive := array.layout.capacity_pos
  have small : array.layout.capacity - 1 + 1 < 1 <<< 64 := by omega
  rw [RawArray.positions, last?_raw, BitContainer.positions]
  dsimp only [BitContainer.capacity]
  rw [if_neg (Nat.ne_of_gt positive)]
  refine Mirrors.bind (array.snapshot_mirrors host) fun bytes after _ => ?_
  rw [← Bytes.visits_eq_positions]
  exact Mirrors.answers (Checked.visits_eq bytes 0 small)

theorem flush_mirrors (array : BitArray) (host : Host) :
    Mirrors id (liftM array.raw.flush) array.flush host := by
  have same : array.raw.flush = array.flush := by
    cases array with
    | memory array => rfl
    | file array => exact congrArg (fun lives : Except Fault Handle => (do
        let handle ← lives
        FileArray.syncFile array.path handle : ArrayM Unit)) array.raw_live
    | mapped array => exact congrArg (fun lives : Except Fault Region => (do
        let region ← lives
        MappedArray.flushRegion array.path region : ArrayM Unit)) array.raw_live
  rw [same]
  exact Mirrors.array array.flush

/-- Closing computes nothing, so that parts are closed as arrays are. -/
theorem raw_close (array : BitArray) (host : Host) :
    array.raw.close host = (Prod.map id raw (array.close host).1, (array.close host).2) := by
  cases array with
  | memory array => rfl
  | file array =>
      rcases array with ⟨layout, _ | handle, path, mode⟩ <;> rfl
  | mapped array =>
      rcases array with ⟨layout, _ | region, path, covered⟩ <;> rfl

/-! ## Steps -/

theorem perform_mirrors (array : BitArray) (word : array.layout.capacity < 1 <<< 64)
    (operation : Operation BitArray) (host : Host) :
    Mirrors (Prod.map id raw) (array.raw.perform (operation.resolve (m := Id) raw))
      (array.perform operation) host := by
  cases operation with
  | get index =>
      refine Mirrors.bind (array.getBit_mirrors index host) fun value after _ => ?_
      exact Mirrors.pure (Reply.flag value, array)
  | raise index =>
      refine Mirrors.bind (array.changed_mirrors BitAddress.raise index host) fun next after _ => ?_
      exact Mirrors.pure (Reply.flag true, next)
  | lower index =>
      refine Mirrors.bind (array.changed_mirrors BitAddress.lower index host) fun next after _ => ?_
      exact Mirrors.pure (Reply.done, next)
  | raiseIfUnset index =>
      refine Mirrors.bind (array.setBitIfUnset_mirrors index host) fun pair after _ => ?_
      exact Mirrors.pure (Reply.flag pair.1, pair.2)
  | clear =>
      refine Mirrors.bind (array.clear_mirrors host) fun next after _ => ?_
      exact Mirrors.pure (Reply.done, next)
  | merge kind operand =>
      refine Mirrors.bind (array.merge_mirrors operand kind word host) fun next after _ => ?_
      exact Mirrors.pure (Reply.done, next)
  | snapshot =>
      refine Mirrors.bind (array.snapshot_mirrors host) fun bytes after _ => ?_
      exact Mirrors.pure (Reply.bytes bytes, array)
  | highest =>
      refine Mirrors.bind (array.highest?_mirrors word host) fun found after _ => ?_
      exact Mirrors.pure (Reply.position found, array)
  | lowest =>
      refine Mirrors.bind (array.lowest?_mirrors word host) fun found after _ => ?_
      exact Mirrors.pure (Reply.position found, array)
  | next first =>
      refine Mirrors.bind (array.next?_mirrors word first host) fun found after _ => ?_
      exact Mirrors.pure (Reply.position found, array)
  | count =>
      refine Mirrors.bind (array.count_mirrors host) fun value after _ => ?_
      exact Mirrors.pure (Reply.number value, array)
  | positions =>
      refine Mirrors.bind (array.positions_mirrors word host) fun found after _ => ?_
      exact Mirrors.pure (Reply.positions found, array)
  | flush =>
      refine Mirrors.bind (array.flush_mirrors host) fun _ after _ => ?_
      exact Mirrors.pure (Reply.done, array)

/-- A step is not stopped, and is the step of the array. -/
theorem run_raw_step (array : BitArray) (word : array.layout.capacity < 1 <<< 64)
    (operation : Operation BitArray) (host : Host) :
    (array.raw.step (operation.resolve (m := Id) raw)).run host =
      .ok (Prod.map id raw (array.step operation host).1, (array.step operation host).2) := by
  have mirrors := array.perform_mirrors word operation host
  rw [Mirrors] at mirrors
  rw [RawArray.step, StateT.run_bind, mirrors, Checked.ok_bind]
  rcases performed : runFrom (array.perform operation) host with ⟨fault | ⟨reply, next⟩, after⟩
  · rw [step_of_error performed]
    rfl
  · rw [step_of_ok performed]
    rfl

end BitArray

end BitStore
