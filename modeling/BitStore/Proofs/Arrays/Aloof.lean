import BitStore.Proofs.Arrays.Meaning
import BitStore.Proofs.Arrays.Preparing
import BitStore.Proofs.Storage.Aloof

namespace BitStore

/-!
# Arrays that do not ask for the platform

All that is done with bits is aloof, in every storage, also in a mapping that is open: its
bytes are those of a file.  An array in memory or in a file has nothing to do with the
platform at all, from its opening to its end.  An array in a mapping has at three points:
when it is opened, when it is written back, and when it is given up.
-/

open Host

/-- A file is made ready in the same way whether it is to be mapped or not. -/
theorem Host.aloof_prepare (path : String) (capacity : Nat) (mode : WriteMode) (create : Bool) :
    Aloof (runFrom (prepare path capacity mode create)) := by
  refine .bind (aloof_outcome _) fun layout => ?_
  refine .bind ((Handle.aloof_openAt path mode create).within _) fun handle => ?_
  exact .bind ((handle.aloof_ensureLength _).within _) fun _ => aloof_pure _

/-! ## Arrays in a file -/

namespace FileArray

variable {ω : Type} [BitContainer ω] (array : FileArray)

theorem aloof_openAt (path : String) (capacity : Nat) (mode : WriteMode) :
    Aloof (runFrom (openAt path capacity mode)) := by
  refine aloof_get (fun _ _ _ => rfl) fun host => ?_
  refine .ite ?_ (aloof_throw _)
  refine .bind (aloof_outcome _) fun layout => ?_
  refine .bind ((Handle.aloof_openAt path mode false).within _) fun handle => ?_
  refine .bind ((handle.aloof_ensureLength _).within _) fun length => ?_
  exact .bind (.liftM (aloof_record _)) fun _ => aloof_pure _

theorem aloof_readByte (index : Nat) : Aloof (runFrom (array.readByte index)) :=
  .bind (aloof_outcome _) fun handle => (handle.aloof_readByte index).within _

theorem aloof_writeByte (index : Nat) (value : UInt8) :
    Aloof (runFrom (array.writeByte index value)) :=
  .bind (aloof_outcome _) fun handle => (handle.aloof_writeByte index value).within _

theorem aloof_getBit (index : Nat) : Aloof (runFrom (array.getBit index)) :=
  .bind (aloof_outcome _) fun _ => .bind (array.aloof_readByte _) fun _ => aloof_pure _

theorem aloof_changeBit (index : Nat) (change : BitAddress -> UInt8 -> UInt8) :
    Aloof (runFrom (array.changeBit index change)) :=
  .bind (aloof_outcome _) fun _ =>
    .bind (array.aloof_readByte _) fun _ => array.aloof_writeByte _ _

theorem aloof_clear : Aloof (runFrom array.clear) :=
  .bind (aloof_outcome _) fun handle => (handle.aloof_write _ _).within _

theorem aloof_snapshot : Aloof (runFrom array.snapshot) :=
  .bind (aloof_outcome _) fun handle => (handle.aloof_read _ _).within _

theorem aloof_mergeFrom (kind : Merge) (bytes : Bytes) (index : Nat) :
    Aloof (runFrom (array.mergeFrom kind index bytes)) := by
  induction bytes generalizing index with
  | nil => exact aloof_pure _
  | cons byte rest inductionHypothesis =>
      refine .bind (array.aloof_readByte index) fun current => ?_
      exact .bind (array.aloof_writeByte _ _) fun _ => inductionHypothesis (index + 1)

theorem aloof_merge (kind : Merge) {operand : ω}
    (read : Aloof (runFrom (BitContainer.snapshot operand))) :
    Aloof (runFrom (array.merge kind operand)) := by
  refine .bind (aloof_outcome _) fun _ => .bind read fun bytes => ?_
  exact .bind (.liftM (aloof_record _)) fun _ => array.aloof_mergeFrom kind bytes 0

theorem aloof_flush : Aloof (runFrom array.flush) :=
  .bind (aloof_outcome _) fun handle => handle.aloof_sync.within _

theorem aloof_finish (path : String) (mode : WriteMode) (handle : Handle) :
    Aloof (runFrom (finish path mode handle)) := by
  cases mode with
  | durable => exact .liftM (aloof_record _)
  | buffered => exact .bind (handle.aloof_sync.within _) fun _ => .liftM (aloof_record _)

theorem aloof_close : Aloof array.close := by
  unfold close
  cases array.handle with
  | none => exact fun _ _ _ => rfl
  | some handle => exact (aloof_finish array.path array.mode handle).andThen fun _ _ _ _ => rfl

end FileArray

/-! ## Arrays in a mapping -/

namespace MappedArray

variable {ω : Type} [BitContainer ω] (array : MappedArray)

theorem aloof_getBit (index : Nat) : Aloof (runFrom (array.getBit index)) := by
  refine .bind (aloof_outcome _) fun region => .bind (aloof_outcome _) fun address => ?_
  exact .bind (.liftM (region.aloof_load _)) fun _ => aloof_pure _

theorem aloof_changeBit (index : Nat) (change : BitAddress -> UInt8 -> UInt8) :
    Aloof (runFrom (array.changeBit index change)) := by
  refine .bind (aloof_outcome _) fun region => .bind (aloof_outcome _) fun address => ?_
  exact .bind (.liftM (region.aloof_load _)) fun _ => .liftM (region.aloof_store _ _)

theorem aloof_snapshot : Aloof (runFrom array.snapshot) :=
  .bind (aloof_outcome _) fun region => .bind (.liftM region.aloof_view) fun _ => aloof_pure _

theorem aloof_clear : Aloof (runFrom array.clear) :=
  .bind (aloof_outcome _) fun region => .liftM (region.aloof_store _ _)

theorem aloof_merge (kind : Merge) {operand : ω}
    (read : Aloof (runFrom (BitContainer.snapshot operand))) :
    Aloof (runFrom (array.merge kind operand)) := by
  refine .bind (aloof_outcome _) fun _ => .bind read fun bytes => ?_
  refine .bind (.liftM (aloof_record _)) fun _ => .bind (aloof_outcome _) fun region => ?_
  exact .bind array.aloof_snapshot fun _ => .liftM (region.aloof_store _ _)

end MappedArray

/-! ## Arrays over any storage -/

namespace BitArray

variable {ω : Type} [BitContainer ω] (array : BitArray)

theorem aloof_getBit (index : Nat) : Aloof (runFrom (array.getBit index)) := by
  cases array with
  | memory array => exact aloof_outcome _
  | file array => exact array.aloof_getBit index
  | mapped array => exact array.aloof_getBit index

theorem aloof_changeBit (change : BitAddress -> UInt8 -> UInt8) (index : Nat) :
    Aloof (array.changeBit change index) := by
  cases array with
  | memory array => exact fun _ _ _ => rfl
  | file array => exact .andThen (array.aloof_changeBit index change) fun _ _ _ _ => rfl
  | mapped array => exact .andThen (array.aloof_changeBit index change) fun _ _ _ _ => rfl

theorem aloof_setBit (index : Nat) : Aloof (runFrom (array.setBit index)) :=
  .bind (.liftM (array.aloof_changeBit _ index)) fun _ => .bind (aloof_outcome _) fun _ =>
    aloof_pure _

theorem aloof_clearBit (index : Nat) : Aloof (runFrom (array.clearBit index)) :=
  .bind (.liftM (array.aloof_changeBit _ index)) fun _ => .bind (aloof_outcome _) fun _ =>
    aloof_pure _

theorem aloof_clear : Aloof (runFrom array.clear) := by
  cases array with
  | memory array => exact aloof_pure _
  | file array => exact .bind array.aloof_clear fun _ => aloof_pure _
  | mapped array => exact .bind array.aloof_clear fun _ => aloof_pure _

theorem aloof_snapshot : Aloof (runFrom array.snapshot) := by
  cases array with
  | memory array => exact aloof_pure _
  | file array => exact array.aloof_snapshot
  | mapped array => exact array.aloof_snapshot

/-- A merge is as aloof as the reading of its operand. -/
theorem aloof_merge (kind : Merge) {operand : ω}
    (read : Aloof (runFrom (BitContainer.snapshot operand))) :
    Aloof (runFrom (array.merge kind operand)) := by
  cases array with
  | memory array =>
      refine .bind (.bind (aloof_outcome _) fun _ => .bind read fun bytes => ?_) fun _ => ?_
      · exact aloof_pure _
      · exact aloof_pure _
  | file array => exact .bind (array.aloof_merge kind read) fun _ => aloof_pure _
  | mapped array => exact .bind (array.aloof_merge kind read) fun _ => aloof_pure _

theorem aloof_setBitIfUnset (index : Nat) :
    Aloof (runFrom (BitContainer.setBitIfUnset array index)) :=
  .bind (array.aloof_getBit index) fun _ => .ite (aloof_pure _)
    (.bind (array.aloof_setBit index) fun _ => aloof_pure _)

theorem aloof_highest? : Aloof (runFrom array.highest?) := by
  rw [highest?_eq]
  exact .bind array.aloof_snapshot fun _ => aloof_pure _

theorem aloof_lowest? : Aloof (runFrom array.lowest?) := by
  rw [lowest?_eq]
  exact .bind array.aloof_snapshot fun _ => aloof_pure _

theorem aloof_next? (first : Nat) : Aloof (runFrom (array.next? first)) := by
  cases array with
  | memory array => exact aloof_pure _
  | file array => exact .ite (aloof_pure _) (.bind array.aloof_snapshot fun _ => aloof_pure _)
  | mapped array => exact .bind array.aloof_snapshot fun _ => aloof_pure _

theorem aloof_count : Aloof (runFrom array.count) := by
  rw [count_eq]
  exact .bind array.aloof_snapshot fun _ => aloof_pure _

theorem aloof_positions : Aloof (runFrom (BitContainer.positions array)) :=
  .ite (aloof_pure _) (.bind array.aloof_snapshot fun _ => aloof_pure _)

/-- Whether the bits of an array are those of a mapping. -/
def isMapped : BitArray -> Bool
  | .mapped _ => true
  | _ => false

variable {array}

theorem aloof_flush (unmapped : array.isMapped = false) : Aloof (runFrom array.flush) := by
  cases array with
  | memory array => exact aloof_pure _
  | file array => exact array.aloof_flush
  | mapped array => contradiction

theorem aloof_close (unmapped : array.isMapped = false) : Aloof array.close := by
  cases array with
  | memory array => exact fun _ _ _ => rfl
  | file array => exact array.aloof_close.andThen fun _ _ _ _ => rfl
  | mapped array => contradiction

theorem aloof_drop (unmapped : array.isMapped = false) : Aloof array.drop := by
  cases array with
  | memory array | file array => exact fun _ _ _ => rfl
  | mapped array => contradiction

/-- Writing a mapping back asks for the platform, but changes neither it nor the ledger. -/
theorem keeps_flush (array : BitArray) (host : Host) :
    host.Keeps (runFrom array.flush host).2 := by
  cases array with
  | memory array => exact Keeps.refl host
  | file array => exact array.aloof_flush.keeps host
  | mapped array =>
      simp only [flush, MappedArray.flush, runFrom_bind, runFrom_outcome]
      cases array.live with
      | error fault => exact Keeps.refl host
      | ok region => exact region.keeps_flush host

/-- Every operation is as aloof as the reading of its operand, but for the writing back
of a mapping. -/
theorem aloof_perform {operation : Operation ω}
    (read : forall operand, operation.operand? = some operand ->
      Aloof (runFrom (BitContainer.snapshot operand)))
    (unmapped : operation = .flush -> array.isMapped = false) :
    Aloof (runFrom (array.perform operation)) := by
  cases operation with
  | get index => exact .bind (array.aloof_getBit index) fun _ => aloof_pure _
  | raise index => exact .bind (array.aloof_setBit index) fun _ => aloof_pure _
  | lower index => exact .bind (array.aloof_clearBit index) fun _ => aloof_pure _
  | raiseIfUnset index => exact .bind (array.aloof_setBitIfUnset index) fun _ => aloof_pure _
  | clear => exact .bind array.aloof_clear fun _ => aloof_pure _
  | merge kind operand =>
      exact .bind (array.aloof_merge kind (read operand rfl)) fun _ => aloof_pure _
  | snapshot => exact .bind array.aloof_snapshot fun _ => aloof_pure _
  | highest => exact .bind array.aloof_highest? fun _ => aloof_pure _
  | lowest => exact .bind array.aloof_lowest? fun _ => aloof_pure _
  | next first => exact .bind (array.aloof_next? first) fun _ => aloof_pure _
  | count => exact .bind array.aloof_count fun _ => aloof_pure _
  | positions => exact .bind array.aloof_positions fun _ => aloof_pure _
  | flush => exact .bind (aloof_flush (unmapped rfl)) fun _ => aloof_pure _

/-- A step leaves the host as performing the operation does. -/
theorem step_state (array : BitArray) (operation : Operation ω) (host : Host) :
    (array.step operation host).2 = (runFrom (array.perform operation) host).2 := by
  rcases performed : runFrom (array.perform operation) host with ⟨_ | ⟨reply, next⟩, after⟩
  · rw [step_of_error performed]
  · rw [step_of_ok performed]

theorem aloof_step {operation : Operation ω}
    (read : forall operand, operation.operand? = some operand ->
      Aloof (runFrom (BitContainer.snapshot operand)))
    (unmapped : operation = .flush -> array.isMapped = false) :
    Aloof (array.step operation) := by
  have performed : Aloof (array.perform operation).run := aloof_perform read unmapped
  refine performed.andThen fun outcome => ?_
  cases outcome with
  | ok | error => exact fun _ _ _ => rfl

/-- Writing a mapping back asks for the platform, but no operation changes it or the ledger. -/
theorem keeps_step (array : BitArray) (operation : Operation BitArray) (host : Host) :
    host.Keeps (array.step operation host).2 := by
  by_cases back : operation = .flush
  · rw [step_state, back]
    have flushed : (runFrom (array.perform (ω := BitArray) .flush) host).2 =
        (runFrom array.flush host).2 := runFrom_return_state _ _ host
    rw [flushed]
    exact array.keeps_flush host
  · have read (operand : BitArray) (_ : operation.operand? = some operand) :
        Aloof (runFrom (BitContainer.snapshot operand)) := operand.aloof_snapshot
    exact (aloof_step read fun same => absurd same back).keeps host

/-- A sweep is aloof, by induction on the changes. -/
theorem aloof_sweep (change : BitAddress -> UInt8 -> UInt8) (stride : Nat) (array : BitArray)
    (index done count : Nat) : Aloof (array.sweep change stride index done count) := by
  induction count generalizing array index done with
  | zero => exact fun _ _ _ => rfl
  | succ count inductionHypothesis =>
      rw [sweep]
      refine .andThen (array.aloof_changeBit change index) fun result => ?_
      rcases result with ⟨outcome, next⟩
      cases outcome with
      | ok => exact inductionHypothesis next (index + stride) (done + 1)
      | error fault => exact fun _ _ _ => rfl

end BitArray

/-- Options that do not name the mapping. -/
theorem Options.aloof_openAt (options : Options) (path : Option String)
    (unmapped : options.backing ≠ .mappedFile) : Aloof (runFrom (options.openAt path)) := by
  unfold openAt
  cases backing : options.backing with
  | memory => exact .bind (aloof_outcome _) fun _ => aloof_pure _
  | file =>
      refine .bind (aloof_outcome _) fun path => ?_
      exact .bind (FileArray.aloof_openAt path _ _) fun _ => aloof_pure _
  | mappedFile => exact absurd backing unmapped

end BitStore
