import BitStore.Proofs.Arrays.Meaning

namespace BitStore

/-!
# Use after close

A closed array has nothing to work on, and an operation that comes to need its
storage is an invalid operation, `Fault.closed`.  Not every operation comes that far.
An array in a file looks at an index, and at where a search begins, before it looks
for its file; a merge looks at the operand first, in a file as in a mapping.
`lastWord` is the answer in every case, and `Evades` says which calls are answered
otherwise than as invalid operations.

The operands are of any type that offers a snapshot.  One that promises bytes and
then hands out none leaves a file nothing to do, so that even the merge succeeds.
-/

namespace BitArray

variable {ω : Type} [BitContainer ω]

/-! ## What a closed array answers -/

/-- Whether the array is kept in a file that is not mapped. -/
def inFile : BitArray -> Bool
  | .file _ => true
  | _ => false

/-- Why an operation on one bit fails. -/
def indexFault (array : BitArray) (index : Nat) : Fault :=
  if array.inFile ∧ array.layout.capacity < index
  then .indexOutOfRange index array.layout.capacity else .closed

/-- What a closed array answers; `reading` is what the operand hands out. -/
def lastWord (array : BitArray) (reading : ω -> Except Fault Bytes) :
    Operation ω -> Except Fault Reply
  | .get index | .raise index | .lower index | .raiseIfUnset index =>
      .error (array.indexFault index)
  | .next first =>
      if array.inFile ∧ array.layout.capacity ≤ first
      then .ok (.position none) else .error .closed
  | .merge _ operand =>
      match array.layout.requireOperand (BitContainer.byteLength operand) with
      | .error fault => .error fault
      | .ok () =>
          match reading operand with
          | .error fault => .error fault
          | .ok bytes => if array.inFile ∧ bytes = [] then .ok .done else .error .closed
  | _ => .error .closed

/-- Whether the operation was refused as an invalid one. -/
def Invalid (reply : Except Fault Reply) : Prop :=
  Exists fun name => reply = .error (.invalidOperation name)

/-- The calls on a closed array that are answered before it is found to be closed. -/
def Evades (array : BitArray) (reading : ω -> Except Fault Bytes) : Operation ω -> Prop
  | .get index | .raise index | .lower index | .raiseIfUnset index =>
      array.inFile ∧ array.layout.capacity < index
  | .next first => array.inFile ∧ array.layout.capacity ≤ first
  | .merge _ operand =>
      BitContainer.byteLength operand ≠ array.layout.byteLength ∨
        (Exists fun fault => reading operand = .error fault ∧ ¬ Invalid (.error fault)) ∨
        array.inFile ∧ reading operand = .ok []
  | _ => False

theorem invalid_closed : Invalid (.error .closed) :=
  ⟨_, rfl⟩

theorem not_invalid_ok (reply : Reply) : ¬ Invalid (.ok reply) := by
  rintro ⟨name, answered⟩
  contradiction

theorem not_invalid_error {fault : Fault} (other : forall name, fault ≠ .invalidOperation name) :
    ¬ Invalid (.error fault) := by
  rintro ⟨name, answered⟩
  exact other name (Except.error.inj answered)

theorem invalid_lastWord_iff (array : BitArray) (reading : ω -> Except Fault Bytes)
    (operation : Operation ω) :
    Invalid (array.lastWord reading operation) ↔ ¬ array.Evades reading operation := by
  cases operation with
  | get index | raise index | lower index | raiseIfUnset index =>
      simp only [lastWord, indexFault, Evades]
      split
      next evades =>
        refine iff_of_false (not_invalid_error ?_) (not_not_intro evades)
        intro name
        simp only [ne_eq, reduceCtorEq, not_false_eq_true]
      next meets => exact iff_of_true invalid_closed meets
  | next first =>
      simp only [lastWord, Evades]
      split
      next evades => exact iff_of_false (not_invalid_ok _) (not_not_intro evades)
      next meets => exact iff_of_true invalid_closed meets
  | merge kind operand =>
      simp only [lastWord, Evades]
      by_cases fits : BitContainer.byteLength operand = array.layout.byteLength
      · rw [(array.layout.requireOperand_eq_ok_iff _).mpr fits]
        cases read : reading operand with
        | error fault =>
            simp only [fits, Except.error.injEq, exists_eq_left', not_true_eq_false, ne_eq,
              reduceCtorEq, and_false, false_or, or_false, Classical.not_not]
        | ok bytes =>
            simp only [fits, reduceCtorEq, false_and, exists_false, not_true_eq_false, ne_eq,
              false_or, Except.ok.injEq]
            split
            next evades => exact iff_of_false (not_invalid_ok _) (not_not_intro evades)
            next meets => exact iff_of_true invalid_closed meets
      · rw [Layout.requireOperand, if_neg fits]
        refine iff_of_false (not_invalid_error ?_) (not_not_intro (.inl fits))
        intro name
        simp only [ne_eq, reduceCtorEq, not_false_eq_true]
  | _ => exact iff_of_true invalid_closed not_false

/-! ## Single calls -/

/-- An array whose storage was given up. -/
inductive Closed : BitArray -> Prop where
  | file {array : FileArray} (gone : array.handle = none) : Closed (.file array)
  | mapped {array : MappedArray} (gone : array.region = none) : Closed (.mapped array)

theorem closed_of_isClosed {array : BitArray} (closed : array.isClosed = true) :
    array.Closed := by
  cases array with
  | memory array => contradiction
  | file array => exact .file (Option.isNone_iff_eq_none.mp closed)
  | mapped array => exact .mapped (Option.isNone_iff_eq_none.mp closed)

variable {array : BitArray} {host after : Host}

/-- A closed file has no bytes. -/
theorem runFrom_readByte_gone {array : FileArray} (gone : array.handle = none) (place : Nat)
    (host : Host) : runFrom (array.readByte place) host = (.error .closed, host) := by
  simp only [FileArray.readByte, FileArray.live, gone, runFrom_bind, runFrom_outcome]

/-- An array in a file locates the index before it looks for the file. -/
theorem indexFault_file (array : FileArray) (index : Nat) :
    (BitArray.file array).indexFault index =
      match array.layout.locate index with
      | .error fault => fault
      | .ok _ => .closed := by
  rcases Nat.lt_or_ge array.layout.capacity index with outside | inside
  · rw [array.layout.locate_of_gt outside]
    exact if_pos ⟨rfl, outside⟩
  · rw [array.layout.locate_of_le inside]
    exact if_neg fun beyond => Nat.not_lt_of_le inside beyond.2

theorem Closed.runFrom_getBit (closed : array.Closed) (index : Nat) (host : Host) :
    runFrom (array.getBit index) host = (.error (array.indexFault index), host) := by
  cases closed with
  | @file array gone =>
      rw [indexFault_file]
      cases located : array.layout.locate index with
      | error fault => exact FileArray.runFrom_getBit_refused located host
      | ok address =>
          exact FileArray.runFrom_getBit_unread located
            (runFrom_readByte_gone gone address.byte host)
  | mapped gone =>
      simp only [getBit, MappedArray.getBit, MappedArray.live, gone, runFrom_bind,
        runFrom_outcome, indexFault, inFile, Bool.false_eq_true, false_and, if_false]

theorem Closed.changeBit (closed : array.Closed) (change : BitAddress -> UInt8 -> UInt8)
    (index : Nat) (host : Host) :
    array.changeBit change index host = ((.error (array.indexFault index), array), host) := by
  cases closed with
  | @file array gone =>
      rw [changeBit_file, indexFault_file]
      cases located : array.layout.locate index with
      | error fault => rw [FileArray.runFrom_changeBit_refused located]
      | ok address =>
          rw [FileArray.runFrom_changeBit_unread located
            (runFrom_readByte_gone gone address.byte host)]
  | mapped gone =>
      rw [changeBit_mapped]
      simp only [MappedArray.changeBit, MappedArray.live, gone, runFrom_bind,
        runFrom_outcome, indexFault, inFile, Bool.false_eq_true, false_and, if_false]

theorem Closed.runFrom_snapshot (closed : array.Closed) (host : Host) :
    runFrom array.snapshot host = (.error .closed, host) := by
  cases closed with
  | file gone =>
      simp only [snapshot, FileArray.snapshot, FileArray.live, gone, runFrom_bind,
        runFrom_outcome]
  | mapped gone =>
      simp only [snapshot, MappedArray.snapshot, MappedArray.live, gone, runFrom_bind,
        runFrom_outcome]

theorem Closed.runFrom_clear (closed : array.Closed) (host : Host) :
    runFrom array.clear host = (.error .closed, host) := by
  cases closed with
  | file gone =>
      simp only [clear, FileArray.clear, FileArray.live, gone, runFrom_bind, runFrom_outcome]
  | mapped gone =>
      simp only [clear, MappedArray.clear, MappedArray.live, gone, runFrom_bind, runFrom_outcome]

theorem Closed.runFrom_flush (closed : array.Closed) (host : Host) :
    runFrom array.flush host = (.error .closed, host) := by
  cases closed with
  | file gone =>
      simp only [flush, FileArray.flush, FileArray.live, gone, runFrom_bind, runFrom_outcome]
  | mapped gone =>
      simp only [flush, MappedArray.flush, MappedArray.live, gone, runFrom_bind, runFrom_outcome]

/-- Closing once more does nothing. -/
theorem Closed.close_apply (closed : array.Closed) (host : Host) :
    array.close host = ((.ok (), array), host) := by
  cases closed with
  | file gone => simp only [close, FileArray.close, gone, bind_apply, pure_apply]
  | mapped gone => simp only [close, MappedArray.close, gone, bind_apply, pure_apply]

/-- A search from the capacity on needs no byte of a file, but one of a mapping. -/
theorem Closed.runFrom_next (closed : array.Closed) (first : Nat) (host : Host) :
    runFrom (array.next? first) host =
      (if array.inFile ∧ array.layout.capacity ≤ first then .ok none else .error .closed,
        host) := by
  have shot := closed.runFrom_snapshot host
  cases closed with
  | file gone =>
      simp only [snapshot] at shot
      simp only [next?, BitContainer.next?, BitContainer.snapshot, BitContainer.capacity,
        runFrom_ite, runFrom_pure, runFrom_bind, shot, inFile, layout, true_and]
      split <;> rfl
  | mapped gone =>
      simp only [snapshot] at shot
      simp only [next?, MappedArray.next?, runFrom_bind, shot, inFile, Bool.false_eq_true,
        false_and, if_false]

/-- The operand was handed out, and now its bytes have to go somewhere. -/
theorem Closed.runFrom_merge (closed : array.Closed) (merge : Merge) {operand : ω}
    {bytes : Bytes}
    (fits : array.layout.requireOperand (BitContainer.byteLength operand) = .ok ())
    (read : runFrom (BitContainer.snapshot operand) host = (.ok bytes, after)) :
    Exists fun last =>
      runFrom (array.merge merge operand) host =
        (if array.inFile ∧ bytes = [] then .ok array else .error .closed, last) ∧
      after.RecordsOnly last := by
  rw [runFrom_merge_read merge fits read]
  cases closed with
  | @file array gone =>
      refine ⟨_, ?_, Host.RecordsOnly.recorded after (.mergingFile merge array.path)⟩
      simp only [absorb, runFrom_bind, runFrom_liftM, Host.record_apply, inFile, true_and]
      cases bytes with
      | nil => rfl
      | cons byte rest =>
          simp only [FileArray.mergeFrom, FileArray.readByte, FileArray.live, gone,
            runFrom_bind, runFrom_outcome, reduceCtorEq, if_false]
  | @mapped array gone =>
      refine ⟨_, ?_, Host.RecordsOnly.recorded after (.mergingMapping merge array.path)⟩
      simp only [absorb, MappedArray.live, gone, runFrom_bind, runFrom_outcome, runFrom_liftM,
        Host.record_apply, inFile, Bool.false_eq_true, false_and, if_false]

/-! ## Steps -/

/-- What an operand hands out; it may be of a type of its own. -/
def handsOut (host : Host) (operand : ω) : Except Fault Bytes :=
  (runFrom (BitContainer.snapshot operand) host).1

/-- The operand is looked at first, and may change the host while it is read. -/
theorem Closed.step_merge (closed : array.Closed) (kind : Merge) (operand : ω) (host : Host) :
    Exists fun after =>
      array.step (.merge kind operand) host =
        ((array.lastWord (handsOut host) (.merge kind operand), array), after) ∧
      ((forall other, (Operation.merge kind operand).operand? = some other ->
          (runFrom (BitContainer.snapshot other) host).2 = host) ->
        host.RecordsOnly after) := by
  have unchanged := Host.RecordsOnly.refl host
  simp only [lastWord, handsOut]
  cases required : array.layout.requireOperand (BitContainer.byteLength operand) with
  | error fault =>
      refine ⟨host, step_of_error ?_, fun _ => unchanged⟩
      simp only [perform, runFrom_bind, runFrom_merge_misfit host kind required]
  | ok =>
      rcases handed : runFrom (BitContainer.snapshot operand) host with ⟨outcome, after⟩
      cases outcome with
      | error fault =>
          refine ⟨after, step_of_error ?_, ?_⟩
          · simp only [perform, runFrom_bind, runFrom_merge_unread kind required handed]
          · intro same
            rw [← same operand rfl, handed]
            exact Host.RecordsOnly.refl after
      | ok bytes =>
          rcases closed.runFrom_merge kind required handed with ⟨last, merged, changes⟩
          refine ⟨last, ?_, ?_⟩
          · dsimp only
            by_cases idle : array.inFile ∧ bytes = []
            · rw [if_pos idle] at merged ⊢
              apply step_of_ok
              simp only [perform, runFrom_bind, merged, runFrom_pure]
            · rw [if_neg idle] at merged ⊢
              apply step_of_error
              simp only [perform, runFrom_bind, merged]
          · intro same
            rw [← same operand rfl, handed]
            exact changes

/-- A step of a closed array answers its last word and leaves the array as it was.
Nothing but a record is added, if handing out the operand changes nothing. -/
theorem Closed.step_apply (closed : array.Closed) (operation : Operation ω) (host : Host) :
    Exists fun after =>
      array.step operation host = ((array.lastWord (handsOut host) operation, array), after) ∧
      ((forall operand, operation.operand? = some operand ->
          (runFrom (BitContainer.snapshot operand) host).2 = host) ->
        host.RecordsOnly after) := by
  have unchanged := Host.RecordsOnly.refl host
  cases operation with
  | get index | raise index | lower index | raiseIfUnset index =>
      refine ⟨host, array.step_bit_refused rfl (closed.runFrom_getBit index host) ?_,
        fun _ => unchanged⟩
      exact fun change => closed.changeBit change index host
  | clear =>
      refine ⟨host, step_of_error ?_, fun _ => unchanged⟩
      simp only [perform, runFrom_bind, closed.runFrom_clear]
  | merge kind operand => exact closed.step_merge kind operand host
  | snapshot | highest | lowest | count | positions =>
      exact ⟨host, step_survey rfl (closed.runFrom_snapshot host), fun _ => unchanged⟩
  | next first =>
      refine ⟨host, ?_, fun _ => unchanged⟩
      rw [step_of_read rfl (closed.runFrom_next first host), lastWord]
      split <;> rfl
  | flush =>
      refine ⟨host, step_of_error ?_, fun _ => unchanged⟩
      simp only [perform, runFrom_bind, closed.runFrom_flush]

/-- A closed array answers its last word to every call, and stays as it was.  That is
a refusal as an invalid operation unless the call evades it.  Closing the array
again succeeds. -/
theorem invalid_iff_not_evades {array : BitArray} (closed : array.isClosed = true)
    (host : Host) :
    (forall operation : Operation ω,
      (array.step operation host).1 = (array.lastWord (handsOut host) operation, array) ∧
      (Invalid (array.step operation host).1.1 ↔ ¬ array.Evades (handsOut host) operation)) ∧
    array.close host = ((.ok (), array), host) := by
  have gone := closed_of_isClosed closed
  refine ⟨?_, gone.close_apply host⟩
  intro operation
  rcases gone.step_apply operation host with ⟨after, stepped, _⟩
  rw [stepped]
  exact ⟨rfl, array.invalid_lastWord_iff (handsOut host) operation⟩

/-- A closed array in a file does not merge an array that fits and can be read. -/
theorem invalid_iff_not_evades_twelve :
    (BitArray.file Twelve.closedFile).isClosed = true ∧
      Invalid ((BitArray.file Twelve.closedFile).step
        (.merge .or (.memory Twelve.memory) : Operation BitArray) Twelve.host).1.1 := by
  have closed : (BitArray.file Twelve.closedFile).isClosed = true := rfl
  refine ⟨closed, ((invalid_iff_not_evades closed Twelve.host).1 _).2.mpr ?_⟩
  rintro (misfit | ⟨fault, unread, _⟩ | ⟨_, empty⟩)
  · exact misfit rfl
  · contradiction
  · exact nomatch Except.ok.inj empty

/-- Not every call on a closed array is refused: a search that begins at the capacity
finds nothing in a file, and the same search in a mapping is an invalid operation. -/
theorem not_all_invalid_after_close :
    ¬ forall (array : BitArray) (operation : Operation BitArray) (host : Host),
      array.isClosed = true -> Invalid (array.step operation host).1.1 := by
  intro refused
  rcases refused (.file Twelve.closedFile) (.next 12) Twelve.host rfl
    with ⟨name, answered⟩
  cases answered

end BitArray
end BitStore
