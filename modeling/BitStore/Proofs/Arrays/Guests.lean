import BitStore.BitArray.Loose
import BitStore.Proofs.Arrays.Isolation

namespace BitStore

/-!
# Operands of any type

A merge takes its operand from any type that offers a snapshot.  An operand is candid
if a look at it changes nothing and it hands out as many bytes as it promises; the bit
arrays of this library always are.  To the receiver a candid operand is no more than
its bytes.  Either it does not fit or cannot be read, and then nothing happens, or the
step is the one with an array in memory that has these bytes.
-/

/-- A call on an array, with operands of type `ω`, or its end. -/
inductive Use (ω : Type) where
  | operate (operation : Operation ω)
  | close

namespace BitArray

variable {ω : Type} [BitContainer ω] {array : BitArray} {host : Host}

/-- Make use of the array in hand. -/
def use (array : BitArray) : Use ω -> StateM Host (Except Fault Reply × BitArray)
  | .operate operation => array.step operation
  | .close => array.call .close

/-- Make one use of an array after the other, whatever they answer. -/
def uses (array : BitArray) : List (Use ω) ->
    StateM Host (List (Except Fault Reply) × BitArray)
  | [] => return ([], array)
  | first :: rest => do
      let (reply, array) ← array.use first
      let (replies, array) ← array.uses rest
      return (reply :: replies, array)

/-- Whether an operand can be looked at without changing anything and keeps its promise
of bytes. -/
structure Candid (host : Host) (guest : ω) : Prop where
  quiet : (runFrom (BitContainer.snapshot guest) host).2 = host
  length : forall bytes, handsOut host guest = .ok bytes ->
    bytes.length = BitContainer.byteLength guest

/-- A bit array is candid in whatever state it is. -/
theorem candid (array : BitArray) (host : Host) : Candid host array where
  quiet := runFrom_snapshot_state array host
  length _ read := length_of_snapshot read

/-- So is a loose array, which hands out all its bytes or none. -/
theorem candid_loose (array : LooseArray) (host : Host) : Candid host array where
  quiet := rfl
  length bytes read := by
    have brought : array.snapshot = .ok bytes := read
    rw [LooseArray.snapshot] at brought
    split at brought
    next => contradiction
    next =>
      cases brought
      rfl

theorem Candid.runFrom_snapshot {guest : ω} (candid : Candid host guest) :
    runFrom (BitContainer.snapshot guest) host = (handsOut host guest, host) :=
  Prod.ext rfl candid.quiet

/-- Only a merge comes to a merge when its operand is looked up. -/
theorem resolve_eq_merge {α : Type} {find : α -> Option BitArray} {operation : Operation α}
    {kind : Merge} {operand : BitArray}
    (found : operation.resolve find = some (.merge kind operand)) :
    Exists fun guest => operation = .merge kind guest ∧ find guest = some operand := by
  cases operation with
  | merge own guest =>
      rcases Option.bind_eq_some_iff.mp found with ⟨other, stands, made⟩
      cases made
      exact ⟨guest, rfl, stands⟩
  | _ => cases found

/-- The bytes that an operand hands out, as an array in memory; none if they are not
as many as the layout needs. -/
def standIn (layout : Layout) (host : Host) (guest : ω) : Option BitArray :=
  match handsOut host guest with
  | .error _ => none
  | .ok bytes =>
      if fits : bytes.toArray.size = layout.byteLength
      then some (.memory { layout := layout, bytes := bytes.toArray, size_eq := fits })
      else none

theorem step_congr {α : Type} [BitContainer α] {operation : Operation ω}
    {other : Operation α}
    (same : runFrom (array.perform operation) host = runFrom (array.perform other) host) :
    array.step operation host = array.step other host := by
  have ran : (array.perform operation).run host = (array.perform other).run host := same
  rw [step, step, bind_apply, bind_apply, ran]

/-- What stands in for an operand has the layout asked for and is read like the operand. -/
theorem Candid.standIn {layout : Layout} {guest : ω} (candid : Candid host guest)
    {stand : BitArray} (found : BitArray.standIn layout host guest = some stand) :
    Exists fun bytes => handsOut host guest = .ok bytes ∧ stand.reading host = .ok bytes ∧
      BitContainer.byteLength guest = layout.byteLength ∧ stand.layout = layout := by
  rw [BitArray.standIn] at found
  split at found
  next => contradiction
  next bytes read =>
    split at found
    next fits =>
      cases found
      exact ⟨bytes, read, rfl, (candid.length bytes read).symm.trans fits, rfl⟩
    next => contradiction

/-- What stands in for an operand is merged in its place. -/
theorem runFrom_merge_standIn {guest : ω} (candid : Candid host guest) {stand : BitArray}
    (found : standIn array.layout host guest = some stand) (kind : Merge) :
    runFrom (array.merge kind guest) host = runFrom (array.merge kind stand) host := by
  have brought := candid.runFrom_snapshot
  have broughtStand := runFrom_container_snapshot stand host
  rcases candid.standIn found with ⟨bytes, read, readStand, fits, layout⟩
  have required := (array.layout.requireOperand_eq_ok_iff _).mpr fits
  have requiredStand := (array.layout.requireOperand_eq_ok_iff _).mpr
    (congrArg Layout.byteLength layout)
  rw [read] at brought
  rw [readStand] at broughtStand
  rw [runFrom_merge_read kind required brought,
    runFrom_merge_read kind requiredStand broughtStand]

/-- An operand that nothing can stand in for is refused. -/
theorem runFrom_merge_unfit {guest : ω} (candid : Candid host guest)
    (missing : standIn array.layout host guest = none) (kind : Merge) :
    Exists fun fault => runFrom (array.merge kind guest) host = (.error fault, host) := by
  have brought := candid.runFrom_snapshot
  cases required : array.layout.requireOperand (BitContainer.byteLength guest) with
  | error fault => exact ⟨fault, runFrom_merge_misfit host kind required⟩
  | ok =>
      cases read : handsOut host guest with
      | error fault =>
          rw [read] at brought
          exact ⟨fault, runFrom_merge_unread kind required brought⟩
      | ok bytes =>
          have fits : bytes.toArray.size = array.layout.byteLength :=
            (candid.length bytes read).trans
              ((array.layout.requireOperand_eq_ok_iff _).mp required)
          simp only [standIn, read, dif_pos fits, reduceCtorEq] at missing

/-- A step with a candid operand is one with what stands in for it. -/
theorem step_of_standIn {operation : Operation ω} {stand : Operation BitArray}
    (candid : forall guest, operation.operand? = some guest -> Candid host guest)
    (found : operation.resolve (standIn array.layout host) = some stand) :
    array.step operation host = array.step stand host := by
  cases operation with
  | merge kind guest =>
      rcases Option.bind_eq_some_iff.mp found with ⟨operand, stands, made⟩
      cases made
      have merged := runFrom_merge_standIn (candid guest rfl) stands kind
      apply step_congr
      simp only [perform, runFrom_bind, merged]
  | _ =>
      cases found
      exact step_congr rfl

theorem step_of_unfit {operation : Operation ω}
    (candid : forall guest, operation.operand? = some guest -> Candid host guest)
    (missing : operation.resolve (standIn array.layout host) = none) :
    Exists fun fault => array.step operation host = ((.error fault, array), host) := by
  cases operation with
  | merge kind guest =>
      have unfit : standIn array.layout host guest = none := by
        cases stands : standIn array.layout host guest with
        | none => rfl
        | some operand =>
            rw [Operation.resolve, stands] at missing
            contradiction
      rcases runFrom_merge_unfit (candid guest rfl) unfit kind with ⟨fault, refused⟩
      refine ⟨fault, step_of_error ?_⟩
      simp only [perform, runFrom_bind, refused]
  | _ => contradiction

end BitArray
end BitStore
