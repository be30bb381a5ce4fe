import BitStore.BitArray.Basic

namespace BitStore

/-!
# Operations as values

An `Operation` is one call on a bit array, a `Reply` what comes back from it.
As values they can be put in sequence: a run of operations is a list, and the
storages can be compared run by run.  The operand of a merge is of any type
that the caller has a name for.
-/

/-- A call on a bit array, with operands of type `ω`. -/
inductive Operation (ω : Type) where
  | get (index : Nat)
  | raise (index : Nat)
  | lower (index : Nat)
  | raiseIfUnset (index : Nat)
  | clear
  | merge (kind : Merge) (operand : ω)
  | snapshot
  | highest
  | lowest
  | next (first : Nat)
  | count
  | positions
  | flush
  deriving DecidableEq, Repr

inductive Reply where
  | done
  | flag (value : Bool)
  | position (found : Option Nat)
  | number (value : Nat)
  | positions (found : List Nat)
  | bytes (bytes : Bytes)
  deriving DecidableEq, Repr

/-- The operation with its operand looked up. -/
def Operation.resolve {m : Type -> Type} [Monad m] {α ω : Type} (find : α -> m ω) :
    Operation α -> m (Operation ω)
  | .get index => return .get index
  | .raise index => return .raise index
  | .lower index => return .lower index
  | .raiseIfUnset index => return .raiseIfUnset index
  | .clear => return .clear
  | .merge kind operand => return .merge kind (← find operand)
  | .snapshot => return .snapshot
  | .highest => return .highest
  | .lowest => return .lowest
  | .next first => return .next first
  | .count => return .count
  | .positions => return .positions
  | .flush => return .flush

namespace BitArray

def perform {ω : Type} [BitContainer ω] (array : BitArray) :
    Operation ω -> ArrayM (Reply × BitArray)
  | .get index => return (.flag (← array.getBit index), array)
  | .raise index => return (.flag true, ← array.setBit index)
  | .lower index => return (.done, ← array.clearBit index)
  | .raiseIfUnset index => do
      let (changed, array) ← BitContainer.setBitIfUnset array index
      return (.flag changed, array)
  | .clear => return (.done, ← array.clear)
  | .merge kind operand => return (.done, ← array.merge kind operand)
  | .snapshot => return (.bytes (← array.snapshot), array)
  | .highest => return (.position (← array.highest?), array)
  | .lowest => return (.position (← array.lowest?), array)
  | .next first => return (.position (← array.next? first), array)
  | .count => return (.number (← array.count), array)
  | .positions => return (.positions (← BitContainer.positions array), array)
  | .flush => do
      array.flush
      return (.done, array)

/-- Perform one operation on the array in hand.  A failure is the reply, and
leaves the array as it was. -/
def step {ω : Type} [BitContainer ω] (array : BitArray) (operation : Operation ω) :
    StateM Host (Except Fault Reply × BitArray) := do
  match ← (array.perform operation).run with
  | .ok (reply, array) => return (.ok reply, array)
  | .error fault => return (.error fault, array)

/-- Perform operations one after the other, whatever they answer. -/
def run {ω : Type} [BitContainer ω] (array : BitArray) :
    List (Operation ω) -> StateM Host (List (Except Fault Reply) × BitArray)
  | [] => return ([], array)
  | operation :: rest => do
      let (reply, array) ← array.step operation
      let (replies, array) ← array.run rest
      return (reply :: replies, array)

/-- Repeat a change on `count` indices, from `index` on and each `stride` after
the one before.  The first failure ends it, with the array as changed so far;
otherwise the answer is the number of indices. -/
def sweep (change : BitAddress -> UInt8 -> UInt8) (stride : Nat) (array : BitArray)
    (index done : Nat) : Nat -> StateM Host (Except Fault Nat × BitArray)
  | 0 => return (.ok done, array)
  | count + 1 => do
      let (outcome, array) ← array.changeBit change index
      match outcome with
      | .ok () => sweep change stride array (index + stride) (done + 1) count
      | .error fault => return (.error fault, array)

end BitArray
end BitStore
