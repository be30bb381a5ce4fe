import BitStore.Proofs.Arrays.Meaning

namespace BitStore

/-!
# What operations cannot touch

An operation may change the bytes of an array in memory.  Everything else that makes up
an array, its layout, its file or its mapping, is its shell, and no operation gives back
an array with another shell, on whatever host and with whatever operands.  A persistent
array is all shell: it is given back as it was.
-/

namespace BitArray

variable {ω : Type} [BitContainer ω] {array next : BitArray} {host after : Host}

/-- An array without its own bytes. -/
def shell : BitArray -> BitArray
  | .memory array => .memory array.clear
  | array => array

theorem shell_memory {first second : MemoryArray} (layout : second.layout = first.layout) :
    (BitArray.memory second).shell = (BitArray.memory first).shell := by
  cases first
  cases second
  cases layout
  rfl

/-- Only an array in memory has the shell of one. -/
theorem memory_of_shell {source : MemoryArray}
    (same : next.shell = (BitArray.memory source).shell) :
    Exists fun kept => next = .memory kept := by
  cases next with
  | memory kept => exact ⟨kept, rfl⟩
  | file kept | mapped kept => cases same

theorem changeBit_shell (array : BitArray) (change : BitAddress -> UInt8 -> UInt8) (index : Nat)
    (host : Host) : (array.changeBit change index host).1.2.shell = array.shell := by
  cases array with
  | memory array =>
      have kept : (array.changeBit index change).2.layout = array.layout := by
        rw [MemoryArray.changeBit]
        cases array.layout.locate index <;> rfl
      exact shell_memory kept
  | file array | mapped array => rfl

/-- What a change of a bit gives back when it succeeds. -/
theorem changed_shell {change : BitAddress -> UInt8 -> UInt8} {index : Nat}
    {outcome : Except Fault Unit} {given : BitArray} {last : Host}
    (changed : array.changeBit change index host = ((outcome, given), last))
    (succeeded : (outcome.map fun () => given, last) = (.ok next, after)) :
    next.shell = array.shell := by
  have kept := array.changeBit_shell change index host
  rw [changed] at kept
  cases outcome with
  | error fault => cases succeeded
  | ok =>
      cases succeeded
      exact kept

theorem setBit_shell {index : Nat}
    (run : runFrom (array.setBit index) host = (.ok next, after)) : next.shell = array.shell := by
  rcases changed : array.changeBit BitAddress.raise index host with ⟨⟨outcome, given⟩, last⟩
  rw [runFrom_setBit changed] at run
  exact changed_shell changed run

theorem clearBit_shell {index : Nat}
    (run : runFrom (array.clearBit index) host = (.ok next, after)) : next.shell = array.shell := by
  rcases changed : array.changeBit BitAddress.lower index host with ⟨⟨outcome, given⟩, last⟩
  rw [runFrom_clearBit changed] at run
  exact changed_shell changed run

/-- A bit that is set is left alone, and another one is set. -/
theorem setBitIfUnset_shell {index : Nat} {flag : Bool}
    (run : runFrom (BitContainer.setBitIfUnset array index) host = (.ok (flag, next), after)) :
    next.shell = array.shell := by
  rcases runFrom_bind_ok run with ⟨set, last, _, rest⟩
  cases set with
  | true =>
      cases rest
      rfl
  | false =>
      rcases runFrom_ok_of_return rest with ⟨given, raised, made⟩
      cases made
      exact setBit_shell raised

theorem clear_shell (run : runFrom array.clear host = (.ok next, after)) :
    next.shell = array.shell := by
  cases array with
  | memory array =>
      cases run
      exact shell_memory rfl
  | file array =>
      rcases runFrom_ok_of_return run with ⟨_, _, rfl⟩
      rfl
  | mapped array =>
      rcases runFrom_ok_of_return run with ⟨_, _, rfl⟩
      rfl

theorem merge_shell {kind : Merge} {operand : ω}
    (run : runFrom (array.merge kind operand) host = (.ok next, after)) :
    next.shell = array.shell := by
  cases array with
  | memory array =>
      rcases runFrom_ok_of_return run with ⟨given, merged, rfl⟩
      rcases runFrom_bind_ok merged with ⟨_, _, _, read⟩
      rcases runFrom_ok_of_return read with ⟨bytes, _, rfl⟩
      exact shell_memory rfl
  | file array | mapped array =>
      rcases runFrom_ok_of_return run with ⟨_, _, rfl⟩
      rfl

/-- A step gives back an array with the same shell, whatever it answers. -/
theorem step_shell (array : BitArray) (operation : Operation ω) (host : Host) :
    (array.step operation host).1.2.shell = array.shell := by
  rcases performed : runFrom (array.perform operation) host with ⟨fault | ⟨reply, next⟩, after⟩
  · rw [step_of_error performed]
  · rw [step_of_ok performed]
    cases operation with
    | raise index =>
        rcases runFrom_ok_of_return performed with ⟨given, run, made⟩
        cases made
        exact setBit_shell run
    | lower index =>
        rcases runFrom_ok_of_return performed with ⟨given, run, made⟩
        cases made
        exact clearBit_shell run
    | raiseIfUnset index =>
        rcases runFrom_ok_of_return performed with ⟨⟨flag, given⟩, run, made⟩
        cases made
        exact setBitIfUnset_shell run
    | clear =>
        rcases runFrom_ok_of_return performed with ⟨given, run, made⟩
        cases made
        exact clear_shell run
    | merge kind guest =>
        rcases runFrom_ok_of_return performed with ⟨given, run, made⟩
        cases made
        exact merge_shell run
    | _ =>
        rcases runFrom_ok_of_return performed with ⟨given, run, made⟩
        cases made
        rfl

theorem shell_layout (array : BitArray) : array.shell.layout = array.layout := by
  cases array <;> rfl

theorem layout_step (array : BitArray) (operation : Operation ω) (host : Host) :
    (array.step operation host).1.2.layout = array.layout := by
  rw [← shell_layout, array.step_shell operation host, shell_layout]

/-- A sweep gives back an array with the same shell, by induction on the changes. -/
theorem sweep_shell (change : BitAddress -> UInt8 -> UInt8) (stride : Nat) (array : BitArray)
    (index done count : Nat) (host : Host) :
    (array.sweep change stride index done count host).1.2.shell = array.shell := by
  induction count generalizing array index done host with
  | zero => rfl
  | succ count inductionHypothesis =>
      have kept := array.changeBit_shell change index host
      rcases changed : array.changeBit change index host with ⟨⟨outcome, next⟩, after⟩
      rw [changed] at kept
      rw [sweep, bind_apply, changed]
      cases outcome with
      | error fault => exact kept
      | ok => exact (inductionHypothesis next (index + stride) (done + 1) after).trans kept

end BitArray
end BitStore
