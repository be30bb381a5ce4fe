import BitStore.Proofs.Arrays.Derived

namespace BitStore

/-!
# What operations mean

`Layout.respond` says what an operation answers and which bytes it leaves, as a
function of the layout, of the bytes in storage, and of what reading an operand
brings.  There is no backing in it.  `BitArray.step_meets` is the one place where
the backings meet: a step of an intact array answers and leaves what `respond`
says, whatever the array is kept in.

Operations on single bits stand together, and so do those that ask about all bytes:
what they do follows from how a bit is read and changed and from how a snapshot is
taken, intact or not.
-/

/-- The operand that an operation names, if any. -/
def Operation.operand? {ω : Type} : Operation ω -> Option ω
  | .merge _ operand => some operand
  | _ => none

/-- The index of the bit that an operation is about, if it is about a single bit. -/
def Operation.index? {ω : Type} : Operation ω -> Option Nat
  | .get index | .raise index | .lower index | .raiseIfUnset index => some index
  | _ => none

/-- Whether an operation may change bits. -/
def Operation.writes {ω : Type} : Operation ω -> Bool
  | .raise _ | .lower _ | .raiseIfUnset _ | .clear | .merge _ _ => true
  | _ => false

namespace Layout

/-- The reply to an operation on bytes of this layout, and the bytes after it.
Whether the system syncs files and writes mappings back is not looked at here. -/
def respond (layout : Layout) (bytes : Bytes) (reading : BitArray -> Except Fault Bytes) :
    Operation BitArray -> Except Fault Reply × Bytes
  | .get index =>
      match layout.locate index with
      | .ok address => (.ok (.flag (address.test (bytes[address.byte]?.getD 0))), bytes)
      | .error fault => (.error fault, bytes)
  | .raise index =>
      match layout.locate index with
      | .ok address => (.ok (.flag true), bytes.modify address.byte address.raise)
      | .error fault => (.error fault, bytes)
  | .lower index =>
      match layout.locate index with
      | .ok address => (.ok .done, bytes.modify address.byte address.lower)
      | .error fault => (.error fault, bytes)
  | .raiseIfUnset index =>
      match layout.locate index with
      | .ok address =>
          if address.test (bytes[address.byte]?.getD 0) then (.ok (.flag false), bytes)
          else (.ok (.flag true), bytes.modify address.byte address.raise)
      | .error fault => (.error fault, bytes)
  | .clear => (.ok .done, Bytes.zeros layout.byteLength)
  | .merge kind operand =>
      match layout.requireOperand operand.layout.byteLength with
      | .error fault => (.error fault, bytes)
      | .ok () =>
          match reading operand with
          | .ok other => (.ok .done, kind.apply bytes other)
          | .error fault => (.error fault, bytes)
  | .snapshot => (.ok (.bytes bytes), bytes)
  | .highest => (.ok (.position bytes.highest?), bytes)
  | .lowest => (.ok (.position bytes.lowest?), bytes)
  | .next first => (.ok (.position (bytes.next? first layout.lastSearchable)), bytes)
  | .count => (.ok (.number bytes.count), bytes)
  | .positions => (.ok (.positions (bytes.positions 0 layout.lastSearchable)), bytes)
  | .flush => (.ok .done, bytes)

/-- The answer to an operation that asks about all bytes, by the bytes. -/
def survey? {ω : Type} (layout : Layout) : Operation ω -> Option (Bytes -> Reply)
  | .snapshot => some .bytes
  | .highest => some fun bytes => .position bytes.highest?
  | .lowest => some fun bytes => .position bytes.lowest?
  | .count => some fun bytes => .number bytes.count
  | .positions => some fun bytes => .positions (bytes.positions 0 layout.lastSearchable)
  | _ => none

/-- Of all arrays, the reply looks at the operand only. -/
theorem respond_congr (layout : Layout) (bytes : Bytes) (operation : Operation BitArray)
    {first second : BitArray -> Except Fault Bytes}
    (same : forall operand, operation.operand? = some operand -> first operand = second operand) :
    layout.respond bytes first operation = layout.respond bytes second operation := by
  cases operation with
  | merge kind operand => simp only [respond, same operand rfl]
  | _ => rfl

/-- An index out of range is a fault of all operations on single bits. -/
theorem respond_refused (layout : Layout) (bytes : Bytes)
    (reading : BitArray -> Except Fault Bytes) {operation : Operation BitArray} {index : Nat}
    {fault : Fault} (single : operation.index? = some index)
    (located : layout.locate index = .error fault) :
    layout.respond bytes reading operation = (.error fault, bytes) := by
  cases operation <;> cases single <;> simp only [respond, located]

/-- What asks about all bytes is always answered, and changes none. -/
theorem respond_survey (layout : Layout) (bytes : Bytes)
    (reading : BitArray -> Except Fault Bytes) {operation : Operation BitArray}
    {answer : Bytes -> Reply} (asks : layout.survey? operation = some answer) :
    layout.respond bytes reading operation = (.ok (answer bytes), bytes) := by
  cases operation <;> cases asks <;> rfl

end Layout

namespace BitArray

variable {ω : Type} [BitContainer ω] {array next : BitArray} {host after : Host}

/-! ## From calls to steps -/

theorem step_of_ok {operation : Operation ω} {reply : Reply}
    (run : runFrom (array.perform operation) host = (.ok (reply, next), after)) :
    array.step operation host = ((.ok reply, next), after) := by
  have performed : (array.perform operation).run host = (.ok (reply, next), after) := run
  rw [step, bind_apply, performed]
  rfl

/-- A failure leaves the array as it was. -/
theorem step_of_error {operation : Operation ω} {fault : Fault}
    (run : runFrom (array.perform operation) host = (.error fault, after)) :
    array.step operation host = ((.error fault, array), after) := by
  have performed : (array.perform operation).run host = (.error fault, after) := run
  rw [step, bind_apply, performed]
  rfl

/-- A step that reads answers what is made of what it reads, and fails as reading fails. -/
theorem step_of_read {operation : Operation ω} {α : Type} {action : ArrayM α}
    {make : α -> Reply} {outcome : Except Fault α}
    (performs : array.perform operation = do return (make (← action), array))
    (read : runFrom action host = (outcome, after)) :
    array.step operation host = ((outcome.map make, array), after) := by
  have run : runFrom (array.perform operation) host =
      (outcome.map fun value => (make value, array), after) := by
    rw [performs, runFrom_return action (fun value => (make value, array)), read]
  cases outcome with
  | ok value => exact step_of_ok run
  | error fault => exact step_of_error run

/-! ## Changes of one bit -/

theorem runFrom_setBit {index : Nat} {outcome : Except Fault Unit}
    (changed : array.changeBit BitAddress.raise index host = ((outcome, next), after)) :
    runFrom (array.setBit index) host = (outcome.map fun () => next, after) := by
  simp only [setBit, runFrom_bind, runFrom_liftM, changed, runFrom_outcome, runFrom_pure]
  cases outcome <;> rfl

theorem runFrom_clearBit {index : Nat} {outcome : Except Fault Unit}
    (changed : array.changeBit BitAddress.lower index host = ((outcome, next), after)) :
    runFrom (array.clearBit index) host = (outcome.map fun () => next, after) := by
  simp only [clearBit, runFrom_bind, runFrom_liftM, changed, runFrom_outcome, runFrom_pure]
  cases outcome <;> rfl

/-- A bit that is set is left alone. -/
theorem runFrom_setBitIfUnset_set {index : Nat}
    (read : runFrom (array.getBit index) host = (.ok true, host)) :
    runFrom (BitContainer.setBitIfUnset array index) host = (.ok (false, array), host) := by
  simp only [BitContainer.setBitIfUnset, BitContainer.getBit, runFrom_bind, read, if_true,
    runFrom_pure]

theorem runFrom_setBitIfUnset_unset {index : Nat}
    (read : runFrom (array.getBit index) host = (.ok false, host))
    (raised : runFrom (array.setBit index) host = (.ok next, after)) :
    runFrom (BitContainer.setBitIfUnset array index) host = (.ok (true, next), after) := by
  simp only [BitContainer.setBitIfUnset, BitContainer.getBit, BitContainer.setBit,
    runFrom_bind, read, Bool.false_eq_true, if_false, raised, runFrom_pure]

/-- Where a bit can be neither read nor changed, every operation on it fails. -/
theorem step_bit_refused (array : BitArray) {operation : Operation ω} {index : Nat}
    {fault : Fault} (single : operation.index? = some index)
    (read : runFrom (array.getBit index) host = (.error fault, host))
    (refused : forall change,
      array.changeBit change index host = ((.error fault, array), host)) :
    array.step operation host = ((.error fault, array), host) := by
  have raised := runFrom_setBit (refused BitAddress.raise)
  have lowered := runFrom_clearBit (refused BitAddress.lower)
  have raisedIfUnset : runFrom (BitContainer.setBitIfUnset array index) host =
      (.error fault, host) := BitContainer.runFrom_setBitIfUnset_error read
  cases operation <;> cases single <;> apply step_of_error
  case get => simp only [perform, runFrom_bind, read]
  case raise => simp only [perform, runFrom_bind, raised, Except.map]
  case lower => simp only [perform, runFrom_bind, lowered, Except.map]
  case raiseIfUnset => simp only [perform, runFrom_bind, raisedIfUnset]

/-- Where a bit can be read and changed, every operation on it answers what is expected.
It leaves either all as it was or what a change of the bit leaves. -/
theorem step_bit_served (array : BitArray) (leaves : BitArray -> Host -> Bytes -> Prop)
    {operation : Operation BitArray} {index : Nat} {address : BitAddress} {bytes : Bytes}
    (single : operation.index? = some index) (located : array.layout.locate index = .ok address)
    (read : runFrom (array.getBit index) host =
      (.ok (address.test (bytes[address.byte]?.getD 0)), host))
    (kept : leaves array host bytes)
    (changed : forall change : BitAddress -> UInt8 -> UInt8,
      Exists fun next => Exists fun after =>
        array.changeBit change index host = ((.ok (), next), after) ∧
        leaves next after (bytes.modify address.byte (change address)))
    (reading : BitArray -> Except Fault Bytes) :
    Exists fun reply => Exists fun next => Exists fun after =>
      array.step operation host = ((.ok reply, next), after) ∧
      (array.layout.respond bytes reading operation).1 = .ok reply ∧
      leaves next after (array.layout.respond bytes reading operation).2 := by
  cases operation <;> cases single <;> simp only [Layout.respond, located]
  case get => exact ⟨_, array, host, step_of_read rfl read, rfl, kept⟩
  case raise =>
    rcases changed BitAddress.raise with ⟨next, after, raised, leaves⟩
    refine ⟨_, next, after, step_of_ok ?_, rfl, leaves⟩
    simp only [perform, runFrom_bind, runFrom_setBit raised, Except.map, runFrom_pure]
  case lower =>
    rcases changed BitAddress.lower with ⟨next, after, lowered, leaves⟩
    refine ⟨_, next, after, step_of_ok ?_, rfl, leaves⟩
    simp only [perform, runFrom_bind, runFrom_clearBit lowered, Except.map, runFrom_pure]
  case raiseIfUnset =>
    -- a bit that is set is only read; another one is read and then raised
    cases set : address.test (bytes[address.byte]?.getD 0) with
    | true =>
        rw [set] at read
        refine ⟨_, array, host, step_of_ok ?_, rfl, kept⟩
        simp only [perform, runFrom_bind, runFrom_setBitIfUnset_set read, runFrom_pure]
    | false =>
        rw [set] at read
        rcases changed BitAddress.raise with ⟨next, after, raised, leaves⟩
        refine ⟨_, next, after, step_of_ok ?_, rfl, leaves⟩
        have run := runFrom_setBitIfUnset_unset read (runFrom_setBit raised)
        simp only [perform, runFrom_bind, run, runFrom_pure]

/-! ## Searches -/

/-- What asks about all bytes is answered by a snapshot, and fails as taking one fails. -/
theorem step_survey {operation : Operation ω} {answer : Bytes -> Reply}
    {outcome : Except Fault Bytes} (asks : array.layout.survey? operation = some answer)
    (shot : runFrom (BitContainer.snapshot array) host = (outcome, after)) :
    array.step operation host = ((outcome.map answer, array), after) := by
  have map {α : Type} (look : Bytes -> α) (make : α -> Reply) :
      (outcome.map look).map make = outcome.map (make ∘ look) := by
    cases outcome <;> rfl
  cases operation <;> cases asks
  case snapshot => exact step_of_read rfl shot
  case highest =>
    have found := BitContainer.runFrom_highest shot
    rw [← highest?_eq] at found
    rw [step_of_read rfl found, map]
    rfl
  case lowest =>
    have found := BitContainer.runFrom_lowest shot
    rw [← lowest?_eq] at found
    rw [step_of_read rfl found, map]
    rfl
  case count =>
    have counted := BitContainer.runFrom_count shot
    rw [← count_eq] at counted
    rw [step_of_read rfl counted, map]
    rfl
  case positions =>
    have listed := (BitContainer.runFrom_positions shot).trans (if_pos array.layout.capacity_pos)
    rw [step_of_read rfl listed, map]
    rfl

/-- A search that stops in front of the capacity takes no snapshot from there on. -/
theorem step_next {outcome : Except Fault Bytes} (isOpen : array.isClosed = false)
    (shot : runFrom array.snapshot host = (outcome, host)) (first : Nat) :
    array.step (.next first : Operation BitArray) host =
      ((if first < array.layout.capacity
        then outcome.map fun bytes => .position (bytes.next? first array.layout.lastSearchable)
        else .ok (.position none), array), host) := by
  have found := ((likeDerived isOpen host).next first).trans (BitContainer.runFrom_next shot first)
  by_cases inside : first < array.layout.capacity
  · rw [if_pos inside]
    exact (step_of_read rfl (found.trans (if_pos inside))).trans (by cases outcome <;> rfl)
  · rw [if_neg inside]
    exact step_of_read rfl (found.trans (if_neg inside))

theorem Intact.shot (intact : array.Intact host) :
    runFrom (BitContainer.snapshot array) host = (.ok (array.storage host), host) :=
  runFrom_snapshot intact

theorem runFrom_highest (intact : array.Intact host) :
    runFrom array.highest? host = (.ok (array.storage host).highest?, host) := by
  rw [highest?_eq, BitContainer.runFrom_highest intact.shot]
  rfl

theorem runFrom_lowest (intact : array.Intact host) :
    runFrom array.lowest? host = (.ok (array.storage host).lowest?, host) := by
  rw [lowest?_eq, BitContainer.runFrom_lowest intact.shot]
  rfl

theorem runFrom_count (intact : array.Intact host) :
    runFrom array.count host = (.ok (array.storage host).count, host) := by
  rw [count_eq, BitContainer.runFrom_count intact.shot]
  rfl

theorem runFrom_positions (intact : array.Intact host) :
    runFrom (BitContainer.positions array) host =
      (.ok ((array.storage host).positions 0 array.layout.lastSearchable), host) :=
  (BitContainer.runFrom_positions intact.shot).trans (if_pos array.layout.capacity_pos)

/-! ## Steps -/

/-- The operation answers what is expected and leaves the bytes that are expected.
Only the answer to writing back rests with the system. -/
def Meets (array : BitArray) (host : Host) (operation : Operation BitArray)
    (expected : Except Fault Reply × Bytes) : Prop :=
  Exists fun reply => Exists fun next => Exists fun after =>
    array.step operation host = ((reply, next), after) ∧
    array.Becomes host next after expected.2 ∧
    ((operation = .flush -> host.Serves) -> reply = expected.1)

variable {operation : Operation BitArray} {reply : Reply} {fault : Fault} {bytes : Bytes}

theorem meets_change (run : runFrom (array.perform operation) host = (.ok (reply, next), after))
    (becomes : array.Becomes host next after bytes) :
    array.Meets host operation (.ok reply, bytes) :=
  ⟨.ok reply, next, after, step_of_ok run, becomes, fun _ => rfl⟩

theorem meets_read (intact : array.Intact host)
    (stepped : array.step operation host = ((.ok reply, array), host)) :
    array.Meets host operation (.ok reply, array.storage host) :=
  ⟨.ok reply, array, host, stepped, becomes_self intact (Host.ChangesOnly.refl none host),
    fun _ => rfl⟩

theorem meets_refusal (intact : array.Intact host)
    (stepped : array.step operation host = ((.error fault, array), host)) :
    array.Meets host operation (.error fault, array.storage host) :=
  ⟨.error fault, array, host, stepped, becomes_self intact (Host.ChangesOnly.refl none host),
    fun _ => rfl⟩

/-- An index out of range is refused by all operations on single bits, and one in range is
served. -/
theorem meets_bit (intact : array.Intact host) {index : Nat}
    (single : operation.index? = some index) :
    array.Meets host operation (array.layout.respond (array.storage host)
      (fun operand => operand.reading host) operation) := by
  have read := runFrom_getBit intact index
  cases located : array.layout.locate index with
  | error fault =>
      rw [located] at read
      rw [array.layout.respond_refused _ _ single located]
      exact meets_refusal intact (array.step_bit_refused single read fun change =>
        changeBit_refused intact change located)
  | ok address =>
      rw [located] at read
      rcases array.step_bit_served (array.Becomes host) single located read
        (becomes_self intact (Host.ChangesOnly.refl none host))
        (fun change => changeBit_located intact change located)
        (fun operand => operand.reading host)
        with ⟨reply, next, after, stepped, expected, becomes⟩
      exact ⟨.ok reply, next, after, stepped, becomes, fun _ => expected.symm⟩

theorem meets_survey (intact : array.Intact host) {answer : Bytes -> Reply}
    (asks : array.layout.survey? operation = some answer) :
    array.Meets host operation (array.layout.respond (array.storage host)
      (fun operand => operand.reading host) operation) := by
  rw [array.layout.respond_survey _ _ asks]
  exact meets_read intact (step_survey asks intact.shot)

/-- A merge is refused for the length of the operand before the operand is read. -/
theorem meets_merge (intact : array.Intact host) (kind : Merge) (operand : BitArray) :
    array.Meets host (.merge kind operand) (array.layout.respond (array.storage host)
      (fun operand => operand.reading host) (.merge kind operand)) := by
  cases required : array.layout.requireOperand operand.layout.byteLength with
  | error fault =>
      simp only [Layout.respond, required]
      have refused : runFrom (array.merge kind operand) host = (.error fault, host) :=
        runFrom_merge_misfit host kind required
      apply meets_refusal intact (step_of_error ?_)
      simp only [perform, runFrom_bind, refused]
  | ok =>
      have brought := runFrom_container_snapshot operand host
      cases read : operand.reading host with
      | error fault =>
          simp only [Layout.respond, required, read]
          rw [read] at brought
          have refused := runFrom_merge_unread kind required brought
          apply meets_refusal intact (step_of_error ?_)
          simp only [perform, runFrom_bind, refused]
      | ok bytes =>
          simp only [Layout.respond, required, read]
          have fits := (array.layout.requireOperand_eq_ok_iff _).mp required
          rcases runFrom_merge intact kind fits read with ⟨next, after, merged, becomes⟩
          apply meets_change ?_ becomes
          simp only [perform, runFrom_bind, merged, runFrom_pure]

theorem meets_flush (intact : array.Intact host) :
    array.Meets host .flush (.ok .done, array.storage host) := by
  rcases runFrom_flush intact with ⟨outcome, after, flushed, becomes, served⟩
  cases outcome with
  | ok =>
      apply meets_change ?_ becomes
      simp only [perform, runFrom_bind, flushed, runFrom_pure]
  | error fault =>
      refine ⟨.error fault, array, after, step_of_error ?_, becomes, ?_⟩
      · simp only [perform, runFrom_bind, flushed]
      · intro serves
        exact absurd (served (serves rfl)) nofun

/-- A step of an intact array is what `Layout.respond` says, whatever the array is
kept in. -/
theorem step_meets (intact : array.Intact host) (operation : Operation BitArray) :
    array.Meets host operation (array.layout.respond (array.storage host)
      (fun operand => operand.reading host) operation) := by
  cases operation with
  | get index | raise index | lower index | raiseIfUnset index => exact meets_bit intact rfl
  | clear =>
      rcases runFrom_clear intact with ⟨next, after, cleared, becomes⟩
      apply meets_change ?_ becomes
      simp only [perform, runFrom_bind, cleared, runFrom_pure]
  | merge kind operand => exact meets_merge intact kind operand
  | snapshot | highest | lowest | count | positions => exact meets_survey intact rfl
  | next first =>
      have found := ((likeDerived intact.isOpen host).next first).trans
        (runFrom_next_in_place (runFrom_snapshot intact))
      exact meets_read intact (step_of_read rfl found)
  | flush => exact meets_flush intact

end BitArray
end BitStore
