import BitStore.Proofs.Arrays.Meaning

namespace BitStore

/-!
# The bits of an array as a map

To its caller an array is a map from positions to bits.  `Layout.update` says what
an operation makes of such a map and `Layout.Foretells` what the map says about the
answer; neither knows of bytes, masks or backings.  A watched array carries a map
along, and the map never loses touch with the storage: byte-wise changes and merges
are bit-wise ones, at every position that the storage has, also above the capacity.

The operand of a merge is read on the host as it is when the merge begins.  It may
be the array itself, or another array over the same file.
-/

namespace Layout

/-- The bits that an operation defines, in an array with this layout and these bits.
Indices out of range define none, and neither do operands that do not fit or cannot
be read. -/
def defines (layout : Layout) (reading : BitArray -> Except Fault Bytes) (bits : Nat -> Bool) :
    Operation BitArray -> Nat -> Option Bool
  | .raise index, position | .raiseIfUnset index, position =>
      if index ≤ layout.capacity ∧ position = index then some true else none
  | .lower index, position =>
      if index ≤ layout.capacity ∧ position = index then some false else none
  | .clear, position => if position < 8 * layout.byteLength then some false else none
  | .merge kind operand, position =>
      if operand.layout.byteLength = layout.byteLength ∧ position < 8 * layout.byteLength then
        match reading operand with
        | .ok other => some (kind.join (bits position) (other.bit position))
        | .error _ => none
      else none
  | _, _ => none

/-- What an operation makes of the bits of an array: those that it defines are as
defined, and all others stay. -/
def update (layout : Layout) (reading : BitArray -> Except Fault Bytes) (bits : Nat -> Bool)
    (operation : Operation BitArray) (position : Nat) : Bool :=
  (layout.defines reading bits operation position).getD (bits position)

/-- The answer to an operation on a single bit: an index out of range is refused. -/
def answer (layout : Layout) (index : Nat) (reply : Reply) : Except Fault Reply :=
  if index ≤ layout.capacity then .ok reply
  else .error (.indexOutOfRange index layout.capacity)

/-- What the bits of an array say about its answer to an operation. -/
def Foretells (layout : Layout) (reading : BitArray -> Except Fault Bytes)
    (bits : Nat -> Bool) : Operation BitArray -> Except Fault Reply -> Prop
  | .get index, reply => reply = layout.answer index (.flag (bits index))
  | .raise index, reply => reply = layout.answer index (.flag true)
  | .lower index, reply => reply = layout.answer index .done
  | .raiseIfUnset index, reply => reply = layout.answer index (.flag (!bits index))
  | .clear, reply => reply = .ok .done
  | .merge _ operand, reply =>
      reply = .ok .done ↔ operand.layout.byteLength = layout.byteLength ∧
        Exists fun other => reading operand = .ok other
  | .snapshot, reply =>
      Exists fun bytes => reply = .ok (.bytes bytes) ∧ bytes.length = layout.byteLength ∧
        bytes.bit = bits
  | _, _ => True

variable {layout : Layout} {bytes : Bytes} {reading : BitArray -> Except Fault Bytes}

theorem bit_behind (layout : Layout) {bytes : Bytes} (size : bytes.length = layout.byteLength)
    {position : Nat} (outside : ¬ position < 8 * layout.byteLength) :
    bytes.bit position = false := by
  apply Bytes.bit_eq_false_of_le
  rw [Bytes.width, size]
  exact Nat.le_of_not_lt outside

/-- Behind the last byte both have only unset bits, which a merge does not change. -/
theorem bit_respond_merge (size : bytes.length = layout.byteLength)
    (sizes : forall operand other, reading operand = .ok other ->
      other.length = operand.layout.byteLength) (kind : Merge) (operand : BitArray)
    (position : Nat) :
    (layout.respond bytes reading (.merge kind operand)).2.bit position =
      layout.update reading bytes.bit (.merge kind operand) position := by
  by_cases fits : operand.layout.byteLength = layout.byteLength
  · have required := (layout.requireOperand_eq_ok_iff layout.byteLength).mpr rfl
    simp only [respond, update, defines, fits, required, true_and]
    cases read : reading operand with
    | error fault => simp only [ite_self, Option.getD_none]
    | ok other =>
        have equal : other.length = bytes.length := by
          rw [sizes operand other read, fits, size]
        simp only [kind.bit_apply equal position]
        split
        next inside => rfl
        next outside =>
          have past := layout.bit_behind size outside
          have pastOther := layout.bit_behind (equal.trans size) outside
          rw [past, pastOther, kind.join_false, Option.getD_none]
  · simp only [respond, update, defines, requireOperand, fits, if_false, false_and,
      Option.getD_none]

/-- The bytes that an operation leaves have the bits that it makes. -/
theorem bit_respond (size : bytes.length = layout.byteLength)
    (sizes : forall operand other, reading operand = .ok other ->
      other.length = operand.layout.byteLength) (operation : Operation BitArray) :
    (layout.respond bytes reading operation).2.bit =
      layout.update reading bytes.bit operation := by
  funext position
  cases operation with
  | raise index =>
      rcases Nat.lt_or_ge layout.capacity index with outside | inside
      · simp only [respond, update, defines, layout.locate_of_gt outside,
          Nat.not_le_of_lt outside, false_and, if_false, Option.getD_none]
      · simp only [respond, update, defines, layout.locate_of_le inside, inside, true_and,
          bit_raise (layout.locate_of_le inside) size position]
        split <;> rfl
  | raiseIfUnset index =>
      rcases Nat.lt_or_ge layout.capacity index with outside | inside
      · simp only [respond, update, defines, layout.locate_of_gt outside,
          Nat.not_le_of_lt outside, false_and, if_false, Option.getD_none]
      · have located := layout.locate_of_le inside
        simp only [respond, update, defines, located, inside, true_and, test_of_locate located]
        cases set : bytes.bit index with
        | true =>
            rw [if_pos rfl]
            by_cases same : position = index
            · rw [if_pos same, same, set, Option.getD_some]
            · rw [if_neg same, Option.getD_none]
        | false =>
            rw [if_neg Bool.false_ne_true, bit_raise located size position]
            split <;> rfl
  | lower index =>
      rcases Nat.lt_or_ge layout.capacity index with outside | inside
      · simp only [respond, update, defines, layout.locate_of_gt outside,
          Nat.not_le_of_lt outside, false_and, if_false, Option.getD_none]
      · simp only [respond, update, defines, layout.locate_of_le inside, inside, true_and,
          bit_lower (layout.locate_of_le inside) size position]
        split <;> rfl
  | clear =>
      simp only [respond, update, defines, Bytes.bit_zeros]
      split
      next inside => rfl
      next outside => exact (layout.bit_behind size outside).symm
  | merge kind operand => exact bit_respond_merge size sizes kind operand position
  | get index =>
      simp only [respond, update, defines, Option.getD_none]
      cases layout.locate index <;> rfl
  | _ => rfl

/-- The answer to an operation is the one that the bits foretell. -/
theorem foretells_respond (size : bytes.length = layout.byteLength)
    (operation : Operation BitArray) :
    layout.Foretells reading bytes.bit operation
      (layout.respond bytes reading operation).1 := by
  cases operation with
  | get index =>
      rcases Nat.lt_or_ge layout.capacity index with outside | inside
      · simp only [Foretells, respond, answer, layout.locate_of_gt outside,
          if_neg (Nat.not_le_of_lt outside)]
      · have located := layout.locate_of_le inside
        simp only [Foretells, respond, answer, located, if_pos inside, test_of_locate located]
  | raise index =>
      rcases Nat.lt_or_ge layout.capacity index with outside | inside
      · simp only [Foretells, respond, answer, layout.locate_of_gt outside,
          if_neg (Nat.not_le_of_lt outside)]
      · simp only [Foretells, respond, answer, layout.locate_of_le inside, if_pos inside]
  | lower index =>
      rcases Nat.lt_or_ge layout.capacity index with outside | inside
      · simp only [Foretells, respond, answer, layout.locate_of_gt outside,
          if_neg (Nat.not_le_of_lt outside)]
      · simp only [Foretells, respond, answer, layout.locate_of_le inside, if_pos inside]
  | raiseIfUnset index =>
      rcases Nat.lt_or_ge layout.capacity index with outside | inside
      · simp only [Foretells, respond, answer, layout.locate_of_gt outside,
          if_neg (Nat.not_le_of_lt outside)]
      · have located := layout.locate_of_le inside
        simp only [Foretells, respond, answer, located, if_pos inside, test_of_locate located]
        cases bytes.bit index <;> rfl
  | merge kind operand =>
      cases required : layout.requireOperand operand.layout.byteLength with
      | error fault =>
          have misfit : operand.layout.byteLength ≠ layout.byteLength := by
            intro fits
            rw [(layout.requireOperand_eq_ok_iff _).mpr fits] at required
            contradiction
          simp only [Foretells, respond, required, misfit, false_and, reduceCtorEq]
      | ok =>
          have fits := (layout.requireOperand_eq_ok_iff _).mp required
          cases read : reading operand with
          | ok other =>
              simp only [Foretells, respond, required, read]
              exact iff_of_true trivial ⟨fits, other, rfl⟩
          | error fault =>
              simp only [Foretells, respond, required, read, reduceCtorEq, exists_false, and_false]
  | snapshot => exact ⟨bytes, rfl, size, rfl⟩
  | clear => rfl
  | _ => trivial

end Layout

/-! ## Carrying a map along -/

/-- An array on its host, and the bits that it is held to have. -/
structure Watched where
  array : BitArray
  host : Host
  bits : Nat -> Bool

namespace Watched

/-- In the beginning the bits are those of the storage. -/
def start (array : BitArray) (host : Host) : Watched where
  array := array
  host := host
  bits := (array.storage host).bit

/-- Perform an operation on the array, and put down what it makes of the bits. -/
def step (watched : Watched) (operation : Operation BitArray) : Except Fault Reply × Watched :=
  let ((reply, next), after) := watched.array.step operation watched.host
  (reply, {
    array := next
    host := after
    bits := watched.array.layout.update (fun operand => operand.reading watched.host)
      watched.bits operation })

/-- Perform operations one after the other, whatever they answer. -/
def after (watched : Watched) (operations : List (Operation BitArray)) : Watched :=
  operations.foldl (fun current operation => (current.step operation).2) watched

/-- Whether the operation takes the bit at an index away: it lowers the bit, clears
all of them, or takes only those of an operand that has the bit unset. -/
def Drops (watched : Watched) (index : Nat) : Operation BitArray -> Prop
  | .lower other => other = index
  | .clear => True
  | .merge .and operand =>
      operand.layout.byteLength = watched.array.layout.byteLength ∧
        Exists fun bytes => operand.reading watched.host = .ok bytes ∧ bytes.bit index = false
  | _ => False

/-- The bits are those of the storage, and the storage is intact. -/
structure Faithful (watched : Watched) : Prop where
  intact : watched.array.Intact watched.host
  bits : watched.bits = (watched.array.storage watched.host).bit

variable {watched : Watched}

theorem Faithful.step (faithful : watched.Faithful) (operation : Operation BitArray) :
    (watched.step operation).2.Faithful ∧
      (watched.step operation).2.array.layout = watched.array.layout ∧
      watched.array.layout.Foretells (fun operand => operand.reading watched.host)
        watched.bits operation (watched.step operation).1 := by
  rcases BitArray.step_meets faithful.intact operation
    with ⟨reply, next, after, stepped, becomes, meets⟩
  have size := faithful.intact.length_storage
  have sizes : forall (operand : BitArray) other, operand.reading watched.host = .ok other ->
      other.length = operand.layout.byteLength :=
    fun operand other read => BitArray.length_of_snapshot read
  simp only [Watched.step, stepped]
  refine ⟨⟨becomes.intact, ?_⟩, becomes.layout, ?_⟩
  · rw [becomes.storage, Layout.bit_respond size sizes, ← faithful.bits]
  · by_cases writing : operation = .flush
    · subst writing
      trivial
    · rw [meets fun same => absurd same writing, faithful.bits]
      exact Layout.foretells_respond size operation

theorem Faithful.after (faithful : watched.Faithful) (operations : List (Operation BitArray)) :
    (watched.after operations).Faithful ∧
      (watched.after operations).array.layout = watched.array.layout := by
  induction operations generalizing watched with
  | nil => exact ⟨faithful, rfl⟩
  | cons operation rest inductionHypothesis =>
      rcases faithful.step operation with ⟨stepped, layout, _⟩
      rcases inductionHypothesis stepped with ⟨reached, same⟩
      exact ⟨reached, same.trans layout⟩

/-- Watching a run does not interfere with it. -/
theorem after_eq_run (watched : Watched) (operations : List (Operation BitArray)) :
    (watched.after operations).array = (watched.array.run operations watched.host).1.2 ∧
      (watched.after operations).host = (watched.array.run operations watched.host).2 := by
  induction operations generalizing watched with
  | nil => exact ⟨rfl, rfl⟩
  | cons operation rest inductionHypothesis => exact inductionHypothesis _

/-! ## What it takes to unset a bit -/

theorem bits_raiseIfUnset {index : Nat} (inside : index ≤ watched.array.layout.capacity) :
    (watched.step (.raiseIfUnset index)).2.bits index = true := by
  change watched.array.layout.update _ watched.bits (.raiseIfUnset index) index = true
  simp only [Layout.update, Layout.defines, inside, and_self, if_true, Option.getD_some]

/-- A bit that is set stays set under every operation that does not drop it. -/
theorem bits_step_of_not_drops {index : Nat} {operation : Operation BitArray}
    (set : watched.bits index = true) (keeps : ¬ watched.Drops index operation) :
    (watched.step operation).2.bits index = true := by
  change watched.array.layout.update _ watched.bits operation index = true
  unfold Layout.update
  cases operation with
  | raise other | raiseIfUnset other =>
      simp only [Layout.defines]
      split
      · rfl
      · exact set
  | lower other =>
      have different : ¬ index = other := fun same => keeps same.symm
      simp only [Layout.defines, different, and_false, if_false, Option.getD_none, set]
  | clear => exact absurd trivial keeps
  | merge kind operand =>
      simp only [Layout.defines]
      split
      next fits =>
        cases read : operand.reading watched.host with
        | error fault => simp only [Option.getD_none, set]
        | ok bytes =>
            simp only [set, Option.getD_some]
            cases kind with
            | or => rfl
            | and =>
                cases bit : bytes.bit index with
                | true => rfl
                | false => exact absurd ⟨fits.1, bytes, read, bit⟩ keeps
      next => exact set
  | _ => exact set

/-- After a run a bit is still set, or some operation of the run dropped it. -/
theorem bits_after (watched : Watched) {index : Nat} (set : watched.bits index = true)
    (operations : List (Operation BitArray)) :
    (watched.after operations).bits index = true ∨
      Exists fun first => Exists fun operation => Exists fun last =>
        operations = first ++ operation :: last ∧
        (watched.after first).Drops index operation := by
  induction operations generalizing watched with
  | nil => exact .inl set
  | cons operation rest inductionHypothesis =>
      by_cases drops : watched.Drops index operation
      · exact .inr ⟨[], operation, rest, rfl, drops⟩
      · rcases inductionHypothesis _ (bits_step_of_not_drops set drops)
          with kept | ⟨first, dropping, last, split, dropped⟩
        · exact .inl kept
        · exact .inr ⟨operation :: first, dropping, last, congrArg _ split, dropped⟩

/-- An index that was answered to is in range, and the bit there was as answered. -/
theorem Faithful.of_raiseIfUnset (faithful : watched.Faithful) {index : Nat}
    (changed : (watched.step (.raiseIfUnset index)).1 = .ok (.flag true)) :
    index ≤ watched.array.layout.capacity ∧ watched.bits index = false := by
  have foretold := (faithful.step (.raiseIfUnset index)).2.2
  rw [changed] at foretold
  simp only [Layout.Foretells, Layout.answer] at foretold
  split at foretold
  next inside =>
    simp only [Except.ok.injEq, Reply.flag.injEq] at foretold
    exact ⟨inside, by simpa only [Bool.not_eq_true'] using foretold.symm⟩
  next => contradiction

end Watched

/-- Whatever is done to an open array, its bits are those of a map that each
operation changes as `Layout.update` says, and the map foretells the answers.  An
index is newly set twice only if some operation in between dropped its bit. -/
theorem bits_refine {array : BitArray} {host : Host} (intact : array.Intact host)
    (operations : List (Operation BitArray)) :
    let watched := (Watched.start array host).after operations
    (watched.array = (array.run operations host).1.2 ∧
      watched.host = (array.run operations host).2) ∧
    (Exists fun bytes => watched.array.reading watched.host = .ok bytes ∧
      bytes.length = array.layout.byteLength ∧ bytes.bit = watched.bits) ∧
    (forall operation, array.layout.Foretells (fun operand => operand.reading watched.host)
      watched.bits operation (watched.step operation).1) ∧
    forall index between,
      let raised := (watched.step (.raiseIfUnset index)).2
      (watched.step (.raiseIfUnset index)).1 = .ok (.flag true) ->
      ((raised.after between).step (.raiseIfUnset index)).1 = .ok (.flag true) ->
      Exists fun first => Exists fun operation => Exists fun last =>
        between = first ++ operation :: last ∧ (raised.after first).Drops index operation := by
  intro watched
  have faithful : (Watched.start array host).Faithful := ⟨intact, rfl⟩
  rcases faithful.after operations with ⟨reached, layout⟩
  refine ⟨Watched.after_eq_run _ operations, ⟨_, reached.intact.reading, ?_, ?_⟩, ?_, ?_⟩
  · rw [reached.intact.length_storage, layout]
    rfl
  · exact reached.bits.symm
  · intro operation
    rw [show array.layout = watched.array.layout from layout.symm]
    exact (reached.step operation).2.2
  · intro index between raised first second
    have inside := (reached.of_raiseIfUnset first).1
    have set : raised.bits index = true := Watched.bits_raiseIfUnset inside
    have unset := ((reached.step _).1.after between).1.of_raiseIfUnset second
    rcases raised.bits_after set between with kept | dropped
    · exact absurd (kept.symm.trans unset.2) nofun
    · exact dropped

/-- In a file: bit five is set, dropped by a merge and set again. -/
theorem bits_refine_twelve :
    let start := Watched.start (.file Twelve.file) Twelve.host
    let raised := (start.step (.raiseIfUnset 5)).2
    (start.step (.raiseIfUnset 5)).1 = .ok (.flag true) ∧
      ((raised.after [.get 5, .merge .and (.memory Twelve.memory)]).step
        (.raiseIfUnset 5)).1 = .ok (.flag true) ∧
      Exists fun first => Exists fun operation => Exists fun last =>
        [.get 5, .merge .and (.memory Twelve.memory)] = first ++ operation :: last ∧
        (raised.after first).Drops 5 operation := by
  rcases bits_refine Twelve.file_intact [] with ⟨_, _, _, separated⟩
  exact ⟨rfl, rfl, separated 5 _ rfl rfl⟩

end BitStore
