import BitStore.Proofs.Arrays.BitMap
import BitStore.Proofs.Arrays.Closing
import BitStore.Proofs.Storage.Effects

namespace BitStore

/-!
# Arrays that share a file

An array over a file keeps no byte of its own, so whoever else has opened the file
need not be known.  `BitArray.defines` is what a call makes of the content of a file,
and `BitArray.Shows` says that an answer is the one that the content calls for.  Both
look at the layout, the operation and the content, not at the backing or at how the
content came about.
-/

namespace Layout

variable {layout : Layout} {reading other : BitArray -> Except Fault Bytes}
  {first second : Nat -> Bool} {operation : Operation BitArray} {position : Nat}

/-- No operation defines a bit behind the last byte. -/
theorem defines_of_ge (beyond : 8 * layout.byteLength ≤ position) :
    layout.defines reading first operation position = none := by
  have behind : layout.capacity < position := by
    simp only [byteLength] at beyond
    omega
  have apart (index : Nat) : ¬ (index ≤ layout.capacity ∧ position = index) := by
    rintro ⟨inside, rfl⟩
    exact Nat.not_lt_of_le inside behind
  have past : ¬ position < 8 * layout.byteLength := Nat.not_lt_of_le beyond
  cases operation with
  | raise index | lower index | raiseIfUnset index => simp only [defines, apart, if_false]
  | clear => simp only [defines, past, if_false]
  | merge kind operand => simp only [defines, past, and_false, if_false]
  | _ => rfl

/-- Only the bit itself goes into what becomes of it. -/
theorem defines_congr (same : position < 8 * layout.byteLength -> first position = second position)
    (read : forall operand, operation.operand? = some operand -> reading operand = other operand) :
    layout.defines reading first operation position =
      layout.defines other second operation position := by
  cases operation with
  | merge kind operand =>
      simp only [defines, read operand rfl]
      split
      next inside => rw [same inside.2]
      next => rfl
  | _ => rfl

/-- An operation that is refused defines nothing. -/
theorem defines_of_error {bytes : Bytes} {fault : Fault}
    (refused : (layout.respond bytes reading operation).1 = .error fault) :
    layout.defines reading first operation = fun _ => none := by
  funext position
  cases operation with
  | raise index | lower index =>
      rcases Nat.lt_or_ge layout.capacity index with outside | inside
      · simp only [defines, Nat.not_le_of_lt outside, false_and, if_false]
      · simp only [respond, layout.locate_of_le inside] at refused
        contradiction
  | raiseIfUnset index =>
      rcases Nat.lt_or_ge layout.capacity index with outside | inside
      · simp only [defines, Nat.not_le_of_lt outside, false_and, if_false]
      · simp only [respond, layout.locate_of_le inside] at refused
        split at refused <;> contradiction
  | merge kind operand =>
      simp only [defines]
      split
      next fits =>
        have required := (layout.requireOperand_eq_ok_iff _).mpr fits.1
        cases read : reading operand with
        | error fault => rfl
        | ok bytes =>
            simp only [respond, required, read] at refused
            contradiction
      next => rfl
  | clear => contradiction
  | _ => rfl

end Layout

namespace BitArray

/-- What reading an array brings as long as its file is not cut. -/
def shown (array : BitArray) (host : Host) : Except Fault Bytes :=
  if array.isClosed then .error .closed else .ok (array.storage host)

/-- The bits of files that an operation of an array defines. -/
def defines (array : BitArray) (host : Host) (operation : Operation BitArray)
    (file : FileId) (position : Nat) : Option Bool :=
  if array.file? = some file then
    array.layout.defines (fun operand => operand.shown host) (host.bit file) operation position
  else none

/-- The answer is what the front of the file calls for. -/
def Shows (array : BitArray) (host : Host) (operation : Operation BitArray)
    (reply : Reply) : Prop :=
  forall file, array.file? = some file ->
    (array.layout.respond ((host.volume.content file).window 0 array.layout.byteLength)
      (fun operand => operand.shown host) operation).1 = .ok reply

/-- An array is whole while it is closed or intact. -/
def Whole (array : BitArray) (host : Host) : Prop :=
  array.Closed ∨ array.Intact host

variable {array next : BitArray} {host after : Host} {operation : Operation BitArray}

theorem Closed.isClosed (closed : array.Closed) : array.isClosed = true := by
  cases closed with
  | file gone | mapped gone =>
      simp only [BitArray.isClosed, FileArray.isClosed, MappedArray.isClosed, gone,
        Option.isNone_none]

theorem Closed.file? (closed : array.Closed) : array.file? = none := by
  cases closed with
  | file gone | mapped gone => simp only [BitArray.file?, gone, Option.map_none]

theorem Whole.reading (whole : array.Whole host) : array.reading host = array.shown host := by
  rcases whole with closed | intact
  · rw [BitArray.reading, closed.runFrom_snapshot, shown, if_pos closed.isClosed]
  · rw [intact.reading, shown, intact.isOpen, if_neg Bool.false_ne_true]

theorem Whole.evolves (whole : array.Whole host) {defined : FileId -> Nat -> Option Bool}
    {reach : FileId -> Nat} (evolves : host.Evolves after defined reach) :
    array.Whole after :=
  whole.imp id fun intact => intact.mono evolves.limits evolves.longer

/-- A bit of the storage is the one of the file. -/
theorem bit_storage (host : Host) {file : FileId} (kept : array.file? = some file) {position : Nat}
    (inside : position < 8 * array.layout.byteLength) :
    (array.storage host).bit position = host.bit file position := by
  rw [Bytes.bit_eq_getD, storage_getElem? host kept (by omega), Host.bit]

/-- What an array has become is what its file has evolved into. -/
theorem Becomes.evolves {bytes : Bytes} (becomes : array.Becomes host next after bytes)
    {bits : Nat -> Option Bool}
    (defined : forall position, position < 8 * array.layout.byteLength ->
      bytes.bit position = (bits position).getD ((array.storage host).bit position))
    (within : forall position, 8 * array.layout.byteLength ≤ position -> bits position = none) :
    host.Evolves after
      (fun file position => if array.file? = some file then bits position else none)
      (fun _ => 0) := by
  have changes := becomes.changes
  constructor
  case bits =>
    intro file position
    split
    next kept =>
      rcases Nat.lt_or_ge position (8 * array.layout.byteLength) with inside | beyond
      · have stored := bit_storage after (becomes.file?.trans kept)
          (becomes.layout ▸ inside)
        rw [← stored, becomes.storage, defined position inside, bit_storage host kept inside]
      · have same := becomes.tail file (position / 8) kept (by omega)
        rw [within position beyond, Option.getD_none, Host.bit, Host.bit, same]
    next elsewhere =>
      rw [Option.getD_none, Host.bit, Host.bit, changes.others file elsewhere]
  case length =>
    intro file
    rw [changes.length, Nat.max_zero]
  case held => exact fun file => (changes.held file).mpr
  case limits => exact changes.limits
  case sound =>
    intro sound
    constructor
    · intro location file member
      rw [changes.entries] at member
      exact (changes.held file).mpr (sound.entries location file member)
    · intro file
      rw [changes.length, changes.limits]
      exact sound.limited file

theorem Becomes.quiet (becomes : array.Becomes host next after (array.storage host)) :
    host.Quiet after := by
  have evolves := becomes.evolves (fun _ _ => rfl) (fun _ _ => rfl)
  simp only [ite_self] at evolves
  exact evolves

/-! ## Calls -/

/-- A call on a closed array may be answered, but nothing comes of it. -/
theorem Closed.step_quiet (closed : array.Closed) (operation : Operation BitArray)
    (host : Host) :
    Exists fun outcome => Exists fun after =>
      array.step operation host = ((outcome, array), after) ∧ host.Quiet after := by
  rcases closed.step_apply operation host with ⟨after, stepped, unchanged⟩
  refine ⟨_, after, stepped, Host.quiet_of_changesOnly (unchanged ?_).changesNone⟩
  intro operand _
  exact runFrom_snapshot_state operand host

theorem defines_of_closed (closed : array.Closed) :
    array.defines host operation = fun _ _ => none := by
  funext file position
  rw [defines, closed.file?, if_neg]
  exact (Option.some_ne_none file).symm

/-- Writing back changes nothing, whether or not the system refuses it. -/
theorem Intact.step_flush (intact : array.Intact host) :
    Exists fun outcome => Exists fun after =>
      array.step (.flush : Operation BitArray) host = ((outcome, array), after) ∧
      array.Intact after ∧ host.Quiet after ∧
      (outcome = .ok .done ∨ Exists fun fault => outcome = .error fault) := by
  rcases runFrom_flush intact with ⟨flushed, after, run, becomes, _⟩
  cases flushed with
  | ok =>
      refine ⟨.ok .done, after, step_of_ok ?_, becomes.intact, becomes.quiet, .inl rfl⟩
      simp only [perform, runFrom_bind, run, runFrom_pure]
  | error fault =>
      refine ⟨.error fault, after, step_of_error ?_, becomes.intact, becomes.quiet,
        .inr ⟨fault, rfl⟩⟩
      simp only [perform, runFrom_bind, run]

/-- The bits that are defined, with those of the storage in place of those of the file. -/
theorem defines_eq
    (read : forall operand, operation.operand? = some operand ->
      operand.reading host = operand.shown host) :
    array.defines host operation = fun file position =>
      if array.file? = some file then
        array.layout.defines (fun operand => operand.reading host) (array.storage host).bit
          operation position
      else none := by
  funext file position
  unfold defines
  split
  next kept =>
    apply Layout.defines_congr
    · exact fun inside => (bit_storage host kept inside).symm
    · exact fun operand named => (read operand named).symm
  next => rfl

/-- A call on a whole array changes contents by what it defines, and answers what the
content calls for; a call that is refused changes none. -/
theorem Whole.step (whole : array.Whole host)
    (operands : forall operand, operation.operand? = some operand -> operand.Whole host) :
    Exists fun outcome => Exists fun next => Exists fun after =>
      array.step operation host = ((outcome, next), after) ∧ next.Whole after ∧
      ((Exists fun fault => outcome = .error fault ∧ host.Quiet after) ∨
        Exists fun reply => outcome = .ok reply ∧ array.Shows host operation reply ∧
          host.Evolves after (array.defines host operation) (fun _ => 0)) := by
  have read (operand : BitArray) (named : operation.operand? = some operand) :=
    (operands operand named).reading
  rcases whole with closed | intact
  case inl =>
    rcases closed.step_quiet operation host with ⟨outcome, after, stepped, quiet⟩
    refine ⟨outcome, array, after, stepped, .inl closed, ?_⟩
    cases outcome with
    | error fault => exact .inl ⟨fault, rfl, quiet⟩
    | ok reply =>
        refine .inr ⟨reply, rfl, ?_, ?_⟩
        · intro file kept
          rw [closed.file?] at kept
          contradiction
        · rw [defines_of_closed closed]
          exact quiet
  by_cases writing : operation = .flush
  case pos =>
    subst writing
    rcases intact.step_flush with ⟨outcome, after, stepped, still, quiet, rfl | ⟨fault, rfl⟩⟩
    · refine ⟨_, array, after, stepped, .inr still, .inr ⟨.done, rfl, fun _ _ => rfl, ?_⟩⟩
      rw [defines_eq read]
      simp only [Layout.defines, ite_self]
      exact quiet
    · exact ⟨_, array, after, stepped, .inr still, .inl ⟨fault, rfl, quiet⟩⟩
  rcases step_meets intact operation with ⟨outcome, next, after, stepped, becomes, meets⟩
  refine ⟨outcome, next, after, stepped, .inr becomes.intact, ?_⟩
  have size := intact.length_storage
  have sizes : forall (operand : BitArray) bytes, operand.reading host = .ok bytes ->
      bytes.length = operand.layout.byteLength :=
    fun operand bytes read => length_of_snapshot read
  have evolves : host.Evolves after (array.defines host operation) (fun _ => 0) := by
    rw [defines_eq read]
    apply becomes.evolves
    · intro position _
      rw [Layout.bit_respond size sizes, Layout.update]
    · exact fun position beyond => Layout.defines_of_ge beyond
  have answered := meets fun same => absurd same writing
  cases outcome with
  | error fault =>
      have nothing : array.defines host operation = fun _ _ => none := by
        funext file position
        simp only [defines_eq read, Layout.defines_of_error answered.symm, ite_self]
      refine .inl ⟨fault, rfl, ?_⟩
      rw [nothing] at evolves
      exact evolves
  | ok reply =>
      refine .inr ⟨reply, rfl, ?_, evolves⟩
      intro file kept
      rw [← storage_eq_window kept, ← Layout.respond_congr _ _ _ read]
      exact answered.symm

theorem Whole.runFrom_snapshot (whole : array.Whole host) :
    runFrom array.snapshot host = (array.shown host, host) :=
  Prod.ext whole.reading (runFrom_snapshot_state array host)

theorem Whole.quiet_flush (whole : array.Whole host) :
    host.Quiet (runFrom array.flush host).2 := by
  rcases whole with closed | intact
  · rw [closed.runFrom_flush]
    exact Host.Quiet.refl host
  · rcases BitArray.runFrom_flush intact with ⟨outcome, after, run, becomes, _⟩
    rw [run]
    exact becomes.quiet

/-- Closing leaves a whole array, also where the system keeps the mapping or does not sync
the file. -/
theorem Whole.close (whole : array.Whole host) :
    Exists fun outcome => Exists fun next => Exists fun after =>
      array.close host = ((outcome, next), after) ∧ next.Whole after ∧ host.Quiet after := by
  rcases whole with closed | intact
  case inl =>
    exact ⟨_, array, host, closed.close_apply host, .inl closed, Host.Quiet.refl host⟩
  rcases memory_or_file?_of_isOpen intact.isOpen with ⟨source, rfl⟩ | ⟨file, kept⟩
  · exact ⟨_, _, host, rfl, .inr (.memory source), Host.Quiet.refl host⟩
  · rcases close_open kept (intact.holds kept) with ⟨next, after, run, closed, _, _, confines⟩
    exact ⟨_, next, after, run, .inl closed, confines.quiet⟩

theorem quiet_drop (array : BitArray) (host : Host) : host.Quiet (array.drop host).2 := by
  cases array with
  | memory array | file array => exact Host.Quiet.refl host
  | mapped array =>
      cases live : array.region with
      | none =>
          simp only [drop, MappedArray.drop, live]
          exact Host.Quiet.refl host
      | some region =>
          simp only [drop, MappedArray.drop, live]
          exact region.quiet_drop host

end BitArray
end BitStore
