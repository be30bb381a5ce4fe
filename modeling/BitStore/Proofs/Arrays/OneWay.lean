import BitStore.Proofs.Arrays.Ready

namespace BitStore

/-!
# Operations that go one way

Setting a bit, setting it if it is unset and merging by `or` set bits and clear none; clearing
a bit, clearing all and merging by `and` clear bits and set none.  `Operation.direction?` tells
the two families apart by the merge that belongs to them.  An operation of a family moves the
positions that it strikes to one value, the pole of the family, and leaves all others as they
are.  Which positions it strikes depends on the layout and on the operand, and not on the bits.

A file that was cut treats the families differently.  What it lacks counts as unset.  An
operation that would set a bit there fails, and so the bit stays unset, while nothing is lost
if one fails that would clear it.  `BitArray.Performs` says when an operation succeeds and
what it leaves to be seen.
-/

namespace Merge

/-- The value to which a merge moves bits. -/
def pole : Merge -> Bool
  | .and => false
  | .or => true

theorem join_eq (kind : Merge) (bit other : Bool) :
    kind.join bit other = if other = kind.pole then kind.pole else bit := by
  cases kind <;> cases bit <;> cases other <;> rfl

end Merge

namespace Operation

/-- The direction in which an operation moves bits, if it moves bits in one direction. -/
def direction? {ω : Type} : Operation ω -> Option Merge
  | .raise _ | .raiseIfUnset _ => some .or
  | .lower _ | .clear => some .and
  | .merge kind _ => some kind
  | _ => none

/-- Clearing all is the only operation that can make a file longer. -/
def clears {ω : Type} : Operation ω -> Bool
  | .clear => true
  | _ => false

theorem clears_of_rising {ω : Type} {operation : Operation ω}
    (towards : operation.direction? = some .or) : operation.clears = false := by
  cases operation <;> cases towards <;> rfl

end Operation

namespace Layout

variable {layout : Layout} {reading other : BitArray -> Except Fault Bytes} {kind : Merge}
  {operation : Operation BitArray} {position : Nat}

/-- Whether an operation moves the bit at a position to the pole, wherever the bit was. -/
def strikes (layout : Layout) (reading : BitArray -> Except Fault Bytes) (kind : Merge)
    (operation : Operation BitArray) (position : Nat) : Bool :=
  layout.update reading (fun _ => !kind.pole) operation position == kind.pole

/-- What it takes for an operation to be accepted: an index in range, or an operand that fits
and can be read. -/
def Admits (layout : Layout) (reading : BitArray -> Except Fault Bytes) :
    Operation BitArray -> Prop
  | .raise index | .raiseIfUnset index | .lower index => index ≤ layout.capacity
  | .merge _ operand => operand.layout.byteLength = layout.byteLength ∧
      Exists fun bytes => reading operand = .ok bytes
  | _ => True

/-- How many bytes an operation has to find in a file. -/
def reach (layout : Layout) : Operation BitArray -> Nat
  | .raise index | .raiseIfUnset index | .lower index => index / 8 + 1
  | .merge _ _ => layout.byteLength
  | _ => 0

/-- The positions that are struck come to the pole, and the others stay. -/
theorem update_eq_strikes (towards : operation.direction? = some kind) (bits : Nat -> Bool) :
    layout.update reading bits operation position =
      if layout.strikes reading kind operation position then kind.pole else bits position := by
  cases operation <;> cases towards <;> simp only [strikes, update, defines, Merge.pole]
  case raise | raiseIfUnset | lower | clear => split <;> rfl
  case merge operand =>
    split
    next =>
      cases reading operand with
      | error fault => cases kind <;> rfl
      | ok bytes =>
          simp only [Option.getD_some, Merge.join_eq]
          cases kind <;> cases bytes.bit position <;> rfl
    next => cases kind <;> rfl

/-- Of all arrays, what is struck depends on the operand only. -/
theorem strikes_congr
    (same : forall operand, operation.operand? = some operand -> reading operand = other operand) :
    layout.strikes reading kind operation position =
      layout.strikes other kind operation position := by
  rw [strikes, strikes, update, update, defines_congr (fun _ => rfl) same]

theorem admits_congr
    (same : forall operand, operation.operand? = some operand -> reading operand = other operand) :
    layout.Admits reading operation ↔ layout.Admits other operation := by
  cases operation with
  | merge kind operand => simp only [Admits, same operand rfl]
  | _ => exact Iff.rfl

end Layout

namespace BitArray

variable {array next last : BitArray} {host after final : Host} {kind : Merge}
  {operation : Operation BitArray}

/-! ## Steps one after the other -/

/-- What operations of a direction leave of an array, apart from its bits.  If all was cleared,
the file reaches as far as the array. -/
structure Follows (cleared : Bool) (array : BitArray) (host : Host) (next : BitArray)
    (after : Host) : Prop where
  ready : next.Ready after
  layout : next.layout = array.layout
  file? : next.file? = array.file?
  others : forall file, array.file? ≠ some file ->
    after.volume.content file = host.volume.content file
  reaches : forall reach, next.Reaches after reach ↔
    array.Reaches host reach ∨ (cleared = true ∧ reach ≤ array.layout.byteLength)

theorem Turns.follows {bytes : Bytes} (turns : array.Turns host next after bytes) :
    Follows false array host next after where
  ready := turns.ready
  layout := turns.layout
  file? := turns.file?
  others := turns.changes.others
  reaches reach := by
    rw [turns.reaches, or_iff_left]
    exact fun cleared => Bool.false_ne_true cleared.1

/-- Where all bytes are reached anyway, it does not matter whether all was cleared. -/
theorem Turns.follows_whole {bytes : Bytes} {cleared : Bool}
    (turns : array.Turns host next after bytes)
    (reached : forall reach, array.Reaches host reach) : Follows cleared array host next after :=
  { turns.follows with
    reaches := fun reach =>
      iff_of_true ((turns.reaches reach).mpr (reached reach)) (.inl (reached reach)) }

theorem Ready.follows_self (ready : array.Ready host) : Follows false array host array host :=
  (ready.turns_self (Host.ChangesOnly.refl none host)).follows

theorem Follows.trans {cleared again : Bool} (first : Follows cleared array host next after)
    (second : Follows again next after last final) :
    Follows (cleared || again) array host last final where
  ready := second.ready
  layout := second.layout.trans first.layout
  file? := second.file?.trans first.file?
  others file elsewhere :=
    (second.others file (first.file?.symm ▸ elsewhere)).trans (first.others file elsewhere)
  reaches reach := by
    rw [second.reaches, first.reaches, first.layout, or_assoc, Bool.or_eq_true, or_and_right]

/-- An array that is kept elsewhere is read as before. -/
theorem Follows.reading {cleared : Bool} (follows : Follows cleared array host next after)
    {other : BitArray}
    (apart : other.Apart array) : other.reading after = other.reading host :=
  reading_congr fun file kept => follows.others file (apart file kept)

/-- When an operation of a direction succeeds, and what it leaves.  Only where it would set a
bit does it matter for the bits whether the file has the bytes. -/
structure Performs (kind : Merge) (array : BitArray) (host : Host)
    (operation : Operation BitArray) : Prop where
  ok_iff : (Exists fun reply => (array.step operation host).1.1 = .ok reply) ↔
    array.layout.Admits (fun operand => operand.reading host) operation ∧
      array.Reaches host (array.layout.reach operation)
  follows : Follows operation.clears array host (array.step operation host).1.2
    (array.step operation host).2
  face : (kind = .or -> array.layout.Admits (fun operand => operand.reading host) operation ->
      array.Reaches host (array.layout.reach operation)) ->
    (array.step operation host).1.2.face (array.step operation host).2 =
      (array.layout.respond (array.face host) (fun operand => operand.reading host) operation).2

/-! ## The three ways in which a step ends -/

theorem performs_of_done {reply : Reply}
    (admits : array.layout.Admits (fun operand => operand.reading host) operation)
    (reached : array.Reaches host (array.layout.reach operation))
    (stepped : array.step operation host = ((.ok reply, next), after))
    (follows : Follows operation.clears array host next after)
    (face : next.face after = (array.layout.respond (array.face host)
      (fun operand => operand.reading host) operation).2) :
    Performs kind array host operation where
  ok_iff := iff_of_true ⟨reply, by rw [stepped]⟩ ⟨admits, reached⟩
  follows := by rwa [stepped]
  face _ := by rwa [stepped]

theorem performs_of_refused (ready : array.Ready host) {fault : Fault}
    (refused : ¬ array.layout.Admits (fun operand => operand.reading host) operation)
    (stays : operation.clears = false)
    (stepped : array.step operation host = ((.error fault, array), host))
    (same : (array.layout.respond (array.face host)
      (fun operand => operand.reading host) operation).2 = array.face host) :
    Performs kind array host operation where
  ok_iff := by
    rw [stepped]
    refine iff_of_false ?_ fun met => refused met.1
    rintro ⟨reply, ⟨⟩⟩
  follows := by
    rw [stepped, stays]
    exact ready.follows_self
  face _ := by rw [stepped, same]

theorem performs_of_cut {fault : Fault}
    (admits : array.layout.Admits (fun operand => operand.reading host) operation)
    (cut : ¬ array.Reaches host (array.layout.reach operation))
    (stepped : array.step operation host = ((.error fault, array), after))
    (follows : Follows operation.clears array host array after)
    (face : kind = .and -> array.face after = (array.layout.respond (array.face host)
      (fun operand => operand.reading host) operation).2) :
    Performs kind array host operation where
  ok_iff := by
    rw [stepped]
    refine iff_of_false ?_ fun met => cut met.2
    rintro ⟨reply, ⟨⟩⟩
  follows := by rwa [stepped]
  face full := by
    rw [stepped]
    cases kind with
    | and => exact face rfl
    | or => exact absurd (full rfl admits) cut

/-! ## A file that was cut -/

/-- Only in a file can bytes be missing. -/
theorem Ready.attached_of_cut (ready : array.Ready host) {reach : Nat}
    (cut : ¬ array.Reaches host reach) :
    Exists fun source => Exists fun handle : Handle => array = .file source ∧
      source.Attached handle host ∧ (host.volume.content handle.file).length < reach := by
  cases ready with
  | memory array => exact absurd trivial cut
  | @file source handle attached =>
      refine ⟨source, handle, rfl, attached, Nat.lt_of_not_le fun enough => cut ?_⟩
      intro other same
      cases attached.live.symm.trans same
      exact enough
  | mapped live held => exact absurd trivial cut

/-- What is missing in a file is shown as unset. -/
theorem bit_face_of_cut {source : FileArray} {handle : Handle}
    (attached : source.Attached handle host) {position : Nat}
    (cut : (host.volume.content handle.file).length < position / 8 + 1) :
    ((BitArray.file source).face host).bit position = false := by
  rcases Nat.lt_or_ge (position / 8) (BitArray.file source).layout.byteLength with inside | beyond
  · rw [face, Bytes.bit_eq_getD, storage_getElem? host (file?_file attached.live) inside,
      Content.byte_of_le _ (Nat.le_of_lt_succ cut), Byte.bit_zero]
  · apply Bytes.bit_eq_false_of_le
    rw [Bytes.width, (Ready.file attached).length_face]
    omega

/-- Merging by `and` leaves the zeros that stand for missing bytes. -/
theorem absorb_cut {source : FileArray} {handle : Handle} {bytes : Bytes}
    (attached : source.Attached handle host) (kind : Merge)
    (size : bytes.length = source.layout.byteLength)
    (cut : (host.volume.content handle.file).length < source.layout.byteLength) :
    Exists fun after =>
      runFrom ((BitArray.file source).absorb kind bytes) host =
        (.error (.storage "unable to read bit array from disk" .endOfFile), after) ∧
      host.ChangesOnly (some handle.file) after ∧
      (kind = .and -> (BitArray.file source).face after =
        kind.apply ((BitArray.file source).face host) bytes) := by
  have kept := file?_file attached.live
  have long : ((BitArray.file source).face host).length = source.layout.byteLength :=
    (Ready.file attached).length_face
  -- the record of the merge comes before the first byte
  let begun := host.recorded (.mergingFile kind source.path)
  rcases FileArray.runFrom_mergeFrom_cut attached.live begun kind (size ▸ cut)
    (Nat.le_trans (Nat.le_of_lt cut) attached.allowed) (size ▸ attached.expressible)
    with ⟨after, run, changes, combined⟩
  refine ⟨after, ?_, (Host.ChangesOnly.recorded _ host _).trans changes, ?_⟩
  · simp only [absorb, runFrom_bind, runFrom_liftM, Host.record_apply]
    rw [run]
  · rintro rfl
    rw [Merge.apply_of_length _ (size.trans long.symm), face, face, storage_eq_window kept,
      storage_eq_window kept]
    apply Content.window_combined _ (Nat.le_of_eq size.symm)
    intro place inside
    have partner : place < bytes.length := size ▸ inside
    rw [← Content.getElem?_toList, combined]
    rcases Nat.lt_or_ge place (host.volume.content handle.file).length with reached | missing
    · have found := Content.toList_getElem? _ _ reached
      rw [List.getElem?_zipWith, List.getElem?_eq_getElem partner]
      simp only [begun, Host.recorded, found, Option.getD_some]
    · have short : (List.zipWith Merge.and.combine
          (begun.volume.content handle.file).toList bytes).length ≤ place := by
        rw [List.length_zipWith, Content.length_toList]
        exact Nat.le_trans (Nat.min_le_left _ _) missing
      rw [List.getElem?_eq_none short, Content.byte_of_le _ missing]
      exact UInt8.zero_and.symm

/-! ## Every step -/

theorem Ready.performs_bit (ready : array.Ready host) {index : Nat}
    (towards : operation.direction? = some kind) (single : operation.index? = some index) :
    Performs kind array host operation := by
  have reads : array.layout.reach operation = index / 8 + 1 := by
    cases operation <;> cases single <;> cases towards <;> rfl
  have accepts : array.layout.Admits (fun operand => operand.reading host) operation ↔
      index ≤ array.layout.capacity := by
    cases operation <;> cases single <;> cases towards <;> exact Iff.rfl
  have stays : operation.clears = false := by
    cases operation <;> cases single <;> rfl
  rcases Nat.lt_or_ge array.layout.capacity index with outside | inside
  · have located := array.layout.locate_of_gt outside
    refine performs_of_refused ready ?_ stays (ready.step_outside single outside) ?_
    · exact fun admits => Nat.not_lt_of_le (accepts.mp admits) outside
    · rw [array.layout.respond_refused _ _ single located]
  have admits := accepts.mpr inside
  by_cases reached : array.Reaches host (index / 8 + 1)
  · rcases ready.step_bit single inside reached with ⟨reply, next, after, stepped, turns⟩
    exact performs_of_done admits (reads ▸ reached) stepped (stays ▸ turns.follows) turns.face
  · rcases ready.attached_of_cut reached with ⟨source, handle, rfl, attached, cut⟩
    have stepped := (attached.depends_bit single inside).failed cut
    refine performs_of_cut admits (reads ▸ reached) stepped (stays ▸ ready.follows_self) ?_
    rintro rfl
    -- the bit that would be cleared is missing, and so it is not set
    cases operation <;> cases single <;> cases towards
    have located := (BitArray.file source).layout.locate_of_le inside
    simp only [Layout.respond, located]
    apply Bytes.eq_of_bit (List.length_modify ..).symm
    intro position _
    rw [Layout.bit_lower located ready.length_face]
    split
    next same => rw [same, bit_face_of_cut attached cut]
    next => rfl

theorem Ready.performs_clear (ready : array.Ready host) : Performs .and array host .clear := by
  have size := Bytes.length_zeros array.layout.byteLength
  cases ready with
  | memory array =>
      have zeros : array.clear.toBytes = Bytes.zeros array.layout.byteLength := by
        simp only [MemoryArray.toBytes, MemoryArray.clear, Array.toList_replicate, Bytes.zeros]
      have turns := turns_memory array array.clear rfl host
      rw [zeros] at turns
      exact performs_of_done trivial trivial (step_of_ok rfl) (turns.follows_whole fun _ => trivial)
        turns.face
  | @file array handle attached =>
      have cleared := attached.cleared
      refine performs_of_done trivial (fun _ _ => Nat.zero_le _) attached.step_clear ?_
        cleared.zeros
      constructor
      case ready => exact .file cleared.attached
      case layout => rfl
      case file? => rfl
      case others =>
        intro file elsewhere
        apply cleared.others
        rintro rfl
        exact elsewhere (file?_file attached.live)
      case reaches =>
        intro reach
        simp only [Reaches, attached.live, Option.some.injEq, forall_eq', cleared.length,
          true_and, Operation.clears, layout]
        omega
  | @mapped array region live held =>
      simp only [layout] at size
      have stored := MappedArray.storeFront_apply live host size
      have front := Content.mappedFront_store_front (host.volume.content region.file)
        (Bytes.zeros array.layout.byteLength)
      have turns := turns_mapped live held
        (fun content => content.store 0 (Bytes.zeros array.layout.byteLength)) fun _ => rfl
      rw [size] at front
      rw [front] at turns
      have run : runFrom ((BitArray.mapped array).perform (.clear : Operation BitArray)) host =
          (.ok (.done, .mapped array), host.withContent region.file fun content =>
            content.store 0 (Bytes.zeros array.layout.byteLength)) := by
        simp only [perform, clear, MappedArray.clear, MappedArray.live, live, runFrom_bind,
          runFrom_outcome, runFrom_liftM, stored, runFrom_pure]
      exact performs_of_done trivial trivial (step_of_ok run) (turns.follows_whole fun _ => trivial)
        turns.face

theorem Ready.performs_merge (ready : array.Ready host) (kind : Merge) (operand : BitArray) :
    Performs kind array host (.merge kind operand) := by
  by_cases fits : operand.layout.byteLength = array.layout.byteLength
  · have required := (array.layout.requireOperand_eq_ok_iff operand.layout.byteLength).mpr fits
    have brought := runFrom_container_snapshot operand host
    cases read : operand.reading host with
    | error fault =>
        rw [read] at brought
        refine performs_of_refused ready ?_ rfl
          (step_merge_error (runFrom_merge_unread kind required brought)) ?_
        · rintro ⟨_, bytes, found⟩
          cases read.symm.trans found
        · simp only [Layout.respond, required, read]
    | ok bytes =>
        have expected : (array.layout.respond (array.face host)
            (fun operand => operand.reading host) (.merge kind operand)).2 =
              kind.apply (array.face host) bytes := by
          simp only [Layout.respond, required, read]
        have admits : array.layout.Admits (fun operand => operand.reading host)
            (.merge kind operand) := ⟨fits, bytes, read⟩
        by_cases reached : array.Reaches host array.layout.byteLength
        · rcases ready.step_merge kind fits read reached with ⟨next, after, stepped, turns⟩
          exact performs_of_done admits reached stepped turns.follows
            (turns.face.trans expected.symm)
        · rcases ready.attached_of_cut reached with ⟨source, handle, rfl, attached, cut⟩
          have size : bytes.length = source.layout.byteLength :=
            (length_of_snapshot read).trans fits
          rcases absorb_cut attached kind size cut with ⟨after, absorbed, changes, face⟩
          rw [read] at brought
          have stepped := step_merge_error
            ((runFrom_merge_read kind required brought).trans absorbed)
          exact performs_of_cut admits reached stepped (turns_file attached changes rfl).follows
            fun falling => (face falling).trans expected.symm
  · have refused : array.layout.requireOperand operand.layout.byteLength = .error _ := if_neg fits
    refine performs_of_refused ready ?_ rfl
      (step_merge_error (runFrom_merge_misfit host kind refused)) ?_
    · exact fun admits => fits admits.1
    · simp only [Layout.respond, refused]

/-- Every operation of a direction performs. -/
theorem Ready.performs (ready : array.Ready host) (towards : operation.direction? = some kind) :
    Performs kind array host operation := by
  cases operation with
  | raise index | raiseIfUnset index | lower index => exact ready.performs_bit towards rfl
  | clear =>
      cases towards
      exact ready.performs_clear
  | merge own operand =>
      cases towards
      exact ready.performs_merge kind operand
  | _ => contradiction

end BitArray
end BitStore
