import BitStore.Proofs.Bits.Checked
import BitStore.Proofs.Bits.Ends
import BitStore.Proofs.Bits.Words

namespace BitStore

/-!
# Scans in words

The scans for set bits and the windows of eight bytes, with all of their checks.  A search in
a window needs that the window ends at a word, however many bytes there are; the place behind
a find is a word if the window ends in front of the last one.  The scans from both ends need
that there are no more than `2 ^ 61` bytes, as many as the greatest capacity has.  A window of
eight bytes needs nothing, because its end is looked at first.
-/

namespace Byte

/-- The number of unset bits above the set ones. -/
def leadingZeros (byte : UInt8) : Nat :=
  ((List.range 8).reverse.takeWhile fun j => !bit byte j).length

/-- The unset bits above the highest set bit leave room for it. -/
theorem highest?_eq_leadingZeros {byte : UInt8} (nonzero : byte ≠ 0) :
    leadingZeros byte ≤ 7 ∧ highest? byte = some (7 - leadingZeros byte) := by
  have each : forall number : Fin 256, number ≠ 0 ->
      leadingZeros (UInt8.ofNat number) ≤ 7 ∧
        highest? (UInt8.ofNat number) = some (7 - leadingZeros (UInt8.ofNat number)) := by
    decide +kernel
  have this := each ⟨byte.toNat, byte.toNat_lt⟩ fun zero =>
    nonzero (UInt8.toNat_inj.mp (Fin.mk.inj zero))
  rwa [UInt8.ofNat_toNat] at this

theorem exists_lowest? {byte : UInt8} (nonzero : byte ≠ 0) :
    Exists fun j => lowest? byte = some j := by
  have highest := (highest?_eq_leadingZeros nonzero).2
  cases found : lowest? byte with
  | some j => exact ⟨j, rfl⟩
  | none =>
      have listed := List.mem_reverse.mp (List.mem_of_find?_eq_some highest)
      exact absurd (List.find?_some highest) (List.find?_eq_none.mp found _ listed)

theorem lt_of_highest? {byte : UInt8} {j : Nat} (found : highest? byte = some j) : j < 8 :=
  List.mem_range.mp (List.mem_reverse.mp (List.mem_of_find?_eq_some found))

end Byte

namespace Checked

/-- The set bit of greatest position in a byte, by the unset bits above it. -/
def highestOf? (byte : UInt8) : Checked (Option Nat) := do
  if byte = 0 then return none
  return some (← sub 7 (Byte.leadingZeros byte))

/-- The set bit of least position in a byte. -/
def lowestOf? (byte : UInt8) : Checked (Option Nat) :=
  return Byte.lowest? byte

/-- The position of a bit that is found in a byte; `index` is the place of the byte. -/
def inByte? (find : UInt8 -> Checked (Option Nat)) (byte : UInt8) (index : Nat) :
    Checked (Option Nat) := do
  match ← find byte with
  | some bit => return some (← add (← mul index 8) bit)
  | none => return none

/-- The position of a bit in the first of the listed bytes that is not zero. -/
def inFirst? (find : UInt8 -> Checked (Option Nat)) (entries : List (UInt8 × Nat)) :
    Checked (Option Nat) :=
  match entries.find? fun entry => entry.1 != 0 with
  | some (byte, index) => inByte? find byte index
  | none => return none

/-- The set bit of greatest position. -/
def highest? (bytes : Bytes) : Checked (Option Nat) :=
  inFirst? highestOf? bytes.zipIdx.reverse

/-- The set bit of least position. -/
def lowest? (bytes : Bytes) : Checked (Option Nat) :=
  inFirst? lowestOf? bytes.zipIdx

/-- Keep of the byte at `index` the positions from `first` on. -/
def clipBelow (first firstByte index : Nat) (byte : UInt8) : Checked UInt8 := do
  if index = firstByte then return byte &&& (← raiseByte 255 (first &&& 7))
  return byte

/-- Keep of the byte at `index` the positions up to `last`. -/
def clipAbove (last index : Nat) (byte : UInt8) : Checked UInt8 := do
  if index = (← shiftDown last 3) then
    return byte &&& (← lowerByte 255 (← sub 7 (last &&& 7)))
  return byte

/-- The least set position of a window; the bytes are listed with their places behind the
first byte of the window. -/
def searchFrom? (first last firstByte : Nat) : List (UInt8 × Nat) -> Checked (Option Nat)
  | [] => return none
  | (byte, offset) :: rest => do
      let index ← add firstByte offset
      let clipped ← clipAbove last index (← clipBelow first firstByte index byte)
      match ← inByte? lowestOf? clipped index with
      | some position => return some position
      | none => searchFrom? first last firstByte rest

/-- The least set position that is at least `first` and at most `last`. -/
def next? (bytes : Bytes) (first last : Nat) : Checked (Option Nat) := do
  if last < first then return none
  if bytes.isEmpty then return none
  let firstByte ← shiftDown first 3
  let lastByte := min (← shiftDown last 3) (← sub bytes.length 1)
  if lastByte < firstByte then return none
  let window ← slice bytes firstByte (← add lastByte 1)
  searchFrom? first last firstByte window.zipIdx

/-- The finds of searches, each of them begun behind the find before it.  That the window
becomes smaller is asserted, so that the searches are seen to end. -/
def visits (bytes : Bytes) (first last : Nat) : Checked (List Nat) := do
  match ← next? bytes first last with
  | none => return []
  | some position =>
      let behind ← add position 1
      if _smaller : first < behind ∧ behind ≤ last + 1 then
        return position :: (← visits bytes behind last)
      else throw .assertion
termination_by last + 1 - first

/-! ### From both ends -/

theorem highestOf?_eq (byte : UInt8) : highestOf? byte = .ok (Byte.highest? byte) := by
  rw [highestOf?]
  split
  next zero =>
    rw [zero]
    rfl
  next nonzero =>
    have leading := Byte.highest?_eq_leadingZeros nonzero
    rw [sub_of_le leading.1, leading.2]
    rfl

theorem lowestOf?_eq (byte : UInt8) : lowestOf? byte = .ok (Byte.lowest? byte) := rfl

/-- A position that is found is a word if it is one without the checks. -/
theorem inByte?_of_find {find : UInt8 -> Checked (Option Nat)} {byte : UInt8} {index : Nat}
    {found : Option Nat} (finds : find byte = .ok found)
    (word : forall bit, found = some bit -> 8 * index + bit < 1 <<< 64) :
    inByte? find byte index = .ok (found.map (8 * index + ·)) := by
  rw [inByte?, finds]
  cases found with
  | none => rfl
  | some bit =>
      have small := word bit rfl
      rw [Nat.mul_comm] at small
      have product := mul_of_lt (Nat.lt_of_le_of_lt (Nat.le_add_right ..) small)
      simp only [ok_bind, product, add_of_lt small, Option.map_some, Nat.mul_comm 8]
      rfl

theorem inFirst?_zero (find : UInt8 -> Checked (Option Nat)) (index : Nat)
    (rest : List (UInt8 × Nat)) : inFirst? find ((0, index) :: rest) = inFirst? find rest := rfl

theorem inFirst?_nonzero (find : UInt8 -> Checked (Option Nat)) {byte : UInt8}
    (nonzero : byte ≠ 0) (index : Nat) (rest : List (UInt8 × Nat)) :
    inFirst? find ((byte, index) :: rest) = inByte? find byte index := by
  have found : ((byte, index) :: rest).find? (fun entry => entry.1 != 0) = some (byte, index) :=
    List.find?_cons_of_pos (bne_iff_ne.mpr nonzero)
  rw [inFirst?, found]

/-- Along the bytes from the last one to the first. -/
theorem highest?_reverse (reversed : Bytes) (short : reversed.length ≤ 1 <<< 61) :
    highest? reversed.reverse = .ok (Bytes.highestOfReversed? reversed) := by
  induction reversed with
  | nil => rfl
  | cons byte before inductionHypothesis =>
      rw [List.length_cons] at short
      have entries : (byte :: before).reverse.zipIdx.reverse =
          (byte, before.length) :: before.reverse.zipIdx.reverse := by
        rw [List.reverse_cons, List.zipIdx_append, List.reverse_append, List.length_reverse,
          Nat.zero_add]
        rfl
      rw [highest?, entries, Bytes.highestOfReversed?]
      by_cases zero : byte = 0
      · rw [zero, inFirst?_zero]
        exact inductionHypothesis (Nat.le_of_succ_le short)
      · rw [inFirst?_nonzero _ zero, inByte?_of_find (highestOf?_eq byte)]
        · rw [(Byte.highest?_eq_leadingZeros zero).2]
          rfl
        · intro bit found
          have inside := Byte.lt_of_highest? found
          omega

theorem highest?_eq {bytes : Bytes} (short : bytes.length ≤ 1 <<< 61) :
    highest? bytes = .ok bytes.highest? := by
  rw [← List.length_reverse] at short
  rw [Bytes.highest?, ← highest?_reverse _ short, List.reverse_reverse]

/-- Along the bytes from one on; `index` is its place. -/
theorem inFirst?_zipIdx (bytes : Bytes) (index : Nat) (short : index + bytes.length ≤ 1 <<< 61) :
    inFirst? lowestOf? (bytes.zipIdx index) = .ok (Bytes.lowestFrom? index bytes) := by
  induction bytes generalizing index with
  | nil => rfl
  | cons byte rest inductionHypothesis =>
      rw [List.length_cons] at short
      rw [List.zipIdx_cons, Bytes.lowestFrom?]
      by_cases zero : byte = 0
      · rw [zero, inFirst?_zero]
        exact inductionHypothesis (index + 1) (by omega)
      · rw [inFirst?_nonzero _ zero, inByte?_of_find (lowestOf?_eq byte)]
        · rcases Byte.exists_lowest? zero with ⟨bit, found⟩
          rw [found]
          rfl
        · intro bit found
          have inside := Byte.lt_of_lowest? found
          omega

theorem lowest?_eq {bytes : Bytes} (short : bytes.length ≤ 1 <<< 61) :
    lowest? bytes = .ok bytes.lowest? :=
  inFirst?_zipIdx bytes 0 (by rwa [Nat.zero_add])

/-! ### In a window -/

theorem clipBelow_eq (first index : Nat) (byte : UInt8) :
    clipBelow first (first / 8) index byte = .ok (Bytes.clipBelow first index byte) := by
  rw [clipBelow, Bytes.clipBelow, raiseByte_ones]
  split <;> rfl

theorem clipAbove_eq (last index : Nat) (byte : UInt8) :
    clipAbove last index byte = .ok (Bytes.clipAbove last index byte) := by
  rw [clipAbove, Bytes.clipAbove, shiftDown_three, ok_bind, sub_seven, ok_bind, lowerByte_ones]
  split <;> rfl

/-- Along the bytes of the window from one on; `offset` is its place in the window. -/
theorem searchFrom?_zipIdx {first last : Nat} (word : last < 1 <<< 64) (window : Bytes)
    (offset : Nat) (inside : first / 8 + offset + window.length ≤ last / 8 + 1) :
    searchFrom? first last (first / 8) (window.zipIdx offset) =
      .ok (Bytes.clippedFrom? first last (first / 8 + offset) window) := by
  induction window generalizing offset with
  | nil => rfl
  | cons byte rest inductionHypothesis =>
      rw [List.length_cons] at inside
      have small : first / 8 + offset < 1 <<< 64 := by omega
      have reached : first / 8 ≤ first / 8 + offset := Nat.le_add_right ..
      have before : first / 8 + offset ≤ last / 8 := by omega
      let clipped := Bytes.clipAbove last (first / 8 + offset)
        (Bytes.clipBelow first (first / 8 + offset) byte)
      have found : inByte? lowestOf? clipped (first / 8 + offset) =
          .ok ((Byte.lowest? clipped).map (8 * (first / 8 + offset) + ·)) := by
        apply inByte?_of_find (lowestOf?_eq clipped)
        intro bit lowest
        have set := Byte.bit_of_lowest? lowest
        rw [Bytes.bit_clipAbove _ (Byte.lt_of_lowest? lowest) before, Bool.and_eq_true,
          decide_eq_true_eq] at set
        exact Nat.lt_of_le_of_lt set.2 word
      rw [List.zipIdx_cons, searchFrom?, add_of_lt small, ok_bind, clipBelow_eq, ok_bind,
        clipAbove_eq, ok_bind, found, ok_bind, Bytes.clippedFrom?,
        if_neg (Nat.not_lt_of_le before)]
      cases Byte.lowest? clipped with
      | some bit => rfl
      | none => exact inductionHypothesis (offset + 1) (by omega)

/-- A search looks at no byte behind the one that holds the end of the window. -/
theorem clippedFrom?_take (first last index : Nat) (bytes : Bytes) :
    Bytes.clippedFrom? first last index (bytes.take (last / 8 + 1 - index)) =
      Bytes.clippedFrom? first last index bytes := by
  induction bytes generalizing index with
  | nil => rw [List.take_nil]
  | cons byte rest inductionHypothesis =>
      rcases Nat.lt_or_ge (last / 8) index with behind | before
      · rw [Nat.sub_eq_zero_of_le behind, List.take_zero, Bytes.clippedFrom?,
          Bytes.clippedFrom?, if_pos behind]
      · rw [Nat.succ_sub before, List.take_succ_cons, Bytes.clippedFrom?, Bytes.clippedFrom?,
          ← inductionHypothesis (index + 1), Nat.add_sub_add_right]

theorem next?_eq (bytes : Bytes) (first : Nat) {last : Nat} (word : last < 1 <<< 64) :
    next? bytes first last = .ok (bytes.next? first last) := by
  rw [next?, Bytes.next?, shiftDown_three, shiftDown_three, ok_bind, ok_bind]
  rcases Nat.lt_or_ge last first with empty | ordered
  · rw [if_pos empty, if_pos empty]
    rfl
  rw [if_neg (Nat.not_lt_of_le ordered), if_neg (Nat.not_lt_of_le ordered)]
  cases bytes with
  | nil =>
      rw [List.drop_nil]
      rfl
  | cons byte rest =>
      -- the last byte is that of the window or the last one that there is
      have front : (byte :: rest).take (min (last / 8) rest.length + 1) =
          (byte :: rest).take (last / 8 + 1) := by
        rw [← Nat.add_min_add_right]
        exact (List.take_eq_take_min (l := byte :: rest)).symm
      rw [List.isEmpty_cons, if_neg Bool.false_ne_true, List.length_cons,
        sub_of_le (Nat.le_add_left ..), ok_bind, Nat.add_sub_cancel]
      rcases Nat.lt_or_ge (min (last / 8) rest.length) (first / 8) with beyond | reached
      · have nothing : (byte :: rest).drop (first / 8) = [] := by
          apply List.drop_of_length_le
          rw [List.length_cons]
          omega
        rw [if_pos beyond, nothing]
        rfl
      · have stop : min (last / 8) rest.length + 1 < 1 <<< 64 := by omega
        have inside : min (last / 8) rest.length + 1 ≤ (byte :: rest).length :=
          Nat.succ_le_succ (Nat.min_le_right ..)
        rw [if_neg (Nat.not_lt_of_le reached), add_of_lt stop, ok_bind,
          slice_of_le (Nat.le_succ_of_le reached) inside, ok_bind, front, List.drop_take,
          searchFrom?_zipIdx word, Nat.add_zero, clippedFrom?_take]
        rw [List.length_take]
        omega

/-- The place behind a find is a word, where the window ends in front of the last word. -/
theorem visits_eq (bytes : Bytes) (first : Nat) {last : Nat} (word : last + 1 < 1 <<< 64) :
    visits bytes first last = .ok (bytes.visits first last) := by
  have searched first := next?_eq bytes first (Nat.lt_of_succ_lt word)
  induction first using Bytes.visits.induct bytes last with
  | case1 first nothing =>
      rw [Bytes.visits_of_none nothing, visits, searched, nothing]
      rfl
  | case2 first position found inductionHypothesis =>
      have bounds := Bytes.next?_bounds found
      rw [Bytes.visits_of_some found, visits, searched, found, ok_bind]
      change (do
        let behind ← add position 1
        if _ : first < behind ∧ behind ≤ last + 1 then
          return position :: (← visits bytes behind last)
        else throw Trap.assertion) = _
      rw [add_of_lt (by omega), ok_bind, dif_pos (by omega), inductionHypothesis]
      rfl

/-! ## Words in a buffer -/

/-- A sum, if it is a word. -/
def sum? (left right : Nat) : Option Nat :=
  if left + right < 1 <<< 64 then some (left + right) else none

/-- The end of the eight-byte window at an offset, if it lies in the buffer. -/
def wordWindow (bytes : Bytes) (offset : Nat) : ExceptT Fault Checked Nat := do
  match sum? offset 8 with
  | none => throw (.indexOutOfRange offset bytes.length)
  | some stop =>
      if bytes.length < stop then
        throw (.indexOutOfRange (← sub stop 1) (bytes.length - 1))
      return stop

/-- The word at an offset, of the first eight bytes of its window. -/
def readWord (bytes : Bytes) (offset : Nat) : ExceptT Fault Checked UInt64 := do
  let stop ← wordWindow bytes offset
  let window ← slice bytes offset stop
  let word ← slice window 0 8
  return UInt64.ofNat (ByteOrder.big.value word)

/-- The buffer with a word stored at an offset, in the first eight bytes of its window. -/
def writeWord (bytes : Bytes) (offset : Nat) (word : UInt64) : ExceptT Fault Checked Bytes := do
  let stop ← wordWindow bytes offset
  let window ← slice bytes offset stop
  let _ ← slice window 0 8
  return bytes.take offset ++ (Bytes.ofWord word ++ window.drop 8) ++ bytes.drop stop

theorem run_wordWindow (bytes : Bytes) (offset : Nat) :
    (wordWindow bytes offset).run = .ok (bytes.wordWindow offset) := by
  rw [wordWindow, sum?, Bytes.wordWindow]
  rcases Nat.lt_or_ge (offset + 8) (1 <<< 64) with word | wrapped
  · rw [if_pos word, if_neg (Nat.not_le_of_lt word)]
    have last : sub (offset + 8) 1 = .ok (offset + 7) := sub_of_le (Nat.le_add_left 1 (offset + 7))
    by_cases short : bytes.length < offset + 8
    · simp only [if_pos short]
      exact run_bind_of_ok last _
    · simp only [if_neg short]
      rfl
  · rw [if_neg (Nat.not_lt_of_le wrapped), if_pos wrapped]
    rfl

/-- A window is given only if it lies in the buffer. -/
theorem window_of_ok {bytes : Bytes} {offset stop : Nat}
    (windowed : bytes.wordWindow offset = .ok stop) :
    stop = offset + 8 ∧ offset + 8 ≤ bytes.length := by
  rw [Bytes.wordWindow] at windowed
  split at windowed
  next => contradiction
  next =>
    split at windowed
    next => contradiction
    next fits =>
      cases windowed
      exact ⟨rfl, Nat.le_of_not_lt fits⟩

/-- What is done with the eight bytes of a window that lies in the buffer. -/
theorem run_inWindow {α : Type} (use : Nat -> Bytes -> Bytes -> α) (bytes : Bytes) (offset : Nat) :
    (do
      let stop ← wordWindow bytes offset
      let window ← slice bytes offset stop
      let word ← slice window 0 8
      return use stop window word : ExceptT Fault Checked α).run =
      .ok ((bytes.wordWindow offset).map fun stop =>
        use stop ((bytes.take stop).drop offset) ((bytes.take stop).drop offset)) := by
  rw [ExceptT.run_bind, run_wordWindow]
  cases windowed : bytes.wordWindow offset with
  | error fault => rfl
  | ok stop =>
      rcases window_of_ok windowed with ⟨rfl, inside⟩
      have length : ((bytes.take (offset + 8)).drop offset).length = 8 := by
        rw [List.length_drop, List.length_take, Nat.min_eq_left inside, Nat.add_sub_cancel_left]
      have window := slice_of_le (Nat.le_add_right offset 8) inside
      have word := slice_of_le (Nat.zero_le 8) (Nat.le_of_eq length.symm)
      rw [List.drop_zero, List.take_of_length_le (Nat.le_of_eq length)] at word
      change ((do
        let window ← slice bytes offset (offset + 8)
        let word ← slice window 0 8
        return use (offset + 8) window word : ExceptT Fault Checked α)).run = _
      rw [run_bind_of_ok window, run_bind_of_ok word]
      rfl

theorem run_readWord (bytes : Bytes) (offset : Nat) :
    (readWord bytes offset).run = .ok (bytes.readWord offset) := by
  refine (run_inWindow (fun _ _ word => UInt64.ofNat (ByteOrder.big.value word)) ..).trans ?_
  rw [Bytes.readWord]
  cases bytes.wordWindow offset <;> rfl

theorem run_writeWord (bytes : Bytes) (offset : Nat) (word : UInt64) :
    (writeWord bytes offset word).run = .ok (bytes.writeWord offset word) := by
  refine (run_inWindow (fun stop window _ =>
    bytes.take offset ++ (Bytes.ofWord word ++ window.drop 8) ++ bytes.drop stop) ..).trans ?_
  rw [Bytes.writeWord]
  cases windowed : bytes.wordWindow offset with
  | error fault => rfl
  | ok stop =>
      rcases window_of_ok windowed with ⟨rfl, inside⟩
      have nothing : ((bytes.take (offset + 8)).drop offset).drop 8 = [] := by
        rw [List.drop_drop, Nat.add_comm, List.drop_take_self]
      rw [Except.map, nothing, List.append_nil]
      rfl

end Checked
end BitStore
