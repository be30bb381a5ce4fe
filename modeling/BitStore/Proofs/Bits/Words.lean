import Mathlib.Algebra.Ring.Nat
import BitStore.Bits.Word
import BitStore.Proofs.Bits.Searches
import BitStore.Proofs.Running

namespace BitStore

/-!
# Words in a buffer

Eight bytes spell a word of 64 bits to the base 256, the most significant digit first.  Both
directions of this are read off the bits: a number has the bits of the bytes that spell it,
and eight bytes are known by their number.  What reading and writing do to a buffer is then
a matter of the place of the window alone.

A window is refused if it ends behind the buffer, and in a buffer of fewer than `2 ^ 63`
bytes for no other reason: an offset whose window ends behind `2 ^ 64` lies behind the buffer
anyway.  `Bytes.storeWord` is the write in place, which looks at the window before it touches
the buffer.
-/

namespace Bytes

/-! ## Digits -/

/-- A digit of a word to the base 256; digit 0 is the most significant one. -/
def wordDigit (word : UInt64) (k : Nat) : UInt8 :=
  UInt8.ofNat (word.toNat / 256 ^ (7 - k))

/-- The number whose digits to the base 256 are the eight bytes from an offset on. -/
def wordAt (byte : Nat -> UInt8) (offset : Nat) : Nat :=
  ((List.range 8).map fun k => (byte (offset + k)).toNat * 256 ^ (7 - k)).sum

/-- The bytes of a word are its digits. -/
theorem ofWord_eq_map (word : UInt64) : ofWord word = (List.range 8).map (wordDigit word) := by
  have digit (k shift : Nat) (amount : UInt64) (same : amount.toNat % 64 = shift)
      (power : 2 ^ shift = 256 ^ (7 - k)) : (word >>> amount).toUInt8 = wordDigit word k := by
    apply UInt8.toNat_inj.mp
    rw [UInt64.toNat_toUInt8, UInt64.toNat_shiftRight, same, Nat.shiftRight_eq_div_pow, power,
      wordDigit, UInt8.toNat_ofNat']
  simp only [ofWord, List.range_succ, List.range_zero, List.nil_append, List.map_cons,
    List.map_nil, List.cons_append]
  rw [digit 0 56 56 rfl rfl, digit 1 48 48 rfl rfl, digit 2 40 40 rfl rfl, digit 3 32 32 rfl rfl,
    digit 4 24 24 rfl rfl, digit 5 16 16 rfl rfl, digit 6 8 8 rfl rfl, digit 7 0 0 rfl rfl]

@[simp] theorem length_ofWord (word : UInt64) : (ofWord word).length = 8 := rfl

/-- The digits make up the word. -/
theorem value_ofWord (word : UInt64) : ByteOrder.big.value (ofWord word) = word.toNat := by
  have digits : (ofWord word).reverse = (List.range 8).map fun j =>
      UInt8.ofNat (word.toNat / 256 ^ j) := by
    rw [ofWord_eq_map, ← List.map_reverse]
    rfl
  rw [value_big, digits]
  apply Nat.eq_of_testBit_eq
  intro position
  rw [testBit_little, bit, List.getElem?_map]
  by_cases inside : position / 8 < 8
  · rw [List.getElem?_range inside, Option.map_some]
    dsimp only
    rw [Byte.bit, UInt8.toNat_ofNat', show (256 : Nat) = 2 ^ 8 from rfl, ← Nat.pow_mul,
      Nat.testBit_mod_two_pow, Nat.testBit_div_two_pow, Nat.mod_add_div,
      decide_eq_true (Nat.mod_lt _ (by decide)), Bool.true_and]
  · rw [List.getElem?_eq_none (by rw [List.length_range]; omega), Option.map_none]
    dsimp only
    symm
    apply Nat.testBit_lt_two_pow
    calc word.toNat < 2 ^ 64 := word.toNat_lt
      _ ≤ 2 ^ position := Nat.pow_le_pow_right (by decide) (by omega)

/-- The first byte counts for as many powers of 256 as there are bytes behind it. -/
theorem value_cons (byte : UInt8) (rest : Bytes) :
    ByteOrder.big.value (byte :: rest) =
      byte.toNat * 256 ^ rest.length + ByteOrder.big.value rest := by
  have digits (above : Nat) (bytes : Bytes) :
      bytes.foldl (fun above byte => 256 * above + byte.toNat) above =
        above * 256 ^ bytes.length + ByteOrder.big.value bytes := by
    induction bytes generalizing above with
    | nil => exact (Nat.mul_one above).symm
    | cons next behind inductionHypothesis =>
        have first : ByteOrder.big.value (next :: behind) =
            next.toNat * 256 ^ behind.length + ByteOrder.big.value behind := by
          rw [ByteOrder.value, List.foldl_cons, inductionHypothesis, Nat.mul_zero, Nat.zero_add]
        rw [List.foldl_cons, inductionHypothesis, first, List.length_cons, Nat.pow_succ',
          Nat.add_mul, Nat.add_assoc, Nat.mul_comm 256 above, Nat.mul_assoc]
  rw [ByteOrder.value, List.foldl_cons, digits, Nat.mul_zero, Nat.zero_add]

/-- Bytes spell the number of which they are the digits. -/
theorem value_map_range (byte : Nat -> UInt8) (count : Nat) :
    ByteOrder.big.value ((List.range count).map byte) =
      ((List.range count).map fun k => (byte k).toNat * 256 ^ (count - 1 - k)).sum := by
  induction count generalizing byte with
  | zero => rfl
  | succ count inductionHypothesis =>
      have behind (k : Nat) : count + 1 - 1 - (k + 1) = count - 1 - k := by omega
      rw [List.range_succ_eq_map, List.map_cons, List.map_cons, value_cons, List.sum_cons,
        List.map_map, List.map_map, inductionHypothesis, List.length_map, List.length_range]
      simp only [Function.comp_def, Nat.succ_eq_add_one, behind]
      rfl

theorem value_eight (byte : Nat -> UInt8) (offset : Nat) :
    ByteOrder.big.value ((List.range 8).map fun k => byte (offset + k)) = wordAt byte offset :=
  value_map_range (fun k => byte (offset + k)) 8

/-- A number has as many bits as the bytes that spell it. -/
theorem value_lt (bytes : Bytes) : ByteOrder.big.value bytes < 2 ^ bytes.width := by
  apply Nat.lt_pow_two_of_testBit
  intro position outside
  rw [value_big, testBit_little]
  apply bit_eq_false_of_le
  rwa [width, List.length_reverse]

theorem wordAt_lt (byte : Nat -> UInt8) (offset : Nat) : wordAt byte offset < 2 ^ 64 := by
  rw [← value_eight]
  exact value_lt _

/-- Eight bytes are known by the number that they spell. -/
theorem eq_of_value {left right : Bytes} (leftWord : left.length = 8)
    (rightWord : right.length = 8)
    (same : ByteOrder.big.value left = ByteOrder.big.value right) : left = right := by
  apply List.reverse_inj.mp
  apply eq_of_bit (by rw [List.length_reverse, List.length_reverse, leftWord, rightWord])
  intro position _
  rw [← testBit_little, ← testBit_little, ← value_big, ← value_big, same]

/-- A word is made of the bytes that spell it. -/
theorem ofWord_wordAt (byte : Nat -> UInt8) (offset : Nat) :
    ofWord (UInt64.ofNat (wordAt byte offset)) = (List.range 8).map fun k => byte (offset + k) := by
  apply eq_of_value (length_ofWord _) (by rw [List.length_map, List.length_range])
  rw [value_ofWord, value_eight, UInt64.toNat_ofNat_of_lt' (wordAt_lt byte offset)]

/-! ## Windows -/

variable {bytes : Bytes} {offset : Nat}

/-- In a buffer of fewer than `2 ^ 63` bytes a window that lies in it is found. -/
theorem wordWindow_of_le (short : bytes.length < 1 <<< 63) (fits : offset + 8 ≤ bytes.length) :
    bytes.wordWindow offset = .ok (offset + 8) := by
  rw [wordWindow, if_neg (by omega), if_neg (Nat.not_lt_of_le fits)]

/-- A window that does not is refused, and the index is reported as too great. -/
theorem wordWindow_of_lt (short : bytes.length < 1 <<< 63) (exceeds : bytes.length < offset + 8) :
    Exists fun index => Exists fun capacity => capacity < index ∧
      bytes.wordWindow offset = .error (.indexOutOfRange index capacity) := by
  by_cases wraps : 1 <<< 64 ≤ offset + 8
  · exact ⟨offset, bytes.length, by omega, by rw [wordWindow, if_pos wraps]⟩
  · exact ⟨offset + 7, bytes.length - 1, by omega,
      by rw [wordWindow, if_neg wraps, if_pos exceeds]⟩

theorem wordWindow_congr {other : Bytes} (length : other.length = bytes.length) :
    other.wordWindow offset = bytes.wordWindow offset := by
  simp only [wordWindow, length]

/-! ## Words at their places -/

/-- A byte of the buffer, zero behind its end. -/
def byteAt (bytes : Bytes) (place : Nat) : UInt8 :=
  bytes[place]?.getD 0

/-- The buffer with a word put over eight of its bytes. -/
def splice (bytes : Bytes) (offset : Nat) (word : UInt64) : Bytes :=
  bytes.take offset ++ ofWord word ++ bytes.drop (offset + 8)

/-- A byte of the buffer once a word was put over eight of its bytes. -/
def splicedAt (bytes : Bytes) (offset : Nat) (word : UInt64) (place : Nat) : UInt8 :=
  if offset ≤ place ∧ place < offset + 8 then wordDigit word (place - offset)
  else bytes.byteAt place

theorem length_splice (fits : offset + 8 ≤ bytes.length) (word : UInt64) :
    (bytes.splice offset word).length = bytes.length := by
  simp only [splice, List.length_append, List.length_take, List.length_drop, length_ofWord]
  omega

theorem getElem?_splice (fits : offset + 8 ≤ bytes.length) (word : UInt64) (place : Nat) :
    (bytes.splice offset word)[place]? =
      if offset ≤ place ∧ place < offset + 8 then some (wordDigit word (place - offset))
      else bytes[place]? := by
  have front : (bytes.take offset).length = offset := List.length_take_of_le (by omega)
  rw [splice, List.append_assoc, List.getElem?_append, front]
  split
  next before => rw [List.getElem?_take_of_lt before, if_neg (by omega)]
  next reached =>
    rw [List.getElem?_append, length_ofWord]
    split
    next inside =>
      rw [ofWord_eq_map, List.getElem?_map, List.getElem?_range inside, Option.map_some,
        if_pos (by omega)]
    next behind =>
      rw [List.getElem?_drop, if_neg (by omega)]
      congr 1
      omega

theorem byteAt_splice (fits : offset + 8 ≤ bytes.length) (word : UInt64) :
    (bytes.splice offset word).byteAt = bytes.splicedAt offset word := by
  funext place
  rw [byteAt, getElem?_splice fits, splicedAt]
  split <;> rfl

/-- What was put over eight bytes is read in their place. -/
theorem wordAt_splicedAt (bytes : Bytes) (offset : Nat) (word : UInt64) :
    wordAt (bytes.splicedAt offset word) offset = word.toNat := by
  rw [← value_ofWord, ofWord_eq_map, ← value_eight]
  congr 1
  apply List.map_congr_left
  intro k listed
  have inside := List.mem_range.mp listed
  rw [splicedAt, if_pos (by omega), Nat.add_sub_cancel_left]

/-- The word that is there already changes nothing. -/
theorem splice_wordAt (fits : offset + 8 ≤ bytes.length) :
    bytes.splice offset (UInt64.ofNat (wordAt bytes.byteAt offset)) = bytes := by
  have digits : forall k, k ∈ List.range 8 ->
      wordDigit (UInt64.ofNat (wordAt bytes.byteAt offset)) k = bytes.byteAt (offset + k) := by
    apply List.map_inj_left.mp
    rw [← ofWord_eq_map, ofWord_wordAt]
  apply ext_getD (length_splice fits _)
  intro place
  rw [← byteAt, byteAt_splice fits, splicedAt]
  split
  next window =>
    rw [digits _ (List.mem_range.mpr (by omega)), Nat.add_sub_cancel' window.1]
    rfl
  next => rfl

/-- Windows that lie apart may be written in either order. -/
theorem splice_comm {other : Nat} (fits : offset + 8 ≤ bytes.length)
    (fitsOther : other + 8 ≤ bytes.length) (apart : other + 8 ≤ offset ∨ offset + 8 ≤ other)
    (first second : UInt64) :
    (bytes.splice offset first).splice other second =
      (bytes.splice other second).splice offset first := by
  apply List.ext_getElem?
  intro place
  rw [getElem?_splice (length_splice fits first ▸ fitsOther), getElem?_splice fits,
    getElem?_splice (length_splice fitsOther second ▸ fits), getElem?_splice fitsOther]
  by_cases window : offset ≤ place ∧ place < offset + 8
  · rw [if_neg (by omega), if_pos window, if_pos window]
  · rw [if_neg window, if_neg window]

/-! ## Reading and writing -/

theorem readWord_of_le (short : bytes.length < 1 <<< 63) (fits : offset + 8 ≤ bytes.length) :
    bytes.readWord offset = .ok (UInt64.ofNat (wordAt bytes.byteAt offset)) := by
  have window : (bytes.take (offset + 8)).drop offset =
      (List.range 8).map fun k => bytes.byteAt (offset + k) := by
    apply List.ext_getElem
    · rw [List.length_drop, List.length_take_of_le fits, Nat.add_sub_cancel_left, List.length_map,
        List.length_range]
    intro k inside _
    rw [List.getElem_drop, List.getElem_take, List.getElem_map, List.getElem_range, byteAt,
      List.getElem?_eq_getElem, Option.getD_some]
  rw [← value_eight, ← window, readWord, wordWindow_of_le short fits]
  rfl

theorem writeWord_of_le (short : bytes.length < 1 <<< 63) (fits : offset + 8 ≤ bytes.length)
    (word : UInt64) : bytes.writeWord offset word = .ok (bytes.splice offset word) := by
  rw [writeWord, wordWindow_of_le short fits]
  rfl

/-- A window that overlaps with a word that was written has the digits of both. -/
theorem readWord_splice (short : bytes.length < 1 <<< 63) (fits : offset + 8 ≤ bytes.length)
    {other : Nat} (inside : other + 8 ≤ bytes.length) (word : UInt64) :
    (bytes.splice offset word).readWord other =
      .ok (UInt64.ofNat (wordAt (bytes.splicedAt offset word) other)) := by
  have length := length_splice fits word
  rw [← byteAt_splice fits]
  apply readWord_of_le
  · rwa [length]
  · rwa [length]

/-- Store a word in the buffer in hand. -/
def storeWord (offset : Nat) (word : UInt64) : ExceptT Fault (StateM Bytes) Unit := do
  let stop ← (← get).wordWindow offset
  modify fun bytes => bytes.take offset ++ ofWord word ++ bytes.drop stop

/-- A write in place leaves the buffer that the write gives, or the one that there was. -/
theorem runFrom_storeWord (bytes : Bytes) (offset : Nat) (word : UInt64) :
    runFrom (storeWord offset word) bytes =
      match bytes.writeWord offset word with
      | .ok after => (.ok (), after)
      | .error fault => (.error fault, bytes) := by
  simp only [storeWord, writeWord, runFrom_bind, runFrom_get, runFrom_outcome]
  cases bytes.wordWindow offset <;> rfl

theorem runFrom_storeWord_of_le (short : bytes.length < 1 <<< 63)
    (fits : offset + 8 ≤ bytes.length) (word : UInt64) :
    runFrom (storeWord offset word) bytes = (.ok (), bytes.splice offset word) := by
  rw [runFrom_storeWord, writeWord_of_le short fits]

theorem runFrom_storeWord_of_lt (short : bytes.length < 1 <<< 63)
    (exceeds : bytes.length < offset + 8) (word : UInt64) :
    (runFrom (storeWord offset word) bytes).2 = bytes := by
  rcases wordWindow_of_lt short exceeds with ⟨index, capacity, _, refused⟩
  rw [runFrom_storeWord, writeWord, refused]
  rfl

theorem length_storeWord (short : bytes.length < 1 <<< 63) (offset : Nat) (word : UInt64) :
    (runFrom (storeWord offset word) bytes).2.length = bytes.length := by
  by_cases fits : offset + 8 ≤ bytes.length
  · rw [runFrom_storeWord_of_le short fits, length_splice fits]
  · rw [runFrom_storeWord_of_lt short (Nat.lt_of_not_le fits)]

/-- Whether a write succeeds is a matter of the length alone. -/
theorem outcome_storeWord {other : Bytes} (length : other.length = bytes.length) (offset : Nat)
    (word : UInt64) :
    (runFrom (storeWord offset word) other).1 = (runFrom (storeWord offset word) bytes).1 := by
  simp only [runFrom_storeWord, writeWord, wordWindow_congr length]
  cases bytes.wordWindow offset <;> rfl

/-- A write that is refused makes no difference to another. -/
theorem storeWord_comm_of_lt (short : bytes.length < 1 <<< 63) {other : Nat}
    (exceeds : bytes.length < other + 8) (offset : Nat) (first second : UInt64) :
    (runFrom (storeWord other second) (runFrom (storeWord offset first) bytes).2).2 =
      (runFrom (storeWord offset first) (runFrom (storeWord other second) bytes).2).2 := by
  have length := length_storeWord short offset first
  rw [runFrom_storeWord_of_lt short exceeds,
    runFrom_storeWord_of_lt (length.symm ▸ short) (length.symm ▸ exceeds)]

theorem storeWord_comm (short : bytes.length < 1 <<< 63) {offset other : Nat}
    (apart : other + 8 ≤ offset ∨ offset + 8 ≤ other) (first second : UInt64) :
    (runFrom (storeWord other second) (runFrom (storeWord offset first) bytes).2).2 =
      (runFrom (storeWord offset first) (runFrom (storeWord other second) bytes).2).2 := by
  rcases Nat.lt_or_ge bytes.length (other + 8) with exceeds | fitsOther
  · exact storeWord_comm_of_lt short exceeds offset first second
  rcases Nat.lt_or_ge bytes.length (offset + 8) with exceeds | fits
  · exact (storeWord_comm_of_lt short exceeds other second first).symm
  have length := length_splice fits first
  have lengthOther := length_splice fitsOther second
  rw [runFrom_storeWord_of_le short fits, runFrom_storeWord_of_le short fitsOther,
    runFrom_storeWord_of_le (length ▸ short) (length ▸ fitsOther),
    runFrom_storeWord_of_le (lengthOther ▸ short) (lengthOther ▸ fits),
    splice_comm fits fitsOther apart]

/-- A word can be read and written exactly where its eight bytes lie in the buffer.  What is
read is the number of which they are the digits; what is written changes them alone, and is
read back from there, while a window that overlaps with it has the digits of both.  A window
that does not fit is refused with an index above the capacity, and the buffer stays as it is.
Writes to windows that lie apart neither hinder each other nor depend on their order. -/
theorem words_are_digits (bytes : Bytes) (short : bytes.length < 1 <<< 63) (offset : Nat) :
    (offset + 8 ≤ bytes.length ->
      (Exists fun found => bytes.readWord offset = .ok found ∧
        found.toNat = wordAt bytes.byteAt offset ∧ bytes.writeWord offset found = .ok bytes) ∧
      forall word, Exists fun after => bytes.writeWord offset word = .ok after ∧
        runFrom (storeWord offset word) bytes = (.ok (), after) ∧
        after.length = bytes.length ∧
        (forall place, place < offset ∨ offset + 8 ≤ place -> after[place]? = bytes[place]?) ∧
        after.readWord offset = .ok word ∧
        forall other, other + 8 ≤ bytes.length -> Exists fun found =>
          after.readWord other = .ok found ∧
            found.toNat = wordAt (bytes.splicedAt offset word) other) ∧
    (bytes.length < offset + 8 -> Exists fun index => Exists fun capacity => capacity < index ∧
      bytes.readWord offset = .error (.indexOutOfRange index capacity) ∧
      forall word, bytes.writeWord offset word = .error (.indexOutOfRange index capacity) ∧
        runFrom (storeWord offset word) bytes =
          (.error (.indexOutOfRange index capacity), bytes)) ∧
    forall other first second, other + 8 ≤ offset ∨ offset + 8 ≤ other ->
      let once := (runFrom (storeWord offset first) bytes).2
      (runFrom (storeWord other second) once).1 = (runFrom (storeWord other second) bytes).1 ∧
      (runFrom (storeWord other second) once).2 =
        (runFrom (storeWord offset first) (runFrom (storeWord other second) bytes).2).2 := by
  refine ⟨fun fits => ⟨?_, fun word => ?_⟩, fun exceeds => ?_, fun other first second apart =>
    ⟨outcome_storeWord (length_storeWord short offset first) other second,
      storeWord_comm short apart first second⟩⟩
  · refine ⟨_, readWord_of_le short fits, UInt64.toNat_ofNat_of_lt' (wordAt_lt _ _), ?_⟩
    rw [writeWord_of_le short fits, splice_wordAt fits]
  · have length := length_splice fits word
    refine ⟨_, writeWord_of_le short fits word, runFrom_storeWord_of_le short fits word, length,
      fun place outside => ?_, ?_, fun other inside =>
        ⟨_, readWord_splice short fits inside word, UInt64.toNat_ofNat_of_lt' (wordAt_lt _ _)⟩⟩
    · rw [getElem?_splice fits, if_neg (by omega)]
    · rw [readWord_splice short fits fits, wordAt_splicedAt, UInt64.ofNat_toNat]
  · -- the reading and the writing are refused alike, as both ask for the window first
    rcases wordWindow_of_lt short exceeds with ⟨index, capacity, greater, refused⟩
    have write (word : UInt64) :
        bytes.writeWord offset word = .error (.indexOutOfRange index capacity) := by
      rw [writeWord, refused]
      rfl
    refine ⟨index, capacity, greater, ?_, fun word => ⟨write word, ?_⟩⟩
    · rw [readWord, refused]
      rfl
    · rw [runFrom_storeWord, write]

/-- A word is written, and read back through a window that begins two bytes later. -/
theorem words_are_digits_late :
    Bytes.writeWord (zeros 12) 2 0x0102030405060708 =
        .ok [0, 0, 1, 2, 3, 4, 5, 6, 7, 8, 0, 0] ∧
      Bytes.readWord [0, 0, 1, 2, 3, 4, 5, 6, 7, 8, 0, 0] 4 = .ok 0x0304050607080000 := by
  have digits := words_are_digits (zeros 12) (by decide) 2
  rcases (digits.1 (by decide)).2 0x0102030405060708 with
    ⟨after, written, _, _, _, _, overlap⟩
  have known : after = [0, 0, 1, 2, 3, 4, 5, 6, 7, 8, 0, 0] :=
    Except.ok.inj (written.symm.trans rfl)
  subst known
  rcases overlap 4 (by decide) with ⟨found, read, number⟩
  have word : found = 0x0304050607080000 := by
    apply UInt64.toNat_inj.mp
    rw [number]
    decide
  exact ⟨written, word ▸ read⟩

end Bytes
end BitStore
