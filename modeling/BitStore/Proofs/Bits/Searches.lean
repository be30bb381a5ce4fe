import BitStore.Bits.Count
import BitStore.Bits.Search
import BitStore.Proofs.Bits.Changes

namespace BitStore

/-!
# Searches and counts by the listing of set positions

`Bytes.setPositions` lists the set positions in ascending order.  Every scan and every
count is a function of this list: the lowest set bit is its first entry, the highest its
last, a search in a window and an enumeration keep the entries inside the window, and
the count is its length.  The scans go byte by byte, so each of these is an induction
over the bytes; what carries it is that the listing of `front ++ back` is the one of
`front`, followed by the one of `back` moved up by the width of `front`.
-/

/-- What is found is the greatest of the positions with a property; nothing is found if
no position has it. -/
def Greatest (holds : Nat -> Prop) : Option Nat -> Prop
  | none => forall position, ¬ holds position
  | some found => holds found ∧ forall position, holds position -> position ≤ found

/-- What is found is the least of the positions with a property; nothing is found if no
position has it. -/
def Least (holds : Nat -> Prop) : Option Nat -> Prop
  | none => forall position, ¬ holds position
  | some found => holds found ∧ forall position, holds position -> found ≤ position

theorem Greatest.congr {holds other : Nat -> Prop} {found : Option Nat}
    (same : forall position, holds position ↔ other position) (greatest : Greatest holds found) :
    Greatest other found := by
  rwa [← funext fun position => propext (same position)]

theorem Least.congr {holds other : Nat -> Prop} {found : Option Nat}
    (same : forall position, holds position ↔ other position) (least : Least holds found) :
    Least other found := by
  rwa [← funext fun position => propext (same position)]

/-! ## Ascending lists -/

theorem greatest_of_ascending {positions : List Nat} (ascending : positions.Pairwise (· < ·)) :
    Greatest (· ∈ positions) positions.getLast? := by
  cases last : positions.getLast? with
  | none =>
      rw [List.getLast?_eq_none_iff.mp last]
      exact fun position => List.not_mem_nil
  | some found =>
      rcases List.getLast?_eq_some_iff.mp last with ⟨front, rfl⟩
      refine ⟨List.mem_append_right front (List.mem_singleton_self found), ?_⟩
      intro position listed
      rcases List.mem_append.mp listed with before | same
      · exact Nat.le_of_lt ((List.pairwise_append.mp ascending).2.2 position before found
          (List.mem_singleton_self found))
      · exact Nat.le_of_eq (List.mem_singleton.mp same)

theorem least_of_ascending {positions : List Nat} (ascending : positions.Pairwise (· < ·)) :
    Least (· ∈ positions) positions.head? := by
  cases positions with
  | nil => exact fun position => List.not_mem_nil
  | cons found rest =>
      refine ⟨List.mem_cons_self, ?_⟩
      intro position listed
      rcases List.mem_cons.mp listed with same | behind
      · exact Nat.le_of_eq same.symm
      · exact Nat.le_of_lt (List.rel_of_pairwise_cons ascending behind)

/-! ## One byte -/

namespace Byte

theorem lowest?_eq_head? (byte : UInt8) : lowest? byte = (positions byte).head? :=
  (List.head?_filter ..).symm

theorem highest?_eq_getLast? (byte : UInt8) : highest? byte = (positions byte).getLast? := by
  rw [highest?, positions, List.getLast?_filter]

theorem weight_eq_length (byte : UInt8) : weight byte = (positions byte).length :=
  List.countP_eq_length_filter

end Byte

namespace Bytes

/-! ## The listing -/

theorem lt_width_of_bit {bytes : Bytes} {position : Nat} (set : bytes.bit position = true) :
    position < bytes.width := by
  apply Nat.lt_of_not_le
  intro outside
  rw [bit_eq_false_of_le bytes outside] at set
  contradiction

theorem mem_setPositions (bytes : Bytes) (position : Nat) :
    position ∈ bytes.setPositions ↔ bytes.bit position = true := by
  rw [setPositions, List.mem_filter, List.mem_range]
  exact ⟨fun listed => listed.2, fun set => ⟨lt_width_of_bit set, set⟩⟩

theorem ascending_setPositions (bytes : Bytes) : bytes.setPositions.Pairwise (· < ·) :=
  List.pairwise_lt_range.filter bytes.bit

theorem bit_append_left (front back : Bytes) {position : Nat} (inside : position < front.width) :
    Bytes.bit (front ++ back) position = front.bit position := by
  have reached : position / 8 < front.length := by
    rw [width] at inside
    omega
  rw [bit, bit, List.getElem?_append_left reached]

theorem bit_append_right (front back : Bytes) (position : Nat) :
    Bytes.bit (front ++ back) (front.width + position) = back.bit position := by
  have place : (front.width + position) / 8 = front.length + position / 8 := by
    rw [width]
    omega
  have offset : (front.width + position) % 8 = position % 8 := by
    rw [width]
    omega
  rw [bit, bit, place, offset, List.getElem?_append_right (Nat.le_add_right ..),
    Nat.add_sub_cancel_left]

/-- The positions of the second part come behind those of the first. -/
theorem setPositions_append (front back : Bytes) :
    setPositions (front ++ back) =
      front.setPositions ++ back.setPositions.map (front.width + ·) := by
  have total : Bytes.width (front ++ back) = front.width + back.width := by
    simp only [width, List.length_append, Nat.mul_add]
  rw [setPositions, total, List.range_add, List.filter_append, List.filter_map]
  congr 1
  · apply List.filter_congr
    intro position listed
    exact bit_append_left front back (List.mem_range.mp listed)
  · congr 1
    apply List.filter_congr
    intro position _
    exact bit_append_right front back position

theorem setPositions_singleton (byte : UInt8) :
    setPositions [byte] = Byte.positions byte := by
  apply List.filter_congr
  intro position listed
  have inside : position < 8 := List.mem_range.mp listed
  rw [bit, Nat.div_eq_of_lt inside, Nat.mod_eq_of_lt inside]
  rfl

theorem setPositions_cons (byte : UInt8) (rest : Bytes) :
    setPositions (byte :: rest) = Byte.positions byte ++ rest.setPositions.map (8 + ·) := by
  rw [← List.singleton_append, setPositions_append, setPositions_singleton]
  rfl

/-! ## Scans from both ends -/

theorem lowestFrom?_eq_head? (index : Nat) (bytes : Bytes) :
    lowestFrom? index bytes = bytes.setPositions.head?.map (8 * index + ·) := by
  induction bytes generalizing index with
  | nil => rfl
  | cons byte rest inductionHypothesis =>
      rw [lowestFrom?, inductionHypothesis, Byte.lowest?_eq_head?, setPositions_cons,
        List.head?_append, List.head?_map]
      cases (Byte.positions byte).head? with
      | some j => rfl
      | none =>
          cases (setPositions rest).head? with
          | none => rfl
          | some position =>
              simp only [Option.map_some, Option.none_or, Nat.mul_succ, Nat.add_assoc]

theorem lowest?_eq_head? (bytes : Bytes) : bytes.lowest? = bytes.setPositions.head? := by
  rw [lowest?, lowestFrom?_eq_head?]
  cases bytes.setPositions.head? with
  | none => rfl
  | some position => simp only [Option.map_some, Nat.mul_zero, Nat.zero_add]

theorem highestOfReversed?_eq_getLast? (bytes : Bytes) :
    highestOfReversed? bytes = (setPositions bytes.reverse).getLast? := by
  induction bytes with
  | nil => rfl
  | cons byte before inductionHypothesis =>
      rw [highestOfReversed?, inductionHypothesis, Byte.highest?_eq_getLast?, List.reverse_cons,
        setPositions_append, setPositions_singleton, List.getLast?_append, List.getLast?_map,
        width, List.length_reverse]
      cases (Byte.positions byte).getLast? <;> rfl

theorem highest?_eq_getLast? (bytes : Bytes) : bytes.highest? = bytes.setPositions.getLast? := by
  rw [highest?, highestOfReversed?_eq_getLast?, List.reverse_reverse]

theorem highest?_greatest (bytes : Bytes) :
    Greatest (fun position => bytes.bit position = true) bytes.highest? := by
  rw [highest?_eq_getLast?]
  exact (greatest_of_ascending bytes.ascending_setPositions).congr bytes.mem_setPositions

theorem lowest?_least (bytes : Bytes) :
    Least (fun position => bytes.bit position = true) bytes.lowest? := by
  rw [lowest?_eq_head?]
  exact (least_of_ascending bytes.ascending_setPositions).congr bytes.mem_setPositions

/-! ## The window -/

/-- Where the set positions of a byte are, by its place among the bytes. -/
def spread (entry : UInt8 × Nat) : List Nat :=
  (Byte.positions entry.1).map (8 * entry.2 + ·)

theorem flatMap_spread (bytes : Bytes) (index : Nat) :
    (bytes.zipIdx index).flatMap spread = bytes.setPositions.map (8 * index + ·) := by
  induction bytes generalizing index with
  | nil => rfl
  | cons byte rest inductionHypothesis =>
      have moved : (fun position => 8 * (index + 1) + position) =
          (8 * index + ·) ∘ (8 + ·) := by
        funext position
        simp only [Function.comp_apply]
        omega
      rw [List.zipIdx_cons, List.flatMap_cons, inductionHypothesis, moved, setPositions_cons,
        List.map_append, List.map_map]
      rfl

/-- The listing, byte after byte. -/
theorem setPositions_eq_flatMap (bytes : Bytes) :
    bytes.setPositions = bytes.zipIdx.flatMap spread := by
  rw [flatMap_spread]
  simp only [Nat.mul_zero, Nat.zero_add, List.map_id']

/-- The positions of a byte lie in its eighth of the positions. -/
theorem mem_spread {entry : UInt8 × Nat} {position : Nat} (listed : position ∈ spread entry) :
    position / 8 = entry.2 := by
  rcases List.mem_map.mp listed with ⟨j, inByte, rfl⟩
  have inside : j < 8 := List.mem_range.mp (List.mem_filter.mp inByte).1
  omega

variable {first last : Nat}

/-- Whether a position lies in the window. -/
def inWindow (first last position : Nat) : Bool :=
  first ≤ position && position ≤ last

/-- Nothing lies in a window that ends before it begins. -/
theorem filter_inWindow_of_lt (empty : last < first) (positions : List Nat) :
    positions.filter (inWindow first last) = [] := by
  apply List.filter_eq_nil_iff.mpr
  intro position _ kept
  simp only [inWindow, Bool.and_eq_true, decide_eq_true_eq] at kept
  omega

/-- Clipping a byte keeps its positions inside the window. -/
theorem spread_clipped (entry : UInt8 × Nat) (reached : first / 8 ≤ entry.2)
    (before : entry.2 ≤ last / 8) :
    (Byte.positions (clipAbove last entry.2 (clipBelow first entry.2 entry.1))).map
        (8 * entry.2 + ·) = (spread entry).filter (inWindow first last) := by
  rw [spread, List.filter_map, Byte.positions, Byte.positions, List.filter_filter]
  congr 1
  apply List.filter_congr
  intro j listed
  have inside : j < 8 := List.mem_range.mp listed
  rw [bit_clipAbove _ inside before, bit_clipBelow _ inside reached, Function.comp_apply,
    inWindow, Bool.and_assoc, Bool.and_comm]

/-- A byte in front of the window or behind it has no position inside. -/
theorem spread_outside {entry : UInt8 × Nat}
    (outside : entry.2 < first / 8 ∨ last / 8 < entry.2) :
    (spread entry).filter (inWindow first last) = [] := by
  apply List.filter_eq_nil_iff.mpr
  intro position listed kept
  have place := mem_spread listed
  simp only [inWindow, Bool.and_eq_true, decide_eq_true_eq] at kept
  omega

/-- Nor have several such bytes. -/
theorem flatMap_spread_outside {entries : List (UInt8 × Nat)}
    (outside : forall entry, entry ∈ entries -> entry.2 < first / 8 ∨ last / 8 < entry.2) :
    (entries.flatMap spread).filter (inWindow first last) = [] := by
  rw [List.filter_flatMap]
  exact List.flatMap_eq_nil_iff.mpr fun entry listed => spread_outside (outside entry listed)

/-- The entries that are clipped, and those that are not looked at. -/
theorem zipIdx_window (bytes : Bytes) (first last : Nat) :
    Exists fun front => Exists fun back =>
      bytes.zipIdx =
        front ++ (bytes.take (last / 8 + 1)).zipIdx.drop (first / 8) ++ back ∧
      (forall entry, entry ∈ front -> entry.2 < first / 8) ∧
      forall entry, entry ∈ back -> last / 8 < entry.2 := by
  let reached := (bytes.take (last / 8 + 1)).zipIdx
  refine ⟨reached.take (first / 8), (bytes.drop (last / 8 + 1)).zipIdx
    (0 + (bytes.take (last / 8 + 1)).length), ?_, ?_, ?_⟩
  · rw [List.take_append_drop, ← List.zipIdx_append, List.take_append_drop]
  · intro entry listed
    rcases List.mem_take_iff_getElem.mp listed with ⟨place, below, rfl⟩
    rw [List.getElem_zipIdx]
    simp only [Nat.zero_add]
    omega
  · intro entry listed
    have reached := (List.mem_zipIdx listed).1
    have below := (List.mem_zipIdx listed).2.1
    rw [List.length_take] at reached
    rw [List.length_take, List.length_drop] at below
    omega

/-- An enumeration lists the set positions in the window. -/
theorem positions_eq_filter (bytes : Bytes) (first last : Nat) :
    bytes.positions first last = bytes.setPositions.filter (inWindow first last) := by
  rw [positions]
  split
  next empty => rw [filter_inWindow_of_lt empty]
  next =>
    rcases zipIdx_window bytes first last with ⟨front, back, split, before, behind⟩
    have nothingBefore : (front.flatMap spread).filter (inWindow first last) = [] :=
      flatMap_spread_outside fun entry listed => .inl (before entry listed)
    have nothingBehind : (back.flatMap spread).filter (inWindow first last) = [] :=
      flatMap_spread_outside fun entry listed => .inr (behind entry listed)
    rw [setPositions_eq_flatMap, split, List.flatMap_append, List.flatMap_append,
      List.filter_append, List.filter_append, nothingBefore, nothingBehind, List.nil_append,
      List.append_nil, List.filter_flatMap, List.flatMap_def, List.flatMap_def]
    congr 1
    apply List.map_congr_left
    intro entry listed
    rcases List.mem_drop_iff_getElem.mp listed with ⟨place, below, found⟩
    have index : entry.2 = first / 8 + place := by
      rw [← found, List.getElem_zipIdx, Nat.zero_add]
    rw [List.length_zipIdx, List.length_take] at below
    exact spread_clipped entry (by omega) (by omega)

/-- A range may end anywhere behind the last number that is kept. -/
theorem filter_range_eq {holds : Nat -> Bool} {count other : Nat}
    (below : forall number, holds number = true -> number < count)
    (belowOther : forall number, holds number = true -> number < other) :
    (List.range count).filter holds = (List.range other).filter holds := by
  have longer (count more : Nat) (below : forall number, holds number = true -> number < count) :
      (List.range (count + more)).filter holds = (List.range count).filter holds := by
    have none : ((List.range more).map (count + ·)).filter holds = [] := by
      apply List.filter_eq_nil_iff.mpr
      intro number listed kept
      rcases List.mem_map.mp listed with ⟨rest, _, rfl⟩
      exact Nat.not_lt_of_le (Nat.le_add_right count rest) (below _ kept)
    rw [List.range_add, List.filter_append, none, List.append_nil]
  rcases Nat.le_total count other with wider | wider
  · rw [← Nat.add_sub_cancel' wider, longer count (other - count) below]
  · rw [← Nat.add_sub_cancel' wider, longer other (count - other) belowOther]

/-- The listing goes as far as there are set positions. -/
theorem setPositions_eq_filter_range {bytes : Bytes} {count : Nat}
    (below : forall position, bytes.bit position = true -> position < count) :
    bytes.setPositions = (List.range count).filter bytes.bit :=
  filter_range_eq (fun _ => lt_width_of_bit) below

/-- An enumeration from the first position on goes through all positions up to the last. -/
theorem positions_zero_eq_filter_range (bytes : Bytes) (last : Nat) :
    bytes.positions 0 last = (List.range (last + 1)).filter bytes.bit := by
  rw [positions_eq_filter, setPositions, List.filter_filter]
  have inside : forall position,
      (inWindow 0 last position && bytes.bit position) = true -> position < last + 1 := by
    intro position kept
    have reached := (Bool.and_eq_true_iff.mp kept).1
    simp only [inWindow, Bool.and_eq_true, decide_eq_true_eq] at reached
    exact Nat.lt_succ_of_le reached.2
  calc (List.range bytes.width).filter (fun position =>
        inWindow 0 last position && bytes.bit position)
      = (List.range (last + 1)).filter (fun position =>
        inWindow 0 last position && bytes.bit position) :=
          filter_range_eq (fun _ kept => lt_width_of_bit (Bool.and_eq_true_iff.mp kept).2) inside
    _ = (List.range (last + 1)).filter bytes.bit := by
      apply List.filter_congr
      intro position listed
      have reached : position ≤ last := Nat.le_of_lt_succ (List.mem_range.mp listed)
      simp only [inWindow, Nat.zero_le, reached, decide_true, Bool.and_self, Bool.true_and]

/-! ## The count -/

/-- The weights of the bytes add up to the number of set positions. -/
theorem foldr_weight (bytes : Bytes) :
    bytes.foldr (fun byte above => Byte.weight byte + above) 0 = bytes.setPositions.length := by
  induction bytes with
  | nil => rfl
  | cons byte rest inductionHypothesis =>
      rw [List.foldr_cons, inductionHypothesis, setPositions_cons, List.length_append,
        List.length_map, Byte.weight_eq_length]

/-- There are as many set positions when the bytes come the other way round. -/
theorem length_setPositions_reverse (bytes : Bytes) :
    (setPositions bytes.reverse).length = bytes.setPositions.length := by
  induction bytes with
  | nil => rfl
  | cons byte rest inductionHypothesis =>
      rw [List.reverse_cons, setPositions_append, setPositions_singleton, setPositions_cons,
        List.length_append, List.length_append, List.length_map, List.length_map,
        inductionHypothesis, Nat.add_comm]

/-- The bits of a number are those of the bytes that spell it. -/
theorem testBit_little (bytes : Bytes) (position : Nat) :
    (ByteOrder.little.value bytes).testBit position = bytes.bit position := by
  induction bytes generalizing position with
  | nil => exact Nat.zero_testBit position
  | cons byte rest inductionHypothesis =>
      have value : ByteOrder.little.value (byte :: rest) =
          2 ^ 8 * ByteOrder.little.value rest + byte.toNat := Nat.add_comm ..
      rw [value, Nat.testBit_two_pow_mul_add _ byte.toNat_lt, inductionHypothesis]
      split
      next inside =>
        rw [bit, Nat.div_eq_of_lt inside, Nat.mod_eq_of_lt inside]
        rfl
      next outside =>
        have moved := bit_append_right [byte] rest (position - 8)
        have width : width [byte] + (position - 8) = position := by
          rw [Bytes.width, List.length_singleton]
          omega
        rw [width] at moved
        exact moved.symm

/-- A number is spelled the other way by the bytes the other way round. -/
theorem value_big (bytes : Bytes) :
    ByteOrder.big.value bytes = ByteOrder.little.value bytes.reverse := by
  simp only [ByteOrder.value, List.foldr_reverse]
  congr 1
  funext above byte
  exact Nat.add_comm ..

theorem wordWeight_eq_length (order : ByteOrder) {bytes : Bytes} (word : bytes.length = 8) :
    wordWeight (order.value bytes) = bytes.setPositions.length := by
  have little (bytes : Bytes) (word : bytes.length = 8) :
      wordWeight (ByteOrder.little.value bytes) = bytes.setPositions.length := by
    have same : (ByteOrder.little.value bytes).testBit = bytes.bit :=
      funext (testBit_little bytes)
    rw [wordWeight, same, List.countP_eq_length_filter, setPositions, width, word]
  cases order with
  | little => exact little bytes word
  | big =>
      rw [value_big, little bytes.reverse ((List.length_reverse ..).trans word),
        length_setPositions_reverse]

/-- The count is the number of set positions, in whichever order words are read. -/
theorem cardinality_eq_length (order : ByteOrder) :
    forall bytes : Bytes, bytes.cardinality order = bytes.setPositions.length
  | a :: b :: c :: d :: e :: f :: g :: h :: rest => by
      have counted : cardinality order (a :: b :: c :: d :: e :: f :: g :: h :: rest) =
          wordWeight (order.value [a, b, c, d, e, f, g, h]) + cardinality order rest := rfl
      have split : a :: b :: c :: d :: e :: f :: g :: h :: rest =
          [a, b, c, d, e, f, g, h] ++ rest := rfl
      rw [counted, cardinality_eq_length order rest, wordWeight_eq_length order rfl, split,
        setPositions_append, List.length_append, List.length_map]
  -- fewer bytes than a word has are counted one by one
  | [] => foldr_weight []
  | [a] => foldr_weight [a]
  | [a, b] => foldr_weight [a, b]
  | [a, b, c] => foldr_weight [a, b, c]
  | [a, b, c, d] => foldr_weight [a, b, c, d]
  | [a, b, c, d, e] => foldr_weight [a, b, c, d, e]
  | [a, b, c, d, e, f] => foldr_weight [a, b, c, d, e, f]
  | [a, b, c, d, e, f, g] => foldr_weight [a, b, c, d, e, f, g]

/-! ## Equal bytes -/

/-- Byte sequences of one length are known by their bits. -/
theorem eq_of_bit {left right : Bytes} (length : left.length = right.length)
    (same : forall position, position < left.width -> left.bit position = right.bit position) :
    left = right := by
  apply List.ext_getElem length
  intro place inside insideOther
  apply Byte.eq_of_bit
  intro j below
  have agree := same (8 * place + j) (by rw [width]; omega)
  have byte : (8 * place + j) / 8 = place := by omega
  have offset : (8 * place + j) % 8 = j := by omega
  rwa [bit_eq_getD, bit_eq_getD, byte, offset, List.getElem?_eq_getElem inside,
    List.getElem?_eq_getElem insideOther] at agree

end Bytes
end BitStore
