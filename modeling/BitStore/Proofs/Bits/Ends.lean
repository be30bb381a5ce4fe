import BitStore.Proofs.Bits.Windows

namespace BitStore

/-!
# Scans from both ends

A scan passes over the zero bytes at its end of the sequence and looks into the first byte
that is not zero.  What it finds is therefore an extreme of all set positions, and nothing
is found exactly where all bytes are zero.  As a signed number of 64 bits a find is its
position, because a position in up to `2 ^ 60` bytes is below `2 ^ 63`; nothing found is
`-1`, so that it stays below all positions when signed numbers are compared.
-/

namespace Greatest

variable {holds : Nat -> Prop} {found : Option Nat}

theorem eq_some_iff (greatest : Greatest holds found) (position : Nat) :
    found = some position ↔
      holds position ∧ forall other, holds other -> other ≤ position := by
  constructor
  · rintro rfl
    exact greatest
  · rintro ⟨held, above⟩
    cases found with
    | none => exact absurd held (greatest position)
    | some reached =>
        have same : reached = position :=
          Nat.le_antisymm (above reached greatest.1) (greatest.2 position held)
        rw [same]

theorem eq_none_iff (greatest : Greatest holds found) :
    found = none ↔ forall position, ¬ holds position := by
  constructor
  · rintro rfl
    exact greatest
  · intro missing
    cases found with
    | none => rfl
    | some reached => exact absurd greatest.1 (missing reached)

end Greatest

namespace Bytes

variable {bytes : Bytes}

/-! ## Zero bytes -/

/-- The bytes are all zero. -/
def Blank (bytes : Bytes) : Prop :=
  forall byte, byte ∈ bytes -> byte = 0

theorem blank_iff_eq_zeros : bytes.Blank ↔ bytes = zeros bytes.length := by
  rw [zeros, List.eq_replicate_iff]
  exact (and_iff_right rfl).symm

/-- Zero bytes have no set position, and no other bytes are without one. -/
theorem blank_iff_bit : bytes.Blank ↔ forall position, ¬ bytes.bit position = true := by
  rw [blank_iff_eq_zeros]
  constructor
  · intro blank position set
    rw [blank, bit_zeros] at set
    contradiction
  · intro unset
    apply eq_of_bit (length_zeros _).symm
    intro position _
    rw [bit_zeros, Bool.eq_false_iff]
    exact unset position

theorem highest?_eq_none_iff (bytes : Bytes) : bytes.highest? = none ↔ bytes.Blank := by
  rw [blank_iff_bit]
  exact bytes.highest?_greatest.eq_none_iff

theorem lowest?_eq_none_iff (bytes : Bytes) : bytes.lowest? = none ↔ bytes.Blank := by
  rw [blank_iff_bit]
  exact bytes.lowest?_least.eq_none_iff

/-! ## The extremes -/

theorem highest?_eq_some_iff (bytes : Bytes) (position : Nat) :
    bytes.highest? = some position ↔ bytes.bit position = true ∧
      forall other, position < other -> other < bytes.width -> bytes.bit other = false := by
  rw [bytes.highest?_greatest.eq_some_iff]
  refine and_congr_right fun _ => ⟨fun above other beyond _ => ?_, fun unset other set => ?_⟩
  · rw [Bool.eq_false_iff]
    exact fun set => Nat.not_lt_of_le (above other set) beyond
  · apply Nat.le_of_not_lt
    intro beyond
    rw [unset other beyond (lt_width_of_bit set)] at set
    contradiction

theorem lowest?_eq_some_iff (bytes : Bytes) (position : Nat) :
    bytes.lowest? = some position ↔ bytes.bit position = true ∧
      forall other, other < position -> bytes.bit other = false := by
  rw [bytes.lowest?_least.eq_some_iff]
  refine and_congr_right fun _ => ⟨fun below other before => ?_, fun unset other set => ?_⟩
  · rw [Bool.eq_false_iff]
    exact fun set => Nat.not_lt_of_le (below other set) before
  · apply Nat.le_of_not_lt
    intro before
    rw [unset other before] at set
    contradiction

/-- A search finds the lowest set bit if its window begins at the first position and does
not end in front of the last. -/
theorem lowest?_eq_next? {last : Nat} (reached : bytes.width - 1 ≤ last) :
    bytes.lowest? = bytes.next? 0 last := by
  refine bytes.lowest?_least.unique ((bytes.next?_least 0 last).congr fun position => ?_)
  constructor
  · rintro ⟨_, _, _, set⟩
    exact set
  · intro set
    have inside := lt_width_of_bit set
    exact ⟨Nat.zero_le position, by omega, inside, set⟩

/-! ## Signed positions -/

/-- What a scan from one of the ends finds. -/
def FoundAtEnd (bytes : Bytes) (found : Option Nat) : Prop :=
  found = bytes.highest? ∨ found = bytes.lowest?

namespace FoundAtEnd

variable {found : Option Nat}

theorem bit (atEnd : bytes.FoundAtEnd found) {position : Nat} (some : found = some position) :
    bytes.bit position = true := by
  rcases atEnd with rfl | rfl
  · exact ((bytes.highest?_eq_some_iff position).mp some).1
  · exact ((bytes.lowest?_eq_some_iff position).mp some).1

theorem eq_none_iff (atEnd : bytes.FoundAtEnd found) : found = none ↔ bytes.Blank := by
  rcases atEnd with rfl | rfl
  · exact bytes.highest?_eq_none_iff
  · exact bytes.lowest?_eq_none_iff

/-- A position that is found fits in a signed number of 64 bits. -/
theorem lt (atEnd : bytes.FoundAtEnd found) (short : bytes.length ≤ 1 <<< 60) {position : Nat}
    (some : found = some position) : position < 1 <<< 63 := by
  have inside := lt_width_of_bit (atEnd.bit some)
  rw [width] at inside
  omega

end FoundAtEnd

/-- A position below `2 ^ 63` is not wrapped around. -/
theorem signedPosition_some {position : Nat} (small : position < 1 <<< 63) :
    signedPosition (some position) = position := by
  change (position : Int).bmod (1 <<< 64) = position
  apply Int.bmod_eq_of_le_mul_two <;> omega

/-- Nothing found is below every position. -/
theorem signedPosition_none_lt (position : Nat) : signedPosition none < position :=
  Int.lt_of_lt_of_le (Int.neg_neg_of_pos Int.one_pos) (Int.natCast_nonneg position)

variable {left right : Bytes} {found other : Option Nat}

theorem signedPosition_lt_iff (leftEnd : left.FoundAtEnd found)
    (leftShort : left.length ≤ 1 <<< 60) (rightEnd : right.FoundAtEnd other)
    (rightShort : right.length ≤ 1 <<< 60) :
    signedPosition found < signedPosition other ↔ found < other := by
  cases found with
  | none =>
      cases other with
      | none => exact iff_of_false (Int.lt_irrefl _) Option.not_lt_none
      | some position =>
          rw [signedPosition_some (rightEnd.lt rightShort rfl)]
          exact iff_of_true (signedPosition_none_lt position) Option.none_lt_some
  | some reached =>
      rw [signedPosition_some (leftEnd.lt leftShort rfl)]
      cases other with
      | none =>
          exact iff_of_false (Int.not_lt_of_ge (Int.le_of_lt (signedPosition_none_lt reached)))
            Option.not_lt_none
      | some position =>
          rw [signedPosition_some (rightEnd.lt rightShort rfl), Option.some_lt_some]
          exact Int.ofNat_lt

/-- The scans from both ends find the greatest and the least of all set positions, and
nothing exactly where all bytes are zero.  The scan for the least is a search whose window
has all positions.  In up to `2 ^ 61` bytes every find is a word of 64 bits; in up to
`2 ^ 60` a find as a signed number is its position, or `-1` where all bytes are zero, and the
finds in two sequences compare as their signed numbers do, with nothing found below
everything. -/
theorem scans_reach_ends (bytes : Bytes) :
    (forall position, bytes.highest? = some position ↔ bytes.bit position = true ∧
      forall other, position < other -> other < 8 * bytes.length -> bytes.bit other = false) ∧
    (forall position, bytes.lowest? = some position ↔ bytes.bit position = true ∧
      forall other, other < position -> bytes.bit other = false) ∧
    (bytes.highest? = none ↔ forall byte, byte ∈ bytes -> byte = 0) ∧
    (bytes.lowest? = none ↔ forall byte, byte ∈ bytes -> byte = 0) ∧
    (forall last, 8 * bytes.length - 1 ≤ last -> bytes.lowest? = bytes.next? 0 last) ∧
    (bytes.length ≤ 1 <<< 61 -> forall position,
      bytes.highest? = some position ∨ bytes.lowest? = some position -> position < 1 <<< 64) ∧
    (bytes.length ≤ 1 <<< 60 -> forall found, bytes.FoundAtEnd found ->
      (signedPosition found = -1 ↔ forall byte, byte ∈ bytes -> byte = 0) ∧
      (forall position, found = some position -> signedPosition found = position) ∧
      forall (right : Bytes) other, right.length ≤ 1 <<< 60 -> right.FoundAtEnd other ->
        (signedPosition found < signedPosition other ↔ found < other)) := by
  refine ⟨bytes.highest?_eq_some_iff, bytes.lowest?_eq_some_iff, bytes.highest?_eq_none_iff,
    bytes.lowest?_eq_none_iff, fun last => lowest?_eq_next?, ?_, ?_⟩
  · intro short position found
    have set : bytes.bit position = true := by
      rcases found with highest | lowest
      · exact FoundAtEnd.bit (.inl rfl) highest
      · exact FoundAtEnd.bit (.inr rfl) lowest
    have inside := lt_width_of_bit set
    rw [width] at inside
    omega
  · intro short found atEnd
    refine ⟨?_, ?_, fun right other rightShort rightEnd =>
      signedPosition_lt_iff atEnd short rightEnd rightShort⟩
    · rw [← Blank, ← atEnd.eq_none_iff]
      cases found with
      | none => exact iff_of_true rfl rfl
      | some position =>
          refine iff_of_false ?_ (Option.some_ne_none position)
          rw [signedPosition_some (atEnd.lt short rfl)]
          omega
    · rintro position rfl
      exact signedPosition_some (atEnd.lt short rfl)

/-- Zero bytes at both ends, and bytes that are not symmetric. -/
theorem scans_reach_ends_ragged :
    Bytes.highest? [0, 6, 0, 16, 0] = some 28 ∧ Bytes.lowest? [0, 6, 0, 16, 0] = some 9 ∧
      Bytes.next? [0, 6, 0, 16, 0] 0 39 = some 9 ∧
      signedPosition (Bytes.highest? [0, 0]) < signedPosition (Bytes.lowest? [0, 6, 0, 16, 0]) := by
  rcases scans_reach_ends [0, 6, 0, 16, 0] with ⟨_, _, _, _, searched, _, _⟩
  rcases scans_reach_ends [0, 0] with ⟨_, _, _, _, _, _, signed⟩
  have highest : Bytes.highest? [0, 6, 0, 16, 0] = some 28 := rfl
  have lowest : Bytes.lowest? [0, 6, 0, 16, 0] = some 9 := rfl
  refine ⟨highest, lowest, ?_, ?_⟩
  · exact (searched 39 (by decide)).symm.trans lowest
  · rcases signed (by decide) _ (.inl rfl) with ⟨_, _, compares⟩
    exact (compares _ _ (by decide) (.inr rfl)).mpr Option.none_lt_some

end Bytes
end BitStore
