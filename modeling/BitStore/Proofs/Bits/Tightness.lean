import Mathlib.Data.List.Nodup
import BitStore.Proofs.Bits.Checked
import BitStore.Proofs.Bits.Ends

namespace BitStore

/-!
# One bit for each index

An address selects one position: it names a byte, and its mask has one set bit.  An index is
located at the address that selects the position of the same number, and at no other, as long
as it is not above the capacity (`locate_eq_ok_iff`).  From this follows how addresses differ:
a bit that two masks have in common in one byte would be at the positions of both indices.
It also follows where no index leads, which is behind the capacity, in the last byte.

That the bytes of a layout are no more than are needed does not depend on how it locates
indices.  A byte has eight bits, so any way to give each index up to the capacity a bit of its
own takes as many bytes.
-/

namespace Byte

theorem positions_single {position : Nat} (inside : position < 8) :
    positions (single position) = [position] := by
  have all : forall j, j < 8 -> positions (single j) = [j] := by decide
  exact all position inside

theorem lowest?_single {position : Nat} (inside : position < 8) :
    lowest? (single position) = some position := by
  rw [lowest?_eq_head?, positions_single inside, List.head?_singleton]

theorem highest?_single {position : Nat} (inside : position < 8) :
    highest? (single position) = some position := by
  rw [highest?_eq_getLast?, positions_single inside, List.getLast?_singleton]

/-- A mask with one set bit is one of the eight. -/
theorem weight_eq_one_iff (mask : UInt8) :
    weight mask = 1 ↔ Exists fun position => position < 8 ∧ mask = single position := by
  rw [weight_eq_length, List.length_eq_one_iff]
  constructor
  · rintro ⟨position, only⟩
    have set_iff (j : Nat) : j < 8 ∧ bit mask j = true ↔ j = position := by
      rw [← List.mem_range, ← List.mem_filter, ← positions, only, List.mem_singleton]
    have inside : position < 8 := ((set_iff position).mpr rfl).1
    refine ⟨position, inside, eq_of_bit fun j below => ?_⟩
    rw [bit_single position j inside, Bool.eq_iff_iff, decide_eq_true_eq]
    exact (and_iff_right below).symm.trans ((set_iff j).trans eq_comm)
  · rintro ⟨position, inside, rfl⟩
    exact ⟨position, positions_single inside⟩

end Byte

namespace BitAddress

/-- The address leads to a position: to its byte, and its mask has the bit there. -/
def Selects (address : BitAddress) (position : Nat) : Prop :=
  address.byte = position / 8 ∧ Byte.bit address.mask (position % 8) = true

variable {address : BitAddress}

theorem selects_iff_bit {j : Nat} (below : j < 8) :
    address.Selects (8 * address.byte + j) ↔ Byte.bit address.mask j = true := by
  have byte : address.byte = (8 * address.byte + j) / 8 := by omega
  have bit : (8 * address.byte + j) % 8 = j := by omega
  rw [Selects, ← byte, bit, and_iff_right rfl]

/-- A single bit in so many bytes is at one of their positions. -/
theorem exists_selects {length : Nat} (inside : address.byte < length)
    (one : Byte.weight address.mask = 1) :
    Exists fun position => position < 8 * length ∧ address.Selects position := by
  rcases (Byte.weight_eq_one_iff _).mp one with ⟨j, below, single⟩
  refine ⟨8 * address.byte + j, by omega, (selects_iff_bit below).mpr ?_⟩
  rw [single, Byte.bit_single _ _ below, decide_eq_true rfl]

/-- There is one address with a single bit for each position. -/
theorem single_and_selects_iff (address : BitAddress) (position : Nat) :
    Byte.weight address.mask = 1 ∧ address.Selects position ↔
      address = { byte := position / 8, mask := Byte.single (position % 8) } := by
  have below : position % 8 < 8 := Nat.mod_lt _ (by decide)
  constructor
  · rcases address with ⟨byte, mask⟩
    rintro ⟨one, place, set⟩
    rcases (Byte.weight_eq_one_iff mask).mp one with ⟨j, small, rfl⟩
    rw [Byte.bit_single _ _ small, decide_eq_true_eq] at set
    rw [show byte = position / 8 from place, set]
  · rintro rfl
    refine ⟨(Byte.weight_eq_one_iff _).mpr ⟨_, below, rfl⟩, rfl, ?_⟩
    rw [Byte.bit_single _ _ below, decide_eq_true rfl]

end BitAddress

namespace Layout

variable {layout : Layout} {index other : Nat} {address another : BitAddress}

/-! ## The addresses of a layout -/

/-- An index is located at the one address that selects its position. -/
theorem locate_eq_ok_iff (layout : Layout) (index : Nat) (address : BitAddress) :
    layout.locate index = .ok address ↔
      index ≤ layout.capacity ∧ Byte.weight address.mask = 1 ∧ address.Selects index := by
  rw [BitAddress.single_and_selects_iff]
  constructor
  · exact layout.le_of_locate
  · rintro ⟨inside, rfl⟩
    exact layout.locate_of_le inside

/-- The address of an index leads to no other position. -/
theorem selects_iff (located : layout.locate index = .ok address) (position : Nat) :
    address.Selects position ↔ position = index := by
  rcases layout.le_of_locate located with ⟨_, rfl⟩
  rw [BitAddress.Selects, Byte.bit_single _ _ (Nat.mod_lt _ (by decide)), decide_eq_true_eq]
  constructor
  · rintro ⟨sameByte, sameBit⟩
    have sameByte : index / 8 = position / 8 := sameByte
    omega
  · rintro rfl
    exact ⟨rfl, rfl⟩

theorem eq_of_locate (located : layout.locate index = .ok address)
    (same : layout.locate other = .ok address) : index = other :=
  (selects_iff same index).mp ((selects_iff located index).mpr rfl)

/-- The masks of two indices have no bit in common in one byte. -/
theorem byte_ne_or_mask_and_eq_zero (located : layout.locate index = .ok address)
    (locatedOther : layout.locate other = .ok another) (different : index ≠ other) :
    address.byte ≠ another.byte ∨ address.mask &&& another.mask = 0 := by
  by_cases sameByte : address.byte = another.byte
  · right
    apply Byte.eq_of_bit
    intro j below
    rw [Byte.bit_and, Byte.bit_zero, ← Bool.not_eq_true, Bool.and_eq_true]
    -- a bit of both masks would be at one position, to which both indices lead
    rintro ⟨set, setToo⟩
    have first := (BitAddress.selects_iff_bit below).mpr set
    have second := (BitAddress.selects_iff_bit below).mpr setToo
    rw [← sameByte] at second
    exact different (((selects_iff located _).mp first).symm.trans
      ((selects_iff locatedOther _).mp second))
  · exact .inl sameByte

/-- Where the bit of an index alone is set, scans from both ends find the index. -/
theorem scans_of_raised (located : layout.locate index = .ok address) :
    let raised : Bytes := (Bytes.zeros layout.byteLength).modify address.byte address.raise
    raised.lowest? = some index ∧ raised.highest? = some index := by
  intro raised
  have bit (position : Nat) : raised.bit position = decide (position = index) := by
    rw [bit_raise located (Bytes.length_zeros _), Bytes.bit_zeros]
    split
    next same => rw [decide_eq_true same]
    next different => rw [decide_eq_false different]
  constructor
  · refine (raised.lowest?_eq_some_iff index).mpr ⟨(bit index).trans (decide_eq_true rfl), ?_⟩
    intro other before
    rw [bit, decide_eq_false (Nat.ne_of_lt before)]
  · refine (raised.highest?_eq_some_iff index).mpr ⟨(bit index).trans (decide_eq_true rfl), ?_⟩
    intro other behind _
    rw [bit, decide_eq_false (Nat.ne_of_gt behind)]

/-! ## Positions without an index -/

/-- The positions above the capacity in the last byte. -/
def slack (layout : Layout) : List Nat :=
  List.range' (layout.capacity + 1) (7 - layout.capacity % 8)

theorem length_slack (layout : Layout) : layout.slack.length = 7 - layout.capacity % 8 :=
  List.length_range'

theorem nodup_slack (layout : Layout) : layout.slack.Nodup :=
  List.nodup_range'

theorem mem_slack (layout : Layout) (position : Nat) :
    position ∈ layout.slack ↔
      layout.capacity < position ∧ position < 8 * layout.byteLength := by
  rw [slack, List.mem_range'_1, byteLength]
  omega

/-- No index leads to a position exactly if it is above the capacity. -/
theorem not_selected_iff (layout : Layout) (position : Nat) :
    (forall index address, layout.locate index = .ok address -> ¬ address.Selects position) ↔
      layout.capacity < position := by
  constructor
  · intro free
    apply Nat.lt_of_not_le
    intro inside
    have located := layout.locate_of_le inside
    exact free position _ located ((selects_iff located position).mpr rfl)
  · intro above index address located selected
    have inside := ((layout.locate_eq_ok_iff index address).mp located).1
    rw [(selects_iff located position).mp selected] at above
    exact Nat.not_le_of_lt above inside

/-- A single bit of the bytes is either the bit of an index or slack. -/
theorem located_or_slack (inside : address.byte < layout.byteLength)
    (one : Byte.weight address.mask = 1) :
    (Exists fun index => layout.locate index = .ok address) ∨
      Exists fun position => position ∈ layout.slack ∧ address.Selects position := by
  rcases BitAddress.exists_selects inside one with ⟨position, within, selected⟩
  rcases Nat.lt_or_ge layout.capacity position with above | reached
  · exact .inr ⟨position, (layout.mem_slack position).mpr ⟨above, within⟩, selected⟩
  · exact .inl ⟨position, (layout.locate_eq_ok_iff position address).mpr ⟨reached, one, selected⟩⟩

end Layout

/-! ## How many bytes are needed -/

/-- The indices up to a capacity, and no others, are located in so many bytes: each at a
single bit, and no two of them at the same one. -/
structure Addresses (locate : Nat -> Except Fault BitAddress) (capacity length : Nat) : Prop where
  located : forall index, (Exists fun address => locate index = .ok address) ↔ index ≤ capacity
  inside : forall index address, locate index = .ok address -> address.byte < length
  single : forall index address, locate index = .ok address -> Byte.weight address.mask = 1
  apart : forall index other address,
    locate index = .ok address -> locate other = .ok address -> index = other

theorem Layout.addresses (layout : Layout) :
    Addresses layout.locate layout.capacity layout.byteLength where
  located index := by
    constructor
    · rintro ⟨address, located⟩
      exact ((layout.locate_eq_ok_iff index address).mp located).1
    · exact fun inside => ⟨_, layout.locate_of_le inside⟩
  inside _ _ := layout.byte_lt_byteLength
  single index address located := ((layout.locate_eq_ok_iff index address).mp located).2.1
  apart _ _ _ := Layout.eq_of_locate

/-- There are eight single bits in a byte, and one of them is needed for each index. -/
theorem Addresses.capacity_lt {locate : Nat -> Except Fault BitAddress} {capacity length : Nat}
    (addresses : Addresses locate capacity length) : capacity < 8 * length := by
  let used := (List.range (capacity + 1)).map locate
  let available : List (Except Fault BitAddress) :=
    (List.range (8 * length)).map fun position =>
      .ok { byte := position / 8, mask := Byte.single (position % 8) }
  have located {index : Nat} (listed : index ∈ List.range (capacity + 1)) :
      Exists fun address => locate index = .ok address :=
    (addresses.located index).mpr (Nat.le_of_lt_succ (List.mem_range.mp listed))
  have distinct : used.Nodup := by
    apply List.nodup_range.map_on
    intro index listed other _ same
    rcases located listed with ⟨address, there⟩
    exact addresses.apart index other address there (same ▸ there)
  have within : used ⊆ available := by
    intro place listed
    rcases List.mem_map.mp listed with ⟨index, inside, rfl⟩
    rcases located inside with ⟨address, there⟩
    have one := addresses.single index address there
    rcases BitAddress.exists_selects (addresses.inside index address there) one with
      ⟨position, below, selected⟩
    refine List.mem_map.mpr ⟨position, List.mem_range.mpr below, ?_⟩
    rw [there, (address.single_and_selects_iff position).mp ⟨one, selected⟩]
  have bounded := distinct.length_le_of_subset within
  rwa [List.length_map, List.length_map, List.length_range, List.length_range] at bounded

namespace Layout

/-- A layout of any positive capacity gives each index up to the capacity a bit of its own,
in as few bytes as this can be done at all.  The byte and the bit make up the index, and scans
find it again.  The masks of two indices have nothing in common in one byte.  Each single bit
of the bytes is the bit of an index, but for at most seven at the end of the last byte, all of
them above the capacity.  If the capacity is a word of 64 bits, words are enough to
compute all this. -/
theorem addressing_is_tight (capacity : Nat) (positive : 0 < capacity) :
    Exists fun layout => ofCapacity capacity = .ok layout ∧
      layout.byteLength = capacity / 8 + 1 ∧
      Addresses layout.locate capacity layout.byteLength ∧
      (forall locate length, Addresses locate capacity length -> layout.byteLength ≤ length) ∧
      (forall index address, layout.locate index = .ok address ->
        (Exists fun bit => address.mask = Byte.single bit ∧ 8 * address.byte + bit = index ∧
          bit < 8 ∧ Byte.lowest? address.mask = some bit ∧ Byte.highest? address.mask = some bit) ∧
        let raised : Bytes := (Bytes.zeros layout.byteLength).modify address.byte address.raise
        raised.lowest? = some index ∧ raised.highest? = some index) ∧
      (forall index other address another, layout.locate index = .ok address ->
        layout.locate other = .ok another -> index ≠ other ->
        address.byte ≠ another.byte ∨ address.mask &&& another.mask = 0) ∧
      (forall address, address.byte < layout.byteLength -> Byte.weight address.mask = 1 ->
        (Exists fun index => layout.locate index = .ok address) ∨
          Exists fun position => position ∈ layout.slack ∧ address.Selects position) ∧
      (layout.slack.Nodup ∧ layout.slack.length ≤ 7 ∧ forall position,
        (position ∈ layout.slack ↔ position < 8 * layout.byteLength ∧
          forall index address, layout.locate index = .ok address -> ¬ address.Selects position) ∧
        (position ∈ layout.slack -> capacity < position ∧ position / 8 + 1 = layout.byteLength)) ∧
      (capacity < 1 <<< 64 -> (RawLayout.ofCapacity capacity).run = .ok (.ok layout.raw) ∧
        forall index, (layout.raw.locate index).run = .ok (layout.locate index)) := by
  let layout : Layout := ⟨capacity, positive⟩
  have laid : ofCapacity capacity = .ok layout := dif_pos positive
  refine ⟨layout, laid, rfl, layout.addresses, fun locate length addresses => ?_,
    fun index address located => ⟨?_, scans_of_raised located⟩,
    fun _ _ _ _ => byte_ne_or_mask_and_eq_zero, fun _ => located_or_slack,
    ⟨layout.nodup_slack, ?_, fun position => ⟨?_, ?_⟩⟩, fun word => ⟨?_, layout.run_raw_locate⟩⟩
  · have room := addresses.capacity_lt
    exact show capacity / 8 + 1 ≤ length by omega
  · have below : index % 8 < 8 := Nat.mod_lt _ (by decide)
    rcases layout.le_of_locate located with ⟨_, rfl⟩
    exact ⟨index % 8, rfl, Nat.div_add_mod index 8, below, Byte.lowest?_single below,
      Byte.highest?_single below⟩
  · rw [length_slack]
    exact Nat.sub_le ..
  · rw [not_selected_iff, mem_slack, and_comm]
  · intro slack
    rcases (layout.mem_slack position).mp slack with ⟨above, inside⟩
    have above : capacity < position := above
    have inside : position < 8 * (capacity / 8 + 1) := inside
    exact ⟨above, show position / 8 + 1 = capacity / 8 + 1 by omega⟩
  · rw [run_raw_ofCapacity word, laid]
    rfl

/-- A capacity that is alone in its byte, with seven positions behind it; and the greatest word,
which is the last position of its bytes. -/
theorem addressing_is_tight_sixteen :
    let greatest := 1 <<< 64 - 1
    (Exists fun layout => ofCapacity 16 = .ok layout ∧
      layout.locate 16 = .ok { byte := 2, mask := 1 } ∧
      layout.locate 9 = .ok { byte := 1, mask := 2 } ∧
      layout.locate 15 = .ok { byte := 1, mask := 128 } ∧
      Bytes.lowest? [0, 0, 1] = some 16 ∧ Bytes.highest? [0, 0, 1] = some 16 ∧
      (2 : UInt8) &&& 128 = 0 ∧
      layout.slack = [17, 18, 19, 20, 21, 22, 23] ∧ 17 / 8 + 1 = layout.byteLength ∧
      ¬ Addresses layout.locate 16 2) ∧
    Exists fun layout => ofCapacity greatest = .ok layout ∧ layout.byteLength = 1 <<< 61 ∧
      layout.slack = [] ∧
      (Exists fun index => layout.locate index = .ok { byte := 1 <<< 61 - 1, mask := 128 }) ∧
      (RawLayout.ofCapacity greatest).run = .ok (.ok layout.raw) := by
  intro greatest
  constructor
  · rcases addressing_is_tight 16 (by decide) with
      ⟨layout, laid, _, _, least, found, apart, _, ⟨_, _, slack⟩, _⟩
    obtain rfl : (⟨16, by decide⟩ : Layout) = layout := Except.ok.inj laid
    refine ⟨_, laid, rfl, rfl, rfl, (found 16 _ rfl).2.1, (found 16 _ rfl).2.2, ?_, rfl,
      ((slack 17).2 (by decide)).2, fun enough => absurd (least _ _ enough) (by decide)⟩
    exact (apart 9 15 _ _ rfl rfl (by decide)).resolve_left fun different => different rfl
  · rcases addressing_is_tight greatest (by decide) with
      ⟨layout, laid, size, _, _, _, _, reached, _, words⟩
    obtain rfl : (⟨greatest, by decide⟩ : Layout) = layout := Except.ok.inj laid
    have bytes : greatest / 8 + 1 = 1 <<< 61 := by decide
    have full : 7 - greatest % 8 = 0 := by decide
    have noSlack : Layout.slack ⟨greatest, by decide⟩ = [] :=
      List.eq_nil_of_length_eq_zero ((length_slack _).trans full)
    refine ⟨_, laid, size.trans bytes, noSlack, ?_, (words (by decide)).1⟩
    refine (reached { byte := 1 <<< 61 - 1, mask := 128 } (by decide) rfl).resolve_right ?_
    rintro ⟨position, listed, _⟩
    rw [noSlack] at listed
    exact List.not_mem_nil listed

end Layout
end BitStore
