import BitStore.Proofs.Bits.Searches

namespace BitStore

/-!
# Searches in a window

A search in a window passes over zero bytes and masks the first and the last byte of the
window.  The two masks may fall on one byte, and the mask of the last on none at all, where
the window ends behind the bytes.  By induction on the bytes that are searched, the find is
the first entry of the listing of set positions that lies in the window; the masks come into
this once, in `spread_clipped`.  So the search finds what looking at one bit after the other
finds.

`Bytes.visits` is the loop that searches again behind each find.  It ends because a find lies
in the window that was searched, so that less of the window is left.  What it visits are all
set positions of the window, and with them the one-pass listing `Bytes.positions`.
-/

/-! ## What is found is the least -/

namespace Least

variable {holds : Nat -> Prop} {found : Option Nat}

theorem eq_some_iff (least : Least holds found) (position : Nat) :
    found = some position ↔
      holds position ∧ forall other, holds other -> position ≤ other := by
  constructor
  · rintro rfl
    exact least
  · rintro ⟨held, below⟩
    cases found with
    | none => exact absurd held (least position)
    | some reached =>
        have same : reached = position :=
          Nat.le_antisymm (least.2 position held) (below reached least.1)
        rw [same]

theorem eq_none_iff (least : Least holds found) :
    found = none ↔ forall position, ¬ holds position := by
  constructor
  · rintro rfl
    exact least
  · intro missing
    cases found with
    | none => rfl
    | some reached => exact absurd least.1 (missing reached)

/-- There is one find. -/
theorem unique (least : Least holds found) {other : Option Nat} (leastOther : Least holds other) :
    found = other := by
  cases other with
  | none => exact least.eq_none_iff.mpr leastOther
  | some position => exact (least.eq_some_iff position).mpr leastOther

end Least

/-- Looking at one number after the other finds the least. -/
theorem find?_range'_least (holds : Nat -> Bool) (first count : Nat) :
    Least (fun number => first ≤ number ∧ number < first + count ∧ holds number = true)
      ((List.range' first count).find? holds) := by
  have ascending : ((List.range' first count).filter holds).Pairwise (· < ·) :=
    (List.pairwise_lt_range' ..).filter holds
  rw [← List.head?_filter]
  refine (least_of_ascending ascending).congr fun number => ?_
  rw [List.mem_filter, List.mem_range'_1, and_assoc]

namespace Bytes

variable {first last : Nat}

/-! ## The find is the first entry of the window -/

theorem clippedFrom?_eq_head? (bytes : Bytes) {index : Nat} (reached : first / 8 ≤ index) :
    clippedFrom? first last index bytes =
      (((bytes.zipIdx index).flatMap spread).filter (inWindow first last)).head? := by
  induction bytes generalizing index with
  | nil => rfl
  | cons byte rest inductionHypothesis =>
      rw [clippedFrom?]
      split
      next behind =>
        rw [flatMap_spread_outside, List.head?_nil]
        intro entry listed
        have place := List.le_snd_of_mem_zipIdx listed
        exact .inr (Nat.lt_of_lt_of_le behind place)
      next before =>
        have clipped := spread_clipped (byte, index) reached (Nat.le_of_not_lt before)
        rw [inductionHypothesis (Nat.le_succ_of_le reached), Byte.lowest?_eq_head?,
          List.zipIdx_cons, List.flatMap_cons, List.filter_append, ← clipped, List.head?_append,
          List.head?_map]
        cases (Byte.positions (clipAbove last index (clipBelow first index byte))).head? <;> rfl

/-- The entries from a place on, numbered from that place. -/
theorem drop_zipIdx (bytes : Bytes) (place : Nat) :
    bytes.zipIdx.drop place = List.zipIdx (bytes.drop place) place := by
  apply List.ext_getElem?
  intro offset
  rw [List.getElem?_drop, List.getElem?_zipIdx, List.getElem?_zipIdx, List.getElem?_drop,
    Nat.zero_add]

/-- A search finds the first position that the listing of its window has. -/
theorem next?_eq_head? (bytes : Bytes) (first last : Nat) :
    bytes.next? first last = (bytes.positions first last).head? := by
  rw [positions_eq_filter, next?]
  split
  next empty => rw [filter_inWindow_of_lt empty, List.head?_nil]
  next =>
    have before : ((bytes.zipIdx.take (first / 8)).flatMap spread).filter
        (inWindow first last) = [] := by
      apply flatMap_spread_outside
      intro entry listed
      rcases List.mem_take_iff_getElem.mp listed with ⟨place, below, rfl⟩
      rw [List.getElem_zipIdx, Nat.zero_add]
      exact .inl (Nat.lt_of_lt_of_le below (Nat.min_le_left ..))
    rw [clippedFrom?_eq_head? _ (Nat.le_refl _), ← drop_zipIdx, setPositions_eq_flatMap,
      ← List.take_append_drop (first / 8) bytes.zipIdx, List.flatMap_append, List.filter_append,
      before, List.nil_append, List.take_append_drop]

/-- The listing of a window has the set positions in the window. -/
theorem mem_positions (bytes : Bytes) (first last position : Nat) :
    position ∈ bytes.positions first last ↔
      first ≤ position ∧ position ≤ last ∧ position < bytes.width ∧
        bytes.bit position = true := by
  rw [positions_eq_filter, List.mem_filter, mem_setPositions, inWindow, Bool.and_eq_true,
    decide_eq_true_eq, decide_eq_true_eq]
  constructor
  · rintro ⟨set, reached, inside⟩
    exact ⟨reached, inside, lt_width_of_bit set, set⟩
  · rintro ⟨reached, inside, _, set⟩
    exact ⟨set, reached, inside⟩

theorem ascending_positions (bytes : Bytes) (first last : Nat) :
    (bytes.positions first last).Pairwise (· < ·) := by
  rw [positions_eq_filter]
  exact bytes.ascending_setPositions.filter _

theorem next?_least (bytes : Bytes) (first last : Nat) :
    Least (fun position => first ≤ position ∧ position ≤ last ∧ position < bytes.width ∧
      bytes.bit position = true) (bytes.next? first last) := by
  rw [next?_eq_head?]
  exact (least_of_ascending (bytes.ascending_positions first last)).congr
    (bytes.mem_positions first last)

/-- What a search finds is found by looking at one position of the window after the other.
It is the least of the set positions in the window, and nothing is found only if there is
none; a position behind the bytes is not set, wherever the window ends. -/
theorem next?_is_linear_search (bytes : Bytes) (first last : Nat) :
    let set position := first ≤ position ∧ position ≤ last ∧ position < 8 * bytes.length ∧
      bytes.bit position = true
    bytes.next? first last = (List.range' first (last + 1 - first)).find? bytes.bit ∧
    (forall position, bytes.next? first last = some position ↔
      set position ∧ forall other, set other -> position ≤ other) ∧
    (bytes.next? first last = none ↔ ¬ Exists set) := by
  intro set
  have least : Least set (bytes.next? first last) := bytes.next?_least first last
  have linear : Least set ((List.range' first (last + 1 - first)).find? bytes.bit) := by
    refine (find?_range'_least bytes.bit first (last + 1 - first)).congr fun position => ?_
    constructor
    · rintro ⟨reached, inside, isSet⟩
      exact ⟨reached, by omega, lt_width_of_bit isSet, isSet⟩
    · rintro ⟨reached, inside, _, isSet⟩
      exact ⟨reached, by omega, isSet⟩
  refine ⟨least.unique linear, least.eq_some_iff, ?_⟩
  rw [least.eq_none_iff, not_exists]

example : Bytes.next? [5, 0, 16] 3 (2 ^ 64 - 1) = some 20 := by decide

/-! ## One search after the other -/

/-- The finds of searches, each of them begun behind the find before it. -/
def visits (bytes : Bytes) (first last : Nat) : List Nat :=
  match found : bytes.next? first last with
  | none => []
  | some position => position :: visits bytes (position + 1) last
termination_by last + 1 - first
decreasing_by
  have bounds := next?_bounds found
  omega

theorem visits_of_none {bytes : Bytes} (nothing : bytes.next? first last = none) :
    bytes.visits first last = [] := by
  rw [visits]
  split
  next => rfl
  next position found =>
    rw [nothing] at found
    contradiction

theorem visits_of_some {bytes : Bytes} {position : Nat}
    (found : bytes.next? first last = some position) :
    bytes.visits first last = position :: bytes.visits (position + 1) last := by
  rw [visits]
  split
  next nothing =>
    rw [found] at nothing
    contradiction
  next other again =>
    cases found.symm.trans again
    rfl

/-- Behind the first entry of a window the same window goes on. -/
theorem filter_inWindow_eq_cons {positions : List Nat} (ascending : positions.Pairwise (· < ·))
    {position : Nat} (found : (positions.filter (inWindow first last)).head? = some position) :
    positions.filter (inWindow first last) =
      position :: positions.filter (inWindow (position + 1) last) := by
  rcases List.head?_eq_some_iff.mp found with ⟨behind, split⟩
  have bounds : first ≤ position ∧ position ≤ last := by
    have kept := (List.mem_filter.mp (split ▸ List.mem_cons_self : position ∈ _)).2
    simpa only [inWindow, Bool.and_eq_true, decide_eq_true_eq] using kept
  have narrower : (positions.filter (inWindow first last)).filter (inWindow (position + 1) last) =
      positions.filter (inWindow (position + 1) last) := by
    rw [List.filter_filter]
    apply List.filter_congr
    intro other _
    rw [Bool.eq_iff_iff]
    simp only [inWindow, Bool.and_eq_true, decide_eq_true_eq]
    omega
  have rest : behind.filter (inWindow (position + 1) last) = behind := by
    apply List.filter_eq_self.mpr
    intro other listed
    have later := List.rel_of_pairwise_cons (split ▸ ascending.filter _) listed
    have kept := (List.mem_filter.mp (split ▸ List.mem_cons_of_mem position listed : other ∈ _)).2
    simp only [inWindow, Bool.and_eq_true, decide_eq_true_eq] at kept ⊢
    omega
  have self : inWindow (position + 1) last position = false := by
    simp only [inWindow, Bool.and_eq_false_iff, decide_eq_false_iff_not]
    omega
  rw [← narrower, split, List.filter_cons_of_neg (by rw [self]; exact Bool.false_ne_true), rest]

theorem positions_eq_cons (bytes : Bytes) {position : Nat}
    (found : bytes.next? first last = some position) :
    bytes.positions first last = position :: bytes.positions (position + 1) last := by
  rw [next?_eq_head?, positions_eq_filter] at found
  rw [positions_eq_filter, positions_eq_filter,
    filter_inWindow_eq_cons bytes.ascending_setPositions found]

/-- The loop visits what one pass over the bytes lists. -/
theorem visits_eq_positions (bytes : Bytes) (first last : Nat) :
    bytes.visits first last = bytes.positions first last := by
  induction first using visits.induct bytes last with
  | case1 first nothing =>
      rw [visits_of_none nothing]
      rw [next?_eq_head?, List.head?_eq_none_iff] at nothing
      exact nothing.symm
  | case2 first position found inductionHypothesis =>
      rw [visits_of_some found, inductionHypothesis, positions_eq_cons bytes found]

/-- A search that begins somewhere in a window finds the first position behind that place. -/
theorem next?_eq_find? (bytes : Bytes) (first last : Nat) :
    bytes.next? first last = (bytes.positions 0 last).find? (first ≤ ·) := by
  have narrower : (fun position => decide (first ≤ position) && inWindow 0 last position) =
      inWindow first last := by
    funext position
    simp only [inWindow, Nat.zero_le, decide_true, Bool.true_and]
  rw [next?_eq_head?, ← List.head?_filter, positions_eq_filter, positions_eq_filter,
    List.filter_filter, narrower]

end Bytes
end BitStore
