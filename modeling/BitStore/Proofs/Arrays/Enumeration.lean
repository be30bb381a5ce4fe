import BitStore.Proofs.Arrays.Closed
import BitStore.Proofs.Arrays.Derived

namespace BitStore

/-!
# Going through the set positions

There are three ways to all set positions below the capacity.  They are listed in one pass; a
loop searches one snapshot again behind each find; and a user calls for the next set position
and then for the next behind that, until there is none.  The loop and the calls end because
each find lies in front of the capacity and behind the find before it, which also means that
no search is ever asked to begin behind the capacity.

`Enumerates` says that the three come to the same list, what the list is, and how a single
search and the count are related to it.  The count is of all bytes, so it also counts the
positions from the capacity on, which no search visits.
-/

namespace Bytes

/-- The loop that lists the set positions below a capacity.  Without a position to look for it
does not search at all. -/
def enumerate (bytes : Bytes) (capacity : Nat) : List Nat :=
  if capacity = 0 then [] else bytes.visits 0 (capacity - 1)

variable (bytes : Bytes) (capacity : Nat)

/-- The loop comes to every position below the capacity that is set. -/
theorem enumerate_eq_filter :
    bytes.enumerate capacity = (List.range capacity).filter bytes.bit := by
  rw [enumerate]
  split
  next none =>
    rw [none]
    rfl
  next some =>
    rw [visits_eq_positions, positions_zero_eq_filter_range,
      Nat.sub_add_cancel (Nat.one_le_iff_ne_zero.mpr some)]

theorem ascending_enumerate : (bytes.enumerate capacity).Pairwise (· < ·) := by
  rw [enumerate_eq_filter]
  exact List.pairwise_lt_range.filter bytes.bit

theorem mem_enumerate (position : Nat) :
    position ∈ bytes.enumerate capacity ↔
      position < min capacity (8 * bytes.length) ∧ bytes.bit position = true := by
  rw [enumerate_eq_filter, List.mem_filter, List.mem_range, Nat.lt_min]
  constructor
  · rintro ⟨below, set⟩
    exact ⟨⟨below, lt_width_of_bit set⟩, set⟩
  · rintro ⟨⟨below, _⟩, set⟩
    exact ⟨below, set⟩

/-- A search below the capacity finds the first position of the loop that it may find. -/
theorem next?_eq_find?_enumerate (first : Nat) :
    (if first < capacity then bytes.next? first (capacity - 1) else none) =
      (bytes.enumerate capacity).find? (first ≤ ·) := by
  split
  next inside =>
    have some : capacity ≠ 0 := Nat.ne_zero_of_lt inside
    rw [enumerate, if_neg some, visits_eq_positions, next?_eq_find?]
  next beyond =>
    symm
    apply List.find?_eq_none.mpr
    intro position listed reached
    have below := ((bytes.mem_enumerate capacity position).mp listed).1
    have reached : first ≤ position := of_decide_eq_true reached
    omega

/-- What is counted is visited, or it lies from the capacity on. -/
theorem count_eq_length_add :
    bytes.count = (bytes.enumerate capacity).length +
      (List.range' capacity (8 * bytes.length - capacity)).countP bytes.bit := by
  have below : forall position, bytes.bit position = true ->
      position < capacity + (8 * bytes.length - capacity) := by
    intro position set
    have inside : position < 8 * bytes.length := lt_width_of_bit set
    omega
  rw [count, cardinality_eq_length, setPositions_eq_filter_range below, List.range_eq_range',
    ← List.range'_append_1, List.filter_append, List.length_append, enumerate_eq_filter,
    List.range_eq_range', Nat.zero_add, List.countP_eq_length_filter]

end Bytes

/-! ## Calls, each behind the find before it -/

/-- Searches that visit these positions from a first one on and then find nothing more.  None
of them changes the host. -/
inductive Walk (search : Nat -> ArrayM (Option Nat)) (host : Host) : Nat -> List Nat -> Prop where
  | done {first : Nat} (nothing : runFrom (search first) host = (.ok none, host)) :
      Walk search host first []
  | found {first position : Nat} {behind : List Nat}
      (found : runFrom (search first) host = (.ok (some position), host))
      (rest : Walk search host (position + 1) behind) :
      Walk search host first (position :: behind)

variable {search : Nat -> ArrayM (Option Nat)} {host : Host} {bytes : Bytes} {capacity : Nat}

/-- There is one walk from a position. -/
theorem Walk.unique {first : Nat} {visited other : List Nat} (walk : Walk search host first visited)
    (walkOther : Walk search host first other) : visited = other := by
  induction walk generalizing other with
  | done nothing =>
      cases walkOther with
      | done _ => rfl
      | found found _ => cases nothing.symm.trans found
  | found found rest inductionHypothesis =>
      cases walkOther with
      | done nothing => cases found.symm.trans nothing
      | found again restOther =>
          cases found.symm.trans again
          rw [inductionHypothesis restOther]

/-- Searches of one window walk as the loop does. -/
theorem walk_visits {last : Nat}
    (answers : forall first, runFrom (search first) host = (.ok (bytes.next? first last), host))
    (first : Nat) : Walk search host first (bytes.visits first last) := by
  induction first using Bytes.visits.induct bytes last with
  | case1 first nothing =>
      rw [Bytes.visits_of_none nothing]
      exact .done (nothing ▸ answers first)
  | case2 first position found inductionHypothesis =>
      rw [Bytes.visits_of_some found]
      exact .found (found ▸ answers first) inductionHypothesis

/-- Searches that stop in front of a capacity walk as the loop does. -/
theorem walk_enumerate
    (answers : forall first, runFrom (search first) host =
      (.ok (if first < capacity then bytes.next? first (capacity - 1) else none), host)) :
    Walk search host 0 (bytes.enumerate capacity) := by
  rw [Bytes.enumerate]
  split
  next none =>
    have idle := answers 0
    rw [none] at idle
    exact .done idle
  next some =>
    apply walk_visits
    intro first
    rw [answers]
    split
    next => rfl
    next beyond => rw [Bytes.next?, if_pos (by omega)]

/-! ## The three ways -/

/-- How a listing, a search and a count fit together for bytes under a capacity.  The listing
is that of the loop, strictly ascending, of exactly the set positions below the capacity; it
is what the searches walk through; a single search finds its first entry from there on; and
the count exceeds its length by the set positions from the capacity on. -/
structure Enumerates (capacity : Nat) (bytes : Bytes) (host : Host) (listing : ArrayM (List Nat))
    (search : Nat -> ArrayM (Option Nat)) (count : ArrayM Nat) : Prop where
  listed : runFrom listing host = (.ok (bytes.enumerate capacity), host)
  ascending : (bytes.enumerate capacity).Pairwise (· < ·)
  mem_iff : forall position, position ∈ bytes.enumerate capacity ↔
    position < min capacity (8 * bytes.length) ∧ bytes.bit position = true
  walked : forall visited, Walk search host 0 visited ↔ visited = bytes.enumerate capacity
  found : forall first, runFrom (search first) host =
    (.ok ((bytes.enumerate capacity).find? (first ≤ ·)), host)
  counted : runFrom count host = (.ok ((bytes.enumerate capacity).length +
    (List.range' capacity (8 * bytes.length - capacity)).countP bytes.bit), host)

theorem enumerates {listing : ArrayM (List Nat)} {count : ArrayM Nat}
    (lists : runFrom listing host = (.ok (bytes.enumerate capacity), host))
    (answers : forall first, runFrom (search first) host =
      (.ok (if first < capacity then bytes.next? first (capacity - 1) else none), host))
    (counts : runFrom count host = (.ok bytes.count, host)) :
    Enumerates capacity bytes host listing search count where
  listed := lists
  ascending := bytes.ascending_enumerate capacity
  mem_iff := bytes.mem_enumerate capacity
  walked visited := by
    have walk := walk_enumerate answers
    constructor
    · exact fun other => other.unique walk
    · rintro rfl
      exact walk
  found first := by rw [answers, bytes.next?_eq_find?_enumerate]
  counted := by rw [counts, bytes.count_eq_length_add capacity]

namespace BitContainer

variable {α : Type} [BitContainer α] {container : α}

theorem lists_positions (shot : runFrom (snapshot container) host = (.ok bytes, host)) :
    runFrom (positions container) host =
      (.ok (bytes.enumerate (BitContainer.capacity container)), host) := by
  rw [runFrom_positions shot, Bytes.enumerate]
  split
  next some =>
    rw [if_neg (Nat.ne_of_gt some), Bytes.visits_eq_positions]
    rfl
  next none => rw [if_pos (Nat.eq_zero_of_not_pos none)]

theorem answers_next (shot : runFrom (snapshot container) host = (.ok bytes, host)) (first : Nat) :
    runFrom (next? container first) host =
      (.ok (if first < BitContainer.capacity container
        then bytes.next? first (BitContainer.capacity container - 1) else none), host) := by
  rw [runFrom_next shot]
  split <;> rfl

end BitContainer

/-- For any type of bit arrays, whatever its capacity and however many bytes it has, the
listing of the set positions, the searches for the next one and the count fit together; and
so they do for the arrays in memory, in a file and in a mapping, whose searches are their own. -/
theorem enumeration_meets_searches :
    (forall (α : Type) [BitContainer α] (container : α) (host : Host) (bytes : Bytes),
      runFrom (BitContainer.snapshot container) host = (.ok bytes, host) ->
      Enumerates (BitContainer.capacity container) bytes host (BitContainer.positions container)
        (BitContainer.next? container) (BitContainer.count container)) ∧
    forall (array : BitArray) (host : Host) (bytes : Bytes), array.reading host = .ok bytes ->
      Enumerates array.layout.capacity bytes host (BitContainer.positions array) array.next?
        array.count := by
  constructor
  · intro α container array host bytes shot
    exact enumerates (BitContainer.lists_positions shot) (BitContainer.answers_next shot)
      (BitContainer.runFrom_count shot)
  · intro array host bytes read
    have isOpen : array.isClosed = false := by
      rw [← Bool.not_eq_true]
      intro closed
      rw [BitArray.reading, (BitArray.closed_of_isClosed closed).runFrom_snapshot] at read
      cases read
    have shot := BitArray.runFrom_container_snapshot array host
    rw [read] at shot
    have like := BitArray.likeDerived isOpen host
    exact enumerates (BitContainer.lists_positions shot)
      (fun first => (like.next first).trans (BitContainer.answers_next shot first))
      (like.count.trans (BitContainer.runFrom_count shot))

namespace LooseArray

/-- Set at both ends of its bytes and at the capacity sixteen, behind which it goes on. -/
def bordered : LooseArray where
  capacity := 16
  bytes := [129, 128, 3]
  refuses := false

end LooseArray

/-- Of five set positions two are not below the capacity. -/
theorem enumeration_meets_searches_bordered :
    (Enumerates 16 [129, 128, 3] Twelve.host (BitContainer.positions LooseArray.bordered)
        (BitContainer.next? LooseArray.bordered) (BitContainer.count LooseArray.bordered) ∧
      (runFrom (BitContainer.positions LooseArray.bordered) Twelve.host).1 = .ok [0, 7, 15] ∧
      (runFrom (BitContainer.count LooseArray.bordered) Twelve.host).1 = .ok 5) ∧
    (BitArray.mapped Twelve.mapped).reading Twelve.host = .ok [0, 0] ∧
    Enumerates 12 [0, 0] Twelve.host (BitContainer.positions (BitArray.mapped Twelve.mapped))
      (BitArray.mapped Twelve.mapped).next? (BitArray.mapped Twelve.mapped).count :=
  ⟨⟨enumeration_meets_searches.1 LooseArray LooseArray.bordered Twelve.host _ rfl, rfl, rfl⟩, rfl,
    enumeration_meets_searches.2 (.mapped Twelve.mapped) Twelve.host _ rfl⟩

end BitStore
