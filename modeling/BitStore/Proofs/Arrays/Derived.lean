import BitStore.BitArray.Loose
import BitStore.Proofs.Arrays.Merging
import BitStore.Proofs.Bits.Windows

namespace BitStore

/-!
# What is derived from a snapshot

A type of bit arrays has all searches and the count once it says its capacity and hands out
its bytes.  Each of them takes a snapshot and answers by its bytes, of which there may be
fewer than the capacity needs, or more.  The searches that stop in front of the capacity take
none if they have nothing to look for.  Where the snapshot fails, they fail as it does.

An array in memory and one in a mapping search their bytes in place, and check other bounds
on the way: they look for their bytes first, and leave it to the search to find that its
window is empty.  As long as they are open this makes no difference.
-/

namespace BitContainer

variable {α : Type} [BitContainer α] {container : α} {host after : Host}
  {outcome : Except Fault Bytes}

/-! ## By the outcome of the snapshot -/

theorem runFrom_highest (shot : runFrom (snapshot container) host = (outcome, after)) :
    runFrom (highest? container) host = (outcome.map Bytes.highest?, after) := by
  rw [highest?, runFrom_return, shot]

theorem runFrom_lowest (shot : runFrom (snapshot container) host = (outcome, after)) :
    runFrom (lowest? container) host = (outcome.map Bytes.lowest?, after) := by
  rw [lowest?, runFrom_return, shot]

theorem runFrom_count (shot : runFrom (snapshot container) host = (outcome, after)) :
    runFrom (count container) host = (outcome.map Bytes.count, after) := by
  rw [count, runFrom_return, shot]

/-- From the capacity on there is nothing to look for. -/
theorem runFrom_next (shot : runFrom (snapshot container) host = (outcome, after)) (first : Nat) :
    runFrom (next? container first) host =
      if first < capacity container then
        (outcome.map fun bytes => bytes.next? first (capacity container - 1), after)
      else (.ok none, host) := by
  by_cases inside : first < capacity container
  · rw [if_pos inside, next?, if_neg (Nat.not_le_of_lt inside), runFrom_return, shot]
  · rw [if_neg inside, next?, if_pos (Nat.le_of_not_lt inside), runFrom_pure]

theorem runFrom_positions (shot : runFrom (snapshot container) host = (outcome, after)) :
    runFrom (positions container) host =
      if 0 < capacity container then
        (outcome.map fun bytes => bytes.positions 0 (capacity container - 1), after)
      else (.ok [], host) := by
  by_cases some : 0 < capacity container
  · rw [if_pos some, positions, if_neg (Nat.ne_of_gt some), runFrom_return, shot]
  · rw [if_neg some, positions, if_pos (Nat.eq_zero_of_not_pos some), runFrom_pure]

/-- A bit that cannot be read is not set either. -/
theorem runFrom_setBitIfUnset_error {index : Nat} {fault : Fault}
    (unread : runFrom (getBit container index) host = (.error fault, after)) :
    runFrom (setBitIfUnset container index) host = (.error fault, after) := by
  rw [setBitIfUnset, runFrom_bind, unread]

/-! ## Answers -/

/-- What the derived operations answer where a snapshot is taken: each of them tells of the
bytes what it is asked, whether or not they fit the capacity. -/
structure Surveys (container : α) (host : Host) (bytes : Bytes) (after : Host) : Prop where
  highest : Exists fun found => runFrom (highest? container) host = (.ok found, after) ∧
    Greatest (fun position => bytes.bit position = true) found
  lowest : Exists fun found => runFrom (lowest? container) host = (.ok found, after) ∧
    Least (fun position => bytes.bit position = true) found
  count : runFrom (count container) host =
    (.ok ((List.range (8 * bytes.length)).countP bytes.bit), after)
  next : forall first, Exists fun found =>
    runFrom (next? container first) host =
      (.ok found, if first < capacity container then after else host) ∧
    Least (fun position => first ≤ position ∧ position < capacity container ∧
      position < 8 * bytes.length ∧ bytes.bit position = true) found
  positions : Exists fun listed =>
    runFrom (positions container) host =
      (.ok listed, if 0 < capacity container then after else host) ∧
    listed.Pairwise (· < ·) ∧
    forall position, position ∈ listed ↔ position < capacity container ∧
      position < 8 * bytes.length ∧ bytes.bit position = true

/-- What they answer where it fails: a search that stops in front of the capacity fails only
if it has something to look for. -/
structure Fails (container : α) (host : Host) (fault : Fault) (after : Host) : Prop where
  highest : runFrom (highest? container) host = (.error fault, after)
  lowest : runFrom (lowest? container) host = (.error fault, after)
  count : runFrom (count container) host = (.error fault, after)
  next : forall first, runFrom (next? container first) host =
    if first < capacity container then (.error fault, after) else (.ok none, host)
  positions : runFrom (positions container) host =
    if 0 < capacity container then (.error fault, after) else (.ok [], host)

theorem surveys {bytes : Bytes} (shot : runFrom (snapshot container) host = (.ok bytes, after)) :
    Surveys container host bytes after where
  highest := ⟨_, runFrom_highest shot, bytes.highest?_greatest⟩
  lowest := ⟨_, runFrom_lowest shot, bytes.lowest?_least⟩
  count := by
    rw [runFrom_count shot, Except.map, Bytes.count, Bytes.cardinality_eq_length,
      Bytes.setPositions, ← List.countP_eq_length_filter, Bytes.width]
  next first := by
    rw [runFrom_next shot]
    split
    next inside =>
      refine ⟨_, rfl, (bytes.next?_least first _).congr fun position => ?_⟩
      rw [Nat.le_sub_one_iff_lt (Nat.zero_lt_of_lt inside), Bytes.width]
    next beyond =>
      refine ⟨none, rfl, ?_⟩
      rintro position ⟨reached, below, _⟩
      exact beyond (Nat.lt_of_le_of_lt reached below)
  positions := by
    rw [runFrom_positions shot]
    split
    next some =>
      refine ⟨_, rfl, bytes.ascending_positions 0 _, fun position => ?_⟩
      rw [Bytes.mem_positions, Nat.le_sub_one_iff_lt some, Bytes.width]
      exact and_iff_right (Nat.zero_le position)
    next none =>
      refine ⟨[], rfl, List.Pairwise.nil, fun position => ?_⟩
      refine iff_of_false List.not_mem_nil ?_
      rintro ⟨below, _⟩
      exact none (Nat.zero_lt_of_lt below)

theorem fails {fault : Fault} (shot : runFrom (snapshot container) host = (.error fault, after)) :
    Fails container host fault after where
  highest := runFrom_highest shot
  lowest := runFrom_lowest shot
  count := runFrom_count shot
  next := runFrom_next shot
  positions := runFrom_positions shot

end BitContainer

namespace BitArray

/-! ## Searches in place -/

/-- The searches of an array and its count answer what the derived ones answer. -/
structure LikeDerived (array : BitArray) (host : Host) : Prop where
  highest : runFrom array.highest? host = runFrom (BitContainer.highest? array) host
  lowest : runFrom array.lowest? host = runFrom (BitContainer.lowest? array) host
  next : forall first,
    runFrom (array.next? first) host = runFrom (BitContainer.next? array first) host
  count : runFrom array.count host = runFrom (BitContainer.count array) host

/-! Without a bound on the search it is the same whether a snapshot is looked at or the bytes
in place. -/

theorem highest?_eq (array : BitArray) : array.highest? = BitContainer.highest? array := by
  cases array <;> rfl

theorem lowest?_eq (array : BitArray) : array.lowest? = BitContainer.lowest? array := by
  cases array <;> rfl

theorem count_eq (array : BitArray) : array.count = BitContainer.count array := by
  cases array <;> rfl

variable {array : BitArray} {host : Host}

/-- From the capacity on the window that is searched in place is empty. -/
theorem next?_beyond {first : Nat} (layout : Layout) (bytes : Bytes)
    (beyond : layout.capacity ≤ first) : bytes.next? first layout.lastSearchable = none := by
  have empty : layout.lastSearchable < first :=
    Nat.lt_of_lt_of_le (Nat.sub_lt layout.capacity_pos Nat.one_pos) beyond
  rw [Bytes.next?, if_pos empty]

theorem runFrom_next_in_place {bytes : Bytes} {first : Nat}
    (shot : runFrom array.snapshot host = (.ok bytes, host)) :
    runFrom (BitContainer.next? array first) host =
      (.ok (bytes.next? first array.layout.lastSearchable), host) := by
  rw [BitContainer.runFrom_next shot]
  split
  next inside => rfl
  next outside => rw [next?_beyond array.layout bytes (Nat.le_of_not_lt outside)]

/-- A mapping can be read whole, also where it goes on behind the end of its file. -/
theorem runFrom_snapshot_mapped {array : MappedArray} {region : Region}
    (live : array.region = some region) (host : Host) :
    runFrom (BitArray.mapped array).snapshot host =
      (.ok (((host.volume.content region.file).mappedFront region.length).take
        array.layout.byteLength), host) := by
  simp only [snapshot, MappedArray.snapshot, MappedArray.live, live, runFrom_bind,
    runFrom_outcome, runFrom_liftM, runFrom_pure, Region.view, bind_apply, pure_apply,
    Host.content_apply]

theorem runFrom_next_like_derived (isOpen : array.isClosed = false) (host : Host) (first : Nat) :
    runFrom (array.next? first) host = runFrom (BitContainer.next? array first) host := by
  cases array with
  | memory array =>
      have shot : runFrom (BitArray.memory array).snapshot host = (.ok array.toBytes, host) := rfl
      rw [runFrom_next_in_place shot]
      rfl
  | file array => rfl
  | mapped array =>
      rcases memory_or_file?_of_isOpen isOpen with ⟨_, ⟨⟩⟩ | ⟨file, kept⟩
      rcases Option.map_eq_some_iff.mp kept with ⟨region, live, _⟩
      have shot := runFrom_snapshot_mapped live host
      rw [runFrom_next_in_place shot, next?, MappedArray.next?, runFrom_return]
      exact congrArg (fun ended => (Except.map _ (Prod.fst ended), Prod.snd ended)) shot

theorem likeDerived (isOpen : array.isClosed = false) (host : Host) : array.LikeDerived host where
  highest := by rw [highest?_eq]
  lowest := by rw [lowest?_eq]
  next := runFrom_next_like_derived isOpen host
  count := by rw [count_eq]

end BitArray

/-- The searches and the count that any type of bit arrays has from its snapshot tell exactly
what the bytes of the snapshot are asked, and fail exactly as it fails.  A bit that cannot be
read is not set by asking for it to be set if it is unset.  The searches in place of an open
array answer as these do. -/
theorem derived_from_snapshot :
    (forall (α : Type) [BitContainer α] (container : α) (host after : Host),
      (forall bytes, runFrom (BitContainer.snapshot container) host = (.ok bytes, after) ->
        BitContainer.Surveys container host bytes after) ∧
      (forall fault, runFrom (BitContainer.snapshot container) host = (.error fault, after) ->
        BitContainer.Fails container host fault after) ∧
      forall index fault,
        runFrom (BitContainer.getBit container index) host = (.error fault, after) ->
        runFrom (BitContainer.setBitIfUnset container index) host = (.error fault, after)) ∧
    forall (array : BitArray) (host : Host), array.isClosed = false -> array.LikeDerived host := by
  refine ⟨?_, fun array host isOpen => BitArray.likeDerived isOpen host⟩
  intro α container array host after
  exact ⟨fun bytes => BitContainer.surveys, fun fault => BitContainer.fails,
    fun index fault => BitContainer.runFrom_setBitIfUnset_error⟩

namespace LooseArray

/-- More bytes than a capacity of thirteen needs, with the positions 12, 15 and 21 set. -/
def ample : LooseArray where
  capacity := 13
  bytes := [0, 144, 32]
  refuses := false

/-- The same bytes, sealed off. -/
def barred : LooseArray :=
  { ample with refuses := true }

end LooseArray

/-- Of the positions of the loose array one is below its capacity. -/
theorem derived_from_snapshot_loose :
    BitContainer.Surveys LooseArray.ample Twelve.host [0, 144, 32] Twelve.host ∧
      BitContainer.Fails LooseArray.barred Twelve.host LooseArray.refusal Twelve.host ∧
      runFrom (BitContainer.setBitIfUnset LooseArray.barred 3) Twelve.host =
        (.error LooseArray.refusal, Twelve.host) ∧
      (BitArray.mapped Twelve.mapped).isClosed = false ∧
      (BitArray.mapped Twelve.mapped).LikeDerived Twelve.host ∧
      (runFrom (BitContainer.positions LooseArray.ample) Twelve.host).1 = .ok [12] ∧
      (runFrom (BitContainer.highest? LooseArray.ample) Twelve.host).1 = .ok (some 21) := by
  have ample := derived_from_snapshot.1 LooseArray LooseArray.ample Twelve.host Twelve.host
  have barred := derived_from_snapshot.1 LooseArray LooseArray.barred Twelve.host Twelve.host
  exact ⟨ample.1 _ rfl, barred.2.1 _ rfl, barred.2.2 3 _ rfl, rfl,
    derived_from_snapshot.2 _ Twelve.host rfl, rfl, rfl⟩

end BitStore
