import BitStore.Proofs.Arrays.Ready

namespace BitStore

/-!
# Counts as populations

The count of a byte sequence is the number of its set positions, however many of its bytes
fill a word and in whichever order the bytes of a word are read.  A merge is the union or the
intersection of two sets of positions.  So the two merges of two arrays, each into a copy of
the first, together count what the arrays count together.
-/

namespace Bytes

theorem cardinality_eq_countP (order : ByteOrder) (bytes : Bytes) :
    bytes.cardinality order = (List.range bytes.width).countP bytes.bit := by
  rw [cardinality_eq_length, setPositions, List.countP_eq_length_filter]

/-- The count is a word of 64 bits. -/
theorem cardinality_lt (order : ByteOrder) {bytes : Bytes} (short : bytes.length < 1 <<< 61) :
    bytes.cardinality order < 1 <<< 64 := by
  have bounded := List.countP_le_length (p := bytes.bit) (l := List.range bytes.width)
  rw [← cardinality_eq_countP order, List.length_range, width] at bounded
  omega

theorem cardinality_append (order : ByteOrder) (front back : Bytes) :
    cardinality order (front ++ back) = front.cardinality order + back.cardinality order := by
  simp only [cardinality_eq_length, setPositions_append, List.length_append, List.length_map]

end Bytes

namespace Merge

/-- What has one of two properties or both, each counted as often as it has them. -/
theorem countP_join (positions : List Nat) (first second : Nat -> Bool) :
    positions.countP (fun position => Merge.or.join (first position) (second position)) +
        positions.countP (fun position => Merge.and.join (first position) (second position)) =
      positions.countP first + positions.countP second := by
  induction positions with
  | nil => rfl
  | cons position rest inductionHypothesis =>
      simp only [List.countP_cons, join] at inductionHypothesis ⊢
      cases first position <;> cases second position <;>
        simp only [Bool.or_self, Bool.and_self, Bool.or_true, Bool.true_or, Bool.and_false,
          Bool.false_and, Bool.false_eq_true, if_true, if_false] <;> omega

theorem cardinality_apply (order : ByteOrder) {left right : Bytes}
    (fits : right.length = left.length) :
    (Merge.or.apply left right).cardinality order +
        (Merge.and.apply left right).cardinality order =
      left.cardinality order + right.cardinality order := by
  have union := funext (Merge.or.bit_apply fits)
  have intersection := funext (Merge.and.bit_apply fits)
  simp only [Bytes.cardinality_eq_countP, Bytes.width, length_apply, fits]
  rw [union, intersection]
  exact countP_join _ left.bit right.bit

end Merge

namespace BitArray

variable {array : BitArray} {host : Host} {bytes : Bytes}

/-- What can be read is counted. -/
theorem runFrom_count_of_reading (read : array.reading host = .ok bytes) :
    runFrom array.count host = (.ok bytes.count, host) := by
  have shot := runFrom_container_snapshot array host
  rw [read] at shot
  rw [count_eq, BitContainer.runFrom_count shot]
  rfl

/-- An array that can be merged into and has the same bytes as the other one. -/
structure Copies (copy original : BitArray) (host : Host) : Prop where
  ready : copy.Ready host
  same : copy.reading host = original.reading host

/-- A merge into a copy leaves the merge with the original. -/
theorem Copies.merge {copy original other : BitArray} {left right : Bytes}
    (copies : copy.Copies original host) (read : original.reading host = .ok left)
    (readOther : other.reading host = .ok right)
    (fits : other.layout.byteLength = original.layout.byteLength) (kind : Merge) :
    Exists fun next => Exists fun after =>
      copy.step (.merge kind other) host = ((.ok .done, next), after) ∧
      copy.Turns host next after (kind.apply left right) ∧
      next.reading after = .ok (kind.apply left right) := by
  rcases face_of_reading (copies.same.trans read) with ⟨shown, reached⟩
  have size := length_of_snapshot (copies.same.trans read)
  have sizeOriginal := length_of_snapshot read
  rcases copies.ready.step_merge kind (fits.trans (sizeOriginal.symm.trans size)) readOther
    reached with ⟨next, after, stepped, turns⟩
  rw [shown] at turns
  exact ⟨next, after, stepped, turns, turns.reading reached⟩

/-- The count of a byte sequence is the number of its set positions, in whichever order words
are read, and below `2 ^ 61` bytes it is a word of 64 bits.  Two parts of a sequence are
counted separately.  If two arrays with as many bytes can be read, the one is merged into two
copies of the other that are kept elsewhere, by union and by intersection, and the counts of
the results add up to those of the two arrays. -/
theorem counts_are_populations :
    (forall (order : ByteOrder) (bytes : Bytes),
      bytes.cardinality order = (List.range (8 * bytes.length)).countP bytes.bit ∧
      (bytes.length < 1 <<< 61 -> bytes.cardinality order < 1 <<< 64)) ∧
    (forall (order : ByteOrder) (front back : Bytes),
      (front ++ back : Bytes).cardinality order =
        front.cardinality order + back.cardinality order) ∧
    forall (first second union intersection : BitArray) (host : Host) (left right : Bytes),
      first.reading host = .ok left -> second.reading host = .ok right ->
      second.layout.byteLength = first.layout.byteLength ->
      union.Copies first host -> intersection.Copies first host ->
      first.Apart union -> second.Apart union -> intersection.Apart union ->
      Exists fun joined => Exists fun after => Exists fun shared => Exists fun final =>
        union.step (.merge .or second) host = ((.ok .done, joined), after) ∧
        intersection.step (.merge .and second) after = ((.ok .done, shared), final) ∧
        Exists fun ones => Exists fun others => Exists fun either => Exists fun both =>
          runFrom first.count host = (.ok ones, host) ∧
          runFrom second.count host = (.ok others, host) ∧
          runFrom joined.count final = (.ok either, final) ∧
          runFrom shared.count final = (.ok both, final) ∧
          either + both = ones + others := by
  refine ⟨fun order bytes => ⟨bytes.cardinality_eq_countP order, Bytes.cardinality_lt order⟩,
    Bytes.cardinality_append, ?_⟩
  intro first second union intersection host left right read readOther fits copies copiesToo
    apartFirst apartSecond apart
  rcases copies.merge read readOther fits .or with ⟨joined, after, stepped, turns, readJoined⟩
  -- the first merge is noticed neither by the arrays nor by the other copy
  have still := (turns.reading_apart apartFirst).trans read
  have stillOther := (turns.reading_apart apartSecond).trans readOther
  have copiesStill : intersection.Copies first after := {
    ready := copiesToo.ready.lasts turns.changes.lasts
    same := (turns.reading_apart apart).trans (copiesToo.same.trans (read.trans still.symm)) }
  rcases copiesStill.merge still stillOther fits .and
    with ⟨shared, final, steppedToo, turnsToo, readShared⟩
  have apartJoined : joined.Apart intersection := by
    intro file kept own
    exact apart file own (turns.file?.symm.trans kept)
  have readJoinedStill := (turnsToo.reading_apart apartJoined).trans readJoined
  have size : right.length = left.length :=
    (length_of_snapshot readOther).trans (fits.trans (length_of_snapshot read).symm)
  exact ⟨joined, after, shared, final, stepped, steppedToo, left.count, right.count, _, _,
    runFrom_count_of_reading read, runFrom_count_of_reading readOther,
    runFrom_count_of_reading readJoinedStill, runFrom_count_of_reading readShared,
    Merge.cardinality_apply .little size⟩

end BitArray

namespace Census

/-- Two files with four and three set positions in their first two bytes, of which they have
two in common. -/
def host : Host where
  volume := { contents := [.ofBytes [6, 129, 7, 7], .ofBytes [3, 128, 0, 0, 0]] }

/-- The first two bytes of the first file. -/
def copy : BitArray :=
  .memory { layout := Twelve.layout, bytes := #[6, 129], size_eq := by decide }

theorem copies : copy.Copies (.file Twelve.file) host where
  ready := .memory _
  same := rfl

end Census

/-- Copies in memory of an array in a file, with which an array in a mapping is merged.  Five
positions are set in one of the two or both, two in both. -/
theorem BitArray.counts_are_populations_census :
    Bytes.cardinality .big [1, 2, 3, 4, 5, 6, 7, 8, 9] < 1 <<< 64 ∧
      (Exists fun joined => Exists fun after => Exists fun shared => Exists fun final =>
        Census.copy.step (.merge .or (BitArray.mapped Twelve.mapped)) Census.host =
          ((.ok .done, joined), after) ∧
        Census.copy.step (.merge .and (BitArray.mapped Twelve.mapped)) after =
          ((.ok .done, shared), final) ∧
        Exists fun ones => Exists fun others => Exists fun either => Exists fun both =>
          runFrom (BitArray.file Twelve.file).count Census.host = (.ok ones, Census.host) ∧
          runFrom (BitArray.mapped Twelve.mapped).count Census.host =
            (.ok others, Census.host) ∧
          runFrom joined.count final = (.ok either, final) ∧
          runFrom shared.count final = (.ok both, final) ∧
          either + both = ones + others) ∧
      (runFrom (BitArray.file Twelve.file).count Census.host).1 = .ok 4 ∧
      (runFrom (BitArray.mapped Twelve.mapped).count Census.host).1 = .ok 3 := by
  refine ⟨(counts_are_populations.1 .big [1, 2, 3, 4, 5, 6, 7, 8, 9]).2 (by decide), ?_, rfl, rfl⟩
  exact counts_are_populations.2.2 (.file Twelve.file) (.mapped Twelve.mapped) Census.copy
    Census.copy Census.host [6, 129] [3, 128] rfl rfl rfl Census.copies Census.copies nofun nofun
    nofun

end BitStore
