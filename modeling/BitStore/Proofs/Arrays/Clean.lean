import BitStore.Proofs.Arrays.BitMap
import BitStore.Proofs.Arrays.Guests
import BitStore.Proofs.Arrays.Sharing
import BitStore.Proofs.Bits.Searches

namespace BitStore

/-!
# Positions above the capacity

The last byte of an array may have positions above the capacity.  No index leads there,
but the scans and the count look at all of the bytes, and a forward search stops in front
of the capacity.  So the answers fit together only while these positions are unset; the
bytes are then called clean.

Only a merge by `or` can set a position above the capacity, and only one that the operand
has set.  By induction on the uses of an array, an array that is clean stays clean as long
as the operands of such merges are; operands of `and` are free.  When the array is closed
its bytes are those at the front of its file, and they stay clean too.
-/

namespace Layout

/-- Bytes without a set position above the capacity. -/
def Clean (layout : Layout) (bytes : Bytes) : Prop :=
  forall position, layout.capacity < position -> bytes.bit position = false

variable {layout : Layout} {bytes : Bytes}

theorem clean_zeros (layout : Layout) (count : Nat) : layout.Clean (Bytes.zeros count) :=
  fun position _ => Bytes.bit_zeros count position

theorem clean_nil (layout : Layout) : layout.Clean [] :=
  fun _ _ => rfl

theorem Clean.le_of_bit (clean : layout.Clean bytes) {position : Nat}
    (set : bytes.bit position = true) : position ≤ layout.capacity := by
  apply Nat.le_of_not_lt
  intro above
  rw [clean position above] at set
  contradiction

/-- No operation defines a set bit above the capacity, if no operand of `or` has one. -/
theorem update_above (reading : BitArray -> Except Fault Bytes) {bits : Nat -> Bool}
    {operation : Operation BitArray} {position : Nat} (above : layout.capacity < position)
    (unset : bits position = false)
    (spared : forall operand other, operation = .merge .or operand ->
      reading operand = .ok other -> other.bit position = false) :
    layout.update reading bits operation position = false := by
  unfold update
  cases operation with
  | raise index | raiseIfUnset index | lower index =>
      have elsewhere : ¬ (index ≤ layout.capacity ∧ position = index) := by omega
      simp only [defines, if_neg elsewhere, Option.getD_none, unset]
  | clear =>
      simp only [defines]
      split
      · rfl
      · exact unset
  | merge kind operand =>
      simp only [defines]
      split
      next =>
        cases read : reading operand with
        | error fault => exact unset
        | ok other =>
            cases kind with
            | and => simp only [Merge.join, unset, Bool.false_and, Option.getD_some]
            | or =>
                have free := spared operand other rfl read
                simp only [Merge.join, unset, free, Bool.or_self, Option.getD_some]
      next => exact unset
  | _ => exact unset

end Layout

namespace BitArray

variable {ω : Type} [BitContainer ω] {array origin : BitArray} {host after : Host}

/-- An array without a set position above its capacity. -/
def Clean (array : BitArray) (host : Host) : Prop :=
  array.layout.Clean (array.storage host)

/-! ## Uses that set nothing above the capacity -/

/-- Whether a use sets nothing above the capacity.  The operands of merges are candid;
one that fits and is merged by `or` hands out clean bytes, one merged by `and` any. -/
def Spares (layout : Layout) (host : Host) : Use ω -> Prop
  | .operate (.merge kind guest) => Candid host guest ∧
      (kind = .or -> BitContainer.byteLength guest = layout.byteLength ->
        forall bytes, handsOut host guest = .ok bytes -> layout.Clean bytes)
  | _ => True

/-- Whether each use in turn sets nothing above the capacity. -/
def Sparing (array : BitArray) (host : Host) : List (Use ω) -> Prop
  | [] => True
  | first :: rest =>
      Spares array.layout host first ∧
        (array.use first host).1.2.Sparing (array.use first host).2 rest

/-- What an array with its origin is after any sparing uses: closed, or still intact and
over the same file.  In either case it left the front of the file clean. -/
structure Tidy (origin array : BitArray) (host : Host) : Prop where
  layout : array.layout = origin.layout
  clean : array.Clean host
  front : forall file, origin.file? = some file ->
    origin.layout.Clean ((host.volume.content file).window 0 origin.layout.byteLength)
  state : array.Closed ∨ (array.Intact host ∧ array.file? = origin.file?)

theorem Closed.clean (closed : array.Closed) (host : Host) : array.Clean host := by
  have empty : array.storage host = [] := by
    cases closed with
    | file gone | mapped gone => simp only [storage, gone]
  rw [Clean, empty]
  exact array.layout.clean_nil

/-- What is closed and was clean stays so, wherever no content changes. -/
theorem Tidy.rest (tidy : Tidy origin array host) (closed : array.Closed)
    (changes : host.ChangesOnly none after) : Tidy origin array after where
  layout := tidy.layout
  clean := closed.clean after
  front file kept := by
    rw [changes.others file nofun]
    exact tidy.front file kept
  state := .inl closed

/-- What is intact has its bytes at the front of the file of its origin. -/
theorem Tidy.of_becomes (tidy : Tidy origin array host) {next : BitArray} {bytes : Bytes}
    (kept : array.file? = origin.file?) (becomes : array.Becomes host next after bytes)
    (clean : origin.layout.Clean bytes) : Tidy origin next after := by
  have layout : next.layout = origin.layout := becomes.layout.trans tidy.layout
  have file := becomes.file?.trans kept
  refine ⟨layout, ?_, ?_, .inr ⟨becomes.intact, file⟩⟩
  · rw [Clean, layout, becomes.storage]
    exact clean
  · intro own same
    rw [← layout, ← storage_eq_window (file.trans same) after, layout, becomes.storage]
    exact clean

theorem Tidy.operate (tidy : Tidy origin array host) {operation : Operation ω}
    (spares : Spares array.layout host (.operate operation)) :
    Tidy origin (array.step operation host).1.2 (array.step operation host).2 := by
  have candid : forall guest, operation.operand? = some guest -> Candid host guest := by
    intro guest named
    cases operation with
    | merge kind operand =>
        cases named
        exact spares.1
    | _ => contradiction
  rcases tidy.state with closed | ⟨intact, kept⟩
  · rcases closed.step_apply operation host with ⟨after, stepped, unchanged⟩
    rw [stepped]
    exact tidy.rest closed (unchanged fun guest named => (candid guest named).quiet).changesNone
  · cases found : operation.resolve (standIn array.layout host) with
    | none =>
        rcases step_of_unfit candid found with ⟨fault, refused⟩
        rw [refused]
        exact tidy
    | some stand =>
        rcases step_meets intact stand with ⟨reply, next, after, stepped, becomes, _⟩
        rw [step_of_standIn candid found, stepped]
        apply tidy.of_becomes kept becomes
        rw [← tidy.layout]
        intro position above
        have sizes : forall (operand : BitArray) other, operand.reading host = .ok other ->
            other.length = operand.layout.byteLength :=
          fun operand other read => length_of_snapshot read
        rw [Layout.bit_respond intact.length_storage sizes]
        apply Layout.update_above _ above (tidy.clean position above)
        rintro operand other rfl read
        rcases resolve_eq_merge found with ⟨guest, rfl, stands⟩
        rcases spares.1.standIn stands with ⟨bytes, handed, same, fits, _⟩
        cases same.symm.trans read
        exact spares.2 rfl fits other handed position above

/-- Closing leaves the front of the file as it is. -/
theorem Tidy.close (tidy : Tidy origin array host) :
    Tidy origin (array.call .close host).1.2 (array.call .close host).2 := by
  rcases tidy.state with closed | ⟨intact, kept⟩
  · rw [call_close (closed.close_apply host)]
    exact tidy
  · rcases memory_or_file?_of_isOpen intact.isOpen with ⟨source, rfl⟩ | ⟨file, own⟩
    · exact tidy
    · rcases close_open own (intact.holds own) with
        ⟨next, after, run, closed, layout, _, confines⟩
      rw [call_close run]
      refine ⟨layout.trans tidy.layout, closed.clean after, ?_, .inl closed⟩
      intro other same
      have equal : file = other := Option.some.inj (own.symm.trans (kept.trans same))
      subst equal
      have window : (after.volume.content file).window 0 origin.layout.byteLength =
          (host.volume.content file).window 0 origin.layout.byteLength := by
        apply List.map_congr_left
        intro place _
        exact confines.tail place (Nat.zero_le place)
      rw [window]
      exact tidy.front file same

/-- By induction on the uses. -/
theorem Tidy.uses (tidy : Tidy origin array host) {uses : List (Use ω)}
    (sparing : array.Sparing host uses) :
    Tidy origin (array.uses uses host).1.2 (array.uses uses host).2 := by
  induction uses generalizing array host with
  | nil => exact tidy
  | cons first rest inductionHypothesis =>
      have next : Tidy origin (array.use first host).1.2 (array.use first host).2 := by
        cases first with
        | operate operation => exact tidy.operate sparing.1
        | close => exact tidy.close
      exact inductionHypothesis next sparing.2

theorem tidy_self (intact : array.Intact host) (clean : array.Clean host) :
    Tidy array array host where
  layout := rfl
  clean := clean
  front file kept := by
    rw [← storage_eq_window kept]
    exact clean
  state := .inr ⟨intact, rfl⟩

/-! ## What clean arrays say -/

/-- What an array says of an index; an index that it refuses is not set. -/
def tells (array : BitArray) (host : Host) (index : Nat) : Bool :=
  match (runFrom (array.getBit index) host).1 with
  | .ok set => set
  | .error _ => false

/-- The scans and the count, measured by what the array says of each index. -/
structure Tallies (array : BitArray) (host : Host) : Prop where
  read : forall index, index ≤ array.layout.capacity ->
    runFrom (array.getBit index) host = (.ok (array.tells host index), host)
  highest : Exists fun found => runFrom array.highest? host = (.ok found, host) ∧
    Greatest (fun index => index ≤ array.layout.capacity ∧ array.tells host index = true) found
  lowest : Exists fun found => runFrom array.lowest? host = (.ok found, host) ∧
    Least (fun index => index ≤ array.layout.capacity ∧ array.tells host index = true) found
  count : runFrom array.count host =
    (.ok ((List.range (array.layout.capacity + 1)).countP (array.tells host)), host)
  positions : Exists fun listed =>
    runFrom (BitContainer.positions array) host = (.ok listed, host) ∧
    runFrom array.count host =
      (.ok (listed.length + if array.tells host array.layout.capacity then 1 else 0), host)

theorem Intact.read (intact : array.Intact host) {index : Nat}
    (inside : index ≤ array.layout.capacity) :
    runFrom (array.getBit index) host = (.ok ((array.storage host).bit index), host) := by
  have located := array.layout.locate_of_le inside
  rw [runFrom_getBit intact, located, Except.map, Layout.test_of_locate located]

theorem Intact.tells (intact : array.Intact host) {index : Nat}
    (inside : index ≤ array.layout.capacity) :
    array.tells host index = (array.storage host).bit index := by
  rw [BitArray.tells, intact.read inside]

/-- Of the bytes of a clean array all that is set is what the array says. -/
theorem Clean.set_iff (clean : array.Clean host) (intact : array.Intact host) (index : Nat) :
    (array.storage host).bit index = true ↔
      index ≤ array.layout.capacity ∧ array.tells host index = true := by
  constructor
  · intro set
    have inside := clean.le_of_bit set
    exact ⟨inside, (intact.tells inside).trans set⟩
  · rintro ⟨inside, said⟩
    exact (intact.tells inside).symm.trans said

theorem Clean.tallies (clean : array.Clean host) (intact : array.Intact host) :
    array.Tallies host := by
  let bytes := array.storage host
  have below : forall position, bytes.bit position = true ->
      position < array.layout.capacity + 1 :=
    fun position set => Nat.lt_succ_of_le (clean.le_of_bit set)
  have listed : bytes.setPositions =
      (List.range (array.layout.capacity + 1)).filter bytes.bit :=
    Bytes.setPositions_eq_filter_range below
  have counted : runFrom array.count host = (.ok bytes.setPositions.length, host) := by
    rw [runFrom_count intact, Bytes.count, Bytes.cardinality_eq_length]
  refine ⟨?_, ⟨_, runFrom_highest intact, ?_⟩, ⟨_, runFrom_lowest intact, ?_⟩, ?_,
    ⟨_, runFrom_positions intact, ?_⟩⟩
  · intro index inside
    rw [intact.read inside, intact.tells inside]
  · exact bytes.highest?_greatest.congr (clean.set_iff intact)
  · exact bytes.lowest?_least.congr (clean.set_iff intact)
  · rw [counted, listed, ← List.countP_eq_length_filter]
    congr 2
    apply List.countP_congr
    intro index inside
    rw [intact.tells (Nat.le_of_lt_succ (List.mem_range.mp inside))]
  · have positive := array.layout.capacity_pos
    have last : array.layout.lastSearchable + 1 = array.layout.capacity :=
      Nat.sub_add_cancel positive
    rw [counted, listed, Bytes.positions_zero_eq_filter_range, last, List.range_succ,
      List.filter_append, List.length_append, intact.tells (Nat.le_refl _)]
    congr 3
    cases set : bytes.bit array.layout.capacity <;> simp only [List.filter, set] <;> rfl

end BitArray

/-! ## Equal arrays in memory -/

namespace MemoryArray

variable {left right : MemoryArray}

theorem getBit_of_le (array : MemoryArray) {index : Nat}
    (inside : index ≤ array.layout.capacity) :
    array.getBit index = .ok (array.toBytes.bit index) := by
  have located := array.layout.locate_of_le inside
  have tested := Layout.test_of_locate located array.toBytes
  rw [toBytes, Array.getElem?_toList] at tested
  rw [getBit, located]
  exact congrArg Except.ok tested

/-- An array is known by its layout and its bytes. -/
theorem eq_of_toBytes (layout : left.layout = right.layout)
    (bytes : left.toBytes = right.toBytes) : left = right := by
  cases left
  cases right
  cases layout
  cases Array.toList_inj.mp bytes
  rfl

/-- Clean arrays are equal if they have one capacity and say the same of every index. -/
theorem eq_iff_of_clean (clean : left.layout.Clean left.toBytes)
    (cleanOther : right.layout.Clean right.toBytes) :
    left = right ↔ left.layout.capacity = right.layout.capacity ∧
      forall index, index ≤ left.layout.capacity -> left.getBit index = right.getBit index := by
  constructor
  · rintro rfl
    exact ⟨rfl, fun _ _ => rfl⟩
  · rintro ⟨capacity, same⟩
    have layout : left.layout = right.layout := by
      cases left
      cases right
      exact Layout.mk.injEq .. ▸ capacity
    have length : left.toBytes.length = right.toBytes.length := by
      simp only [toBytes, Array.length_toList, left.size_eq, right.size_eq, layout]
    apply eq_of_toBytes layout
    apply Bytes.eq_of_bit length
    intro position _
    rcases Nat.lt_or_ge left.layout.capacity position with above | inside
    · rw [clean position above, cleanOther position (capacity ▸ above)]
    · have agree := same position inside
      rw [left.getBit_of_le inside, right.getBit_of_le (capacity ▸ inside)] at agree
      exact Except.ok.inj agree

end MemoryArray

/-- An array that is clean stays clean under all uses that set nothing above the capacity.
While it is open and clean, its scans and its count tell what its single bits tell, and two
clean arrays in memory are equal if they have one capacity and the same bits. -/
theorem slack_stays_unset :
    (forall (ω : Type) [BitContainer ω] (array : BitArray) (host : Host) (uses : List (Use ω)),
      array.Intact host ->
      array.storage host = Bytes.zeros array.layout.byteLength ∨ array.Clean host ->
      array.Sparing host uses ->
      let reached := (array.uses uses host).1.2
      let after := (array.uses uses host).2
      reached.layout = array.layout ∧ reached.Clean after ∧
      (reached.isClosed = false -> reached.Intact after) ∧
      forall file, array.file? = some file -> array.layout.Clean
        ((after.volume.content file).window 0 array.layout.byteLength)) ∧
    (forall (array : BitArray) (host : Host),
      array.Intact host -> array.Clean host -> array.Tallies host) ∧
    forall left right : MemoryArray,
      left.layout.Clean left.toBytes -> right.layout.Clean right.toBytes ->
      ((left == right) = true ↔ left.layout.capacity = right.layout.capacity ∧
        forall index, index ≤ left.layout.capacity ->
          left.getBit index = right.getBit index) := by
  refine ⟨?_, ?_, ?_⟩
  · intro ω container array host uses intact start sparing reached after
    have clean : array.Clean host := by
      rcases start with zero | clean
      · rw [BitArray.Clean, zero]
        exact array.layout.clean_zeros _
      · exact clean
    have tidy := (BitArray.tidy_self intact clean).uses sparing
    refine ⟨tidy.layout, tidy.clean, ?_, tidy.front⟩
    intro isOpen
    rcases tidy.state with closed | ⟨intact, _⟩
    · rw [closed.isClosed] at isOpen
      contradiction
    · exact intact
  · intro array host intact clean
    exact clean.tallies intact
  · intro left right clean cleanOther
    rw [beq_iff_eq]
    exact MemoryArray.eq_iff_of_clean clean cleanOther

/-- In a file: bit twelve, the greatest of all, is set, and an array in memory is merged. -/
theorem slack_stays_unset_twelve :
    let array := BitArray.file Twelve.file
    let uses : List (Use BitArray) :=
      [.operate (.raise 12), .operate (.merge .or (.memory Twelve.memory)), .operate .count]
    let reached := (array.uses uses Twelve.host).1.2
    let after := (array.uses uses Twelve.host).2
    (array.storage Twelve.host = Bytes.zeros array.layout.byteLength ∧
        array.Sparing Twelve.host uses ∧ reached.Tallies after ∧
        (after.volume.content 0).byte 1 = 16) ∧
      (Twelve.memory == Twelve.memory) = true := by
  intro array uses reached after
  have zero : array.storage Twelve.host = Bytes.zeros array.layout.byteLength := by decide
  have merged : forall host : Host, BitArray.Spares Twelve.layout host
      (.operate (.merge .or (BitArray.memory Twelve.memory))) :=
    fun host => ⟨BitArray.candid _ host, fun _ _ bytes read => by
      cases read
      exact Layout.clean_zeros _ 2⟩
  have sparing : array.Sparing Twelve.host uses := ⟨trivial, merged _, trivial, trivial⟩
  rcases slack_stays_unset with ⟨uses_keep, clean_tallies, clean_eq⟩
  rcases uses_keep BitArray array Twelve.host uses Twelve.file_intact (.inl zero) sparing with
    ⟨_, clean, intact, _⟩
  have memory : Twelve.layout.Clean Twelve.memory.toBytes := Layout.clean_zeros _ 2
  exact ⟨⟨zero, sparing, clean_tallies _ _ (intact rfl) clean, by decide⟩,
    (clean_eq _ _ memory memory).mpr ⟨rfl, fun _ _ => rfl⟩⟩

end BitStore
