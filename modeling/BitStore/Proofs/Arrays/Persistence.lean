import BitStore.Proofs.Arrays.Attempts
import BitStore.Proofs.Arrays.Lifetime

namespace BitStore

/-!
# What an array leaves in its file

An array is opened over a file, takes operations, and is closed or given up in silence.
The file then holds the last snapshot of the array, behind it what the file held there
before, and zeros up to the length that the array needed.  Whoever opens the file again,
with either backing and at whatever capacity, finds that content with zeros behind it,
and what the new array does not reach is still there when the file is opened once more.

Three facts are put together.  Opening extends a file and keeps its bytes; an array keeps
to the front of its file; and giving an array up changes no byte.
-/

/-! ## Opening -/

namespace BitArray

variable {array : BitArray} {path : String} {host middle after : Host} {capacity : Nat}

/-- An array over a file that is ready is over the file at its path. -/
theorem over_of_prepared {create : Bool} {prepared : Host.Prepared}
    (linked : host.volume.Linked)
    (ends : host.Prepares path capacity create (.ok prepared) middle)
    (layout : array.layout = prepared.layout)
    (kept : array.file? = some prepared.handle.file) (same : after.volume = middle.volume) :
    array.layout.capacity = capacity ∧
      host.volume.Extends path (capacity / 8 + 2) after.volume ∧
      Exists fun file => array.Over path file after := by
  have extension := ends.extends_of_ok linked
  cases ends with
  | @ready _ volume _ laid opened long longer =>
      rcases Volume.opened_extends linked opened with ⟨linkedOpened, held, ⟨location, found⟩, _⟩
      have finds : after.volume.find path = .ok (location, .file prepared.handle.file) := by
        rw [same, longer.volume, Volume.find_congr (Volume.entries_lengthen _), found]
      rw [← same] at extension
      refine ⟨layout ▸ laid, extension, prepared.handle.file, ⟨location, finds⟩, kept, ?_, ?_⟩
      · have reached := congrArg List.length extension.bytes
        rw [Volume.bytesAt_of_found finds, Content.length_toList, Bytes.length_rightpad] at reached
        rw [layout, Layout.byteLength, laid]
        omega
      · rw [same, longer.volume]
        exact linkedOpened.lengthen _ _

/-- An array of either persistent backing is over a file that was made ready for it. -/
theorem prepared_of_opened {backing : Backing} {mode : WriteMode}
    (persistent : backing.isPersistent = true)
    (opened : runFrom (backing.openAt path capacity mode) host = (.ok array, after)) :
    Exists fun create => Exists fun prepared => Exists fun middle =>
      host.Prepares path capacity create (.ok prepared) middle ∧
      array.layout = prepared.layout ∧ array.file? = some prepared.handle.file ∧
      after.volume = middle.volume := by
  cases backing with
  | memory => contradiction
  | file =>
      rcases runFrom_ok_of_return opened with ⟨inner, run, rfl⟩
      cases present : host.volume.isFile path with
      | false =>
          rw [FileArray.runFrom_openAt_absent present] at run
          cases run
      | true =>
          rw [FileArray.runFrom_openAt present] at run
          have ends := host.prepares path capacity mode false
          generalize runFrom (Host.prepare path capacity mode false) host = result at ends run
          rcases result with ⟨_ | prepared, middle⟩
          · cases run
          · cases run
            exact ⟨false, prepared, middle, ends, rfl, rfl, rfl⟩
  | mappedFile =>
      rcases runFrom_ok_of_return opened with ⟨inner, run, rfl⟩
      cases taken : MappedArray.occupied host.volume path with
      | true =>
          rw [MappedArray.runFrom_openAt_occupied taken] at run
          cases run
      | false =>
          rw [MappedArray.runFrom_openAt taken] at run
          have ends := host.prepares path capacity mode true
          generalize runFrom (Host.prepare path capacity mode true) host = result at ends run
          rcases result with ⟨_ | prepared, middle⟩
          · cases run
          · dsimp only at run
            rcases Region.map_cases middle prepared.handle prepared.length with
              ⟨region, last, mapped, same, volume, _⟩ | ⟨cause, refused⟩
            · rw [mapped] at run
              cases run
              exact ⟨true, prepared, middle, ends, rfl, congrArg some same, volume⟩
            · rw [refused] at run
              cases run

/-- An open array of either backing is over the file at its path, which was extended. -/
theorem over_of_opened {backing : Backing} {mode : WriteMode} (linked : host.volume.Linked)
    (persistent : backing.isPersistent = true)
    (opened : runFrom (backing.openAt path capacity mode) host = (.ok array, after)) :
    array.layout.capacity = capacity ∧
      host.volume.Extends path (capacity / 8 + 2) after.volume ∧
      Exists fun file => array.Over path file after := by
  rcases prepared_of_opened persistent opened with ⟨_, _, _, ends, layout, kept, same⟩
  exact over_of_prepared linked ends layout kept same

/-- An array has the capacity with which it is opened. -/
theorem capacity_of_opened {backing : Backing} {mode : WriteMode}
    (opened : runFrom (backing.openAt path capacity mode) host = (.ok array, after)) :
    array.layout.capacity = capacity := by
  cases backing with
  | memory =>
      rcases runFrom_ok_of_return opened with ⟨inner, run, rfl⟩
      rw [runFrom_outcome, MemoryArray.ofCapacity] at run
      cases laid : Layout.ofCapacity capacity with
      | error fault =>
          rw [laid] at run
          cases run
      | ok layout =>
          rw [laid] at run
          cases run
          exact Layout.capacity_of_ofCapacity laid
  | file | mappedFile =>
      rcases prepared_of_opened rfl opened with ⟨_, _, _, ends, layout, _⟩
      cases ends with
      | ready laid => exact (congrArg Layout.capacity layout).trans laid

end BitArray

namespace Host

/-- An array is opened at a path, with a backing that outlives the process.  A capacity
is a word of 64 bits. -/
def Opens (host : Host) (path : String) (capacity : Nat) (array : BitArray) (opened : Host) :
    Prop :=
  capacity < UInt64.size ∧ Exists fun backing : Backing => Exists fun mode =>
    backing.isPersistent = true ∧
    runFrom (backing.openAt path capacity mode) host = (.ok array, opened)

variable {host opened : Host} {path : String} {capacity : Nat} {array : BitArray}

theorem Opens.lies (opens : host.Opens path capacity array opened)
    (linked : host.volume.Linked) :
    array.layout.byteLength = capacity / 8 + 1 ∧ array.layout.byteLength < offsetBound ∧
      Exists fun file => array.Over path file opened := by
  rcases opens with ⟨word, backing, mode, persistent, run⟩
  rcases BitArray.over_of_opened linked persistent run with ⟨laid, _, lies⟩
  refine ⟨?_, Layout.byteLength_lt_offsetBound (laid.symm ▸ word), lies⟩
  rw [Layout.byteLength, laid]

/-- Opening finds what a path holds, with zeros behind it. -/
theorem Opens.bytesAt (opens : host.Opens path capacity array opened)
    (linked : host.volume.Linked) :
    opened.volume.bytesAt path = List.rightpad (capacity / 8 + 2) 0 (host.volume.bytesAt path) := by
  rcases opens with ⟨_, backing, mode, persistent, run⟩
  exact (BitArray.over_of_opened linked persistent run).2.1.bytes

theorem Opens.snapshot (opens : host.Opens path capacity array opened)
    (linked : host.volume.Linked) :
    runFrom array.snapshot opened =
      (.ok ((List.rightpad (capacity / 8 + 1) 0 (host.volume.bytesAt path)).take
        (capacity / 8 + 1)), opened) := by
  rcases opens.lies linked with ⟨size, expressible, file, lies⟩
  rw [lies.runFrom_snapshot expressible, opens.bytesAt linked, size,
    Bytes.take_rightpad_of_le (Nat.le_succ _)]

/-- Where enough is held already, its front is the snapshot. -/
theorem Opens.snapshot_of_le (opens : host.Opens path capacity array opened)
    (linked : host.volume.Linked) (inside : capacity / 8 + 1 ≤ (host.volume.bytesAt path).length) :
    runFrom array.snapshot opened =
      (.ok ((host.volume.bytesAt path).take (capacity / 8 + 1)), opened) := by
  rw [opens.snapshot linked, Bytes.take_rightpad inside]

end Host

/-! ## From opening to opening -/

/-- What a file holds when an array over it was given up: the bytes of the array, what was
behind them, and zeros. -/
def Bytes.leftIn (before bytes : Bytes) (capacity : Nat) : Bytes :=
  List.rightpad (max before.length (capacity / 8 + 2)) 0 (bytes ++ before.drop (capacity / 8 + 1))

/-- What an array leaves of its bytes, when it was opened at a path of a host, has performed
operations and was given up. -/
structure BitArray.Persists (array : BitArray) (host : Host) (path : String) (capacity : Nat)
    (opened : Host) (operations : List (Operation BitArray)) (ending : Ending) (bytes : Bytes) :
    Prop where
  -- The bytes are those of the last snapshot.
  last : (runFrom (array.run operations opened).1.2.snapshot (array.run operations opened).2).1 =
    .ok bytes
  length : bytes.length = capacity / 8 + 1
  -- The file holds them, and behind them what it held there before.
  content : (array.leave operations ending opened).volume.bytesAt path =
    (host.volume.bytesAt path).leftIn bytes capacity
  -- At any capacity the file is found as it was left, with zeros behind it.
  found : forall other second reopened,
    (array.leave operations ending opened).Opens path other second reopened ->
    reopened.volume.bytesAt path =
        List.rightpad (other / 8 + 2) 0 ((host.volume.bytesAt path).leftIn bytes capacity) ∧
      (runFrom second.snapshot reopened).1 =
        .ok ((List.rightpad (other / 8 + 1) 0
          ((host.volume.bytesAt path).leftIn bytes capacity)).take (other / 8 + 1))
  -- At the same capacity, the snapshot is the last one.
  restored : forall second reopened,
    (array.leave operations ending opened).Opens path capacity second reopened ->
    (runFrom second.snapshot reopened).1 = .ok bytes
  -- At a larger capacity, the snapshot begins with the last one.
  kept : forall larger second reopened, capacity ≤ larger ->
    (array.leave operations ending opened).Opens path larger second reopened ->
    Exists fun shot => (runFrom second.snapshot reopened).1 = .ok shot ∧
      shot.take (capacity / 8 + 1) = bytes
  -- Nothing is lost by an array of another capacity that writes nothing.
  spared : forall other second reopened readings release third final,
    (array.leave operations ending opened).Opens path other second reopened ->
    (forall operation, operation ∈ readings -> Operation.writes operation = false) ->
    (second.leave readings release reopened).Opens path capacity third final ->
    (runFrom third.snapshot final).1 = .ok bytes
  -- An array in memory can be had of the bytes.
  memory : Exists fun copy => MemoryArray.ofBytes bytes capacity = .ok copy ∧ copy.toBytes = bytes

namespace Bytes

variable {before bytes : Bytes} {capacity : Nat}

theorem length_leftIn (size : bytes.length = capacity / 8 + 1) :
    (before.leftIn bytes capacity).length = max before.length (capacity / 8 + 2) := by
  rw [leftIn, length_rightpad, List.length_append, List.length_drop, size]
  omega

theorem take_leftIn (size : bytes.length = capacity / 8 + 1) :
    (before.leftIn bytes capacity).take (capacity / 8 + 1) = bytes := by
  rw [leftIn, take_rightpad]
  · exact List.take_left' size
  · rw [List.length_append, size]
    exact Nat.le_add_right _ _

end Bytes

namespace MemoryArray

/-- As many bytes as a capacity needs make an array. -/
theorem ofBytes_of_length {bytes : Bytes} {capacity : Nat} (positive : 0 < capacity)
    (size : bytes.length = capacity / 8 + 1) :
    Exists fun copy => ofBytes bytes capacity = .ok copy ∧ copy.toBytes = bytes := by
  have laid : Layout.ofCapacity capacity = .ok ⟨capacity, positive⟩ := dif_pos positive
  have fits : bytes.toArray.size = (Layout.mk capacity positive).byteLength := by
    rw [List.size_toArray, size, Layout.byteLength]
  refine ⟨{ layout := ⟨capacity, positive⟩, bytes := bytes.toArray, size_eq := fits }, ?_, ?_⟩
  · simp only [ofBytes, laid, bind, Except.bind, dif_pos fits]
    rfl
  · rw [toBytes, List.toList_toArray]

end MemoryArray

/-- What an array held when it was given up is in its file, and is found by whoever opens
the file again; all that it did not reach is as it was. -/
theorem array_persists {host opened : Host} {path : String} {capacity : Nat} {array : BitArray}
    (linked : host.volume.Linked) (opens : host.Opens path capacity array opened)
    (operations : List (Operation BitArray)) (ending : Ending) :
    Exists fun bytes => array.Persists host path capacity opened operations ending bytes := by
  rcases opens.lies linked with ⟨size, expressible, file, lies⟩
  rcases lies.run operations with ⟨replies, after, ran, confines⟩
  have liesAfter := lies.confined confines
  have unchanged := liesAfter.confines_finish ending
  have left : array.leave operations ending opened = (array.finish ending after).2 := by
    rw [BitArray.leave, ran]
  have liesLeft := liesAfter.confined unchanged
  rw [← left] at unchanged liesLeft
  let bytes := (after.volume.content file).window 0 (capacity / 8 + 1)
  have length : bytes.length = capacity / 8 + 1 := Content.length_window _ _ _
  have content : (array.leave operations ending opened).volume.bytesAt path =
      (host.volume.bytesAt path).leftIn bytes capacity := by
    rw [liesAfter.bytesAt_unchanged unchanged,
      lies.bytesAt_confined confines (Nat.le_of_lt lies.longer), opens.bytesAt linked, size]
    exact Bytes.append_drop_rightpad length (Nat.le_succ _)
  have reached : capacity / 8 + 1 ≤ ((host.volume.bytesAt path).leftIn bytes capacity).length := by
    rw [Bytes.length_leftIn length]
    omega
  refine ⟨bytes, ?_⟩
  constructor
  case last =>
    rw [ran, liesAfter.runFrom_snapshot expressible, liesAfter.bytesAt, size,
      Content.take_toList (size ▸ Nat.le_of_lt liesAfter.longer)]
  case length => exact length
  case content => exact content
  case found =>
    intro other second reopened again
    rw [again.bytesAt liesLeft.linked, again.snapshot liesLeft.linked, content]
    exact ⟨rfl, rfl⟩
  case restored =>
    intro second reopened again
    rw [again.snapshot_of_le liesLeft.linked (content ▸ reached), content,
      Bytes.take_leftIn length]
  case kept =>
    intro larger second reopened more again
    refine ⟨_, congrArg Prod.fst (again.snapshot liesLeft.linked), ?_⟩
    have inside : capacity / 8 + 1 ≤ larger / 8 + 1 :=
      Nat.succ_le_succ (Nat.div_le_div_right more)
    rw [content, List.take_take, Nat.min_eq_left inside, Bytes.take_rightpad reached,
      Bytes.take_leftIn length]
  case spared =>
    intro other second reopened readings release third final again reads onceMore
    rcases again.lies liesLeft.linked with ⟨_, _, fileAgain, liesAgain⟩
    have spared := liesAgain.leave_of_not_writes reads release
    have holds := liesAgain.bytesAt_unchanged spared
    rw [again.bytesAt liesLeft.linked, content] at holds
    rw [onceMore.snapshot_of_le (liesAgain.confined spared).linked, holds,
      Bytes.take_rightpad reached, Bytes.take_leftIn length]
    rw [holds, Bytes.length_rightpad]
    exact Nat.le_trans reached (Nat.le_max_left _ _)
  case memory =>
    have positive : 0 < capacity := by
      rcases opens with ⟨_, backing, mode, persistent, run⟩
      rw [← (BitArray.over_of_opened linked persistent run).1]
      exact array.layout.capacity_pos
    exact MemoryArray.ofBytes_of_length positive length

namespace Tailed

/-- A host with a file that is longer than an array of the capacity twelve needs. -/
def host : Host where
  volume := {
    entries := [([['a']], .file 0)]
    contents := [.ofBytes [0, 0, 7, 7, 7]] }

def array : BitArray :=
  .file { Twelve.file with handle := some { file := 0, mode := .buffered }, mode := .buffered }

def opened : Host :=
  host.recorded (.openedFile "a" 12 2 5 .buffered)

theorem linked : host.volume.Linked := by
  intro location file listed
  cases List.mem_singleton.mp listed
  exact Nat.zero_lt_one

theorem opens : host.Opens "a" 12 array opened :=
  ⟨by decide, .file, .buffered, rfl, rfl⟩

end Tailed

/-- A bit that was set is in the file, in front of what was there, when the array was
dropped. -/
theorem array_persists_tailed :
    Tailed.host.volume.Linked ∧ Tailed.host.Opens "a" 12 Tailed.array Tailed.opened ∧
      (Tailed.array.leave [.raise 3] .drop Tailed.opened).volume.bytesAt "a" =
        [8, 0, 7, 7, 7] := by
  refine ⟨Tailed.linked, Tailed.opens, ?_⟩
  rcases array_persists Tailed.linked Tailed.opens [.raise 3] .drop with ⟨bytes, persists⟩
  have known : bytes = [8, 0] := Except.ok.inj (persists.last.symm.trans rfl)
  rw [persists.content, known]
  rfl

end BitStore
