import BitStore.Proofs.Arrays.MergeEnds
import BitStore.Proofs.Arrays.Opening
import BitStore.Proofs.Arrays.Persistence

namespace BitStore

/-!
# Files that were cut

The file of an open array can be cut by others.  The array does not notice until it needs a
byte that is gone, for it looks for its bytes in the file as the file then is.  An operation
on a single bit needs the byte that holds the bit, and what asks about all bytes needs all of
them; `Layout.Reads` says how far the file has to reach for each operation.  Nothing else
decides whether an operation succeeds.

A change of a bit reads before it writes, and a write in front of the end of a file does not
move the end.  So no operation on bits changes the length of the file, and one that fails
changes nothing.  Clearing alone writes without having read.  It gives the file back what it
lacks.
-/

namespace Host

/-- The second host comes later than the first.  Whatever has been done to its files, they are
still there, and the system allows what it allowed. -/
structure Lasts (before after : Host) : Prop where
  limits : after.limits = before.limits
  held : forall file, before.volume.Holds file -> after.volume.Holds file

end Host

namespace Layout

/-- The operation needs a file to reach so far, if the index that it names is in range. -/
inductive Reads (layout : Layout) : Operation BitArray -> Nat -> Prop where
  -- A bit is in one byte.
  | bit {operation : Operation BitArray} {index : Nat} (single : operation.index? = some index)
      (inside : index ≤ layout.capacity) : Reads layout operation (index / 8 + 1)
  | survey {operation : Operation BitArray} {answer : Bytes -> Reply}
      (asks : layout.survey? operation = some answer) :
      Reads layout operation layout.byteLength
  | next {first : Nat} (inside : first < layout.capacity) :
      Reads layout (.next first) layout.byteLength
  -- From the capacity on there is nothing to look for.
  | idle {first : Nat} (beyond : layout.capacity ≤ first) : Reads layout (.next first) 0

/-- No operation needs more than the bytes of the array. -/
theorem Reads.reach_le {layout : Layout} {operation : Operation BitArray} {reach : Nat}
    (reads : layout.Reads operation reach) : reach ≤ layout.byteLength := by
  cases reads with
  | bit single inside => exact Nat.succ_le_succ (Nat.div_le_div_right inside)
  | survey asks => exact Nat.le_refl _
  | next inside => exact Nat.le_refl _
  | idle beyond => exact Nat.zero_le _

end Layout

namespace FileArray

variable {array : FileArray} {handle : Handle} {host after : Host}

/-- The array is open over a file, of which nothing is known but that the system would let it
become as long as the array. -/
structure Attached (array : FileArray) (handle : Handle) (host : Host) : Prop where
  live : array.handle = some handle
  held : host.volume.Holds handle.file
  allowed : array.layout.byteLength ≤ host.limits.fileLength

/-- What an operation has left: no more than bytes of the array have changed, and those are as
expected. -/
structure Leaves (array : FileArray) (handle : Handle) (host after : Host) (bytes : Bytes) :
    Prop where
  changes : host.ChangesOnly (some handle.file) after
  storage : (BitArray.file array).storage after = bytes
  tail : forall place, array.layout.byteLength ≤ place ->
    (after.volume.content handle.file).byte place = (host.volume.content handle.file).byte place

/-- The operation answers and leaves what is expected if the file reaches far enough.  If not,
it fails at the end of the file and leaves everything as it was. -/
structure Depends (array : FileArray) (handle : Handle) (host : Host)
    (operation : Operation BitArray) (reach : Nat) : Prop where
  answered : reach ≤ (host.volume.content handle.file).length ->
    let expected := array.layout.respond ((BitArray.file array).storage host)
      (fun operand => operand.reading host) operation
    Exists fun reply => Exists fun after =>
      (BitArray.file array).step operation host = ((.ok reply, .file array), after) ∧
      expected.1 = .ok reply ∧ array.Leaves handle host after expected.2
  failed : (host.volume.content handle.file).length < reach ->
    (BitArray.file array).step operation host =
      ((.error (.storage "unable to read bit array from disk" .endOfFile), .file array), host)

/-- What clearing has left: a file that reaches as far as the array, all of whose bytes are
zero. -/
structure Cleared (array : FileArray) (handle : Handle) (host after : Host) : Prop where
  zeros : (BitArray.file array).storage after = Bytes.zeros array.layout.byteLength
  length : (after.volume.content handle.file).length =
    max (host.volume.content handle.file).length array.layout.byteLength
  tail : forall place, array.layout.byteLength ≤ place ->
    (after.volume.content handle.file).byte place = (host.volume.content handle.file).byte place
  others : forall file, file ≠ handle.file ->
    after.volume.content file = host.volume.content file
  attached : array.Attached handle after

/-! ## Attached arrays -/

theorem Attached.lasts (attached : array.Attached handle host) (lasts : host.Lasts after) :
    array.Attached handle after where
  live := attached.live
  held := lasts.held handle.file attached.held
  allowed := lasts.limits ▸ attached.allowed

/-- The array that is opened is attached to its file. -/
theorem attached_of_opened {path : String} {capacity : Nat} {mode : WriteMode} {opened : Host}
    (sound : host.Sound)
    (run : runFrom (openAt path capacity mode) host = (.ok array, opened)) :
    Exists fun handle => array.Attached handle opened := by
  rcases openAt_cases sound path capacity mode
    with ⟨_, _, ran, intact, _⟩ | ⟨_, _, refused, _⟩
  · cases ran.symm.trans run
    cases intact with
    | @file _ handle live whole allowed =>
        have held := (BitArray.Intact.file live whole allowed).holds (BitArray.file?_file live)
        exact ⟨handle, live, held,
          Nat.le_trans (Nat.le_of_lt array.layout.byteLength_lt_fileLength) allowed⟩
  · cases refused.symm.trans run

theorem Attached.expressible (attached : array.Attached handle host) :
    array.layout.byteLength < offsetBound :=
  Nat.lt_of_le_of_lt attached.allowed host.limits.expressible

/-! ## Single bits -/

theorem Attached.changeBit (attached : array.Attached handle host) {index : Nat}
    {address : BitAddress} (located : array.layout.locate index = .ok address)
    (reached : address.byte < (host.volume.content handle.file).length)
    (change : BitAddress -> UInt8 -> UInt8) :
    Exists fun next => Exists fun after =>
      (BitArray.file array).changeBit change index host = ((.ok (), next), after) ∧
      next = .file array ∧ array.Leaves handle host after
        (((BitArray.file array).storage host).modify address.byte (change address)) := by
  have below := array.layout.byte_lt_byteLength located
  have allowed := attached.allowed
  have kept := BitArray.file?_file attached.live
  let value := change address ((host.volume.content handle.file).byte address.byte)
  rcases handle.changes_written host address.byte (List.cons_ne_nil value []) reached
    with ⟨changes, bytes⟩
  simp only [Content.placed_one] at bytes
  refine ⟨_, _, ?_, rfl, changes, BitArray.storage_modify kept bytes, ?_⟩
  · rw [BitArray.changeBit_file,
      runFrom_changeBit attached.live change located reached (by omega)]
  · intro place beyond
    rw [bytes, if_neg (by omega)]

theorem leaves_self (array : FileArray) (handle : Handle) (host : Host) :
    array.Leaves handle host host ((BitArray.file array).storage host) where
  changes := Host.ChangesOnly.refl _ host
  storage := rfl
  tail _ _ := rfl

section Bit

variable {operation : Operation BitArray} {index : Nat} (single : operation.index? = some index)
include single

theorem step_bit_refused {fault : Fault}
    (read : runFrom (array.getBit index) host = (.error fault, host))
    (refused : forall change,
      runFrom (array.changeBit index change) host = (.error fault, host)) :
    (BitArray.file array).step operation host = ((.error fault, .file array), host) := by
  apply (BitArray.file array).step_bit_refused single read
  intro change
  rw [BitArray.changeBit_file, refused]

/-- An index is looked at before the file is. -/
theorem step_bit_outside (host : Host) (outside : array.layout.capacity < index) :
    (BitArray.file array).step operation host =
      ((.error (.indexOutOfRange index array.layout.capacity), .file array), host) := by
  have located := array.layout.locate_of_gt outside
  exact step_bit_refused single (runFrom_getBit_refused located host)
    fun change => runFrom_changeBit_refused located change host

/-- A bit can be read and changed as long as the file has its byte. -/
theorem Attached.depends_bit (attached : array.Attached handle host)
    (inside : index ≤ array.layout.capacity) :
    array.Depends handle host operation (index / 8 + 1) := by
  have located := array.layout.locate_of_le inside
  have below : index / 8 < array.layout.byteLength := array.layout.byte_lt_byteLength located
  have allowed := attached.allowed
  have expressible := attached.expressible
  constructor
  case answered =>
    intro reached
    have stored := BitArray.storage_getElem? host (BitArray.file?_file attached.live) below
    have read := runFrom_getBit attached.live located reached (Nat.lt_of_lt_of_le below allowed)
    rw [← stored] at read
    rcases (BitArray.file array).step_bit_served
      (fun next after bytes => next = .file array ∧ array.Leaves handle host after bytes)
      single located read ⟨rfl, array.leaves_self handle host⟩
      (fun change => attached.changeBit located reached change)
      (fun operand => operand.reading host)
      with ⟨reply, _, after, stepped, expected, rfl, leaves⟩
    exact ⟨reply, after, stepped, expected, leaves⟩
  case failed =>
    intro cut
    have unread := runFrom_readByte_behind attached.live (Nat.le_of_lt_succ cut)
      (Nat.lt_of_le_of_lt (Nat.succ_le_of_lt below) expressible)
    exact step_bit_refused single (runFrom_getBit_unread located unread)
      (runFrom_changeBit_unread located unread)

end Bit

/-! ## All bytes -/

theorem Attached.runFrom_snapshot_cut (attached : array.Attached handle host)
    (cut : (host.volume.content handle.file).length < array.layout.byteLength) :
    runFrom array.snapshot host =
      (.error (.storage "unable to read bit array from disk" .endOfFile), host) := by
  have some : array.layout.byteLength ≠ 0 := Nat.ne_of_gt array.layout.byteLength_pos
  have expressible : ¬ offsetBound ≤ 0 + array.layout.byteLength := by
    rw [Nat.zero_add]
    exact Nat.not_le_of_lt attached.expressible
  have short : (host.volume.content handle.file).length < 0 + array.layout.byteLength := by
    rwa [Nat.zero_add]
  simp only [snapshot, FileArray.live, attached.live, Handle.read, runFrom_bind, runFrom_outcome,
    runFrom_within, if_neg some, if_neg expressible, runFrom_liftM, Host.content_apply,
    if_pos short, runFrom_throw, mapError_error]

theorem Attached.runFrom_snapshot (attached : array.Attached handle host)
    (whole : array.layout.byteLength ≤ (host.volume.content handle.file).length) :
    runFrom array.snapshot host = (.ok ((BitArray.file array).storage host), host) := by
  rw [BitArray.storage_eq_window (BitArray.file?_file attached.live)]
  exact FileArray.runFrom_snapshot attached.live whole attached.expressible

/-- What asks about all bytes needs them all. -/
theorem Attached.depends_survey (attached : array.Attached handle host)
    {operation : Operation BitArray} {answer : Bytes -> Reply}
    (asks : array.layout.survey? operation = some answer) :
    array.Depends handle host operation array.layout.byteLength where
  answered whole := by
    have stepped := (BitArray.file array).step_survey asks (attached.runFrom_snapshot whole)
    rw [array.layout.respond_survey _ _ asks]
    exact ⟨_, host, stepped, rfl, array.leaves_self handle host⟩
  failed cut := (BitArray.file array).step_survey asks (attached.runFrom_snapshot_cut cut)

/-- So does a search that stops in front of the capacity, if it begins there. -/
theorem Attached.depends_next (attached : array.Attached handle host) {first : Nat}
    (inside : first < array.layout.capacity) :
    array.Depends handle host (.next first) array.layout.byteLength := by
  have isOpen : (BitArray.file array).isClosed = false :=
    Option.isNone_eq_false_iff.mpr (attached.live ▸ Option.isSome_some)
  constructor
  case answered =>
    intro whole
    have stepped :=
      (BitArray.file array).step_next isOpen (attached.runFrom_snapshot whole) first
    rw [BitArray.layout, if_pos inside] at stepped
    exact ⟨_, host, stepped, rfl, array.leaves_self handle host⟩
  case failed =>
    intro cut
    have stepped :=
      (BitArray.file array).step_next isOpen (attached.runFrom_snapshot_cut cut) first
    rwa [BitArray.layout, if_pos inside] at stepped

/-- From the capacity on it needs no byte. -/
theorem depends_idle (array : FileArray) (handle : Handle) (host : Host) {first : Nat}
    (beyond : array.layout.capacity ≤ first) :
    array.Depends handle host (.next first) 0 where
  answered _ := by
    have found : runFrom ((BitArray.file array).next? first) host = (.ok none, host) := by
      simp only [BitArray.next?, BitContainer.next?, runFrom_ite]
      exact if_pos beyond
    refine ⟨.position none, host, BitArray.step_of_read rfl found, ?_,
      array.leaves_self handle host⟩
    rw [Layout.respond, BitArray.next?_beyond array.layout _ beyond]
  failed cut := absurd cut (Nat.not_lt_zero _)

/-- How far the file reaches decides, and nothing else. -/
theorem Attached.depends (attached : array.Attached handle host) {operation : Operation BitArray}
    {reach : Nat} (reads : array.layout.Reads operation reach) :
    array.Depends handle host operation reach := by
  cases reads with
  | bit single inside => exact attached.depends_bit single inside
  | survey asks => exact attached.depends_survey asks
  | next inside => exact attached.depends_next inside
  | idle beyond => exact array.depends_idle handle host beyond

/-! ## Clearing -/

/-- Zeros are put at the front of the file, and it reaches at least as far as they do. -/
theorem Attached.cleared (attached : array.Attached handle host) :
    array.Cleared handle host (host.withContent handle.file
      (handle.written 0 (Bytes.zeros array.layout.byteLength))) := by
  have size := Bytes.length_zeros array.layout.byteLength
  let change := handle.written 0 (Bytes.zeros array.layout.byteLength)
  let after := host.withContent handle.file change
  have self : after.volume.content handle.file = change (host.volume.content handle.file) :=
    Volume.content_updateContent_self attached.held change
  have placed (place : Nat) : (after.volume.content handle.file).byte place =
      if place < (Bytes.zeros array.layout.byteLength).length
      then (Bytes.zeros array.layout.byteLength)[place]?.getD 0
      else (host.volume.content handle.file).byte place := by
    rw [self, Handle.byte_written, Content.placed_front]
  constructor
  case zeros => exact BitArray.storage_replaced (BitArray.file?_file attached.live) size placed
  case length => rw [self, handle.length_written 0 array.layout.zeros_ne_nil, size, Nat.zero_add]
  case tail =>
    intro place beyond
    rw [placed, size, if_neg (Nat.not_lt_of_le beyond)]
  case others =>
    intro file different
    exact Volume.content_updateContent_of_ne host.volume different change
  case attached =>
    exact ⟨attached.live, (Volume.holds_updateContent _ _ _ _).mpr attached.held,
      attached.allowed⟩

/-- Clearing does not look at how far the file reaches. -/
theorem Attached.step_clear (attached : array.Attached handle host) :
    (BitArray.file array).step (.clear : Operation BitArray) host =
      ((.ok .done, .file array), host.withContent handle.file
        (handle.written 0 (Bytes.zeros array.layout.byteLength))) := by
  have cleared := runFrom_clear attached.live host attached.allowed
  apply BitArray.step_of_ok
  simp only [BitArray.perform, BitArray.clear, runFrom_bind, cleared, runFrom_pure]

/-- After clearing all operations succeed. -/
theorem Cleared.answers (cleared : array.Cleared handle host after)
    {operation : Operation BitArray} {reach : Nat} (reads : array.layout.Reads operation reach) :
    Exists fun reply => Exists fun last =>
      (BitArray.file array).step operation after = ((.ok reply, .file array), last) := by
  have reached : reach ≤ (after.volume.content handle.file).length := by
    rw [cleared.length]
    exact Nat.le_trans reads.reach_le (Nat.le_max_right _ _)
  rcases (cleared.attached.depends reads).answered reached with ⟨reply, last, stepped, _⟩
  exact ⟨reply, last, stepped⟩

/-! ## However the file was cut -/

/-- What is known of an attached array, of whose file nothing is known. -/
structure Withstands (array : FileArray) (handle : Handle) (host : Host) : Prop where
  outside : forall (operation : Operation BitArray) index, operation.index? = some index ->
    array.layout.capacity < index ->
    (BitArray.file array).step operation host =
      ((.error (.indexOutOfRange index array.layout.capacity), .file array), host)
  depends : forall operation reach, array.layout.Reads operation reach ->
    array.Depends handle host operation reach
  clears : Exists fun after =>
    (BitArray.file array).step (.clear : Operation BitArray) host =
      ((.ok .done, .file array), after) ∧
    array.Cleared handle host after ∧
    forall operation reach, array.layout.Reads operation reach ->
      Exists fun reply => Exists fun last =>
        (BitArray.file array).step operation after = ((.ok reply, .file array), last)

/-- An array that was opened over a file reads the file as it is at any time, whatever has been
done to it.  An operation fails if and only if the file ends in front of a byte that it needs,
and then nothing is changed; clearing never fails, and mends what was cut.  An index out of
range is refused before the file is looked at. -/
theorem cut_files_withstood :
    (forall (host : Host) path capacity mode (array : FileArray) (opened after : Host),
      host.Sound -> runFrom (openAt path capacity mode) host = (.ok array, opened) ->
      opened.Lasts after -> Exists fun handle => array.Attached handle after) ∧
    forall (array : FileArray) (handle : Handle) (host : Host),
      array.Attached handle host -> array.Withstands handle host := by
  constructor
  · intro host path capacity mode array opened after sound run lasts
    rcases attached_of_opened sound run with ⟨handle, attached⟩
    exact ⟨handle, attached.lasts lasts⟩
  · intro array handle host attached
    refine ⟨fun operation index single outside => step_bit_outside single host outside,
      fun operation reach => attached.depends, _, attached.step_clear, attached.cleared, ?_⟩
    exact fun operation reach => attached.cleared.answers

end FileArray

namespace Tailed

def source : FileArray :=
  { Twelve.file with handle := some { file := 0, mode := .buffered }, mode := .buffered }

theorem sound : host.Sound where
  entries := linked
  limited file := by
    rcases file with _ | other
    · decide
    · exact Nat.zero_le _

/-- The host after the file was cut to its first byte, through another handle. -/
def cut : Host :=
  (runFrom (Handle.setLength { file := 0, mode := .durable } 1) opened).2

theorem lasts : opened.Lasts cut where
  limits := rfl
  held _ held := held

end Tailed

/-- One byte is left, which has the bit at 7 and not the one at 8. -/
theorem FileArray.cut_files_withstood_tailed :
    Tailed.host.Sound ∧
      runFrom (FileArray.openAt "a" 12 .buffered) Tailed.host = (.ok Tailed.source, Tailed.opened) ∧
      Tailed.opened.Lasts Tailed.cut ∧
      Exists fun handle => Tailed.source.Attached handle Tailed.cut ∧
        Tailed.source.Withstands handle Tailed.cut ∧
        (Tailed.cut.volume.content handle.file).length = 1 ∧
        ((BitArray.file Tailed.source).step (.raise 7 : Operation BitArray) Tailed.cut).1.1 =
          .ok (.flag true) ∧
        ((BitArray.file Tailed.source).step (.raise 8 : Operation BitArray) Tailed.cut).1.1 =
          .error (.storage "unable to read bit array from disk" .endOfFile) ∧
        StorageError.endOfFile.kind = .unexpectedEnd := by
  have opens : runFrom (FileArray.openAt "a" 12 .buffered) Tailed.host =
      (.ok Tailed.source, Tailed.opened) := rfl
  rcases cut_files_withstood.1 Tailed.host "a" 12 .buffered Tailed.source Tailed.opened Tailed.cut
    Tailed.sound opens Tailed.lasts with ⟨handle, attached⟩
  have same : handle = { file := 0, mode := .buffered } :=
    (Option.some.inj attached.live).symm
  subst same
  exact ⟨Tailed.sound, opens, Tailed.lasts, _, attached, cut_files_withstood.2 _ _ _ attached,
    rfl, rfl, rfl, rfl⟩

end BitStore
