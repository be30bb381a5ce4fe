import BitStore.Proofs.Arrays.Aliasing
import BitStore.Proofs.Arrays.Finality
import BitStore.Proofs.Arrays.OneWay

namespace BitStore

/-!
# Runs that go one way

A step of a run that goes one way strikes positions, and a position that was struck once stays
at the pole.  After the run a position is therefore at the pole if one of the steps has struck
it, or if it was there before.  That is a matter of which steps were taken, and neither of the
order in which nor of how often they were taken.

The operands of the merges are kept elsewhere than the receiver, and so what a step strikes
does not change in the course of the run.

Merges of both kinds do not commute.  If one of each kind is done with the same operand, the
second absorbs the first, and this holds even where the operand shares the receiver's file.
-/

namespace BitArray

variable {array next : BitArray} {host after : Host} {kind : Merge} {cleared : Bool}
  {operations others : List (Operation BitArray)}

/-- The operation goes one way, and what it merges is kept elsewhere than the array. -/
structure Drives (array : BitArray) (kind : Merge) (operation : Operation BitArray) : Prop where
  towards : operation.direction? = some kind
  apart : forall operand, operation.operand? = some operand -> operand.Apart array

/-- The operation is accepted and finds the bytes that it needs. -/
def Accepts (array : BitArray) (host : Host) (operation : Operation BitArray) : Prop :=
  array.layout.Admits (fun operand => operand.reading host) operation ∧
    array.Reaches host (array.layout.reach operation)

/-- Whether one of the operations strikes a position. -/
def struck (array : BitArray) (host : Host) (kind : Merge)
    (operations : List (Operation BitArray)) (position : Nat) : Bool :=
  operations.any fun operation =>
    array.layout.strikes (fun operand => operand.reading host) kind operation position

/-- Every reply is an answer. -/
def AllOk (replies : List (Except Fault Reply)) : Prop :=
  forall reply, reply ∈ replies -> Exists fun answer => reply = .ok answer

/-! ## What the steps before one leave to it -/

section Follows

variable {operation : Operation BitArray} (follows : Follows cleared array host next after)
include follows

theorem Follows.drives (drives : array.Drives kind operation) : next.Drives kind operation where
  towards := drives.towards
  apart operand named file kept := follows.file? ▸ drives.apart operand named file kept

theorem Follows.readings (drives : array.Drives kind operation) (operand : BitArray)
    (named : operation.operand? = some operand) : operand.reading after = operand.reading host :=
  follows.reading (drives.apart operand named)

theorem Follows.struck (drives : forall operation, operation ∈ operations ->
    array.Drives kind operation) (position : Nat) :
    next.struck after kind operations position = array.struck host kind operations position := by
  rw [Bool.eq_iff_iff, BitArray.struck, BitArray.struck, List.any_eq_true, List.any_eq_true,
    follows.layout]
  refine exists_congr fun operation => and_congr_right fun listed => ?_
  rw [Layout.strikes_congr (follows.readings (drives operation listed))]

end Follows

/-- What sets bits clears not all, and so it makes no file longer. -/
theorem Follows.accepts_iff {operation : Operation BitArray}
    (follows : Follows false array host next after) (drives : array.Drives kind operation) :
    next.Accepts after operation ↔ array.Accepts host operation := by
  have reaches : next.Reaches after (array.layout.reach operation) ↔
      array.Reaches host (array.layout.reach operation) := by
    rw [follows.reaches, or_iff_left]
    exact fun cleared => Bool.false_ne_true cleared.1
  rw [Accepts, Accepts, follows.layout, reaches]
  exact and_congr_left' (Layout.admits_congr (follows.readings drives))

/-- A step that sets bits leaves the length of the file as it is. -/
theorem Performs.follows_rising {operation : Operation BitArray}
    (performs : Performs kind array host operation) (towards : operation.direction? = some .or) :
    Follows false array host (array.step operation host).1.2 (array.step operation host).2 :=
  operation.clears_of_rising towards ▸ performs.follows

/-! ## Runs -/

theorem run_cons (array : BitArray) (operation : Operation BitArray)
    (rest : List (Operation BitArray)) (host : Host) :
    let stepped := array.step operation host
    let ended := stepped.1.2.run rest stepped.2
    array.run (operation :: rest) host = ((stepped.1.1 :: ended.1.1, ended.1.2), ended.2) := rfl

/-- A step leaves the struck positions at the pole and the others as they were. -/
theorem Ready.step_bits (ready : array.Ready host) {operation : Operation BitArray}
    (towards : operation.direction? = some kind)
    (accepted : kind = .or -> array.Accepts host operation) (position : Nat) :
    let stepped := array.step operation host
    (stepped.1.2.face stepped.2).bit position =
      if array.layout.strikes (fun operand => operand.reading host) kind operation position
      then kind.pole else (array.face host).bit position := by
  intro stepped
  have sizes : forall (operand : BitArray) bytes, operand.reading host = .ok bytes ->
      bytes.length = operand.layout.byteLength :=
    fun operand bytes read => length_of_snapshot read
  rw [(ready.performs towards).face fun rising _ => (accepted rising).2,
    Layout.bit_respond ready.length_face sizes]
  exact Layout.update_eq_strikes towards _

/-- A run does so too.  Where bits are set, all of its steps have to be accepted. -/
theorem Ready.run_bits (ready : array.Ready host)
    (drives : forall operation, operation ∈ operations -> array.Drives kind operation)
    (accepted : kind = .or -> forall operation, operation ∈ operations ->
      array.Accepts host operation) :
    let ended := array.run operations host
    Follows (operations.any Operation.clears) array host ended.1.2 ended.2 ∧
      forall position, (ended.1.2.face ended.2).bit position =
        if array.struck host kind operations position
        then kind.pole else (array.face host).bit position := by
  -- on the steps; the rest of a run strikes what it would have struck at the beginning
  induction operations generalizing array host with
  | nil => exact ⟨ready.follows_self, fun _ => rfl⟩
  | cons operation rest inductionHypothesis =>
      have first := drives operation List.mem_cons_self
      have later := fun other listed => drives other (List.mem_cons_of_mem operation listed)
      have performs := ready.performs first.towards
      have follows := performs.follows
      have acceptedRest (rising : kind = .or) other (listed : other ∈ rest) :=
        ((performs.follows_rising (rising ▸ first.towards)).accepts_iff (later other listed)).mpr
          (accepted rising other (List.mem_cons_of_mem operation listed))
      rcases inductionHypothesis follows.ready
        (fun other listed => follows.drives (later other listed)) acceptedRest
        with ⟨followsRest, bits⟩
      refine ⟨follows.trans followsRest, fun position => ?_⟩
      have step := ready.step_bits first.towards
        (fun rising => accepted rising operation List.mem_cons_self) position
      rw [run_cons, bits, follows.struck later, step, struck, struck, List.any_cons]
      -- what was struck by the first step is at the pole whether or not it is struck again
      cases array.layout.strikes (fun operand => operand.reading host) kind operation position
        <;> cases rest.any _ <;> rfl

/-- A run that sets bits succeeds if each of its steps would be accepted at the beginning. -/
theorem Ready.run_ok_iff (ready : array.Ready host)
    (drives : forall operation, operation ∈ operations -> array.Drives .or operation) :
    AllOk (array.run operations host).1.1 ↔
      forall operation, operation ∈ operations -> array.Accepts host operation := by
  induction operations generalizing array host with
  | nil => exact iff_of_true (fun _ => List.not_mem_nil.elim) (fun _ => List.not_mem_nil.elim)
  | cons operation rest inductionHypothesis =>
      have first := drives operation List.mem_cons_self
      have later := fun other listed => drives other (List.mem_cons_of_mem operation listed)
      have performs := ready.performs first.towards
      have follows := performs.follows_rising first.towards
      have remaining := inductionHypothesis follows.ready
        fun other listed => follows.drives (later other listed)
      rw [run_cons, AllOk, List.forall_mem_cons, List.forall_mem_cons]
      refine and_congr performs.ok_iff (remaining.trans ?_)
      exact forall₂_congr fun other listed => follows.accepts_iff (later other listed)

/-- What stood at the pole stays there. -/
theorem Ready.run_keeps (ready : array.Ready host)
    (drives : forall operation, operation ∈ operations -> array.Drives kind operation)
    (accepted : kind = .or -> forall operation, operation ∈ operations ->
      array.Accepts host operation) (position : Nat)
    (pole : (array.face host).bit position = kind.pole) :
    let ended := array.run operations host
    (ended.1.2.face ended.2).bit position = kind.pole := by
  intro ended
  rw [(ready.run_bits drives accepted).2, pole, ite_self]

/-! ## Runs with the same steps -/

/-- The second array is on its host what the first one is on its own: it shows the same bytes,
and a snapshot brings the same. -/
structure LooksLike (array : BitArray) (host : Host) (next : BitArray) (after : Host) : Prop where
  face : next.face after = array.face host
  reading : next.reading after = array.reading host

/-- A snapshot cannot be taken of a file that was cut. -/
theorem Ready.reading_cut (ready : array.Ready host)
    (cut : ¬ array.Reaches host array.layout.byteLength) :
    array.reading host = .error (.storage "unable to read bit array from disk" .endOfFile) := by
  rcases ready.attached_of_cut cut with ⟨source, handle, rfl, attached, short⟩
  exact congrArg Prod.fst (attached.runFrom_snapshot_cut short)

/-- A snapshot depends on what is shown and on whether all of it is there. -/
theorem Ready.looksLike (ready : array.Ready host) (other : next.Ready after)
    (face : next.face after = array.face host)
    (reaches : next.Reaches after next.layout.byteLength ↔
      array.Reaches host array.layout.byteLength) : array.LooksLike host next after where
  face := face
  reading := by
    by_cases reached : array.Reaches host array.layout.byteLength
    · rw [ready.reading reached, other.reading (reaches.mpr reached), face]
    · rw [ready.reading_cut reached, other.reading_cut (mt reaches.mp reached)]

/-- Two runs with the same steps, in whatever order and however often, end alike. -/
theorem Ready.runs_agree (ready : array.Ready host)
    (drives : forall operation, operation ∈ operations -> array.Drives kind operation)
    (accepted : kind = .or -> forall operation, operation ∈ operations ->
      array.Accepts host operation)
    (same : forall operation, operation ∈ others ↔ operation ∈ operations) :
    let ended := array.run operations host
    let again := array.run others host
    ended.1.2.LooksLike ended.2 again.1.2 again.2 := by
  intro ended again
  rcases ready.run_bits drives accepted with ⟨follows, bits⟩
  rcases ready.run_bits (fun operation listed => drives operation ((same operation).mp listed))
    (fun rising operation listed => accepted rising operation ((same operation).mp listed))
    with ⟨followsAgain, bitsAgain⟩
  have any_eq (test : Operation BitArray -> Bool) : others.any test = operations.any test := by
    rw [Bool.eq_iff_iff, List.any_eq_true, List.any_eq_true]
    exact exists_congr fun operation => and_congr_left' (same operation)
  have layout : again.1.2.layout = ended.1.2.layout :=
    followsAgain.layout.trans follows.layout.symm
  apply follows.ready.looksLike followsAgain.ready
  · apply Bytes.eq_of_bit
    · rw [followsAgain.ready.length_face, follows.ready.length_face, layout]
    · intro position _
      rw [bitsAgain, bits, struck, struck, any_eq]
  · rw [followsAgain.reaches, follows.reaches, any_eq, layout]

/-- No operation that moves bits is answered by a closed array. -/
theorem step_ne_ok_of_closed (isClosed : array.isClosed = true) {operation : Operation BitArray}
    (towards : operation.direction? = some kind) (reply : Reply) :
    (array.step operation host).1.1 ≠ .ok reply := by
  intro answered
  have closed := closed_of_isClosed isClosed
  rcases ((closed.step_ok_iff_idle operation host reply).mp answered).1 with ⟨_, first, rfl, _⟩
  cases towards

/-! ## Merging both ways -/

end BitArray

/-- Each of the two merges absorbs the other. -/
theorem Merge.apply_absorb {kind other : Merge} (differ : kind ≠ other) {left right : Bytes}
    (fits : right.length = left.length) : other.apply (kind.apply left right) right = right := by
  have total : (kind.apply left right).length = left.length := Merge.length_apply ..
  apply Bytes.eq_of_bit
  · rw [Merge.length_apply, total, fits]
  · intro position _
    rw [Merge.bit_apply other (fits.trans total.symm), Merge.bit_apply kind fits]
    generalize left.bit position = bit
    generalize right.bit position = partner
    cases kind <;> cases other
    case and.and | or.or => exact absurd rfl differ
    case and.or | or.and => cases bit <;> cases partner <;> rfl

namespace BitArray

section BothWays

variable {first second next : BitArray} {host after : Host} {kind other : Merge}
  {left right : Bytes}

/-- Where all bytes are reached, an array in a file shows what a mapping of the file shows. -/
theorem Ready.face_eq_mappedFront (ready : first.Ready host) {file : FileId}
    (kept : first.file? = some file) (reached : first.Reaches host first.layout.byteLength) :
    first.face host = (host.volume.content file).mappedFront first.layout.byteLength := by
  cases ready with
  | memory array => contradiction
  | @file array handle attached =>
      cases (file?_file attached.live).symm.trans kept
      rw [face, storage_eq_window kept, Content.mappedFront_eq_window _ (reached _ attached.live)]
  | mapped live held =>
      cases (file?_mapped live).symm.trans kept
      simp only [face, live, layout]

/-- The operand of a merge is read afterwards as before, even if it shares the file of the
receiver: then it has been merged into itself. -/
theorem Turns.reading_operand (turns : first.Turns host next after (kind.apply left right))
    (ready : first.Ready host) (guest : second.Ready host)
    (read : first.reading host = .ok left) (readGuest : second.reading host = .ok right)
    (fits : second.layout.byteLength = first.layout.byteLength) :
    second.reading after = .ok right := by
  rcases face_of_reading read with ⟨shown, reached⟩
  rcases face_of_reading readGuest with ⟨shownGuest, reachedGuest⟩
  by_cases apart : second.Apart first
  · exact (turns.reading_apart apart).trans readGuest
  · have sharing : Exists fun file => second.file? = some file ∧ first.file? = some file := by
      simpa only [Apart, Classical.not_forall, Classical.not_not, exists_prop] using apart
    rcases sharing with ⟨file, kept, shared⟩
    have same : left = right := by
      rw [← shown, ← shownGuest, ready.face_eq_mappedFront shared reached,
        guest.face_eq_mappedFront kept reachedGuest, fits]
    have reachedNext : next.Reaches after next.layout.byteLength :=
      (turns.reaches _).mpr (turns.layout ▸ reached)
    have reachedThen : second.Reaches after second.layout.byteLength :=
      (reaches_of_changes turns.changes second _).mpr reachedGuest
    have guestThen := guest.lasts turns.changes.lasts
    rw [guestThen.reading reachedThen, guestThen.face_eq_mappedFront kept reachedThen, fits,
      ← turns.layout, ← turns.ready.face_eq_mappedFront (turns.file?.trans shared) reachedNext,
      turns.face, same, kind.apply_self]

/-- A merge that is answered had two arrays that could be read. -/
theorem Ready.readings_of_answered (ready : first.Ready host)
    (answered : Exists fun reply => (first.step (.merge kind second) host).1.1 = .ok reply) :
    (Exists fun left => first.reading host = .ok left) ∧
      Exists fun right => second.reading host = .ok right := by
  rcases answered with ⟨reply, done⟩
  have held : first.Held host := fun _ kept => ready.holds kept
  rcases ready_of_merge held (Prod.ext (Prod.ext done rfl) rfl) with ⟨_, _, reached, readGuest⟩
  exact ⟨⟨_, ready.reading reached⟩, readGuest⟩

/-- Merging by the one kind and then by the other leaves the bytes of the operand. -/
theorem Ready.merge_both_ways (ready : first.Ready host) (guest : second.Ready host)
    (read : first.reading host = .ok left) (readGuest : second.reading host = .ok right)
    (fits : second.layout.byteLength = first.layout.byteLength) (differ : kind ≠ other) :
    let ended := first.run [.merge kind second, .merge other second] host
    AllOk ended.1.1 ∧ ended.1.2.reading ended.2 = .ok right ∧
      second.reading ended.2 = .ok right := by
  intro ended
  rcases face_of_reading read with ⟨shown, reached⟩
  rcases ready.step_merge kind fits readGuest reached with ⟨next, after, stepped, turns⟩
  rw [shown] at turns
  have readNext := turns.reading reached
  have readThen := turns.reading_operand ready guest read readGuest fits
  have reachedNext := (face_of_reading readNext).2
  have fitsNext : second.layout.byteLength = next.layout.byteLength := turns.layout ▸ fits
  rcases turns.ready.step_merge other fitsNext readThen reachedNext
    with ⟨last, final, steppedAgain, turnsAgain⟩
  rw [turns.face] at turnsAgain
  have size : right.length = left.length :=
    (length_of_snapshot readGuest).trans (fits.trans (length_of_snapshot read).symm)
  have ran : ended = (([.ok .done, .ok .done], last), final) := by
    simp only [ended, run_cons, stepped, steppedAgain]
    rfl
  rw [ran]
  refine ⟨?_, ?_, ?_⟩
  · simp only [AllOk, List.mem_cons, List.not_mem_nil, or_false, or_self]
    exact fun reply done => ⟨.done, done⟩
  · rw [turnsAgain.reading reachedNext, Merge.apply_absorb differ size]
  · exact turnsAgain.reading_operand turns.ready (guest.lasts turns.changes.lasts) readNext
      readThen fitsNext

end BothWays

/-! ## Main results -/

/-- What the bytes are that an array shows. -/
structure Faces (array : BitArray) (host : Host) : Prop where
  intact : array.Intact host -> array.face host = array.storage host
  reading : forall bytes, array.reading host = .ok bytes -> array.face host = bytes

/-- A run and one with the same steps come to the same, and no bit that is at the pole leaves
it.  Where the first one is answered, so is the other, if bits are set. -/
structure Alike (array : BitArray) (host : Host) (kind : Merge)
    (operations others : List (Operation BitArray)) : Prop where
  answered : kind = .or -> AllOk (array.run others host).1.1
  looks :
    let ended := array.run operations host
    let again := array.run others host
    ended.1.2.LooksLike ended.2 again.1.2 again.2
  keeps : forall position, (array.face host).bit position = kind.pole ->
    let ended := array.run operations host
    (ended.1.2.face ended.2).bit position = kind.pole

/-- Of merging by one kind and then by the other only the operand's bytes are left, in the
receiver as in the operand. -/
structure Absorbs (first second : BitArray) (host : Host) (kind other : Merge) : Prop where
  answered : AllOk (first.run [.merge kind second, .merge other second] host).1.1 ↔
    (Exists fun left => first.reading host = .ok left) ∧
      Exists fun right => second.reading host = .ok right
  reading : forall right, second.reading host = .ok right ->
    let ended := first.run [.merge kind second, .merge other second] host
    AllOk ended.1.1 ->
      ended.1.2.reading ended.2 = .ok right ∧ second.reading ended.2 = .ok right

section

variable {array : BitArray} {host : Host} {kind : Merge}
  {operations others : List (Operation BitArray)}

theorem Ready.alike (ready : array.Ready host)
    (drives : forall operation, operation ∈ operations -> array.Drives kind operation)
    (same : forall operation, operation ∈ others ↔ operation ∈ operations)
    (answered : kind = .or -> AllOk (array.run operations host).1.1) :
    array.Alike host kind operations others := by
  have accepted (rising : kind = .or) :
      forall operation, operation ∈ operations -> array.Accepts host operation := by
    have towards := answered rising
    subst rising
    exact (ready.run_ok_iff drives).mp towards
  constructor
  case answered =>
    rintro rfl
    have drivesAgain := fun operation listed => drives operation ((same operation).mp listed)
    apply (ready.run_ok_iff drivesAgain).mpr
    exact fun operation listed => accepted rfl operation ((same operation).mp listed)
  case looks => exact ready.runs_agree drives accepted same
  case keeps => exact ready.run_keeps drives accepted

theorem Ready.absorbs {first second : BitArray} {other : Merge} (ready : first.Ready host)
    (guest : second.Ready host) (fits : second.layout.byteLength = first.layout.byteLength)
    (differ : kind ≠ other) : first.Absorbs second host kind other := by
  have tells (answered : AllOk (first.run [.merge kind second, .merge other second] host).1.1) :=
    ready.readings_of_answered (answered _ List.mem_cons_self)
  constructor
  case answered =>
    refine ⟨tells, ?_⟩
    rintro ⟨⟨left, read⟩, right, readGuest⟩
    exact (ready.merge_both_ways guest read readGuest fits differ).1
  case reading =>
    intro right readGuest ended answered
    rcases (tells answered).1 with ⟨left, read⟩
    exact (ready.merge_both_ways guest read readGuest fits differ).2

end

/-- An array that was opened is ready for as long as its file is there.  The bytes that it shows
are its storage, if its file was not cut, and its snapshot, if one can be taken.  Where a run
sets bits and all of its steps are answered, so are the same steps in any other order and with
any repetitions; the array ends alike, and keeps the bits that were set.  Where a run clears
bits, the same steps end alike whether or not they are answered, and no bit is gained.  A closed
array answers none of these steps.  Merging by one kind and then by the other succeeds exactly
if both arrays can be read, and then leaves the bytes of the operand, which are still there. -/
theorem one_way_runs_agree :
    (forall (options : Options) path (host opened later : Host) (array : BitArray),
      host.Sound -> runFrom (options.openAt path) host = (.ok array, opened) ->
      opened.Lasts later -> array.Ready later) ∧
    (forall (array : BitArray) (host : Host), array.Faces host) ∧
    (forall (array : BitArray) (host : Host) (kind : Merge)
      (operations others : List (Operation BitArray)), array.Ready host ->
      (forall operation, operation ∈ operations -> array.Drives kind operation) ->
      (forall operation, operation ∈ others ↔ operation ∈ operations) ->
      (kind = .or -> AllOk (array.run operations host).1.1) ->
      array.Alike host kind operations others) ∧
    (forall (array : BitArray) (host : Host) (operation : Operation BitArray) kind reply,
      array.isClosed = true -> operation.direction? = some kind ->
      (array.step operation host).1.1 ≠ .ok reply) ∧
    forall (first second : BitArray) (host : Host) (kind other : Merge),
      first.Ready host -> second.Ready host ->
      second.layout.byteLength = first.layout.byteLength -> kind ≠ other ->
      first.Absorbs second host kind other := by
  refine ⟨?_, fun array host => ⟨Intact.face, fun bytes read => (face_of_reading read).1⟩,
    ?_, ?_, ?_⟩
  · intro options path host opened later array sound run lasts
    rcases options.openAt_cases sound path with ⟨_, _, ran, intact, _⟩ | ⟨_, _, refused, _⟩
    · cases ran.symm.trans run
      exact intact.ready.lasts lasts
    · cases refused.symm.trans run
  · exact fun array host kind operations others ready => ready.alike
  · exact fun array host operation kind reply isClosed towards =>
      step_ne_ok_of_closed isClosed towards reply
  · exact fun first second host kind other ready => ready.absorbs

end BitArray

namespace Crossed

/-- Two files, of which the second has one byte less than an array of the capacity twelve. -/
def host : Host where
  volume := { contents := [.ofBytes [6, 129, 7], .ofBytes [3]] }

/-- An array in the shorter file. -/
def cut : BitArray :=
  .file { Twelve.file with handle := some { file := 1, mode := .durable } }

def rising : List (Operation BitArray) :=
  [.raise 3, .merge .or (.mapped Twelve.mapped), .raiseIfUnset 12]

def falling : List (Operation BitArray) :=
  [.lower 0, .lower 9, .merge .and (.file Twelve.file)]

theorem file_ready : (BitArray.file Twelve.file).Ready host :=
  .file ⟨rfl, Nat.zero_lt_two, by decide⟩

theorem mapped_ready : (BitArray.mapped Twelve.mapped).Ready host :=
  .mapped rfl Nat.one_lt_two

theorem cut_ready : cut.Ready host :=
  .file ⟨rfl, Nat.one_lt_two, by decide⟩

theorem rises (operation : Operation BitArray) (listed : operation ∈ rising) :
    (BitArray.file Twelve.file).Drives .or operation := by
  simp only [rising, List.mem_cons, List.not_mem_nil, or_false] at listed
  rcases listed with rfl | rfl | rfl
  all_goals refine ⟨rfl, ?_⟩
  case inr.inl => rintro _ ⟨⟩ _ ⟨⟩ ⟨⟩
  all_goals rintro _ ⟨⟩

theorem falls (operation : Operation BitArray) (listed : operation ∈ falling) :
    cut.Drives .and operation := by
  simp only [falling, List.mem_cons, List.not_mem_nil, or_false] at listed
  rcases listed with rfl | rfl | rfl
  all_goals refine ⟨rfl, ?_⟩
  case inr.inr => rintro _ ⟨⟩ _ ⟨⟩ ⟨⟩
  all_goals rintro _ ⟨⟩

/-- All steps are taken backwards, and one of them before that. -/
theorem mem_backwards {step operation : Operation BitArray} {steps : List (Operation BitArray)}
    (listed : step ∈ steps) : operation ∈ step :: steps.reverse ↔ operation ∈ steps := by
  rw [List.mem_cons, List.mem_reverse, or_iff_right_of_imp]
  rintro rfl
  exact listed

end Crossed

/-- Bits are set in a file, from a mapping too, and the steps are taken again backwards and with
one of them twice.  In a file that was cut, two of three steps that clear bits fail, and the
bytes do not depend on the order either. -/
theorem BitArray.one_way_runs_agree_crossed :
    let array := BitArray.file Twelve.file
    let rises := array.run Crossed.rising Crossed.host
    let backwards := array.run (.raise 3 :: Crossed.rising.reverse) Crossed.host
    let falls := Crossed.cut.run Crossed.falling Crossed.host
    let again := Crossed.cut.run (.lower 0 :: Crossed.falling.reverse) Crossed.host
    let merged := array.run [.merge .or (BitArray.mapped Twelve.mapped),
      .merge .and (BitArray.mapped Twelve.mapped)] Crossed.host
    Tailed.array.Ready Tailed.cut ∧
      (array.face Crossed.host = array.storage Crossed.host ∧
        array.face Crossed.host = [6, 129]) ∧
      (AllOk backwards.1.1 ∧ rises.1.2.LooksLike rises.2 backwards.1.2 backwards.2 ∧
        rises.1.2.face rises.2 = [15, 145]) ∧
      (falls.1.2.LooksLike falls.2 again.1.2 again.2 ∧ falls.1.2.face falls.2 = [2, 0]) ∧
      (forall reply, ((BitArray.file Twelve.closedFile).step (.raise 3 : Operation BitArray)
        Crossed.host).1.1 ≠ .ok reply) ∧
      merged.1.2.reading merged.2 = .ok [3, 0] := by
  intro array rises backwards falls again merged
  have answered : AllOk rises.1.1 := by
    have replies : rises.1.1 = [.ok (.flag true), .ok .done, .ok (.flag true)] := rfl
    rw [AllOk, replies]
    simp
  rcases one_way_runs_agree with ⟨opened, faces, alike, closed, absorbs⟩
  have rising := alike array Crossed.host .or Crossed.rising (.raise 3 :: Crossed.rising.reverse)
    Crossed.file_ready Crossed.rises (fun _ => Crossed.mem_backwards List.mem_cons_self)
    fun _ => answered
  have falling := alike Crossed.cut Crossed.host .and Crossed.falling
    (.lower 0 :: Crossed.falling.reverse) Crossed.cut_ready Crossed.falls
    (fun _ => Crossed.mem_backwards List.mem_cons_self) nofun
  have both := absorbs array (.mapped Twelve.mapped) Crossed.host .or .and
    Crossed.file_ready Crossed.mapped_ready rfl (by decide)
  refine ⟨?_, ?_, ⟨rising.answered rfl, rising.looks, rfl⟩, ⟨falling.looks, rfl⟩, ?_, ?_⟩
  · exact opened ⟨12, .file, .buffered⟩ (some "a") Tailed.host Tailed.opened
      Tailed.cut Tailed.array Tailed.sound rfl Tailed.lasts
  · have shows := faces array Crossed.host
    exact ⟨shows.intact (.file rfl (by decide) (by decide)), shows.reading [6, 129] rfl⟩
  · intro reply
    exact closed (.file Twelve.closedFile) Crossed.host (.raise 3) .or reply rfl rfl
  · have readable := both.answered.mpr ⟨⟨_, rfl⟩, _, rfl⟩
    exact (both.reading [3, 0] rfl readable).1

end BitStore
