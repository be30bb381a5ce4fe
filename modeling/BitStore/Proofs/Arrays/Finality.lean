import BitStore.Proofs.Arrays.Guests
import BitStore.Proofs.Arrays.Sharing
import BitStore.Proofs.Arrays.Shells

namespace BitStore

/-!
# Closing is final

A persistent array is closed once and for all, and that also where closing it fails, as
it does for a buffered array over a file that cannot be synced.  Closing changes no byte
and keeps what the array is known by; from then on the array is a constant, and whatever
is asked of it, by a call or by a merge that takes it as the operand, leaves every content
as it is.  So a sequence of visits to a closed array, of any length, comes down to single
visits, and there is only one that succeeds besides closing it again: a search that
begins at the capacity or behind it, over a file.

That is so for merges of all arrays of this library.  An operand of another type may
promise bytes and hand out none; over a file this leaves a merge nothing to do, and
nothing to fail at.

An array in memory has nothing to close.  Its uses are those that remain when every
close is left out.
-/

namespace Host

def SameBytes (before after : Host) : Prop :=
  forall file, (after.volume.content file).length = (before.volume.content file).length ∧
    forall place, (after.volume.content file).byte place = (before.volume.content file).byte place

theorem Quiet.sameBytes {before after : Host} (quiet : before.Quiet after) :
    before.SameBytes after := by
  intro file
  refine ⟨(quiet.length file).trans (Nat.max_zero _), ?_⟩
  intro place
  apply Byte.eq_of_bit
  intro j below
  have same := quiet.bits file (8 * place + j)
  have byte : (8 * place + j) / 8 = place := by omega
  have offset : (8 * place + j) % 8 = j := by omega
  rwa [Option.getD_none, bit, bit, byte, offset] at same

end Host

def Use.operation? {ω : Type} : Use ω -> Option (Operation ω)
  | .operate operation => some operation
  | .close => none

/-! ## What an array is known by -/

/-- What can be asked of an array at any time: its layout, and where it is kept and how
it is written, if it says so. -/
structure Identity where
  layout : Layout
  path : Option String
  mode : Option WriteMode
  deriving DecidableEq

namespace BitArray

variable {ω : Type} [BitContainer ω] {array receiver : BitArray} {host : Host}

def identity : BitArray -> Identity
  | .memory array => { layout := array.layout, path := none, mode := none }
  | .file array => { layout := array.layout, path := some array.path, mode := some array.mode }
  | .mapped array => { layout := array.layout, path := some array.path, mode := none }

/-- Whether the bits of an array outlive it. -/
def isPersistent : BitArray -> Bool
  | .memory _ => false
  | _ => true

/-! ## The first close -/

/-- What is left once closing an array has returned, whatever it returned. -/
structure Leaves (array : BitArray) (host : Host) (next : BitArray) (after : Host) : Prop where
  isClosed : next.isClosed = true
  identity : next.identity = array.identity
  bytes : host.SameBytes after
  unmapped : array.inFile = false -> array.closeOutcome host = .ok ()
  unrecorded : forall fault, array.closeOutcome host = .error fault -> after.events = host.events

/-- Closing a persistent array returns, in whatever state it is. -/
theorem close_persistent (persistent : array.isPersistent = true) (host : Host) :
    Exists fun next => Exists fun after =>
      array.call .close host = (((array.closeOutcome host).map fun _ => .done, next), after) ∧
      array.Leaves host next after := by
  cases closed : array.isClosed with
  | true =>
      have gone := closed_of_isClosed closed
      have outcome := gone.closeOutcome host
      refine ⟨array, host, ?_, closed, rfl, (Host.Quiet.refl host).sameBytes,
        fun _ => outcome, fun _ _ => rfl⟩
      rw [outcome]
      exact call_close (gone.close_apply host)
  | false =>
      cases array with
      | memory array => contradiction
      | file array =>
          rcases Option.isSome_iff_exists.mp (Option.isNone_eq_false_iff.mp closed) with
            ⟨handle, live⟩
          have outcome := closeOutcome_file live host
          have quiet := FileArray.quiet_finish array.path array.mode handle host
          refine ⟨.file array.closed, _, ?_, rfl, rfl, quiet.sameBytes, nofun, ?_⟩
          · rw [outcome]
            exact call_close (close_file live host)
          · intro fault failed
            exact FileArray.events_finish array.path array.mode handle (outcome.symm.trans failed)
      | mapped array =>
          rcases Option.isSome_iff_exists.mp (Option.isNone_eq_false_iff.mp closed) with
            ⟨region, live⟩
          exact ⟨.mapped array.closed, _, call_close (close_mapped live host), rfl, rfl,
            (MappedArray.confines_finish array.path region host).quiet.sameBytes,
            fun _ => rfl, nofun⟩

/-! ## Visits to a closed array -/

/-- A call on an array, or a merge of it into another. -/
inductive Visit (ω : Type) where
  | use (use : Use ω)
  | lend (receiver : BitArray) (kind : Merge)

def Visit.guest? : Visit ω -> Option ω
  | .use (.operate operation) => operation.operand?
  | _ => none

def visit (array : BitArray) : Visit ω -> StateM Host (Except Fault Reply × BitArray)
  | .use use => array.use use
  | .lend receiver kind => do
      let (reply, _) ← receiver.step (.merge kind array)
      return (reply, array)

/-- Pay one visit after the other, whatever they bring. -/
def visits (array : BitArray) : List (Visit ω) ->
    StateM Host (List (Except Fault Reply) × BitArray)
  | [] => return ([], array)
  | first :: rest => do
      let (reply, array) ← array.visit first
      let (replies, array) ← array.visits rest
      return (reply :: replies, array)

/-- What a receiver answers that is to merge a closed array. -/
def closedOperand (receiver array : BitArray) : Fault :=
  if array.layout.byteLength = receiver.layout.byteLength then .closed
  else .invalidArgument "other" (s!"bit array to combine with must be of equal length " ++
    s!"({array.layout.byteLength} != {receiver.layout.byteLength})")

/-- A closed array cannot be merged into any array, and the receiver stays as it was. -/
theorem Closed.lend (closed : array.Closed) (receiver : BitArray) (kind : Merge) (host : Host) :
    receiver.step (.merge kind array) host =
      ((.error (receiver.closedOperand array), receiver), host) := by
  have unread : runFrom (BitContainer.snapshot array) host = (.error .closed, host) :=
    closed.runFrom_snapshot host
  apply step_of_error
  rw [closedOperand]
  by_cases fits : array.layout.byteLength = receiver.layout.byteLength
  · have required := (receiver.layout.requireOperand_eq_ok_iff _).mpr fits
    have refused := runFrom_merge_unread kind required unread
    simp only [perform, runFrom_bind, refused, if_pos fits]
  · have required : receiver.layout.requireOperand (BitContainer.byteLength array) = _ :=
      if_neg fits
    have refused := runFrom_merge_misfit host kind required
    simp only [perform, runFrom_bind, refused, if_neg fits]
    rfl

/-- The search that a closed array answers: over a file, from the capacity on. -/
def Idle (array : BitArray) (operation : Operation ω) : Prop :=
  array.inFile = true ∧ Exists fun first => operation = .next first ∧ array.layout.capacity ≤ first

/-- The merge that a closed array performs: over a file, of no bytes where bytes were
promised. -/
def Hollow (array : BitArray) (reading : ω -> Except Fault Bytes) (operation : Operation ω) :
    Prop :=
  array.inFile = true ∧ Exists fun kind => Exists fun guest =>
    operation = .merge kind guest ∧
    BitContainer.byteLength guest = array.layout.byteLength ∧ reading guest = .ok []

theorem idle_next_iff {β : Type} {first : Nat} :
    array.Idle (.next first : Operation β) ↔
      array.inFile = true ∧ array.layout.capacity ≤ first := by
  constructor
  · rintro ⟨inFile, first, same, beyond⟩
    cases same
    exact ⟨inFile, beyond⟩
  · rintro ⟨inFile, beyond⟩
    exact ⟨inFile, first, rfl, beyond⟩

theorem hollow_merge_iff {reading : ω -> Except Fault Bytes} {kind : Merge} {guest : ω} :
    array.Hollow reading (.merge kind guest) ↔
      array.inFile = true ∧ BitContainer.byteLength guest = array.layout.byteLength ∧
        reading guest = .ok [] := by
  constructor
  · rintro ⟨inFile, kind, guest, same, fits, read⟩
    cases same
    exact ⟨inFile, fits, read⟩
  · rintro ⟨inFile, fits, read⟩
    exact ⟨inFile, kind, guest, rfl, fits, read⟩

theorem lastWord_next_ok_iff {reading : ω -> Except Fault Bytes} {first : Nat} (reply : Reply) :
    array.lastWord reading (.next first) = .ok reply ↔
      array.Idle (.next first : Operation ω) ∧ reply = .position none := by
  rw [idle_next_iff, lastWord]
  split
  next idle => rw [Except.ok.injEq, eq_comm, and_iff_right idle]
  next busy =>
    constructor
    · intro answered
      contradiction
    · intro answered
      exact absurd answered.1 busy

theorem lastWord_merge_ok_iff {reading : ω -> Except Fault Bytes} {kind : Merge} {guest : ω}
    (reply : Reply) :
    array.lastWord reading (.merge kind guest) = .ok reply ↔
      array.Hollow reading (.merge kind guest) ∧ reply = .done := by
  rw [hollow_merge_iff, ← array.layout.requireOperand_eq_ok_iff, lastWord]
  split
  next misfit =>
    rw [misfit]
    constructor
    · intro answered
      contradiction
    · rintro ⟨⟨_, fits, _⟩, _⟩
      contradiction
  next fits =>
    split
    next unread =>
      rw [unread]
      constructor
      · intro answered
        contradiction
      · rintro ⟨⟨_, _, read⟩, _⟩
        contradiction
    next bytes read =>
      rw [fits, read]
      split
      next hollow =>
        rcases hollow with ⟨inFile, rfl⟩
        rw [Except.ok.injEq, eq_comm, and_iff_right ⟨inFile, rfl, rfl⟩]
      next full =>
        constructor
        · intro answered
          contradiction
        · rintro ⟨⟨inFile, _, none⟩, _⟩
          exact absurd ⟨inFile, Except.ok.inj none⟩ full

/-- Only an idle search and a hollow merge are answered. -/
theorem lastWord_ok_iff {reading : ω -> Except Fault Bytes} {operation : Operation ω}
    (reply : Reply) :
    array.lastWord reading operation = .ok reply ↔
      array.Idle operation ∧ reply = .position none ∨
        array.Hollow reading operation ∧ reply = .done := by
  cases operation with
  | next first =>
      rw [lastWord_next_ok_iff, or_iff_left]
      rintro ⟨⟨_, kind, guest, same, _⟩, _⟩
      contradiction
  | merge kind guest =>
      rw [lastWord_merge_ok_iff, or_iff_right]
      rintro ⟨⟨_, first, same, _⟩, _⟩
      contradiction
  | _ =>
      constructor
      · intro answered
        contradiction
      · rintro (⟨⟨_, first, same, _⟩, _⟩ | ⟨⟨_, kind, guest, same, _⟩, _⟩) <;> contradiction

/-- No operand is hollow that hands out as many bytes as it promises. -/
theorem not_hollow {reading : ω -> Except Fault Bytes} {operation : Operation ω}
    (promised : forall guest bytes, reading guest = .ok bytes ->
      bytes.length = BitContainer.byteLength guest) : ¬ array.Hollow reading operation := by
  rintro ⟨_, kind, guest, _, fits, read⟩
  have length := promised guest [] read
  have positive := array.layout.byteLength_pos
  rw [fits, List.length_nil] at length
  omega

/-- What a closed array answers to a step: nothing but an idle search, and a hollow merge. -/
theorem Closed.step_ok_iff (closed : array.Closed) (operation : Operation ω) (host : Host)
    (reply : Reply) :
    (array.step operation host).1.1 = .ok reply ↔
      array.Idle operation ∧ reply = .position none ∨
        array.Hollow (handsOut host) operation ∧ reply = .done := by
  rcases closed.step_apply operation host with ⟨after, stepped, _⟩
  rw [stepped]
  exact lastWord_ok_iff reply

/-- The arrays of this library are never hollow. -/
theorem Closed.step_ok_iff_idle (closed : array.Closed) (operation : Operation BitArray)
    (host : Host) (reply : Reply) :
    (array.step operation host).1.1 = .ok reply ↔
      array.Idle operation ∧ reply = .position none := by
  have filled : ¬ array.Hollow (handsOut host) operation :=
    not_hollow fun guest bytes read => length_of_snapshot read
  rw [closed.step_ok_iff]
  exact or_iff_left fun hollow => filled hollow.1

/-- A visit leaves a closed array as it was.  All it may add is a record, if handing out
the operand changes nothing. -/
theorem Closed.visit (closed : array.Closed) (visit : Visit ω) (host : Host) :
    Exists fun reply => Exists fun after =>
      array.visit visit host = ((reply, array), after) ∧
      ((forall guest, visit.guest? = some guest ->
          (runFrom (BitContainer.snapshot guest) host).2 = host) -> host.RecordsOnly after) := by
  have unchanged := Host.RecordsOnly.refl host
  cases visit with
  | use use =>
      cases use with
      | operate operation =>
          rcases closed.step_apply operation host with ⟨after, stepped, changes⟩
          exact ⟨_, after, stepped, changes⟩
      | close => exact ⟨_, host, call_close (closed.close_apply host), fun _ => unchanged⟩
  | lend receiver kind =>
      refine ⟨.error (receiver.closedOperand array), host, ?_, fun _ => unchanged⟩
      rw [BitArray.visit, bind_apply, closed.lend receiver kind host]
      rfl

theorem Closed.visits (closed : array.Closed) (visits : List (Visit ω)) (host : Host) :
    (array.visits visits host).1.2 = array ∧
      ((forall visit, visit ∈ visits -> forall guest, visit.guest? = some guest ->
          forall host, (runFrom (BitContainer.snapshot guest) host).2 = host) ->
        host.RecordsOnly (array.visits visits host).2) := by
  induction visits generalizing host with
  | nil => exact ⟨rfl, fun _ => Host.RecordsOnly.refl host⟩
  | cons first rest inductionHypothesis =>
      rcases closed.visit first host with ⟨reply, after, visited, changes⟩
      rcases inductionHypothesis after with ⟨same, continued⟩
      simp only [BitArray.visits, bind_apply, visited, pure_apply]
      refine ⟨same, ?_⟩
      intro quiet
      have quietFirst := quiet first List.mem_cons_self
      exact (changes fun guest named => quietFirst guest named host).trans
        (continued fun visit listed => quiet visit (List.mem_cons_of_mem _ listed))

/-! ## Arrays in memory -/

/-- The replies to operations, with those to closing in their places. -/
def woven : List (Use ω) -> List (Except Fault Reply) -> List (Except Fault Reply)
  | [], _ => []
  | .close :: rest, replies => .ok .done :: woven rest replies
  | .operate _ :: rest, replies => replies.take 1 ++ woven rest (replies.drop 1)

/-- Closing is only heard in its own reply. -/
theorem uses_memory (array : MemoryArray) (uses : List (Use ω)) (host : Host) :
    let ran := (BitArray.memory array).run (uses.filterMap Use.operation?) host
    (BitArray.memory array).uses uses host = ((woven uses ran.1.1, ran.1.2), ran.2) ∧
      ran.1.2.isClosed = false := by
  induction uses generalizing array host with
  | nil => exact ⟨rfl, rfl⟩
  | cons first rest inductionHypothesis =>
      cases first with
      | close =>
          rcases inductionHypothesis array host with ⟨same, isOpen⟩
          refine ⟨?_, isOpen⟩
          have closed : (BitArray.memory array).use (.close : Use ω) host =
            ((.ok .done, .memory array), host) := rfl
          simp only [BitArray.uses, bind_apply, closed, same, pure_apply]
          rfl
      | operate operation =>
          rcases memory_of_shell (step_shell (.memory array) operation host) with ⟨kept, stepped⟩
          rcases inductionHypothesis kept ((BitArray.memory array).step operation host).2 with
            ⟨same, isOpen⟩
          have used : (BitArray.memory array).use (.operate operation) host =
            (BitArray.memory array).step operation host := rfl
          simp only [List.filterMap_cons, Use.operation?, BitArray.run, BitArray.uses, bind_apply,
            used, stepped, same, pure_apply]
          exact ⟨rfl, isOpen⟩

/-- An array that was closed, and what it has to say to operands of a type. -/
structure Final (array : BitArray) (ω : Type) [BitContainer ω] : Prop where
  close : forall host, array.call .close host = ((.ok .done, array), host)
  answers : forall (operation : Operation ω) (host : Host) (reply : Reply),
    (array.step operation host).1.1 = .ok reply ↔
      array.Idle operation ∧ reply = .position none ∨
        array.Hollow (handsOut host) operation ∧ reply = .done
  lends : forall (receiver : BitArray) (kind : Merge) (host : Host),
    receiver.step (.merge kind array) host =
      ((.error (receiver.closedOperand array), receiver), host)
  remains : forall (visits : List (Visit ω)) (host : Host),
    (array.visits visits host).1.2 = array
  records : forall (visits : List (Visit ω)) (host : Host),
    (forall visit, visit ∈ visits -> forall guest, visit.guest? = some guest ->
      forall host, (runFrom (BitContainer.snapshot guest) host).2 = host) ->
    host.RecordsOnly (array.visits visits host).2

theorem Closed.final (closed : array.Closed) (ω : Type) [BitContainer ω] : array.Final ω where
  close host := call_close (closed.close_apply host)
  answers := closed.step_ok_iff
  lends receiver kind host := closed.lend receiver kind host
  remains visits host := (closed.visits visits host).1
  records visits host := (closed.visits visits host).2

end BitArray

/-- A persistent array that was closed stays closed, whatever comes after and whatever
closing it returned: it remains what it is known by, no content changes and none is read
otherwise, no receiver takes it as an operand, and no call on it succeeds but another close
and a search that begins behind everything, unless an operand breaks its promise of bytes.
The first close changes no byte either, and that of a mapping succeeds.  An array in memory
is never closed, and closing it is to no effect on anything that is done before or after. -/
theorem close_is_final :
    (forall (array : BitArray) (host : Host), array.isPersistent = true ->
      Exists fun next => Exists fun after =>
        array.call .close host =
          (((array.closeOutcome host).map fun _ => .done, next), after) ∧
        array.Leaves host next after) ∧
    (forall array : BitArray, array.isClosed = true ->
      (forall (ω : Type) [BitContainer ω], array.Final ω) ∧
      (forall (operation : Operation BitArray) (host : Host) (reply : Reply),
        (array.step operation host).1.1 = .ok reply ↔
          array.Idle operation ∧ reply = .position none) ∧
      forall (visits : List (BitArray.Visit BitArray)) (host : Host),
        let ended := array.visits visits host
        ended.1.2 = array ∧ host.RecordsOnly ended.2 ∧
        forall bystander : BitArray, bystander.reading ended.2 = bystander.reading host) ∧
    forall (ω : Type) [BitContainer ω] (array : MemoryArray) (uses : List (Use ω)) (host : Host),
      let ran := (BitArray.memory array).run (uses.filterMap Use.operation?) host
      (BitArray.memory array).uses uses host = ((BitArray.woven uses ran.1.1, ran.1.2), ran.2) ∧
      ran.1.2.isClosed = false := by
  refine ⟨fun array host persistent => BitArray.close_persistent persistent host, ?_,
    fun ω container array uses host => BitArray.uses_memory array uses host⟩
  intro array isClosed
  have closed := BitArray.closed_of_isClosed isClosed
  refine ⟨fun ω container => closed.final ω, closed.step_ok_iff_idle, ?_⟩
  intro visits host ended
  rcases closed.visits visits host with ⟨same, records⟩
  have recorded := records fun _ _ guest _ host => BitArray.runFrom_snapshot_state guest host
  exact ⟨same, recorded,
    fun bystander => BitArray.reading_elsewhere recorded.changesNone nofun⟩

/-- A mapped array is closed, and then asked for bits, merged and searched; and a buffered
array over a file that the system does not sync is closed all the same. -/
theorem close_is_final_twelve :
    let array := BitArray.mapped Twelve.mapped
    let closed := BitArray.mapped Twelve.mapped.closed
    let buffered := BitArray.file { Twelve.file with mode := .buffered }
    let refusing := { Twelve.host with fileSyncs := [some .noMemory] }
    let visits : List (BitArray.Visit BitArray) :=
      [.use (.operate (.raise 3)), .lend (.memory Twelve.memory) .or,
        .use (.operate (.merge .and (.file Twelve.file))), .use .close]
    (array.isPersistent = true ∧ Exists fun next => Exists fun after =>
        array.call .close Twelve.host = ((.ok .done, next), after) ∧ next.isClosed = true) ∧
      (buffered.isPersistent = true ∧ Exists fun next => Exists fun after =>
        buffered.call .close refusing = ((.error (.storage "sync a" .noMemory), next), after) ∧
          next.isClosed = true ∧ after.events = refusing.events) ∧
      closed.isClosed = true ∧ (closed.visits visits Twelve.host).1.2 = closed ∧
      ((BitArray.file Twelve.closedFile).step (.next 12 : Operation BitArray) Twelve.host).1.1 =
        .ok (.position none) := by
  intro array closed buffered refusing visits
  rcases close_is_final with ⟨first, later, _⟩
  rcases first array Twelve.host rfl with ⟨next, after, run, left⟩
  rcases first buffered refusing rfl with ⟨other, last, refused, spent⟩
  rcases later closed rfl with ⟨_, _, visited⟩
  rcases later (.file Twelve.closedFile) rfl with ⟨_, answers, _⟩
  exact ⟨⟨rfl, next, after, run, left.isClosed⟩,
    ⟨rfl, other, last, refused, spent.isClosed, spent.unrecorded _ rfl⟩, rfl,
    (visited visits Twelve.host).1,
    (answers (.next 12) Twelve.host _).mpr ⟨⟨rfl, 12, rfl, Nat.le_refl 12⟩, rfl⟩⟩

end BitStore
