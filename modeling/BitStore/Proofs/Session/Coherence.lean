import BitStore.Proofs.Session.Steps

namespace BitStore

/-!
# Shared files cohere

Any number of arrays, mappings and handles may be open on one file, of any capacities
and lengths, and take their steps in any order.  A step settles the bits that it defines
or, if it is refused, those among them that it concedes.  After any run a bit is what the
last step made it that settled it, through whichever opener, or else what it was in the
beginning.
-/

/-- Whether a step may change bits.  Building an array over a file does not, nor do
writing back, closing, unmapping and giving up. -/
def Step.writes : Step -> Bool
  | .array _ (.operate operation) => operation.writes
  | .handle _ (.writeByte _ _) | .handle _ (.write _ _) | .region _ (.store _ _) => true
  | _ => false

namespace Session

/-- How a step ends. -/
def outcome (session : Session) (step : Step) : Except Refusal Answer :=
  (runFrom (perform step) session).1

/-- The session after a step, whatever it answers. -/
def next (session : Session) (step : Step) : Session :=
  (runFrom (perform step) session).2

/-- The session after a run. -/
def after (session : Session) (steps : List Step) : Session :=
  steps.foldl next session

/-- The bits that a step settles: those that it defines, or concedes if it is refused. -/
def settles (session : Session) (step : Step) (file : FileId) (position : Nat) : Option Bool :=
  match session.outcome step with
  | .ok _ => session.defines step file position
  | .error _ => session.concedes step file position

/-- What the last step of a run made of a bit that settled it. -/
def latest (session : Session) (file : FileId) (position : Nat) : List Step -> Option Bool
  | [] => none
  | step :: rest =>
      ((session.next step).latest file position rest).or (session.settles step file position)

variable {session : Session} {step : Step}

theorem defines_of_not_writes (session : Session) (reads : step.writes = false) :
    session.defines step = fun _ _ => none := by
  funext file position
  cases step with
  | array name step =>
      cases step with
      | operate operation =>
          have reading : operation.writes = false := reads
          simp only [defines]
          cases session.arrays.get? name with
          | none => rfl
          | some array =>
              cases operation with
              | raise | lower | raiseIfUnset | clear | merge => contradiction
              | _ => exact ite_self none
      | _ => rfl
  | handle name step =>
      cases step with
      | writeByte | write => contradiction
      | _ => rfl
  | region name step =>
      cases step with
      | store => contradiction
      | _ => rfl
  | _ => rfl

theorem writes_of_prefix {name : String} {place position : Nat} {front bytes : Bytes}
    {file : FileId} {value : Bool} (begins : front <+: bytes)
    (defined : session.writes name place front file position = some value) :
    session.writes name place bytes file position = some value := by
  cases bound : session.handles.get? name with
  | none =>
      rw [writes_of_none bound] at defined
      contradiction
  | some handle =>
      simp only [writes, bound, Host.only] at defined ⊢
      split at defined
      next same =>
        rw [if_pos same]
        exact Bytes.bitsAt_of_prefix begins defined
      next => contradiction

/-- What a step settles, it defines. -/
theorem defines_of_settles {file : FileId} {position : Nat} {value : Bool}
    (settled : session.settles step file position = some value) :
    session.defines step file position = some value := by
  rw [settles] at settled
  split at settled
  next => exact settled
  next =>
    cases step with
    | handle name step =>
        cases step with
        | writeByte place byte =>
            exact writes_of_prefix (Handle.conceded_prefix session.host place [byte]) settled
        | write place bytes =>
            exact writes_of_prefix (Handle.conceded_prefix session.host place bytes) settled
        | _ => contradiction
    | _ => contradiction

/-! ## One step -/

theorem Sound.coherent (sound : session.Sound) (call : step.isCall = true) :
    (session.next step).Sound ∧
      session.Coherent step (session.outcome step) (session.next step).host := by
  rcases perform_fulfils sound step call with ⟨outcome, next, run, fulfilled⟩
  rw [Session.next, Session.outcome, run]
  exact fulfilled

/-- What a step settles is all that becomes of the bits. -/
theorem Sound.bit_next (sound : session.Sound) (call : step.isCall = true) (file : FileId)
    (position : Nat) :
    (session.next step).host.bit file position =
      (session.settles step file position).getD (session.host.bit file position) := by
  have coherent := (sound.coherent call).2
  unfold settles
  cases ended : session.outcome step with
  | ok answer =>
      rw [ended] at coherent
      exact coherent.2.bits file position
  | error refusal =>
      rw [ended] at coherent
      rcases coherent with ⟨reached, _, evolves⟩
      exact evolves.bits file position

theorem Sound.length_next (sound : session.Sound) (call : step.isCall = true) (file : FileId) :
    (session.host.volume.content file).length ≤
      ((session.next step).host.volume.content file).length := by
  have coherent := (sound.coherent call).2
  cases ended : session.outcome step with
  | ok answer =>
      rw [ended] at coherent
      exact coherent.2.longer file
  | error refusal =>
      rw [ended] at coherent
      rcases coherent with ⟨reached, _, evolves⟩
      exact evolves.longer file

/-- A step that does not write leaves every byte as it was. -/
theorem Sound.byte_next (sound : session.Sound) (call : step.isCall = true)
    (reads : step.writes = false) (file : FileId) (place : Nat) :
    ((session.next step).host.volume.content file).byte place =
      (session.host.volume.content file).byte place := by
  apply Byte.eq_of_bit
  intro offset inside
  have same := sound.bit_next call file (8 * place + offset)
  have byte : (8 * place + offset) / 8 = place := by omega
  have bit : (8 * place + offset) % 8 = offset := by omega
  have settled : session.settles step file (8 * place + offset) = none := by
    apply Option.eq_none_iff_forall_ne_some.mpr
    intro value settled
    have defined := defines_of_settles settled
    rw [session.defines_of_not_writes reads] at defined
    contradiction
  rw [settled, Option.getD_none, Host.bit, Host.bit, byte, bit] at same
  exact same

/-! ## Runs -/

theorem latest_append (session : Session) (file : FileId) (position : Nat)
    (first last : List Step) :
    session.latest file position (first ++ last) =
      ((session.after first).latest file position last).or
        (session.latest file position first) := by
  induction first generalizing session with
  | nil => simp only [List.nil_append, latest, Option.or_none]; rfl
  | cons step rest inductionHypothesis =>
      simp only [List.cons_append, latest, inductionHypothesis, Option.or_assoc]
      rfl

theorem Sound.after (sound : session.Sound) {steps : List Step}
    (calls : forall step, step ∈ steps -> step.isCall = true) :
    (session.after steps).Sound ∧
    (forall file position, (session.after steps).host.bit file position =
      (session.latest file position steps).getD (session.host.bit file position)) ∧
    forall file, (session.host.volume.content file).length ≤
      ((session.after steps).host.volume.content file).length := by
  induction steps generalizing session with
  | nil => exact ⟨sound, fun _ _ => rfl, fun _ => Nat.le_refl _⟩
  | cons step rest inductionHypothesis =>
      rcases List.forall_mem_cons.mp calls with ⟨call, others⟩
      rcases inductionHypothesis (sound.coherent call).1 others with ⟨reached, bits, longer⟩
      refine ⟨reached, ?_, ?_⟩
      · intro file position
        have settled := sound.bit_next call file position
        change ((session.next step).after rest).host.bit file position = _
        rw [bits, settled, latest]
        cases (session.next step).latest file position rest <;> rfl
      · intro file
        exact Nat.le_trans (sound.length_next call file) (longer file)

/-- What holds of the content of all files after a run, whoever has opened them. -/
structure Coheres (session : Session) (steps : List Step) : Prop where
  sound : (session.after steps).Sound
  longer : forall file, (session.host.volume.content file).length ≤
    ((session.after steps).host.volume.content file).length
  bits : forall file position, (session.after steps).host.bit file position =
    (session.latest file position steps).getD (session.host.bit file position)
  survives : forall first step last, steps = first ++ step :: last ->
    forall file position value,
      (session.after first).settles step file position = some value ->
      ((session.after first).next step).latest file position last = none ->
      (session.after steps).host.bit file position = value
  keeps : forall step, step.isCall = true -> (session.after steps).Coherent step
    ((session.after steps).outcome step) ((session.after steps).next step).host
  within : forall step file position value,
    (session.after steps).settles step file position = some value ->
    (session.after steps).defines step file position = some value
  untouched : forall step, step.isCall = true -> step.writes = false -> forall file place,
    (((session.after steps).next step).host.volume.content file).byte place =
      ((session.after steps).host.volume.content file).byte place

theorem Sound.coheres (sound : session.Sound) {steps : List Step}
    (calls : forall step, step ∈ steps -> step.isCall = true) : session.Coheres steps := by
  rcases sound.after calls with ⟨again, bits, longer⟩
  constructor
  case sound => exact again
  case longer => exact longer
  case bits => exact bits
  case survives =>
    intro first step last split file position value settled unsettled
    have latest : session.latest file position steps = some value := by
      rw [split, latest_append, Session.latest, unsettled, settled]
      rfl
    rw [bits, latest, Option.getD_some]
  case keeps => exact fun step call => (again.coherent call).2
  case within => exact fun step file position value => defines_of_settles
  case untouched => exact fun step call => again.byte_next call

end Session

/-- There is one content of each file, whoever has opened it.  After any run of calls
the session is sound again, no file has become shorter, and every bit is what the last
step made it that settled it, or else as in the beginning; so a bit that was settled
survives whatever does not settle it anew.  Every call that comes next keeps to its
description: its answer shows the content as it now is, and it changes bits that it
defines, all of them unless it is refused.  A call that does not write changes no byte.
A session in which nothing has a name is sound if the files are there. -/
theorem shared_files_cohere :
    (forall host : Host, host.Sound -> Session.Sound { host := host }) ∧
    forall (session : Session) (steps : List Step), session.Sound ->
      (forall step, step ∈ steps -> step.isCall = true) -> session.Coheres steps :=
  ⟨fun _ sound => Session.sound_unnamed sound, fun _ _ sound calls => sound.coheres calls⟩

namespace Twelve

def shared : MappedArray where
  layout := layout
  region := some { mapping := { address := 4096, length := 4 }, file := 0 }
  path := "a"
  covered := by decide

/-- The host where files have hardly any room, and the next sync is refused. -/
def crowded : Host :=
  { host with
    limits := { fileLength := 6, mappingLength := 9, expressible := by decide }
    fileSyncs := [some .noMemory] }

/-- One file, opened by an array, by a mapping, by a handle and by a region that goes
on behind its end. -/
def session : Session where
  host := crowded
  arrays := [("array", .file file), ("mapping", .mapped shared)]
  regions := [("region", { mapping := { address := 8192, length := 7 }, file := 0 })]
  handles := [("handle", { file := 0, mode := .buffered })]

theorem crowded_sound : crowded.Sound where
  entries _ _ listed := by contradiction
  limited file := by
    rcases file with _ | _ | other
    · decide
    · decide
    · exact Nat.zero_le _

theorem session_sound : session.Sound := by
  have held : crowded.volume.Holds 0 := file_intact.holds rfl
  have mapping : (BitArray.mapped shared).Intact crowded := .mapped rfl (by decide)
  have array : (BitArray.file file).Intact crowded := .file rfl (by decide) (by decide)
  constructor
  case host => exact crowded_sound
  case arrays => exact (Bindings.all_nil.cons (.inr mapping)).cons (.inr array)
  case regions => exact Bindings.all_nil.cons held
  case handles => exact Bindings.all_nil.cons held

end Twelve

/-- Two bits of one byte are set through an array and through a mapping.  Both are still
set when the mapping was not written back, the file was not synced, a write went past the
size limit and the array is closed; and of the two bytes of that write the first one stays. -/
theorem shared_files_cohere_twelve :
    let steps : List Step := [
      .array "array" (.operate (.raise 3)), .array "mapping" (.operate (.raise 5)),
      .array "mapping" .flushRefused, .array "array" (.operate .flush),
      .handle "handle" (.write 5 [1, 1]), .array "array" .close]
    let reached := Twelve.session.after steps
    Session.Sound { host := Twelve.crowded } ∧
      reached.host.bit 0 3 = true ∧ reached.host.bit 0 5 = true ∧
      reached.host.bit 0 40 = true := by
  intro steps reached
  have calls : forall step, step ∈ steps -> step.isCall = true := by decide
  have coheres := shared_files_cohere.2 _ steps Twelve.session_sound calls
  refine ⟨shared_files_cohere.1 Twelve.crowded Twelve.crowded_sound, ?_, ?_, ?_⟩
  · exact coheres.survives [] _ _ rfl 0 3 true rfl rfl
  · exact coheres.survives [_] _ _ rfl 0 5 true rfl rfl
  · exact coheres.survives [_, _, _, _] _ _ rfl 0 40 true rfl rfl

end BitStore
