import Mathlib.Data.List.Forall2
import BitStore.Proofs.Arrays.Closing
import BitStore.Proofs.Arrays.Twins

namespace BitStore

/-!
# An array keeps to the front of its file

Over a file that is longer than an array needs, a sequence of calls changes the bytes of
the array and nothing else: not the rest of the file or its length, not another file,
not an array that is kept elsewhere.  The rest of the file has no part in the answers
either.  Two arrays that are twins, over files that agree at the front, give the same
answers to the same calls, call by call, and the fronts of their files still agree in
the end.

Both are one induction over the calls.  What carries it is that the two arrays remain
fellows, which means that they are twins or both closed.  The operands of merges may be
any arrays, as long as they come to the same in the two runs: they are twins over the
two files, or they are kept elsewhere and read alike.
-/

/-- A call on an array, or its end. -/
inductive Call where
  | operate (operation : Operation BitArray)
  | close

namespace BitArray

/-- Perform a call on the array in hand. -/
def call (array : BitArray) : Call -> StateM Host (Except Fault Reply × BitArray)
  | .operate operation => array.step operation
  | .close => do
      let (outcome, next) ← array.close
      return (outcome.map fun _ => .done, next)

/-- Perform calls one after the other, whatever they answer. -/
def calls (array : BitArray) : List Call -> StateM Host (List (Except Fault Reply) × BitArray)
  | [] => return ([], array)
  | call :: rest => do
      let (reply, array) ← array.call call
      let (replies, array) ← array.calls rest
      return (reply :: replies, array)

end BitArray

/-- The same operation, on operands that are related. -/
inductive Operation.Matches (relates : BitArray -> BitArray -> Prop) :
    Operation BitArray -> Operation BitArray -> Prop where
  | alone {operation : Operation BitArray} (none : operation.operand? = none) :
      Matches relates operation operation
  | merge (kind : Merge) {operand mate : BitArray} (related : relates operand mate) :
      Matches relates (.merge kind operand) (.merge kind mate)

/-- The same call, on operands that are related. -/
inductive Call.Matches (relates : BitArray -> BitArray -> Prop) : Call -> Call -> Prop where
  | operate {operation mate : Operation BitArray} (matched : operation.Matches relates mate) :
      Matches relates (.operate operation) (.operate mate)
  | close : Matches relates .close .close

/-- Twins are done with their files in the same way.  Where they are not synced alike, both
are granted a sync. -/
theorem FileArray.Twin.parallel_finish {fronts : Fronts} {array other : FileArray}
    (twin : FileArray.Twin fronts array other) {handle mate : Handle}
    (left : handle.file = fronts.left) (right : mate.file = fronts.right) :
    fronts.Parallel Eq (finish array.path array.mode handle)
      (finish other.path other.mode mate) := by
  have synced := twin.parallel_syncFile left right
  cases alike : fronts.syncedAlike with
  | true =>
      rcases twin.alike alike with ⟨path, mode⟩
      have recorded : fronts.Parallel Eq
          (liftM (Host.record (.closedFile array.path)) : ArrayM Unit)
          (liftM (Host.record (.closedFile array.path)) : ArrayM Unit) :=
        (Fronts.parallel_record _ _).imp fun _ _ _ => rfl
      rw [path] at synced ⊢
      rw [mode]
      cases array.mode with
      | durable => exact recorded
      | buffered => exact synced.bind fun _ _ _ => recorded
  | false =>
      intro first second agree
      have granted := agree.answers.granted alike
      have heldLeft : first.volume.Holds handle.file :=
        Volume.holds_of_length_pos (Nat.zero_lt_of_lt (left ▸ agree.left))
      have heldRight : second.volume.Holds mate.file :=
        Volume.holds_of_length_pos (Nat.zero_lt_of_lt (right ▸ agree.right))
      have still := confines_finish array.path array.mode heldLeft
      have stillMate := confines_finish other.path other.mode heldRight
      rw [left] at still
      rw [right] at stillMate
      rw [finish_outcome, finish_outcome, finishOutcome_of_granted granted.1.syncRefusal,
        finishOutcome_of_granted granted.2.syncRefusal]
      exact ⟨.ok rfl, agree.kept still stillMate (Fronts.answers_of_granted alike
        ⟨granted.1.of_suffix still.fileSyncs, granted.2.of_suffix stillMate.fileSyncs⟩)⟩

namespace BitArray

variable {fronts : Fronts} {array other operand mate : BitArray} {first second after last : Host}

/-! ## Operands -/

/-- Operands that come to the same on two hosts. -/
inductive Counterpart (fronts : Fronts) (first second : Host) : BitArray -> BitArray -> Prop where
  | shared {operand mate : BitArray} (twin : operand.Twin fronts mate) :
      Counterpart fronts first second operand mate
  | elsewhere {operand mate : BitArray}
      (length : mate.layout.byteLength = operand.layout.byteLength)
      (left : operand.file? ≠ some fronts.left) (right : mate.file? ≠ some fronts.right)
      (same : mate.reading second = operand.reading first) :
      Counterpart fronts first second operand mate

theorem Counterpart.byteLength (counterpart : Counterpart fronts first second operand mate) :
    mate.layout.byteLength = operand.layout.byteLength := by
  cases counterpart with
  | shared twin => rw [twin.layout]
  | elsewhere length left right same => exact length

/-- An array elsewhere is read as before. -/
theorem reading_of_confines {file : FileId} {count : Nat} (elsewhere : operand.file? ≠ some file)
    (confines : first.Confines file count after) :
    operand.reading after = operand.reading first := by
  apply reading_congr
  intro kept own
  apply confines.others
  rintro rfl
  exact elsewhere own

theorem storage_of_confines {file : FileId} {count : Nat} (elsewhere : operand.file? ≠ some file)
    (confines : first.Confines file count after) :
    operand.storage after = operand.storage first := by
  apply storage_congr
  intro kept own
  apply confines.others
  rintro rfl
  exact elsewhere own

theorem Counterpart.move (counterpart : Counterpart fronts first second operand mate)
    (move : fronts.Move first second after last) :
    Counterpart fronts after last operand mate := by
  cases counterpart with
  | shared twin => exact .shared twin
  | elsewhere length left right same =>
      apply Counterpart.elsewhere length left right
      rw [reading_of_confines left move.left, reading_of_confines right move.right, same]

theorem matches_move {call mateCall : Call}
    (matched : call.Matches (Counterpart fronts first second) mateCall)
    (move : fronts.Move first second after last) :
    call.Matches (Counterpart fronts after last) mateCall := by
  cases matched with
  | close => exact .close
  | operate matched =>
      cases matched with
      | alone none => exact .operate (.alone none)
      | merge kind counterpart => exact .operate (.merge kind (counterpart.move move))

/-- Operands that fit the fronts are read alike. -/
theorem Counterpart.reading (counterpart : Counterpart fronts first second operand mate)
    (agree : fronts.Agree first second) (fits : operand.layout.byteLength = fronts.count) :
    mate.reading second = operand.reading first := by
  cases counterpart with
  | shared twin => exact (twin.parallel_snapshot fits first second agree).1.eq.symm
  | elsewhere length left right same => exact same

/-- On the same host an array comes to the same as itself. -/
theorem Counterpart.refl (operand : BitArray) (file : FileId) (count : Nat) (host : Host) :
    Counterpart { left := file, right := file, count := count } host host operand operand := by
  by_cases kept : operand.file? = some file
  · exact .shared (Twin.refl kept count)
  · exact .elsewhere rfl kept kept rfl

/-! ## Calls on twins -/

/-- The same reply, and each array given back. -/
def Replies (array other : BitArray) (done mate : Reply × BitArray) : Prop :=
  done.1 = mate.1 ∧ Returns array other done.2 mate.2

theorem Replies.of_read {α : Type} {action partner : ArrayM α}
    (read : fronts.Parallel Eq action partner) (answer : α -> Reply) (array other : BitArray) :
    fronts.Parallel (Replies array other) (do return (answer (← action), array))
      (do return (answer (← partner), other)) := by
  apply read.bind
  rintro value _ rfl
  exact Fronts.parallel_pure ⟨rfl, rfl, rfl⟩

theorem Replies.of_change {action partner : ArrayM BitArray}
    (changed : fronts.Parallel (Returns array other) action partner) (reply : Reply) :
    fronts.Parallel (Replies array other) (do return (reply, ← action))
      (do return (reply, ← partner)) := by
  apply changed.bind
  rintro given mate returns
  exact Fronts.parallel_pure ⟨rfl, returns⟩

/-- Operations that need no operand are parallel. -/
theorem Twin.parallel_perform (twin : array.Twin fronts other)
    (count : array.layout.byteLength = fronts.count) {operation : Operation BitArray}
    (alone : operation.operand? = none) :
    fronts.Parallel (Replies array other) (array.perform operation)
      (other.perform operation) := by
  cases operation with
  | get index => exact Replies.of_read (twin.parallel_getBit count index) .flag array other
  | raise index => exact Replies.of_change (twin.parallel_setBit count index) (.flag true)
  | lower index => exact Replies.of_change (twin.parallel_clearBit count index) .done
  | raiseIfUnset index =>
      apply (twin.parallel_setBitIfUnset count index).bind
      rintro ⟨changed, given⟩ ⟨_, mate⟩ ⟨rfl, returns⟩
      exact Fronts.parallel_pure ⟨rfl, returns⟩
  | clear => exact Replies.of_change (twin.parallel_clear count) .done
  | merge kind operand => contradiction
  | snapshot => exact Replies.of_read (twin.parallel_snapshot count) .bytes array other
  | highest => exact Replies.of_read (twin.parallel_highest count) .position array other
  | lowest => exact Replies.of_read (twin.parallel_lowest count) .position array other
  | next first => exact Replies.of_read (twin.parallel_next count first) .position array other
  | count => exact Replies.of_read (twin.parallel_count count) .number array other
  | positions => exact Replies.of_read (twin.parallel_positions count) .positions array other
  | flush => exact Replies.of_read (twin.parallel_flush count) (fun _ => .done) array other

/-- A merge looks at the operand first; when it is read, the rest is parallel. -/
theorem Twin.merge (twin : array.Twin fronts other)
    (count : array.layout.byteLength = fronts.count) (agree : fronts.Agree first second)
    (kind : Merge) (counterpart : Counterpart fronts first second operand mate) :
    Fronts.Outcomes (Returns array other) (runFrom (array.merge kind operand) first).1
        (runFrom (other.merge kind mate) second).1 ∧
      fronts.Move first second (runFrom (array.merge kind operand) first).2
        (runFrom (other.merge kind mate) second).2 := by
  have brought := runFrom_container_snapshot operand first
  have broughtMate := runFrom_container_snapshot mate second
  have length : BitContainer.byteLength mate = BitContainer.byteLength operand :=
    counterpart.byteLength
  cases required : array.layout.requireOperand (BitContainer.byteLength operand) with
  | error fault =>
      have requiredMate := required
      rw [← twin.layout, ← length] at requiredMate
      rw [runFrom_merge_misfit first kind required, runFrom_merge_misfit second kind requiredMate]
      exact ⟨.error fault, agree.move⟩
  | ok =>
      have requiredMate := required
      rw [← twin.layout, ← length] at requiredMate
      have fits : operand.layout.byteLength = fronts.count :=
        ((array.layout.requireOperand_eq_ok_iff _).mp required).trans count
      rw [counterpart.reading agree fits] at broughtMate
      cases read : operand.reading first with
      | error fault =>
          rw [read] at brought broughtMate
          rw [runFrom_merge_unread kind required brought,
            runFrom_merge_unread kind requiredMate broughtMate]
          exact ⟨.error fault, agree.move⟩
      | ok bytes =>
          rw [read] at brought broughtMate
          rw [runFrom_merge_read kind required brought,
            runFrom_merge_read kind requiredMate broughtMate]
          exact twin.parallel_absorb count kind ((length_of_snapshot read).trans fits)
            first second agree

/-- Steps of two arrays that keep up with each other: the same reply, both arrays as they
were, and hosts that agree once more. -/
def Steps (fronts : Fronts) (array other : BitArray) (first second : Host)
    (operation mate : Operation BitArray) : Prop :=
  Exists fun reply => Exists fun after => Exists fun last =>
    array.step operation first = ((reply, array), after) ∧
    other.step mate second = ((reply, other), last) ∧
    fronts.Move first second after last

theorem steps_of_perform {operation mate : Operation BitArray}
    (outcomes : Fronts.Outcomes (Replies array other)
      (runFrom (array.perform operation) first).1 (runFrom (other.perform mate) second).1)
    (move : fronts.Move first second (runFrom (array.perform operation) first).2
      (runFrom (other.perform mate) second).2) :
    Steps fronts array other first second operation mate := by
  rcases performed : runFrom (array.perform operation) first with ⟨outcome, after⟩
  rcases performedMate : runFrom (other.perform mate) second with ⟨outcomeMate, last⟩
  rw [performed, performedMate] at outcomes move
  cases outcomes with
  | error fault =>
      exact ⟨.error fault, after, last, step_of_error performed, step_of_error performedMate, move⟩
  | @ok done doneMate replies =>
      rcases done with ⟨reply, given⟩
      rcases doneMate with ⟨_, givenMate⟩
      rcases replies with ⟨rfl, rfl, rfl⟩
      exact ⟨.ok reply, after, last, step_of_ok performed, step_of_ok performedMate, move⟩

theorem Twin.steps (twin : array.Twin fronts other)
    (count : array.layout.byteLength = fronts.count) (agree : fronts.Agree first second)
    {operation mate : Operation BitArray}
    (matched : operation.Matches (Counterpart fronts first second) mate) :
    Steps fronts array other first second operation mate := by
  cases matched with
  | alone none =>
      rcases twin.parallel_perform count none first second agree with ⟨outcomes, move⟩
      exact steps_of_perform outcomes move
  | merge kind counterpart =>
      rcases twin.merge count agree kind counterpart with ⟨outcomes, move⟩
      rename_i operand mate
      rcases merged : runFrom (array.merge kind operand) first with ⟨outcome, after⟩
      rcases mergedMate : runFrom (other.merge kind mate) second with ⟨outcomeMate, last⟩
      rw [merged, mergedMate] at outcomes move
      apply steps_of_perform
      · simp only [perform, runFrom_bind, merged, mergedMate, runFrom_pure]
        cases outcomes with
        | error fault => exact .error fault
        | ok returns => exact .ok ⟨rfl, returns⟩
      · simp only [perform, runFrom_bind, merged, mergedMate, runFrom_pure]
        cases outcomes with
        | error fault | ok returns => exact move

/-! ## Calls on closed arrays -/

/-- Closed arrays of one backing and one layout. -/
structure Spent (array other : BitArray) : Prop where
  closed : array.Closed
  closedOther : other.Closed
  layout : other.layout = array.layout
  inFile : other.inFile = array.inFile

theorem Spent.indexFault (spent : Spent array other) (index : Nat) :
    other.indexFault index = array.indexFault index := by
  simp only [BitArray.indexFault, spent.inFile, spent.layout]

/-- Both have the same last word. -/
theorem Spent.lastWord (spent : Spent array other)
    (count : array.layout.byteLength = fronts.count) (agree : fronts.Agree first second)
    {operation mate : Operation BitArray}
    (matched : operation.Matches (Counterpart fronts first second) mate) :
    other.lastWord (handsOut second) mate = array.lastWord (handsOut first) operation := by
  cases matched with
  | alone none =>
      cases operation with
      | get index | raise index | lower index | raiseIfUnset index =>
          exact congrArg Except.error (spent.indexFault index)
      | next first => simp only [BitArray.lastWord, spent.inFile, spent.layout]
      | merge kind operand => contradiction
      | _ => rfl
  | @merge kind operand mate counterpart =>
      have length : BitContainer.byteLength mate = BitContainer.byteLength operand :=
        counterpart.byteLength
      simp only [BitArray.lastWord, spent.inFile, spent.layout, length]
      cases required : array.layout.requireOperand (BitContainer.byteLength operand) with
      | error fault => rfl
      | ok =>
          have fits : operand.layout.byteLength = fronts.count :=
            ((array.layout.requireOperand_eq_ok_iff _).mp required).trans count
          have read : handsOut second mate = handsOut first operand :=
            counterpart.reading agree fits
          rw [read]

theorem Spent.steps (spent : Spent array other)
    (count : array.layout.byteLength = fronts.count) (agree : fronts.Agree first second)
    {operation mate : Operation BitArray}
    (matched : operation.Matches (Counterpart fronts first second) mate) :
    Steps fronts array other first second operation mate := by
  rcases spent.closed.step_apply operation first with ⟨after, stepped, unchanged⟩
  rcases spent.closedOther.step_apply mate second with ⟨last, steppedMate, unchangedMate⟩
  rw [spent.lastWord count agree matched] at steppedMate
  have changes := unchanged fun operand _ => runFrom_snapshot_state operand first
  have changesMate := unchangedMate fun operand _ => runFrom_snapshot_state operand second
  refine ⟨_, after, last, stepped, steppedMate, agree.moved
    (Host.Confines.of_changesNone changes.changesNone)
    (Host.Confines.of_changesNone changesMate.changesNone) ?_ ?_⟩
  · rw [Fronts.Answers, Host.SyncsFiles, Host.SyncsFiles, changes.fileSyncs,
      changesMate.fileSyncs]
    exact agree.answers
  · intro place front
    rw [changes.volume, changesMate.volume]
    exact agree.bytes place front

/-! ## Sequences of calls -/

/-- Arrays that stay together through all calls. -/
inductive Fellows (fronts : Fronts) (array other : BitArray) : Prop where
  | live (twin : array.Twin fronts other)
  | closed (spent : Spent array other)

theorem Twin.files (twin : array.Twin fronts other) :
    array.file? = some fronts.left ∧ other.file? = some fronts.right := by
  cases twin with
  | file twin => exact ⟨twin.left, twin.right⟩
  | mapped twin => exact ⟨twin.left, twin.right⟩

theorem Twin.inFile (twin : array.Twin fronts other) : other.inFile = array.inFile := by
  cases twin with
  | file twin | mapped twin => rfl

theorem call_close {array next : BitArray} {outcome : Except Fault Unit} {host after : Host}
    (closed : array.close host = ((outcome, next), after)) :
    array.call .close host = ((outcome.map fun _ => .done, next), after) := by
  rw [call, bind_apply, closed]
  rfl

/-- Closing brings twins to an end together. -/
theorem Fellows.close (fellows : Fellows fronts array other) (agree : fronts.Agree first second) :
    Exists fun reply => Exists fun next => Exists fun nextOther => Exists fun after =>
      Exists fun last =>
        array.call .close first = ((reply, next), after) ∧
        other.call .close second = ((reply, nextOther), last) ∧
        Fellows fronts next nextOther ∧ next.layout = array.layout ∧
        fronts.Move first second after last := by
  cases fellows with
  | closed spent =>
      exact ⟨_, array, other, first, second, call_close (spent.closed.close_apply first),
        call_close (spent.closedOther.close_apply second), .closed spent, rfl, agree.move⟩
  | live twin =>
      cases twin with
      | @file array other twin =>
          rcases Option.map_eq_some_iff.mp twin.left with ⟨handle, live, left⟩
          rcases Option.map_eq_some_iff.mp twin.right with ⟨mate, liveMate, right⟩
          rcases twin.parallel_finish left right first second agree with ⟨outcomes, move⟩
          have outcome := outcomes.eq
          rw [FileArray.finish_outcome, FileArray.finish_outcome] at outcome
          refine ⟨_, .file array.closed, .file other.closed, _, _,
            call_close (close_file live first), ?_,
            .closed ⟨.file rfl, .file rfl, twin.layout, rfl⟩, rfl, move⟩
          rw [outcome]
          exact call_close (close_file liveMate second)
      | @mapped array other twin =>
          rcases Option.map_eq_some_iff.mp twin.left with ⟨region, live, left⟩
          rcases Option.map_eq_some_iff.mp twin.right with ⟨mirror, liveMirror, right⟩
          refine ⟨_, .mapped array.closed, .mapped other.closed, _, _,
            call_close (close_mapped live first), call_close (close_mapped liveMirror second),
            .closed ⟨.mapped rfl, .mapped rfl, twin.layout, rfl⟩, rfl, agree.kept ?_ ?_ ?_⟩
          · rw [← left]
            exact MappedArray.confines_finish array.path region first
          · rw [← right]
            exact MappedArray.confines_finish other.path mirror second
          · rw [Fronts.Answers, Host.SyncsFiles, Host.SyncsFiles, MappedArray.fileSyncs_finish,
              MappedArray.fileSyncs_finish]
            exact agree.answers

theorem Fellows.call (fellows : Fellows fronts array other)
    (count : array.layout.byteLength = fronts.count) (agree : fronts.Agree first second)
    {call mate : Call} (matched : call.Matches (Counterpart fronts first second) mate) :
    Exists fun reply => Exists fun next => Exists fun nextOther => Exists fun after =>
      Exists fun last =>
        array.call call first = ((reply, next), after) ∧
        other.call mate second = ((reply, nextOther), last) ∧
        Fellows fronts next nextOther ∧ next.layout = array.layout ∧
        fronts.Move first second after last := by
  cases matched with
  | close =>
      exact fellows.close agree
  | @operate operation mate matched =>
      have steps : Steps fronts array other first second operation mate := by
        cases fellows with
        | live twin => exact twin.steps count agree matched
        | closed spent => exact spent.steps count agree matched
      rcases steps with ⟨reply, after, last, stepped, steppedMate, move⟩
      exact ⟨reply, array, other, after, last, stepped, steppedMate, fellows, rfl, move⟩

/-- By induction on the calls: the arrays stay fellows, and the operands come to the same
on the hosts that each call leaves. -/
theorem Fellows.calls (fellows : Fellows fronts array other)
    (count : array.layout.byteLength = fronts.count) (agree : fronts.Agree first second)
    {calls mates : List Call}
    (matched : List.Forall₂ (Call.Matches (Counterpart fronts first second)) calls mates) :
    Exists fun replies => Exists fun next => Exists fun nextOther => Exists fun after =>
      Exists fun last =>
        array.calls calls first = ((replies, next), after) ∧
        other.calls mates second = ((replies, nextOther), last) ∧
        fronts.Move first second after last := by
  induction calls generalizing array other first second mates with
  | nil =>
      cases matched
      exact ⟨[], array, other, first, second, rfl, rfl, agree.move⟩
  | cons call rest inductionHypothesis =>
      cases matched with
      | cons matchedCall matchedRest =>
          rcases fellows.call count agree matchedCall with
            ⟨reply, next, nextOther, after, last, called, calledMate, fellowsNext, layout, move⟩
          have matchedNext := matchedRest.imp fun _ _ matched => matches_move matched move
          rcases inductionHypothesis fellowsNext (layout ▸ count) move.agree matchedNext with
            ⟨replies, final, finalOther, ended, endedMate, continued, continuedMate, moveRest⟩
          refine ⟨reply :: replies, final, finalOther, ended, endedMate, ?_, ?_,
            move.trans moveRest⟩
          · simp only [BitArray.calls, bind_apply, called, continued, pure_apply]
          · simp only [BitArray.calls, bind_apply, calledMate, continuedMate, pure_apply]

theorem matches_self (operation : Operation BitArray) (file : FileId) (count : Nat)
    (host : Host) :
    operation.Matches (Counterpart { left := file, right := file, count := count } host host)
      operation := by
  cases operation with
  | merge kind operand => exact .merge kind (Counterpart.refl operand file count host)
  | _ => exact .alone rfl

theorem call_matches_self (call : Call) (file : FileId) (count : Nat) (host : Host) :
    call.Matches (Counterpart { left := file, right := file, count := count } host host) call := by
  cases call with
  | close => exact .close
  | operate operation => exact .operate (matches_self operation file count host)

/-- Whatever is called, an open array keeps to the front of its file. -/
theorem confines_calls {host : Host} {file : FileId} (kept : array.file? = some file)
    (longer : array.layout.byteLength < (host.volume.content file).length) (calls : List Call) :
    host.Confines file array.layout.byteLength (array.calls calls host).2 := by
  let fronts : Fronts := { left := file, right := file, count := array.layout.byteLength }
  have agree : fronts.Agree host host := ⟨rfl, rfl, rfl, rfl, longer, longer, fun _ _ => rfl⟩
  have matched : List.Forall₂ (Call.Matches (Counterpart fronts host host)) calls calls :=
    List.forall₂_same.mpr fun call _ => call_matches_self call file _ host
  rcases Fellows.calls (.live (Twin.refl kept _)) rfl agree matched with
    ⟨replies, next, _, after, _, run, _, move⟩
  rw [run]
  exact move.left

/-- An array over a longer file changes the bytes of its own and nothing else, and no
answer rests on what lies behind them: over files that agree as far as the array
reaches, twins answer alike, call by call, and leave files that agree as far. -/
theorem front_isolated :
    (forall (array : BitArray) (host : Host) (file : FileId) (calls : List Call),
      array.file? = some file ->
      array.layout.byteLength < (host.volume.content file).length ->
      host.Confines file array.layout.byteLength (array.calls calls host).2 ∧
      forall bystander : BitArray, bystander.file? ≠ some file ->
        bystander.reading (array.calls calls host).2 = bystander.reading host ∧
        bystander.storage (array.calls calls host).2 = bystander.storage host) ∧
    forall (fronts : Fronts) (array other : BitArray) (first second : Host)
      (calls mates : List Call),
      array.Twin fronts other -> array.layout.byteLength = fronts.count ->
      fronts.Agree first second ->
      List.Forall₂ (Call.Matches (Counterpart fronts first second)) calls mates ->
      (other.calls mates second).1.1 = (array.calls calls first).1.1 ∧
      forall place, place < fronts.count ->
        ((other.calls mates second).2.volume.content fronts.right).byte place =
          ((array.calls calls first).2.volume.content fronts.left).byte place := by
  constructor
  · intro array host file calls kept longer
    have confines := confines_calls kept longer calls
    exact ⟨confines, fun bystander elsewhere =>
      ⟨reading_of_confines elsewhere confines, storage_of_confines elsewhere confines⟩⟩
  · intro fronts array other first second calls mates twin count agree matched
    rcases Fellows.calls (.live twin) count agree matched with
      ⟨replies, next, nextOther, after, last, run, runOther, move⟩
    rw [run, runOther]
    exact ⟨rfl, move.agree.bytes⟩

end BitArray

namespace Twelve

/-- The file is longer, and what is behind the array is not zero. -/
def longer : Host where
  volume := { contents := [.ofBytes [0, 0, 9, 9, 9, 9, 9]] }

def fronts : Fronts where
  left := 0
  right := 0
  count := 2

theorem fronts_agree : fronts.Agree host longer := by
  refine ⟨rfl, rfl, rfl, rfl, by decide, by decide, ?_⟩
  intro place front
  match place, front with
  | 0, _ | 1, _ => rfl

end Twelve

namespace BitArray

/-- What is behind the array is not seen by clearing, merging or counting, and stays
there. -/
theorem front_isolated_twelve :
    let array := BitArray.file Twelve.file
    let calls : List Call := [.operate (.raise 3), .operate (.merge .or (.memory Twelve.memory)),
      .operate .count, .operate .clear, .close, .operate .flush]
    (array.layout.byteLength < (Twelve.longer.volume.content 0).length ∧
        ((array.calls calls Twelve.longer).2.volume.content 0).byte 5 = 9) ∧
      Twelve.fronts.Agree Twelve.host Twelve.longer ∧
        (array.calls calls Twelve.longer).1.1 = (array.calls calls Twelve.host).1.1 := by
  intro array calls
  have longer : array.layout.byteLength < (Twelve.longer.volume.content 0).length := by decide
  refine ⟨⟨longer, ?_⟩, Twelve.fronts_agree, ?_⟩
  · exact (front_isolated.1 array Twelve.longer 0 calls rfl longer).1.tail 5 (by decide)
  · have count : array.layout.byteLength = Twelve.fronts.count := by decide
    have apart : Counterpart Twelve.fronts Twelve.host Twelve.longer (.memory Twelve.memory)
        (.memory Twelve.memory) := .elsewhere rfl nofun nofun rfl
    have matched : List.Forall₂
        (Call.Matches (Counterpart Twelve.fronts Twelve.host Twelve.longer)) calls calls :=
      .cons (.operate (.alone rfl)) (.cons (.operate (.merge .or apart))
        (.cons (.operate (.alone rfl)) (.cons (.operate (.alone rfl)) (.cons .close
          (.cons (.operate (.alone rfl)) .nil)))))
    exact (front_isolated.2 Twelve.fronts array array Twelve.host Twelve.longer calls calls
      (Twin.refl rfl 2) count Twelve.fronts_agree matched).1

end BitArray
end BitStore
