import BitStore.Proofs.Arrays.Meaning

namespace BitStore

/-!
# The backings are observationally equivalent

A trio is an array of each backing, and it takes an operation by performing it on
all three in turn, on one host.  What can be observed of a step are the replies
and the snapshots that follow it.  `Trio.run_agrees` says that three open arrays
that begin with the same layout and the same snapshot are never told apart, by
any run of operations.

Two things are asked for.  The three must not share a file with each other or
with the operands, since each step is performed three times; and the system has
to sync files and to write mappings back when asked to, since an array in memory
asks it nothing.
Nothing is asked of the operands: they may be closed, of any length and of any
backing.
-/

/-- What the caller of one array sees of a step. -/
structure Sight where
  reply : Except Fault Reply
  snapshot : Except Fault Bytes

structure Observation where
  memory : Sight
  file : Sight
  mapped : Sight

/-- All three callers see the same, and the snapshots are there to be seen. -/
structure Observation.Agrees (observation : Observation) : Prop where
  file : observation.file = observation.memory
  mapped : observation.mapped = observation.memory
  snapshot : Exists fun bytes => observation.memory.snapshot = .ok bytes

structure Trio where
  memory : BitArray
  file : BitArray
  mapped : BitArray

namespace Trio

/-- What is seen of a step that ends here with these replies. -/
def observe (trio : Trio) (host : Host) (memory file mapped : Except Fault Reply) :
    Observation where
  memory := { reply := memory, snapshot := trio.memory.reading host }
  file := { reply := file, snapshot := trio.file.reading host }
  mapped := { reply := mapped, snapshot := trio.mapped.reading host }

/-- Perform an operation on all three, then take the snapshots. -/
def step (trio : Trio) (operation : Operation BitArray) : StateM Host (Observation × Trio) := do
  let (memoryReply, memory) ← trio.memory.step operation
  let (fileReply, file) ← trio.file.step operation
  let (mappedReply, mapped) ← trio.mapped.step operation
  let next : Trio := { memory := memory, file := file, mapped := mapped }
  return (next.observe (← get) memoryReply fileReply mappedReply, next)

def run (trio : Trio) : List (Operation BitArray) -> StateM Host (List Observation × Trio)
  | [] => return ([], trio)
  | operation :: rest => do
      let (observation, trio) ← trio.step operation
      let (observations, trio) ← trio.run rest
      return (observation :: observations, trio)

end Trio

theorem Host.Serves.changesOnly {file : Option FileId} {host after : Host}
    (serves : host.Serves) (changes : host.ChangesOnly file after) : after.Serves where
  writesBack :=
    ⟨changes.platform.trans serves.writesBack.1, changes.syncRefused.trans serves.writesBack.2⟩
  syncsFiles := serves.syncsFiles.of_suffix changes.fileSyncs

namespace Trio

variable {trio : Trio} {host : Host}

/-- The operand of an operation is kept in neither of the trio's files. -/
def Foreign (trio : Trio) (operation : Operation BitArray) : Prop :=
  forall operand, operation.operand? = some operand ->
    forall kept, operand.file? = some kept ->
      trio.file.file? ≠ some kept ∧ trio.mapped.file? ≠ some kept

/-- Three arrays that cannot be told apart. -/
structure Alike (trio : Trio) (host : Host) : Prop where
  memory : trio.memory.Intact host
  file : trio.file.Intact host
  mapped : trio.mapped.Intact host
  loose : trio.memory.file? = none
  apart : forall kept, trio.file.file? = some kept -> trio.mapped.file? ≠ some kept
  fileLayout : trio.file.layout = trio.memory.layout
  mappedLayout : trio.mapped.layout = trio.memory.layout
  fileStorage : trio.file.storage host = trio.memory.storage host
  mappedStorage : trio.mapped.storage host = trio.memory.storage host

/-- The snapshots of arrays that are alike are the same. -/
theorem Alike.observe_agrees (alike : trio.Alike host) (reply : Except Fault Reply) :
    (trio.observe host reply reply reply).Agrees := by
  constructor
  · simp only [observe, alike.file.reading, alike.memory.reading, alike.fileStorage]
  · simp only [observe, alike.mapped.reading, alike.memory.reading, alike.mappedStorage]
  · exact ⟨_, alike.memory.reading⟩

/-- What the three arrays have become, each in its turn, if they were alike: they
are so again, with the same bytes. -/
theorem Alike.becomes (alike : trio.Alike host) {next : Trio} {first second third : Host}
    {bytes : Bytes} (memory : trio.memory.Becomes host next.memory first bytes)
    (file : trio.file.Becomes first next.file second bytes)
    (mapped : trio.mapped.Becomes second next.mapped third bytes) : next.Alike third := by
  have loose : next.memory.file? = none := memory.file?.trans alike.loose
  have elsewhere : forall kept, next.file.file? = some kept ->
      trio.mapped.file? ≠ some kept := by
    rw [file.file?]
    exact alike.apart
  have memoryStorage : next.memory.storage third = bytes := by
    have nowhere : forall (other : Option FileId) kept, next.memory.file? = some kept ->
        other ≠ some kept := by
      intro other kept held
      simp only [loose, reduceCtorEq] at held
    rw [BitArray.storage_elsewhere mapped.changes (nowhere _),
      BitArray.storage_elsewhere file.changes (nowhere _), memory.storage]
  have fileStorage : next.file.storage third = bytes := by
    rw [BitArray.storage_elsewhere mapped.changes elsewhere, file.storage]
  constructor
  case memory => exact (memory.intact.changesOnly file.changes).changesOnly mapped.changes
  case file => exact file.intact.changesOnly mapped.changes
  case mapped => exact mapped.intact
  case loose => exact loose
  case apart => rwa [mapped.file?]
  case fileLayout => rw [file.layout, memory.layout, alike.fileLayout]
  case mappedLayout => rw [mapped.layout, memory.layout, alike.mappedLayout]
  case fileStorage => rw [fileStorage, memoryStorage]
  case mappedStorage => rw [mapped.storage, memoryStorage]

/-- What is expected of the array in the file, once the one in memory is done. -/
theorem Alike.fileExpected (alike : trio.Alike host) {first : Host}
    (memory : host.ChangesOnly none first) (operation : Operation BitArray) :
    trio.file.layout.respond (trio.file.storage first)
        (fun operand => operand.reading first) operation =
      trio.memory.layout.respond (trio.memory.storage host)
        (fun operand => operand.reading host) operation := by
  rw [alike.fileLayout, BitArray.storage_elsewhere memory (fun _ _ => nofun), alike.fileStorage]
  apply Layout.respond_congr
  intro operand _
  exact BitArray.reading_elsewhere memory (fun _ _ => nofun)

/-- What is expected of the array in the mapping, once both others are done. -/
theorem Alike.mappedExpected (alike : trio.Alike host) {first second : Host}
    (memory : host.ChangesOnly none first) (file : first.ChangesOnly trio.file.file? second)
    {operation : Operation BitArray} (foreign : trio.Foreign operation) :
    trio.mapped.layout.respond (trio.mapped.storage second)
        (fun operand => operand.reading second) operation =
      trio.memory.layout.respond (trio.memory.storage host)
        (fun operand => operand.reading host) operation := by
  have elsewhere : forall kept, trio.mapped.file? = some kept -> trio.file.file? ≠ some kept :=
    fun kept held same => alike.apart kept same held
  rw [alike.mappedLayout, BitArray.storage_elsewhere file elsewhere,
    BitArray.storage_elsewhere memory (fun _ _ => nofun), alike.mappedStorage]
  apply Layout.respond_congr
  intro operand named
  rw [BitArray.reading_elsewhere file fun kept held => (foreign operand named kept held).1,
    BitArray.reading_elsewhere memory (fun _ _ => nofun)]

/-- One step: all three meet one specification, each on the host that the one
before has left. -/
theorem Alike.step_agrees (alike : trio.Alike host) (serves : host.Serves)
    {operation : Operation BitArray} (foreign : trio.Foreign operation) :
    Exists fun observation => Exists fun next => Exists fun after =>
      trio.step operation host = ((observation, next), after) ∧ observation.Agrees ∧
      next.Alike after ∧ after.Serves ∧
      next.file.file? = trio.file.file? ∧ next.mapped.file? = trio.mapped.file? := by
  rcases BitArray.step_meets alike.memory operation
    with ⟨memoryReply, memory, first, memoryStep, memoryNext, memoryMeets⟩
  have quiet : host.ChangesOnly none first := alike.loose ▸ memoryNext.changes
  have servesFirst := serves.changesOnly quiet
  rcases BitArray.step_meets (alike.file.changesOnly quiet) operation
    with ⟨fileReply, file, second, fileStep, fileNext, fileMeets⟩
  have servesSecond := servesFirst.changesOnly fileNext.changes
  rcases BitArray.step_meets
      ((alike.mapped.changesOnly quiet).changesOnly fileNext.changes) operation
    with ⟨mappedReply, mapped, third, mappedStep, mappedNext, mappedMeets⟩
  rw [alike.fileExpected quiet] at fileNext fileMeets
  rw [alike.mappedExpected quiet fileNext.changes foreign] at mappedNext mappedMeets
  let next : Trio := { memory := memory, file := file, mapped := mapped }
  have again : next.Alike third := alike.becomes memoryNext fileNext mappedNext
  refine ⟨next.observe third memoryReply fileReply mappedReply, next, third, ?_, ?_, again,
    servesSecond.changesOnly mappedNext.changes, fileNext.file?, mappedNext.file?⟩
  · simp only [step, bind_apply, memoryStep, fileStep, mappedStep]
    rfl
  · rw [fileMeets fun _ => servesFirst, mappedMeets fun _ => servesSecond,
      memoryMeets fun _ => serves]
    exact again.observe_agrees _

/-- A run: step by step, the three stay alike. -/
theorem Alike.run_agrees {trio : Trio} {host : Host} (alike : trio.Alike host)
    (serves : host.Serves) {operations : List (Operation BitArray)}
    (foreign : forall operation, operation ∈ operations -> trio.Foreign operation) :
    forall observation, observation ∈ (trio.run operations host).1.1 -> observation.Agrees := by
  induction operations generalizing trio host with
  | nil =>
      intro observation member
      simp only [run, pure_apply, List.not_mem_nil] at member
  | cons operation rest inductionHypothesis =>
      rcases alike.step_agrees serves (foreign operation List.mem_cons_self)
        with ⟨first, next, after, stepped, agrees, again, serving, sameFile, sameMapped⟩
      have remaining : forall other, other ∈ rest -> next.Foreign other := by
        intro other member operand named kept held
        rw [sameFile, sameMapped]
        exact foreign other (List.mem_cons_of_mem operation member) operand named kept held
      intro observation member
      simp only [run, bind_apply, pure_apply, stepped, List.mem_cons] at member
      rcases member with rfl | later
      · exact agrees
      · exact inductionHypothesis again serving remaining observation later

theorem length_run (trio : Trio) (operations : List (Operation BitArray)) (host : Host) :
    (trio.run operations host).1.1.length = operations.length := by
  induction operations generalizing trio host with
  | nil => rfl
  | cons operation rest inductionHypothesis =>
      simp only [run, bind_apply, pure_apply, List.length_cons, inductionHypothesis]

end Trio

/-- Three open arrays, one of each backing, that have the same layout and the same
snapshot answer every operation of every run alike and have the same snapshot after
it.  The write mode, the tails of the files and the operands may be any. -/
theorem backings_agree {memory : MemoryArray} {file : FileArray} {mapped : MappedArray}
    {host : Host} (serves : host.Serves)
    (fileIntact : (BitArray.file file).Intact host)
    (mappedIntact : (BitArray.mapped mapped).Intact host)
    (apart : (BitArray.file file).file? ≠ (BitArray.mapped mapped).file?)
    (fileLayout : file.layout = memory.layout) (mappedLayout : mapped.layout = memory.layout)
    (fileBytes : (BitArray.file file).reading host = .ok memory.toBytes)
    (mappedBytes : (BitArray.mapped mapped).reading host = .ok memory.toBytes)
    (operations : List (Operation BitArray))
    (foreign : forall operation, operation ∈ operations ->
      Trio.Foreign ⟨.memory memory, .file file, .mapped mapped⟩ operation) :
    (Trio.run ⟨.memory memory, .file file, .mapped mapped⟩ operations host).1.1.length =
        operations.length ∧
      forall observation, observation ∈
        (Trio.run ⟨.memory memory, .file file, .mapped mapped⟩ operations host).1.1 ->
          observation.Agrees := by
  have alike : Trio.Alike ⟨.memory memory, .file file, .mapped mapped⟩ host := {
    memory := .memory memory
    file := fileIntact
    mapped := mappedIntact
    loose := rfl
    apart := fun kept fileKept mappedKept => apart (fileKept.trans mappedKept.symm)
    fileLayout := fileLayout
    mappedLayout := mappedLayout
    fileStorage := Except.ok.inj (fileIntact.reading.symm.trans fileBytes)
    mappedStorage := Except.ok.inj (mappedIntact.reading.symm.trans mappedBytes) }
  exact ⟨Trio.length_run _ operations host, alike.run_agrees serves foreign⟩

/-- Arrays of capacity twelve, and a run that merges an array in memory and one that
is closed. -/
theorem backings_agree_twelve :
    (Trio.run ⟨.memory Twelve.memory, .file Twelve.file, .mapped Twelve.mapped⟩
        [.raise 12, .raiseIfUnset 5, .merge .or (.memory Twelve.memory), .get 13,
          .merge .and (.file Twelve.closedFile), .positions, .flush]
        Twelve.host).1.1.length = 7 ∧
      forall observation, observation ∈
        (Trio.run ⟨.memory Twelve.memory, .file Twelve.file, .mapped Twelve.mapped⟩
          [.raise 12, .raiseIfUnset 5, .merge .or (.memory Twelve.memory), .get 13,
            .merge .and (.file Twelve.closedFile), .positions, .flush]
          Twelve.host).1.1 -> observation.Agrees := by
  have serves : Twelve.host.Serves := ⟨⟨rfl, rfl⟩, List.forall_mem_nil _⟩
  apply backings_agree serves Twelve.file_intact Twelve.mapped_intact (by decide) rfl rfl
  · rw [Twelve.file_intact.reading]
    rfl
  · rw [Twelve.mapped_intact.reading]
    rfl
  · intro operation member operand named kept held
    simp only [List.mem_cons, List.not_mem_nil, or_false] at member
    rcases member with rfl | rfl | rfl | rfl | rfl | rfl | rfl <;> cases named <;> cases held

end BitStore
