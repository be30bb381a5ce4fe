import BitStore.Proofs.Session.Sound

namespace BitStore

/-!
# What steps do to contents

Every step of an opener is described once, from the session before it: the bits that
it defines, how far it makes files reach, what its answer has to show, and what it leaves
behind where it is refused.  `Coherent` says that a step keeps to its description, and
`perform_fulfils` that all steps do, in every sound session, whatever the system refuses.

A refused step leaves the contents as they were, with two exceptions.  Building an array
may have extended a file before it failed, and a write through a handle that goes past the
size limit has written the bytes in front of it.

Files that are written or cut by path belong to the world outside and are not steps
of an opener, and neither are the ranges, which stand for many calls on an array.
-/

/-- Whether a step is one of an array, a handle or a region. -/
def Step.isCall : Step -> Bool
  | .file _ | .unmapped _ => false
  | .array _ (.raiseRange _ _ _) | .array _ (.lowerRange _ _ _) => false
  | _ => true

namespace Session

/-! ## Descriptions -/

/-- The bits that bytes define that are written through a handle. -/
def writes (session : Session) (name : String) (place : Nat) (bytes : Bytes) :
    FileId -> Nat -> Option Bool :=
  match session.handles.get? name with
  | some handle => Host.only handle.file (bytes.bitsAt place)
  | none => fun _ _ => none

/-- A length for the file of a handle. -/
def lengthens (session : Session) (name : String) (length : Nat) : FileId -> Nat :=
  match session.handles.get? name with
  | some handle => Host.onlyLength handle.file length
  | none => fun _ => 0

/-- The bits of files that a step defines.  No other bit of a file changes. -/
def defines (session : Session) : Step -> FileId -> Nat -> Option Bool
  | .array name (.operate operation) =>
      match session.arrays.get? name, operation.resolve session.arrays.get? with
      | some array, some resolved => array.defines session.host resolved
      | _, _ => fun _ _ => none
  | .handle name (.writeByte place value) => session.writes name place [value]
  | .handle name (.write place bytes) => session.writes name place bytes
  | .region name (.store place bytes) =>
      match session.regions.get? name with
      | some region => region.defines session.host place bytes
      | none => fun _ _ => none
  | _ => fun _ _ => none

/-- How far files have to reach for a new array. -/
def buildReach (session : Session) : Construction -> FileId -> Nat
  | .file path capacity _ => session.host.openingReach path false capacity
  | .mapped path capacity _ => session.host.openingReach path true capacity
  | .options capacity backing _ path =>
      match meaning? Backing.ofName? .memory backing with
      | some backing =>
          Options.openingReach { capacity := capacity, backing := backing } session.host path
      | none => fun _ => 0
  | _ => fun _ => 0

/-- How far files have to reach after a step.  They become longer by zeros. -/
def reach (session : Session) : Step -> FileId -> Nat
  | .build _ construction => session.buildReach construction
  | .handle name (.ensureLength least) => session.lengthens name least
  | .handle name (.writeByte place value) => session.lengthens name (Bytes.extent [value] place)
  | .handle name (.write place bytes) => session.lengthens name (bytes.extent place)
  | _ => fun _ => 0

/-- The bits that a step has defined when it is refused: of a write through a handle, those
of the bytes that it concedes. -/
def concedes (session : Session) : Step -> FileId -> Nat -> Option Bool
  | .handle name (.writeByte place value) =>
      session.writes name place (Handle.conceded session.host place [value])
  | .handle name (.write place bytes) =>
      session.writes name place (Handle.conceded session.host place bytes)
  | _ => fun _ _ => none

/-- How far a step may have made files reach when it is refused. -/
def StopsAt (session : Session) : Step -> (FileId -> Nat) -> Prop
  | .build _ construction, reached =>
      forall file, reached file = 0 ∨ reached file = session.buildReach construction file
  | .handle name (.writeByte place value), reached =>
      reached = session.lengthens name
        ((Handle.conceded session.host place [value]).extent place)
  | .handle name (.write place bytes), reached =>
      reached = session.lengthens name ((Handle.conceded session.host place bytes).extent place)
  | _, reached => reached = fun _ => 0

/-- What an answer shows of the contents as they are before the step. -/
def Shows (session : Session) : Step -> Answer -> Prop
  | .array name (.operate operation), answer =>
      Exists fun array => Exists fun resolved => Exists fun reply =>
        session.arrays.get? name = some array ∧
        operation.resolve session.arrays.get? = some resolved ∧
        answer = .reply reply ∧ array.Shows session.host resolved reply
  | .array name .view, answer =>
      Exists fun array => Exists fun bytes =>
        session.arrays.get? name = some array ∧
        array.shown session.host = .ok bytes ∧ answer = .bytes bytes
  | .handle name (.ensureLength least), answer =>
      Exists fun handle =>
        session.handles.get? name = some handle ∧
        answer = .number (max (session.host.volume.content handle.file).length least)
  | .handle name (.readByte place), answer =>
      Exists fun handle =>
        let content := session.host.volume.content handle.file
        session.handles.get? name = some handle ∧
        place < content.length ∧ answer = .number (content.byte place).toNat
  | .handle name (.read place count), answer =>
      Exists fun handle =>
        let content := session.host.volume.content handle.file
        session.handles.get? name = some handle ∧
        (count = 0 ∨ place + count ≤ content.length) ∧
        answer = .bytes (content.window place count)
  | .region name .view, answer =>
      Exists fun region => Exists fun bytes =>
        let content := session.host.volume.content region.file
        session.regions.get? name = some region ∧
        answer = .view bytes ∧ bytes.length = region.length ∧
        forall place, place < region.length -> place < content.length ->
          bytes[place]? = some (content.byte place)
  | _, _ => True

/-- A step keeps to its description, also where it is refused. -/
def Coherent (session : Session) (step : Step) (outcome : Except Refusal Answer)
    (host : Host) : Prop :=
  match outcome with
  | .ok answer =>
      session.Shows step answer ∧
        session.host.Evolves host (session.defines step) (session.reach step)
  | .error _ =>
      Exists fun reached => session.StopsAt step reached ∧
        session.host.Evolves host (session.concedes step) reached

/-- The action performs the step, and leaves a sound session. -/
def Fulfils (session : Session) (step : Step) (action : SessionM Answer) : Prop :=
  Exists fun outcome => Exists fun next =>
    runFrom action session = (outcome, next) ∧ next.Sound ∧
    session.Coherent step outcome next.host

variable {session next : Session} {step : Step} {action : SessionM Answer}
  {answer : Answer} {refusal : Refusal}

/-- Nothing is written through a handle that is not there. -/
theorem writes_of_none {name : String} (unbound : session.handles.get? name = none)
    (place : Nat) (bytes : Bytes) : session.writes name place bytes = fun _ _ => none := by
  rw [writes, unbound]

theorem lengthens_of_none {name : String} (unbound : session.handles.get? name = none)
    (length : Nat) : session.lengthens name length = fun _ => 0 := by
  rw [lengthens, unbound]

/-- A step that is refused without leaving anything behind. -/
theorem fulfils_error (run : runFrom action session = (.error refusal, next))
    (sound : next.Sound) (quiet : session.host.Quiet next.host)
    (idle : session.concedes step = fun _ _ => none)
    (still : session.StopsAt step fun _ => 0) : session.Fulfils step action := by
  refine ⟨.error refusal, next, run, sound, fun _ => 0, still, ?_⟩
  rw [idle]
  exact quiet

/-- What is refused at once changes nothing. -/
theorem Sound.refused (sound : session.Sound) (refusal : Refusal)
    (idle : session.concedes step = fun _ _ => none) (still : session.StopsAt step fun _ => 0)
    (run : runFrom action session = (.error refusal, session)) : session.Fulfils step action :=
  fulfils_error run sound (Host.Quiet.refl session.host) idle still

/-- A step that defines nothing leaves the contents as they were. -/
theorem fulfils_quiet (run : runFrom action session = (.ok answer, next)) (sound : next.Sound)
    (quiet : session.host.Quiet next.host) (shows : session.Shows step answer)
    (idle : session.defines step = fun _ _ => none) (still : session.reach step = fun _ => 0) :
    session.Fulfils step action := by
  refine ⟨.ok answer, next, run, sound, shows, ?_⟩
  rw [idle, still]
  exact quiet

/-- A step that neither is to change a content nor leaves anything behind. -/
structure Idle (session : Session) (step : Step) : Prop where
  shows : session.Shows step .done
  defines : session.defines step = fun _ _ => none
  reach : session.reach step = fun _ => 0
  concedes : session.concedes step = fun _ _ => none
  stops : session.StopsAt step fun _ => 0

/-- An action that changes no content, whatever comes of it. -/
theorem fulfils_idle {ε : Type} {outcome : Except ε Unit} {refuse : ε -> Refusal}
    (run : runFrom action session =
      ((outcome.mapError refuse).map fun _ => Answer.done, next))
    (sound : next.Sound) (quiet : session.host.Quiet next.host) (idle : session.Idle step) :
    session.Fulfils step action := by
  cases outcome with
  | ok => exact fulfils_quiet run sound quiet idle.shows idle.defines idle.reach
  | error cause => exact fulfils_error run sound quiet idle.concedes idle.stops

/-- Where only looking is done, the session stays as it is. -/
theorem Sound.looked (sound : session.Sound) (answer : Answer)
    (run : runFrom action session = (.ok answer, session)) (shows : session.Shows step answer)
    (idle : session.defines step = fun _ _ => none) (still : session.reach step = fun _ => 0) :
    session.Fulfils step action :=
  fulfils_quiet run sound (Host.Quiet.refl session.host) shows idle still

/-! ## Handles -/

/-- A write through a handle, whatever the step is that asks for it. -/
theorem Sound.write (sound : session.Sound) {name : String} {handle : Handle}
    (bound : session.handles.get? name = some handle) (place : Nat) (bytes : Bytes)
    (run : runFrom action session =
      runFrom (onStorage (handle.write place bytes) >>= fun _ => pure Answer.done) session)
    (shows : session.Shows step .done)
    (defined : session.defines step = session.writes name place bytes)
    (reached : session.reach step = session.lengthens name (bytes.extent place))
    (conceded : session.concedes step =
      session.writes name place (Handle.conceded session.host place bytes))
    (stops : session.StopsAt step
      (session.lengthens name ((Handle.conceded session.host place bytes).extent place))) :
    session.Fulfils step action := by
  have held := sound.handles name handle bound
  simp only [runFrom_bind, runFrom_onStorage] at run
  rcases handle.write_cases session.host held place bytes
    with ⟨after, written, evolves⟩ | ⟨cause, after, refused, evolves⟩
  · simp only [written, mapError_ok, runFrom_pure] at run
    refine ⟨_, _, run, sound.withHost evolves, shows, ?_⟩
    rw [defined, reached, writes, lengthens, bound]
    exact evolves
  · simp only [refused, mapError_error] at run
    refine ⟨_, _, run, sound.withHost evolves, _, stops, ?_⟩
    rw [conceded, writes, lengthens, bound]
    exact evolves

theorem Sound.openHandle (sound : session.Sound) (name path : String) (mode : Option String)
    (create : Bool) :
    session.Fulfils (.handle name (.openAt path mode create))
      (performHandle name (.openAt path mode create)) := by
  cases meant : meaning? WriteMode.ofName? .durable mode with
  | none =>
      refine sound.refused (.text .shape) rfl rfl ?_
      simp only [performHandle, runFrom_bind, runFrom_writeMode, meant, Option.elim_none]
  | some mode =>
      rcases Handle.openAt_cases sound.host path mode create
        with ⟨handle, after, opened, _, quiet, held⟩ | ⟨cause, refused⟩
      · have bound := (sound.withHost quiet).bindHandle name held
        refine ⟨.ok .done, _, ?_, bound, trivial, quiet⟩
        simp only [performHandle, runFrom_bind, runFrom_writeMode, meant, Option.elim_some,
          runFrom_onStorage, opened, mapError_ok, runFrom_liftM, runFrom_pure]
      · refine sound.refused (.storage cause) rfl rfl ?_
        simp only [performHandle, runFrom_bind, runFrom_writeMode, meant, Option.elim_some,
          runFrom_onStorage, refused, mapError_error]
        rfl

theorem Sound.extendHandle (sound : session.Sound) {name : String} {handle : Handle}
    (bound : session.handles.get? name = some handle) (least : Nat) :
    session.Fulfils (.handle name (.ensureLength least))
      (performHandle name (.ensureLength least)) := by
  have found := found_of_some bound
  rcases handle.ensureLength_cases session.host least
    with ⟨length, after, extended, long, longer⟩ | ⟨cause, after, refused, volume, limits⟩
  · have evolves := longer.evolves (sound.handles name handle bound)
    refine ⟨.ok (.number length), session.withHost after, ?_, sound.withHost evolves,
      ⟨handle, bound, ?_⟩, ?_⟩
    · simp only [performHandle, runFrom_bind, runFrom_requireHandle, found,
        runFrom_onStorage, extended, mapError_ok, runFrom_pure]
    · rw [long]
    · simp only [defines, reach, lengthens, bound]
      exact evolves
  · have run : runFrom (performHandle name (.ensureLength least)) session =
        (.error (.storage cause), session.withHost after) := by
      simp only [performHandle, runFrom_bind, runFrom_requireHandle, found,
        runFrom_onStorage, refused, mapError_error]
    have quiet := Host.quiet_of_same volume limits
    exact fulfils_error run (sound.withHost quiet) quiet rfl rfl

theorem performHandle_fulfils (sound : session.Sound) (name : String) (step : HandleStep) :
    session.Fulfils (.handle name step) (performHandle name step) := by
  cases bound : session.handles.get? name with
  | none =>
      cases step with
      | openAt path mode create => exact sound.openHandle name path mode create
      | writeByte place | write place =>
          refine sound.refused (.unbound name) (writes_of_none bound place _)
            (lengthens_of_none bound _).symm ?_
          simp only [performHandle, runFrom_bind, runFrom_requireHandle, found_of_none bound]
      | _ =>
          refine sound.refused (.unbound name) rfl rfl ?_
          simp only [performHandle, runFrom_bind, runFrom_requireHandle, found_of_none bound]
  | some handle =>
      have found := found_of_some bound
      cases step with
      | openAt path mode create => exact sound.openHandle name path mode create
      | ensureLength least => exact sound.extendHandle bound least
      | readByte position =>
          rcases handle.readByte_cases session.host position
            with ⟨inside, read⟩ | ⟨cause, refused⟩
          · refine sound.looked _ ?_ ⟨handle, bound, inside, rfl⟩ rfl rfl
            simp only [performHandle, runFrom_bind, runFrom_requireHandle, found,
              runFrom_onStorage, read, mapError_ok, runFrom_pure]
            rfl
          · refine sound.refused (.storage cause) rfl rfl ?_
            simp only [performHandle, runFrom_bind, runFrom_requireHandle, found,
              runFrom_onStorage, refused, mapError_error]
            rfl
      | read position count =>
          rcases handle.read_cases session.host position count
            with ⟨inside, read⟩ | ⟨cause, refused⟩
          · refine sound.looked _ ?_ ⟨handle, bound, inside, rfl⟩ rfl rfl
            simp only [performHandle, runFrom_bind, runFrom_requireHandle, found,
              runFrom_onStorage, read, mapError_ok, runFrom_pure]
            rfl
          · refine sound.refused (.storage cause) rfl rfl ?_
            simp only [performHandle, runFrom_bind, runFrom_requireHandle, found,
              runFrom_onStorage, refused, mapError_error]
            rfl
      | writeByte position value =>
          refine sound.write bound position [value] ?_ trivial rfl rfl rfl rfl
          simp only [performHandle, runFrom_bind, runFrom_requireHandle, found]
          rfl
      | write position bytes =>
          refine sound.write bound position bytes ?_ trivial rfl rfl rfl rfl
          simp only [performHandle, runFrom_bind, runFrom_requireHandle, found]
      | drop =>
          refine ⟨.ok .done, _, ?_, sound.unbindHandle name, trivial, Host.Quiet.refl _⟩
          simp only [performHandle, runFrom_bind, runFrom_requireHandle, found, runFrom_liftM,
            runFrom_pure]

/-! ## Regions -/

theorem Sound.mapRegion (sound : session.Sound) (name owner : String) (length : Nat) :
    session.Fulfils (.region name (.map owner length))
      (performRegion name (.map owner length)) := by
  cases bound : session.handles.get? owner with
  | none =>
      refine sound.refused (.unbound owner) rfl rfl ?_
      simp only [performRegion, runFrom_bind, runFrom_requireHandle, found_of_none bound]
  | some handle =>
      have found := found_of_some bound
      have held := sound.handles owner handle bound
      rcases Region.map_cases session.host handle length
        with ⟨region, after, mapped, same, volume, limits⟩ | ⟨cause, refused⟩
      · have quiet := Host.quiet_of_same volume limits
        have heldRegion : after.volume.Holds region.val.file := same ▸ quiet.held _ held
        rcases (sound.withHost quiet).bindRegion name heldRegion with ⟨named, given⟩
        refine ⟨.ok .done, _, ?_, named, trivial, quiet.trans given⟩
        simp only [performRegion, runFrom_bind, runFrom_requireHandle, found,
          runFrom_onStorage, mapped, mapError_ok, runFrom_liftM, runFrom_pure]
      · refine sound.refused (.storage cause) rfl rfl ?_
        simp only [performRegion, runFrom_bind, runFrom_requireHandle, found,
          runFrom_onStorage, refused, mapError_error]
        rfl

theorem Sound.flushRegion (sound : session.Sound) {name : String} {region : Region}
    (bound : session.regions.get? name = some region) :
    session.Fulfils (.region name .flush) (performRegion name .flush) := by
  have quiet := region.quiet_flush session.host
  rcases flushed : runFrom region.flush session.host with ⟨outcome, after⟩
  rw [flushed] at quiet
  have run : runFrom (performRegion name .flush) session =
      ((outcome.mapError Refusal.storage).map fun _ => Answer.done, session.withHost after) := by
    simp only [performRegion, runFrom_bind, runFrom_requireRegion, found_of_some bound,
      runFrom_onStorage, flushed]
    cases outcome <;> rfl
  exact fulfils_idle run (sound.withHost quiet) quiet ⟨trivial, rfl, rfl, rfl, rfl⟩

theorem Sound.flushRegionRefused (sound : session.Sound) {name : String} {region : Region}
    (bound : session.regions.get? name = some region) :
    session.Fulfils (.region name .flushRefused) (performRegion name .flushRefused) := by
  have quiet := quiet_whileSyncRefused region.flush session.host
    fun begun _ => region.quiet_flush begun
  rcases flushed : runFrom (whileSyncRefused region.flush) session.host with ⟨outcome, after⟩
  rw [flushed] at quiet
  have run : runFrom (performRegion name .flushRefused) session =
      ((outcome.mapError Refusal.storage).map fun _ => Answer.done, session.withHost after) := by
    simp only [performRegion, runFrom_bind, runFrom_requireRegion, found_of_some bound,
      runFrom_onStorage, flushed]
    cases outcome <;> rfl
  exact fulfils_idle run (sound.withHost quiet) quiet ⟨trivial, rfl, rfl, rfl, rfl⟩

/-- A region loses its name before the system is asked to take its mapping back. -/
theorem Sound.unmapRegion (sound : session.Sound) {name : String} {region : Region}
    (bound : session.regions.get? name = some region) :
    session.Fulfils (.region name .unmap) (performRegion name .unmap) := by
  have quiet := region.quiet_unmap session.host
  rcases unmapped : runFrom region.unmap session.host with ⟨outcome, after⟩
  rw [unmapped] at quiet
  have run : runFrom (performRegion name .unmap) session =
      ((outcome.mapError Refusal.storage).map fun _ => Answer.done,
        (Session.unbindRegion name session).2.withHost after) := by
    have unmapped : runFrom region.unmap (Session.unbindRegion name session).2.host =
      (outcome, after) := unmapped
    simp only [performRegion, runFrom_bind, runFrom_requireRegion, found_of_some bound,
      runFrom_liftM, runFrom_onStorage, unmapped]
    cases outcome <;> rfl
  exact fulfils_idle run ((sound.unbindRegion name).withHost quiet) quiet
    ⟨trivial, rfl, rfl, rfl, rfl⟩

theorem performRegion_fulfils (sound : session.Sound) (name : String) (step : RegionStep) :
    session.Fulfils (.region name step) (performRegion name step) := by
  cases bound : session.regions.get? name with
  | none =>
      cases step with
      | map owner length => exact sound.mapRegion name owner length
      | _ =>
          refine sound.refused (.unbound name) rfl rfl ?_
          simp only [performRegion, runFrom_bind, runFrom_requireRegion, found_of_none bound]
  | some region =>
      have found := found_of_some bound
      have held := sound.regions name region bound
      cases step with
      | map owner length => exact sound.mapRegion name owner length
      | extent =>
          refine sound.looked (.extent region.length (region.length = 0)) ?_ trivial rfl rfl
          simp only [performRegion, runFrom_bind, runFrom_requireRegion, found, runFrom_pure]
      | describe =>
          refine sound.looked (.text region.describe) ?_ trivial rfl rfl
          simp only [performRegion, runFrom_bind, runFrom_requireRegion, found, runFrom_pure]
      | view =>
          refine sound.looked (.view (region.view session.host).1) ?_
            ⟨region, _, bound, rfl, ?_, fun _ => region.view_shows session.host⟩ rfl rfl
          · simp only [performRegion, runFrom_bind, runFrom_requireRegion, found,
              runFrom_onHost, runFrom_pure]
            rfl
          · exact Content.length_mappedFront _ _
      | store position bytes =>
          have evolves := region.store_evolves session.host held position bytes
          refine ⟨.ok .done, _, ?_, sound.withHost evolves, trivial, ?_⟩
          · simp only [performRegion, runFrom_bind, runFrom_requireRegion, found,
              runFrom_onHost, runFrom_pure]
          · simp only [defines, bound]
            exact evolves
      | flush => exact sound.flushRegion bound
      | flushRefused => exact sound.flushRegionRefused bound
      | unmap => exact sound.unmapRegion bound
      | drop =>
          have quiet := region.quiet_drop session.host
          refine ⟨.ok .done, _, ?_, (sound.unbindRegion name).withHost quiet, trivial, quiet⟩
          simp only [performRegion, runFrom_bind, runFrom_requireRegion, found,
            runFrom_liftM, runFrom_onHost, runFrom_pure]
          rfl
      | forbidRelease =>
          have quiet := session.host.quiet_forbidRelease region.mapping
          refine ⟨.ok .done, _, ?_, sound.withHost quiet, trivial, quiet⟩
          simp only [performRegion, runFrom_bind, runFrom_requireRegion, found,
            runFrom_onHost, runFrom_pure]

/-! ## Arrays -/

theorem Sound.operate (sound : session.Sound) {name : String} {array : BitArray}
    (bound : session.arrays.get? name = some array) (operation : Operation String) :
    session.Fulfils (.array name (.operate operation)) (operate name array operation) := by
  rcases session.runFrom_resolve operation with ⟨resolved, run, looked, named⟩ | ⟨refusal, run⟩
  case inr =>
    refine sound.refused refusal rfl rfl ?_
    simp only [Session.operate, runFrom_bind, run]
  have operands (operand : BitArray) (given : resolved.operand? = some operand) :
      operand.Whole session.host := by
    rcases named operand given with ⟨other, boundOther⟩
    exact sound.arrays other operand boundOther
  rcases (sound.arrays name array bound).step operands
    with ⟨outcome, next, after, stepped, whole, ⟨fault, rfl, quiet⟩ | ⟨reply, rfl, shows, evolves⟩⟩
  · have kept := (sound.withHost quiet).keepArray name whole
    have run : runFrom (Session.operate name array operation) session =
        (.error (.fault fault), (Session.keepArray name next (session.withHost after)).2) := by
      simp only [Session.operate, runFrom_bind, run, runFrom_onHost, stepped, runFrom_liftM,
        runFrom_ofFault, mapError_error]
    exact fulfils_error run kept quiet rfl rfl
  · have kept := (sound.withHost evolves).keepArray name whole
    refine ⟨.ok (.reply reply), _, ?_, kept,
      ⟨array, resolved, reply, bound, looked, rfl, shows⟩, ?_⟩
    · simp only [Session.operate, runFrom_bind, run, runFrom_onHost, stepped, runFrom_liftM,
        runFrom_ofFault, mapError_ok, runFrom_pure]
    · simp only [defines, bound, looked]
      exact evolves

/-- The mapping of an array, if it has one; looking for it changes nothing. -/
theorem runFrom_liveRegion (session : Session) (array : BitArray) :
    (Exists fun region => runFrom (liveRegion array) session = (.ok region, session)) ∨
      Exists fun refusal => runFrom (liveRegion array) session = (.error refusal, session) := by
  cases array with
  | memory array | file array => exact .inr ⟨_, rfl⟩
  | mapped array =>
      simp only [liveRegion, runFrom_ofFault]
      cases array.live with
      | ok region => exact .inl ⟨region, rfl⟩
      | error fault => exact .inr ⟨.fault fault, rfl⟩

theorem Sound.compareArrays (sound : session.Sound) {name : String} {array : BitArray}
    (bound : session.arrays.get? name = some array) (other : String) :
    session.Fulfils (.array name (.equals other)) (performArray name (.equals other)) := by
  have found := found_of_some bound
  rcases session.runFrom_requireMemory name with ⟨left | left, leftRun⟩
  · refine sound.refused left rfl rfl ?_
    simp only [performArray, runFrom_bind, runFrom_requireArray, found, leftRun]
  rcases session.runFrom_requireMemory other with ⟨right | right, rightRun⟩
  · refine sound.refused right rfl rfl ?_
    simp only [performArray, runFrom_bind, runFrom_requireArray, found, leftRun, rightRun]
  refine sound.looked (.flag (left == right)) ?_ trivial rfl rfl
  simp only [performArray, runFrom_bind, runFrom_requireArray, found, leftRun, rightRun,
    runFrom_pure]

/-- The bytes in place are the ones that a snapshot copies. -/
theorem Sound.viewArray (sound : session.Sound) {name : String} {array : BitArray}
    (bound : session.arrays.get? name = some array) :
    session.Fulfils (.array name .view) (performArray name .view) := by
  have found := found_of_some bound
  have shot := (sound.arrays name array bound).runFrom_snapshot
  cases array with
  | memory array =>
      refine sound.looked (.bytes array.toBytes) ?_ ⟨_, _, bound, rfl, rfl⟩ rfl rfl
      simp only [performArray, runFrom_bind, runFrom_requireArray, found, runFrom_pure]
  | file array =>
      refine sound.refused .notOffered rfl rfl ?_
      simp only [performArray, runFrom_bind, runFrom_requireArray, found, runFrom_throw]
  | mapped array =>
      simp only [BitArray.snapshot] at shot
      cases shown : (BitArray.mapped array).shown session.host with
      | ok bytes =>
          refine sound.looked (.bytes bytes) ?_ ⟨_, bytes, bound, shown, rfl⟩ rfl rfl
          simp only [performArray, runFrom_bind, runFrom_requireArray, found,
            runFrom_onArrays, shot, shown, mapError_ok, runFrom_pure]
          rfl
      | error fault =>
          refine sound.refused (.fault fault) rfl rfl ?_
          simp only [performArray, runFrom_bind, runFrom_requireArray, found,
            runFrom_onArrays, shot, shown, mapError_error]
          rfl

theorem Sound.flushArrayRefused (sound : session.Sound) {name : String} {array : BitArray}
    (bound : session.arrays.get? name = some array) :
    session.Fulfils (.array name .flushRefused) (performArray name .flushRefused) := by
  have found := found_of_some bound
  rcases session.runFrom_liveRegion array with ⟨region, live⟩ | ⟨refusal, live⟩
  case inr =>
    refine sound.refused refusal rfl rfl ?_
    simp only [performArray, runFrom_bind, runFrom_requireArray, found, live]
  have quiet := quiet_whileSyncRefused array.flush session.host
    fun begun still => ((sound.arrays name array bound).evolves still).quiet_flush
  rcases flushed : runFrom (whileSyncRefused array.flush) session.host with ⟨outcome, after⟩
  rw [flushed] at quiet
  have run : runFrom (performArray name .flushRefused) session =
      ((outcome.mapError Refusal.fault).map fun _ => Answer.done, session.withHost after) := by
    simp only [performArray, runFrom_bind, runFrom_requireArray, found, live,
      runFrom_onArrays, flushed]
    cases outcome <;> rfl
  exact fulfils_idle run (sound.withHost quiet) quiet ⟨trivial, rfl, rfl, rfl, rfl⟩

theorem performArray_fulfils (sound : session.Sound) (name : String) (step : ArrayStep)
    (call : (Step.array name step).isCall = true) :
    session.Fulfils (.array name step) (performArray name step) := by
  cases bound : session.arrays.get? name with
  | none =>
      refine sound.refused (.unbound name) rfl rfl ?_
      simp only [performArray, runFrom_bind, runFrom_requireArray, found_of_none bound]
  | some array =>
      have found := found_of_some bound
      have whole := sound.arrays name array bound
      cases step with
      | raiseRange | lowerRange => contradiction
      | operate operation =>
          rcases sound.operate bound operation with ⟨outcome, next, run, fulfilled⟩
          refine ⟨outcome, next, ?_, fulfilled⟩
          simp only [performArray, runFrom_bind, runFrom_requireArray, found, run]
      | equals other => exact sound.compareArrays bound other
      | close =>
          rcases whole.close with ⟨outcome, next, after, closed, still, quiet⟩
          have run : runFrom (performArray name .close) session =
              ((outcome.mapError Refusal.fault).map fun _ => Answer.done,
                (keepArray name next (session.withHost after)).2) := by
            simp only [performArray, runFrom_bind, runFrom_requireArray, found, runFrom_onHost,
              closed, runFrom_liftM, runFrom_ofFault]
            cases outcome <;> rfl
          exact fulfils_idle run ((sound.withHost quiet).keepArray name still) quiet
            ⟨trivial, rfl, rfl, rfl, rfl⟩
      | isClosed =>
          refine sound.looked (.flag array.isClosed) ?_ trivial rfl rfl
          simp only [performArray, runFrom_bind, runFrom_requireArray, found, runFrom_pure]
      | capacity =>
          refine sound.looked (.number (BitContainer.capacity array)) ?_ trivial rfl rfl
          simp only [performArray, runFrom_bind, runFrom_requireArray, found, runFrom_pure]
      | byteLength =>
          refine sound.looked (.number (BitContainer.byteLength array)) ?_ trivial rfl rfl
          simp only [performArray, runFrom_bind, runFrom_requireArray, found, runFrom_pure]
      | bitSize =>
          refine sound.looked (.number (BitContainer.bitSize array)) ?_ trivial rfl rfl
          simp only [performArray, runFrom_bind, runFrom_requireArray, found, runFrom_pure]
      | describe =>
          refine sound.looked (.text array.describe) ?_ trivial rfl rfl
          simp only [performArray, runFrom_bind, runFrom_requireArray, found, runFrom_pure]
      | view => exact sound.viewArray bound
      | path =>
          cases array with
          | memory array =>
              refine sound.refused .notOffered rfl rfl ?_
              simp only [performArray, runFrom_bind, runFrom_requireArray, found, runFrom_throw]
          | file array | mapped array =>
              refine sound.looked (.text array.path) ?_ trivial rfl rfl
              simp only [performArray, runFrom_bind, runFrom_requireArray, found, runFrom_pure]
      | writeMode =>
          cases array with
          | memory array | mapped array =>
              refine sound.refused .notOffered rfl rfl ?_
              simp only [performArray, runFrom_bind, runFrom_requireArray, found, runFrom_throw]
          | file array =>
              refine sound.looked (.text array.mode.name) ?_ trivial rfl rfl
              simp only [performArray, runFrom_bind, runFrom_requireArray, found, runFrom_pure]
      | drop =>
          have quiet := array.quiet_drop session.host
          refine ⟨.ok .done, _, ?_, (sound.unbindArray name).withHost quiet, trivial, quiet⟩
          simp only [performArray, runFrom_bind, runFrom_requireArray, found,
            runFrom_liftM, runFrom_onHost, runFrom_pure]
          rfl
      | forbidRelease =>
          rcases session.runFrom_liveRegion array with ⟨region, live⟩ | ⟨refusal, live⟩
          · have quiet := session.host.quiet_forbidRelease region.mapping
            refine ⟨.ok .done, _, ?_, sound.withHost quiet, trivial, quiet⟩
            simp only [performArray, runFrom_bind, runFrom_requireArray, found, live,
              runFrom_onHost, runFrom_pure]
          · refine sound.refused refusal rfl rfl ?_
            simp only [performArray, runFrom_bind, runFrom_requireArray, found, live]
      | flushRefused => exact sound.flushArrayRefused bound

/-! ## New arrays -/

/-- What a construction may come to: a whole array, or a refusal that has at most
extended a file. -/
def Constructs (session : Session) (construction : Construction)
    (action : SessionM BitArray) : Prop :=
  Exists fun outcome => Exists fun after =>
    runFrom action session = (outcome, session.withHost after) ∧
    match outcome with
    | .ok array =>
        array.Whole after ∧
          session.host.Evolves after (fun _ _ => none) (session.buildReach construction)
    | .error _ =>
        session.host.Quiet after ∨
          session.host.Evolves after (fun _ _ => none) (session.buildReach construction)

variable {construction : Construction} {construct : SessionM BitArray}

theorem constructs_refused (run : runFrom construct session = (.error refusal, session)) :
    session.Constructs construction construct :=
  ⟨.error refusal, session.host, run, .inl (Host.Quiet.refl session.host)⟩

theorem constructs_memory (array : MemoryArray)
    (run : runFrom construct session = (.ok (.memory array), session))
    (still : session.buildReach construction = fun _ => 0) :
    session.Constructs construction construct := by
  refine ⟨.ok (.memory array), session.host, run, .inr (.memory array), ?_⟩
  rw [still]
  exact Host.Quiet.refl session.host

/-- An array in memory is made without the host. -/
theorem constructs_made {made : Except Fault MemoryArray}
    (run : runFrom construct session =
      runFrom (ofFault made >>= fun array => pure (BitArray.memory array)) session)
    (still : session.buildReach construction = fun _ => 0) :
    session.Constructs construction construct := by
  simp only [runFrom_bind, runFrom_ofFault] at run
  cases made with
  | ok array => exact constructs_memory array run still
  | error fault => exact constructs_refused run

/-- Options open an array, once their backing and their write mode mean something. -/
theorem constructs_options (sound : session.Sound) (capacity : Nat)
    (backing mode path : Option String) :
    session.Constructs (.options capacity backing mode path)
      (Session.construct (.options capacity backing mode path)) := by
  cases backed : meaning? Backing.ofName? .memory backing with
  | none =>
      apply constructs_refused
      simp only [Session.construct, runFrom_bind, runFrom_meaning, backed, Option.elim_none]
      rfl
  | some kind =>
      cases meant : meaning? WriteMode.ofName? .durable mode with
      | none =>
          apply constructs_refused
          simp only [Session.construct, runFrom_bind, runFrom_meaning, backed,
            Option.elim_some, runFrom_writeMode, meant, Option.elim_none]
          rfl
      | some durability =>
          let options : Options :=
            { capacity := capacity, backing := kind, writeMode := durability }
          have reached : session.buildReach (.options capacity backing mode path) =
              options.openingReach session.host path := by
            simp only [buildReach, backed]
            rfl
          have run : runFrom (Session.construct (.options capacity backing mode path)) session =
              runFrom (onArrays (options.openAt path)) session := by
            simp only [Session.construct, runFrom_bind, runFrom_meaning, backed,
              Option.elim_some, runFrom_writeMode, meant]
            rfl
          rw [runFrom_onArrays] at run
          rcases options.openAt_cases sound.host path
            with ⟨array, after, opened, intact, evolves⟩ | ⟨fault, after, refused, effect⟩
          · rw [opened, mapError_ok] at run
            rw [← reached] at evolves
            exact ⟨.ok array, after, run, .inr intact, evolves⟩
          · rw [refused, mapError_error] at run
            rw [← reached] at effect
            exact ⟨.error (.fault fault), after, run, effect⟩

theorem construct_constructs (sound : session.Sound) (construction : Construction) :
    session.Constructs construction (Session.construct construction) := by
  cases construction with
  | empty capacity => exact constructs_made rfl rfl
  | bytes bytes capacity => exact constructs_made rfl rfl
  | copy other =>
      rcases session.runFrom_requireMemory other with ⟨refusal | array, found⟩
      · apply constructs_refused
        simp only [Session.construct, runFrom_bind, found]
        rfl
      · refine constructs_memory array ?_ rfl
        simp only [Session.construct, runFrom_bind, found, runFrom_pure]
  | file path capacity mode =>
      cases meant : meaning? WriteMode.ofName? .durable mode with
      | none =>
          apply constructs_refused
          simp only [Session.construct, runFrom_bind, runFrom_writeMode, meant, Option.elim_none]
          rfl
      | some mode =>
          rcases FileArray.openAt_cases sound.host path capacity mode
            with ⟨array, after, opened, intact, evolves⟩ | ⟨fault, after, refused, quiet⟩
          · refine ⟨.ok (.file array), after, ?_, .inr intact, evolves⟩
            simp only [Session.construct, runFrom_bind, runFrom_writeMode, meant, Option.elim_some,
              runFrom_onArrays, opened, mapError_ok, runFrom_pure]
          · refine ⟨.error (.fault fault), after, ?_, .inl quiet⟩
            simp only [Session.construct, runFrom_bind, runFrom_writeMode, meant, Option.elim_some,
              runFrom_onArrays, refused, mapError_error]
  | mapped path capacity mode =>
      cases meant : meaning? WriteMode.ofName? .durable mode with
      | none =>
          apply constructs_refused
          simp only [Session.construct, runFrom_bind, runFrom_writeMode, meant, Option.elim_none]
          rfl
      | some mode =>
          rcases MappedArray.openAt_cases sound.host path capacity mode
            with ⟨array, after, opened, intact, evolves⟩ | ⟨fault, after, refused, effect⟩
          · refine ⟨.ok (.mapped array), after, ?_, .inr intact, evolves⟩
            simp only [Session.construct, runFrom_bind, runFrom_writeMode, meant, Option.elim_some,
              runFrom_onArrays, opened, mapError_ok, runFrom_pure]
          · refine ⟨.error (.fault fault), after, ?_, effect⟩
            simp only [Session.construct, runFrom_bind, runFrom_writeMode, meant, Option.elim_some,
              runFrom_onArrays, refused, mapError_error]
  | options capacity backing mode path =>
      exact constructs_options sound capacity backing mode path

/-- A new array takes its name over as soon as it is there. -/
theorem build_fulfils (sound : session.Sound) (name : String) (construction : Construction) :
    session.Fulfils (.build name construction) (perform (.build name construction)) := by
  rcases construct_constructs sound construction with ⟨refusal | array, after, run, effect⟩
  · have refused : runFrom (perform (.build name construction)) session =
        (.error refusal, session.withHost after) := by
      simp only [perform, runFrom_bind, run]
    rcases effect with quiet | evolves
    · exact fulfils_error refused (sound.withHost quiet) quiet rfl fun _ => .inl rfl
    · exact ⟨_, _, refused, sound.withHost evolves, _, fun _ => .inr rfl, evolves⟩
  · rcases effect with ⟨whole, evolves⟩
    rcases (sound.withHost evolves).bindArray name whole with ⟨named, given⟩
    refine ⟨.ok .done, _, ?_, named, trivial, evolves.then_quiet given⟩
    simp only [perform, runFrom_bind, run, runFrom_liftM, runFrom_pure]

/-! ## Steps -/

/-- Every step of an opener keeps to its description, and leaves a sound session. -/
theorem perform_fulfils (sound : session.Sound) (step : Step) (call : step.isCall = true) :
    session.Fulfils step (perform step) := by
  cases step with
  | build name construction => exact build_fulfils sound name construction
  | array name step => exact performArray_fulfils sound name step call
  | handle name step => exact performHandle_fulfils sound name step
  | region name step => exact performRegion_fulfils sound name step
  | file step | unmapped step => contradiction

end Session
end BitStore
