import BitStore.Proofs.Session.Ledger
import BitStore.Proofs.Session.Platforms
import BitStore.Proofs.Session.Steps

namespace BitStore

/-!
# Steps that release nothing

Most steps give nothing up.  Such a step enters no release in the ledger, and all that had
an owner before it has one behind it.  In the course of a step a mapping may be gained that
nothing has given a name to yet, as when an array is opened; an action brings what its
value owns, or nothing when it is refused.
-/

/-- Whether a step may give a mapping up: the one that it names, or the one whose name it
hands on. -/
def Step.gives : Step -> Bool
  | .build _ _ => true
  | .array _ .close | .array _ .drop => true
  | .region _ (.map _ _) | .region _ .unmap | .region _ .drop => true
  | _ => false

namespace Session

/-- What has become of a session in which nothing was released: the books balance with what
they balanced with before, and with a mapping that was gained, if any. -/
structure Gains (session after : Session) (gained : Option Mapping) : Prop where
  platform : after.host.platform = session.host.platform
  releases : after.host.ledger.releases = session.host.ledger.releases
  maps : gained = none ∨ session.host.platform = .mapping
  balanced : forall start loose, session.Balanced start loose ->
    after.Balanced start (gained.toList ++ loose)

variable {session after : Session} {gained : Option Mapping}

theorem Gains.refl (session : Session) : session.Gains session none where
  platform := rfl
  releases := rfl
  maps := .inl rfl
  balanced _ _ balanced := balanced

theorem Gains.trans {between : Session} (first : session.Gains between none)
    (second : between.Gains after gained) : session.Gains after gained where
  platform := second.platform.trans first.platform
  releases := second.releases.trans first.releases
  maps := first.platform ▸ second.maps
  balanced start loose balanced := second.balanced start loose (first.balanced start loose balanced)

theorem gains_of_grants {host : Host} (grants : session.host.Grants host gained) :
    session.Gains (session.withHost host) gained where
  platform := grants.platform
  releases := grants.releases
  maps := grants.maps
  balanced start loose balanced := by
    refine balanced.withHost ?_
    rw [List.append_assoc]
    exact grants.owes balanced.owes

theorem gains_of_keeps {host : Host} (keeps : session.host.Keeps host) :
    session.Gains (session.withHost host) none :=
  gains_of_grants (.nothing keeps)

/-- Forbidding a release is no release. -/
theorem gains_forbidRelease (session : Session) (mapping : Mapping) :
    session.Gains (session.withHost (Host.forbidRelease mapping session.host).2) none where
  platform := rfl
  releases := rfl
  maps := .inl rfl
  balanced _ _ balanced := balanced.forbidRelease mapping

theorem gains_handles (session : Session) (handles : Bindings Handle) :
    session.Gains { session with handles := handles } none where
  platform := rfl
  releases := rfl
  maps := .inl rfl
  balanced _ _ balanced := balanced.handles handles

/-- An array whose mapping has not changed takes the place of the earlier one. -/
theorem gains_replaceArray {name : String} {array next : BitArray}
    (bound : session.arrays.get? name = some array) (same : next.mapping? = array.mapping?) :
    session.Gains (keepArray name next session).2 none where
  platform := rfl
  releases := rfl
  maps := .inl rfl
  balanced _ _ balanced := balanced.replaceArray bound same

/-- An action releases nothing, and gains what its value owns. -/
def Brings {α : Type} (session : Session) (action : SessionM α) (owns : α -> Option Mapping) :
    Prop :=
  session.Gains (runFrom action session).2 ((runFrom action session).1.toOption.bind owns)

/-- An action after which nothing is gained or released. -/
def Still {α : Type} (session : Session) (action : SessionM α) : Prop :=
  session.Brings action fun _ => none

section

variable {α β : Type} {action : SessionM α} {next : α -> SessionM β}

theorem still_of_gains (gains : session.Gains (runFrom action session).2 none) :
    session.Still action := by
  rw [Still, Brings]
  cases (runFrom action session).1 with
  | ok | error => exact gains

theorem Still.gains (still : session.Still action) :
    session.Gains (runFrom action session).2 none := by
  rw [Still, Brings] at still
  generalize runFrom action session = result at still ⊢
  rcases result with ⟨refusal | value, after⟩ <;> exact still

/-- What comes behind an action that gains nothing brings all there is. -/
theorem Brings.bind {owns : β -> Option Mapping} (first : session.Brings action fun _ => none)
    (second : forall value after, runFrom action session = (.ok value, after) ->
      after.Brings (next value) owns) : session.Brings (action >>= next) owns := by
  have kept := Still.gains first
  rw [Brings, runFrom_bind]
  rcases ended : runFrom action session with ⟨refusal | value, after⟩
  · rw [ended] at kept
    exact kept
  · rw [ended] at kept
    exact kept.trans (second value after ended)

theorem brings_pure {owns : α -> Option Mapping} {value : α} (nothing : owns value = none) :
    session.Brings (pure value) owns := by
  change session.Gains session (owns value)
  rw [nothing]
  exact .refl session

theorem still_pure (session : Session) (value : α) : session.Still (pure value) :=
  brings_pure rfl

/-- An action that only looks at the session, and what comes behind it. -/
theorem brings_looked {owns : β -> Option Mapping} {outcome : Except Refusal α}
    (run : runFrom action session = (outcome, session))
    (second : forall value, outcome = .ok value -> session.Brings (next value) owns) :
    session.Brings (action >>= next) owns := by
  rw [Brings, runFrom_bind, run]
  cases outcome with
  | ok value => exact second value rfl
  | error refusal => exact .refl session

/-- The same where a name was looked up. -/
theorem brings_found {owns : β -> Option Mapping} {bindings : Bindings α} {name : String}
    (run : runFrom action session = (found bindings name, session))
    (second : forall value, bindings.get? name = some value ->
      session.Brings (next value) owns) : session.Brings (action >>= next) owns :=
  brings_looked run fun value looked => second value (get?_of_found looked)

end

section

variable {α : Type}

/-- An action that may fail on the host; its failure is the reason of the refusal. -/
theorem brings_of_failing {ε : Type} {action : SessionM α} {ran : ExceptT ε (StateM Host) α}
    {refuse : ε -> Refusal} {owns : α -> Option Mapping}
    (run : runFrom action session =
      ((runFrom ran session.host).1.mapError refuse,
        session.withHost (runFrom ran session.host).2))
    (brings : Host.Brings ran owns) : session.Brings action owns := by
  have granted := brings session.host
  rw [Brings, run]
  generalize runFrom ran session.host = result at granted ⊢
  rcases result with ⟨reason | value, after⟩ <;> exact gains_of_grants granted

theorem brings_onArrays {action : ArrayM α} {owns : α -> Option Mapping}
    (brings : Host.Brings action owns) : session.Brings (onArrays action) owns :=
  brings_of_failing (session.runFrom_onArrays action) brings

theorem brings_onStorage {action : HostM α} {owns : α -> Option Mapping}
    (brings : Host.Brings action owns) : session.Brings (onStorage action) owns :=
  brings_of_failing (session.runFrom_onStorage action) brings

theorem still_onHost {action : StateM Host α} (keeps : session.host.Keeps (action session.host).2) :
    session.Still (onHost action) :=
  gains_of_keeps keeps

/-- An answer that storage gives. -/
theorem still_stored {action : HostM α}
    (keeps : forall host : Host, host.Keeps (runFrom action host).2) (answer : α -> Answer) :
    session.Still (do return answer (← onStorage action)) :=
  (brings_onStorage (Host.brings_of_keeps keeps)).bind fun _ after _ => after.still_pure _

end

theorem keeps_whileSyncRefused {ε α : Type} {action : ExceptT ε (StateM Host) α}
    (keeps : forall host : Host, host.Keeps (runFrom action host).2) (host : Host) :
    host.Keeps (runFrom (whileSyncRefused action) host).2 := by
  have during := keeps { host with syncRefused := true }
  rw [runFrom_whileSyncRefused]
  exact ⟨during.platform, during.ledger⟩

/-! ## Steps on files, handles and regions -/

theorem still_performFile (session : Session) (step : FileStep) :
    session.Still (performFile step) := by
  cases step with
  | write path bytes => exact still_stored (Host.aloof_writeFile path bytes).keeps fun _ => .done
  | read path => exact still_stored (Host.aloof_readFile path).keeps .bytes
  | makeDirectory path | remove path =>
      exact still_stored (Host.aloof_changeVolume _).keeps fun _ => .done
  | resize path size => exact still_stored (Host.aloof_resizeFile path size).keeps fun _ => .done
  | presence path =>
      exact (still_onHost ((Host.aloof_presence path).keeps _)).bind fun _ after _ =>
        after.still_pure _

theorem still_performHandle (session : Session) (name : String) (step : HandleStep) :
    session.Still (performHandle name step) := by
  cases step with
  | openAt path mode create =>
      refine brings_looked (session.runFrom_writeMode mode) fun mode _ => ?_
      exact (brings_onStorage (Handle.aloof_openAt path mode create).brings).bind
        fun handle after _ => after.gains_handles _
  | ensureLength least =>
      exact brings_found (session.runFrom_requireHandle name) fun handle _ =>
        still_stored (handle.aloof_ensureLength least).keeps fun length => .number length.val
  | readByte position =>
      exact brings_found (session.runFrom_requireHandle name) fun handle _ =>
        still_stored (handle.aloof_readByte position).keeps fun byte => .number byte.toNat
  | writeByte position value =>
      exact brings_found (session.runFrom_requireHandle name) fun handle _ =>
        still_stored (handle.aloof_writeByte position value).keeps fun _ => .done
  | read position count =>
      exact brings_found (session.runFrom_requireHandle name) fun handle _ =>
        still_stored (handle.aloof_read position count).keeps .bytes
  | write position bytes =>
      exact brings_found (session.runFrom_requireHandle name) fun handle _ =>
        still_stored (handle.aloof_write position bytes).keeps fun _ => .done
  | drop =>
      exact brings_found (session.runFrom_requireHandle name) fun handle _ =>
        session.gains_handles _

theorem still_performRegion (session : Session) (name : String) (step : RegionStep)
    (keeping : (Step.region name step).gives = false) :
    session.Still (performRegion name step) := by
  cases step with
  | map | unmap | drop => contradiction
  | extent | describe =>
      exact brings_found (session.runFrom_requireRegion name) fun region _ => session.still_pure _
  | view =>
      refine brings_found (session.runFrom_requireRegion name) fun region _ => ?_
      exact (still_onHost (region.aloof_view.keeps _)).bind fun _ after _ => after.still_pure _
  | store position bytes =>
      refine brings_found (session.runFrom_requireRegion name) fun region _ => ?_
      exact (still_onHost ((region.aloof_store position bytes).keeps _)).bind fun _ after _ =>
        after.still_pure _
  | flush =>
      exact brings_found (session.runFrom_requireRegion name) fun region _ =>
        still_stored region.keeps_flush fun _ => .done
  | forbidRelease =>
      exact brings_found (session.runFrom_requireRegion name) fun region _ =>
        session.gains_forbidRelease region.mapping
  | flushRefused =>
      exact brings_found (session.runFrom_requireRegion name) fun region _ =>
        still_stored (keeps_whileSyncRefused region.keeps_flush) fun _ => .done

/-! ## Steps on arrays -/

section

variable {array : BitArray} {name : String}

/-- An array that is given back with its shell is kept where it was. -/
theorem still_kept {α : Type} {action : StateM Host (Except Fault α × BitArray)}
    (bound : session.arrays.get? name = some array)
    (keeps : session.host.Keeps (action session.host).2)
    (shell : (action session.host).1.2.shell = array.shell) (answer : α -> Answer) :
    session.Still (do
      let (outcome, next) ← onHost action
      keepArray name next
      return answer (← ofFault outcome)) := by
  have begun : (session.withHost (action session.host).2).arrays.get? name = some array := bound
  have replaced := gains_replaceArray begun (BitArray.mapping?_of_shell shell)
  refine still_of_gains ?_
  have kept := (gains_of_keeps keeps).trans replaced
  rw [runFrom_bind, runFrom_onHost]
  generalize action session.host = result at kept ⊢
  rcases result with ⟨⟨fault | value, next⟩, host⟩ <;> exact kept

theorem still_operate (bound : session.arrays.get? name = some array)
    (operation : Operation String) : session.Still (operate name array operation) := by
  have looked : Exists fun outcome =>
      runFrom (operation.resolve requireArray) session = (outcome, session) := by
    rcases session.runFrom_resolve operation with ⟨resolved, run, _⟩ | ⟨refusal, run⟩
    · exact ⟨_, run⟩
    · exact ⟨_, run⟩
  rcases looked with ⟨outcome, run⟩
  refine brings_looked run fun resolved _ => ?_
  exact still_kept bound (array.keeps_step resolved session.host)
    (array.step_shell resolved session.host) .reply

theorem still_sweep (bound : session.arrays.get? name = some array)
    (change : BitAddress -> UInt8 -> UInt8) (first last stride : Nat) :
    session.Still (sweep name array change first last stride) := by
  have aloof := BitArray.aloof_sweep change stride array first 0 (rangeCount first last stride)
  exact still_kept bound (aloof.keeps session.host)
    (array.sweep_shell change stride first 0 (rangeCount first last stride) session.host) .number

theorem still_liveRegion {next : Region -> SessionM Answer}
    (second : forall region, session.Still (next region)) :
    session.Still (liveRegion array >>= next) := by
  rcases session.runFrom_liveRegion array with ⟨region, live⟩ | ⟨refusal, live⟩
  · exact brings_looked live fun region _ => second region
  · exact brings_looked live fun region _ => second region

theorem still_performArray (session : Session) (name : String) (step : ArrayStep)
    (keeping : (Step.array name step).gives = false) :
    session.Still (performArray name step) := by
  refine brings_found (session.runFrom_requireArray name) fun array bound => ?_
  cases step with
  | close | drop => contradiction
  | operate operation => exact still_operate bound operation
  | raiseRange first last stride => exact still_sweep bound _ first last stride
  | lowerRange first last stride => exact still_sweep bound _ first last stride
  | equals other =>
      rcases session.runFrom_requireMemory name with ⟨left, leftRun⟩
      rcases session.runFrom_requireMemory other with ⟨right, rightRun⟩
      refine brings_looked leftRun fun left _ => ?_
      exact brings_looked rightRun fun right _ => session.still_pure _
  | isClosed | capacity | byteLength | bitSize | describe => exact session.still_pure _
  | view =>
      cases array with
      | memory array => exact session.still_pure _
      | file array => exact .refl session
      | mapped array =>
          exact (brings_onArrays array.aloof_snapshot.brings).bind fun _ after _ =>
            after.still_pure _
  | path =>
      cases array with
      | memory array => exact .refl session
      | file array | mapped array => exact session.still_pure _
  | writeMode =>
      cases array with
      | memory array | mapped array => exact .refl session
      | file array => exact session.still_pure _
  | forbidRelease =>
      exact still_liveRegion fun region => session.gains_forbidRelease region.mapping
  | flushRefused =>
      refine still_liveRegion fun region => ?_
      have keeps := keeps_whileSyncRefused array.keeps_flush
      exact (brings_onArrays (Host.brings_of_keeps keeps)).bind fun _ after _ =>
        after.still_pure _

end

/-! ## New arrays -/

theorem brings_made {made : Except Fault MemoryArray} :
    session.Brings (do return BitArray.memory (← ofFault made)) BitArray.mapping? := by
  cases made with
  | ok | error => exact .refl session

/-- A value that is made into another one takes what it owns along. -/
theorem Brings.map {α β : Type} {action : SessionM α} {owns : α -> Option Mapping}
    (brings : session.Brings action owns) {make : α -> β} {takes : β -> Option Mapping}
    (same : forall value, takes (make value) = owns value) :
    session.Brings (do return make (← action)) takes := by
  rw [Brings] at brings
  rw [Brings, runFrom_bind]
  generalize runFrom action session = result at brings ⊢
  rcases result with ⟨refusal | value, after⟩
  · exact brings
  · change session.Gains after (takes (make value))
    rw [same]
    exact brings

/-- A new array brings its mapping, if it has one. -/
theorem brings_construct (session : Session) (construction : Construction) :
    session.Brings (construct construction) BitArray.mapping? := by
  cases construction with
  | empty capacity => exact brings_made
  | bytes bytes capacity => exact brings_made
  | copy other =>
      rcases session.runFrom_requireMemory other with ⟨outcome, run⟩
      exact brings_looked run fun array _ => brings_pure rfl
  | file path capacity mode =>
      refine brings_looked (session.runFrom_writeMode mode) fun mode _ => ?_
      exact (brings_onArrays (FileArray.aloof_openAt path capacity mode).brings).map fun _ => rfl
  | mapped path capacity mode =>
      refine brings_looked (session.runFrom_writeMode mode) fun mode _ => ?_
      exact (brings_onArrays (MappedArray.brings_openAt path capacity mode)).map fun _ => rfl
  | options capacity backing mode path =>
      refine brings_looked (session.runFrom_meaning _ _ backing) fun backing _ => ?_
      refine brings_looked (session.runFrom_writeMode mode) fun mode _ => ?_
      exact brings_onArrays (Options.brings_openAt _ path)

/-! ## Steps without mappings -/

section

variable (unavailable : session.host.platform = .withoutMapping)

include unavailable

/-- Nothing is gained where nothing can be mapped. -/
theorem Gains.nothing (gains : session.Gains after gained) : gained = none := by
  refine gains.maps.resolve_right fun maps => ?_
  rw [unavailable] at maps
  contradiction

/-- There an action that might bring something is followed by one that need not care. -/
theorem Brings.bind_unavailable {α β : Type} {action : SessionM α} {owns : α -> Option Mapping}
    {next : α -> SessionM β} {takes : β -> Option Mapping} (brings : session.Brings action owns)
    (second : forall value (after : Session), owns value = none ->
      after.Brings (next value) takes) :
    session.Brings (action >>= next) takes := by
  have nothing := Gains.nothing unavailable brings
  rw [Brings, nothing] at brings
  refine (still_of_gains brings).bind fun value after ended => second value after ?_
  rw [ended] at nothing
  exact nothing

end

/-- What is refused at once changes nothing. -/
theorem still_refused {α β : Type} {action : HostM α} {next : α -> SessionM β}
    {cause : StorageError}
    (refused : runFrom action session.host = (.error cause, session.host)) :
    session.Still (onStorage action >>= next) := by
  have run : runFrom (onStorage action) session = (.error (.storage cause), session) := by
    rw [runFrom_onStorage, refused]
    rfl
  exact brings_looked run fun value looked => by cases looked

/-- Nothing is released with an array that has no mapping. -/
theorem still_drop (session : Session) {array : BitArray} (plain : array.mapping? = none) :
    session.Still (onHost array.drop) := by
  refine still_onHost ?_
  rw [BitArray.drop_of_plain plain]
  exact .refl _

theorem still_performUnmapped (unavailable : session.host.platform = .withoutMapping)
    (step : UnmappedStep) : session.Still (performUnmapped step) := by
  cases step with
  | openMapped path capacity mode =>
      refine brings_looked (session.runFrom_writeMode mode) fun mode _ => ?_
      refine Brings.bind_unavailable unavailable
        (brings_onArrays (MappedArray.brings_openAt path capacity mode)) ?_
      intro array after plain
      exact (still_drop after plain).bind fun _ last _ => last.still_pure _
  | openOptions capacity backing mode path indices =>
      refine Brings.bind_unavailable unavailable (session.brings_construct _) ?_
      intro array after plain
      -- The array is in memory or in a file, so that nothing is released with it.
      have read : Host.Aloof (raiseAndRead array indices).run := aloof_raiseAndRead indices
      refine (still_onHost (read.keeps after.host)).bind fun outcome between _ => ?_
      refine (still_drop between plain).bind fun _ last _ => ?_
      cases outcome with
      | ok | error => exact .refl last
  | map handle length =>
      refine brings_found (session.runFrom_requireHandle handle) fun handle _ => ?_
      exact still_refused (Region.runFrom_map_unavailable unavailable handle length)
  | flush length => exact still_refused (Host.runFrom_sync_unavailable unavailable _)
  | unmap length => exact still_refused (Host.runFrom_release_unavailable unavailable _)

end Session
end BitStore
