import BitStore.Proofs.Session.Steady

namespace BitStore

/-!
# Sessions on platforms with and without mappings

A step maps if it opens an array in a mapping or asks for a region.  All other steps are
steady for every platform, and all steps are for the one without mappings, where nothing
is ever mapped.
-/

/-- Whether a construction asks for a mapping. -/
def Construction.maps : Construction -> Bool
  | .mapped _ _ _ => true
  | .options _ backing _ _ => Session.meaning? Backing.ofName? .memory backing == some .mappedFile
  | _ => false

/-- Whether a step asks the platform of the session for a mapping. -/
def Step.maps : Step -> Bool
  | .build _ construction => construction.maps
  | .region _ (.map _ _) => true
  | _ => false

/-- Arrays with one shell are mapped alike. -/
theorem BitArray.isMapped_of_shell {array next : BitArray} (same : next.shell = array.shell) :
    next.isMapped = array.isMapped := by
  have shell (array : BitArray) : array.shell.isMapped = array.isMapped := by
    cases array <;> rfl
  rw [← shell next, same, shell array]

namespace Session

/-- Where something is to be mapped, no other platform is thought of than the one that
cannot. -/
def Allows (platforms : Platform -> Prop) (maps : Bool) : Prop :=
  maps = true -> platforms = (· = .withoutMapping)

variable {platforms : Platform -> Prop}

/-! ## New arrays -/

/-- An array that is opened is only mapped where its backing is the mapping. -/
theorem isMapped_of_openAt {options : Options} {path : Option String} {host after : Host}
    {array : BitArray} (unmapped : options.backing ≠ .mappedFile)
    (opened : runFrom (options.openAt path) host = (.ok array, after)) :
    array.isMapped = false := by
  rcases options with ⟨capacity, backing, mode⟩
  cases backing with
  | memory =>
      rcases runFrom_ok_of_return opened with ⟨made, _, rfl⟩
      rfl
  | file =>
      rcases runFrom_bind_ok opened with ⟨path, last, _, rest⟩
      rcases runFrom_ok_of_return rest with ⟨made, _, rfl⟩
      rfl
  | mappedFile => contradiction

/-- Nothing that would be mapped is ever opened without mappings. -/
theorem steady_openMapped (path : String) (capacity : Nat) (mode : WriteMode)
    {brings : MappedArray -> Prop} :
    Steady (· = .withoutMapping) (onArrays (MappedArray.openAt path capacity mode)) brings := by
  refine steady_onArrays (Host.aloofOn_unavailable
    (MappedArray.aloof_openUnmapped path capacity mode) fun host unavailable =>
      MappedArray.runFrom_openAt_unavailable unavailable path capacity mode) ?_
  intro host unavailable array after opened
  rw [MappedArray.runFrom_openAt_unavailable unavailable] at opened
  exact absurd opened (MappedArray.openUnmapped_fails path capacity mode array after)

theorem steady_openOptions (options : Options) (path : Option String)
    (allowed : Allows platforms (options.backing == .mappedFile)) :
    Steady platforms (onArrays (options.openAt path)) (fun array => array.isMapped = false) := by
  by_cases mapped : options.backing = .mappedFile
  · rw [allowed (beq_iff_eq.mpr mapped)]
    refine steady_onArrays (Host.aloofOn_unavailable (options.aloof_openUnmapped path)
      fun host unavailable => Options.runFrom_openAt_unavailable mapped unavailable path) ?_
    intro host unavailable array after opened
    rw [Options.runFrom_openAt_unavailable mapped unavailable] at opened
    exact absurd opened (Options.openUnmapped_fails path array after)
  · refine steady_onArrays ((options.aloof_openAt path mapped).on platforms) ?_
    exact fun _ _ _ _ opened => isMapped_of_openAt mapped opened

theorem steady_construct (construction : Construction)
    (allowed : Allows platforms construction.maps) :
    Steady platforms (construct construction) (fun array => array.isMapped = false) := by
  cases construction with
  | empty capacity =>
      exact (steady_ofFault fun _ _ => trivial).bind fun _ (_ : True) => steady_pure rfl
  | bytes bytes capacity =>
      exact (steady_ofFault fun _ _ => trivial).bind fun _ (_ : True) => steady_pure rfl
  | copy other => exact (steady_requireMemory other).bind fun _ _ => steady_pure rfl
  | file path capacity mode =>
      refine (steady_meaning _ _ mode).bind fun mode _ => ?_
      have opened := (FileArray.aloof_openAt path capacity mode).on platforms
      refine (steady_onArrays opened fun _ _ _ _ _ => trivial).bind fun _ (_ : True) => ?_
      exact steady_pure rfl
  | mapped path capacity mode =>
      rw [allowed rfl]
      refine (steady_meaning _ _ mode).bind fun mode _ => ?_
      exact (steady_openMapped path capacity mode).bind fun _ (never : False) => never.elim
  | options capacity backing mode path =>
      refine (steady_meaning _ _ backing).bind fun kind meant => ?_
      refine (steady_meaning _ _ mode).bind fun mode _ => ?_
      refine steady_openOptions _ path ?_
      intro mapped
      refine allowed ?_
      have named : kind = .mappedFile := beq_iff_eq.mp mapped
      rw [Construction.maps, meant, named]
      rfl

/-! ## Steps on arrays -/

/-- An array that is given back, still without a mapping, is kept where it was. -/
theorem steady_kept {α : Type} (name : String)
    {action : StateM Host (Except Fault α × BitArray)} (aloof : Host.Aloof action)
    (plain : forall host, (action host).1.2.isMapped = false) (answer : α -> Answer) :
    Steady platforms (do
      let (outcome, array) ← onHost action
      keepArray name array
      return answer (← ofFault outcome)) (fun _ => True) := by
  have acted : Steady platforms (onHost action) (fun result => result.2.isMapped = false) :=
    steady_onHost (aloof.on platforms) plain
  refine acted.bind fun result still => (steady_keepArray name still).bind fun _ _ => ?_
  exact (steady_ofFault fun _ _ => trivial).bind fun _ (_ : True) => steady_pure trivial

theorem steady_operate (name : String) {array : BitArray} (plain : array.isMapped = false)
    (operation : Operation String) :
    Steady platforms (operate name array operation) (fun _ => True) := by
  refine (steady_resolve operation).bind fun resolved _ => ?_
  have read (operand : BitArray) (_ : resolved.operand? = some operand) :
      Host.Aloof (runFrom (BitContainer.snapshot operand)) := operand.aloof_snapshot
  refine steady_kept name (BitArray.aloof_step read fun _ => plain) ?_ .reply
  exact fun host => (BitArray.isMapped_of_shell (array.step_shell resolved host)).trans plain

theorem steady_sweep (name : String) {array : BitArray} (plain : array.isMapped = false)
    (change : BitAddress -> UInt8 -> UInt8) (first last stride : Nat) :
    Steady platforms (sweep name array change first last stride) (fun _ => True) := by
  have shell := BitArray.sweep_shell change stride array first 0 (rangeCount first last stride)
  refine steady_kept name
    (BitArray.aloof_sweep change stride array first 0 (rangeCount first last stride)) ?_ .number
  exact fun host => (BitArray.isMapped_of_shell (shell host)).trans plain

/-- There is no open mapping to get hold of. -/
theorem steady_liveRegion {array : BitArray} (plain : array.isMapped = false) :
    Steady platforms (liveRegion array) (fun _ => False) := by
  cases array with
  | memory array | file array => exact steady_throw _
  | mapped array => contradiction

theorem isMapped_close {array : BitArray} (plain : array.isMapped = false) (host : Host) :
    (array.close host).1.2.isMapped = false := by
  cases array with
  | memory array | file array => rfl
  | mapped array => contradiction

theorem steady_performArray (name : String) (step : ArrayStep) :
    Steady platforms (performArray name step) (fun _ => True) := by
  refine (steady_requireArray name).bind fun array plain => ?_
  cases step with
  | operate operation => exact steady_operate name plain operation
  | raiseRange first last stride => exact steady_sweep name plain _ first last stride
  | lowerRange first last stride => exact steady_sweep name plain _ first last stride
  | equals other =>
      refine (steady_requireMemory name).bind fun left _ => ?_
      exact (steady_requireMemory other).bind fun right _ => steady_pure trivial
  | close =>
      exact steady_kept name (BitArray.aloof_close plain) (isMapped_close plain) fun _ => .done
  | isClosed | capacity | byteLength | bitSize | describe => exact steady_pure trivial
  | view =>
      cases array with
      | memory array => exact steady_pure trivial
      | file array => exact steady_throw _
      | mapped array => contradiction
  | path =>
      cases array with
      | memory array => exact steady_throw _
      | file array => exact steady_pure trivial
      | mapped array => contradiction
  | writeMode =>
      cases array with
      | memory array => exact steady_throw _
      | file array => exact steady_pure trivial
      | mapped array => contradiction
  | drop =>
      refine (steady_unbindArray name).bind fun _ _ => ?_
      have dropped := (BitArray.aloof_drop plain).on platforms
      exact (steady_onHost dropped fun _ => trivial).bind fun _ (_ : True) => steady_pure trivial
  | forbidRelease | flushRefused =>
      exact (steady_liveRegion plain).bind fun _ never => never.elim

/-! ## Steps on files, handles and regions -/

/-- An answer that storage gives. -/
theorem steady_stored {α : Type} {action : HostM α} (aloof : Host.Aloof (runFrom action))
    (answer : α -> Answer) :
    Steady platforms (do return answer (← onStorage action)) (fun _ => True) :=
  (steady_onStorage (aloof.on platforms) fun _ _ _ _ _ => trivial).bind
    fun _ (_ : True) => steady_pure trivial

theorem steady_performFile (step : FileStep) :
    Steady platforms (performFile step) (fun _ => True) := by
  cases step with
  | write path bytes => exact steady_stored (Host.aloof_writeFile path bytes) fun _ => .done
  | read path => exact steady_stored (Host.aloof_readFile path) .bytes
  | makeDirectory path | remove path =>
      exact steady_stored (Host.aloof_changeVolume _) fun _ => .done
  | resize path size => exact steady_stored (Host.aloof_resizeFile path size) fun _ => .done
  | presence path =>
      have looked := (Host.aloof_presence path).on platforms
      exact (steady_onHost looked fun _ => trivial).bind fun _ (_ : True) => steady_pure trivial

theorem steady_performHandle (name : String) (step : HandleStep) :
    Steady platforms (performHandle name step) (fun _ => True) := by
  cases step with
  | openAt path mode create =>
      refine (steady_meaning _ _ mode).bind fun mode _ => ?_
      have opened := (Handle.aloof_openAt path mode create).on platforms
      refine (steady_onStorage opened fun _ _ _ _ _ => trivial).bind fun handle (_ : True) => ?_
      exact (steady_bindHandle name handle).bind fun _ _ => steady_pure trivial
  | ensureLength least =>
      exact (steady_requireHandle name).bind fun handle _ =>
        steady_stored (handle.aloof_ensureLength least) fun length => .number length.val
  | readByte position =>
      exact (steady_requireHandle name).bind fun handle _ =>
        steady_stored (handle.aloof_readByte position) fun byte => .number byte.toNat
  | writeByte position value =>
      exact (steady_requireHandle name).bind fun handle _ =>
        steady_stored (handle.aloof_writeByte position value) fun _ => .done
  | read position count =>
      exact (steady_requireHandle name).bind fun handle _ =>
        steady_stored (handle.aloof_read position count) .bytes
  | write position bytes =>
      exact (steady_requireHandle name).bind fun handle _ =>
        steady_stored (handle.aloof_write position bytes) fun _ => .done
  | drop =>
      refine (steady_requireHandle name).bind fun handle _ => ?_
      exact (steady_unbindHandle name).bind fun _ _ => steady_pure trivial

/-- What is refused at once without mappings. -/
theorem steady_unavailable {α : Type} {action : HostM α} {cause : StorageError}
    (refused : forall host, host.platform = .withoutMapping ->
      runFrom action host = (.error cause, host)) :
    Steady (· = .withoutMapping) (onStorage action) (fun _ => False) := by
  refine steady_onStorage (Host.aloofOn_unavailable (Host.aloof_throw cause) refused) ?_
  intro host unavailable region after mapped
  rw [refused host unavailable] at mapped
  cases mapped

/-- No region is ever had there. -/
theorem steady_map (handle : Handle) (length : Nat) :
    Steady (· = .withoutMapping) (onStorage (Region.map handle length)) (fun _ => False) :=
  steady_unavailable fun _ unavailable => Region.runFrom_map_unavailable unavailable handle length

theorem steady_performRegion (name : String) (step : RegionStep)
    (allowed : Allows platforms (Step.region name step).maps) :
    Steady platforms (performRegion name step) (fun _ => True) := by
  cases step with
  | map handle length =>
      rw [allowed rfl]
      refine (steady_requireHandle handle).bind fun handle _ => ?_
      exact (steady_map handle length).bind fun _ never => never.elim
  | _ => exact (steady_requireRegion name).bind fun _ never => never.elim

/-! ## Steps without mappings -/

theorem aloof_raiseAndRead {array : BitArray} (indices : List Nat) :
    Host.Aloof (runFrom (raiseAndRead array indices)) := by
  induction indices generalizing array with
  | nil => exact array.aloof_snapshot
  | cons index rest inductionHypothesis =>
      exact .bind (array.aloof_setBit index) fun _ => inductionHypothesis

theorem steady_performUnmapped (step : UnmappedStep) :
    Steady (· = .withoutMapping) (performUnmapped step) (fun _ => True) := by
  cases step with
  | openMapped path capacity mode =>
      refine (steady_meaning _ _ mode).bind fun mode _ => ?_
      exact (steady_openMapped path capacity mode).bind fun _ (never : False) => never.elim
  | openOptions capacity backing mode path indices =>
      refine (steady_construct _ fun _ => rfl).bind fun array plain => ?_
      have read : Host.Aloof (raiseAndRead array indices).run := aloof_raiseAndRead indices
      refine (steady_onHost (read.on _) fun _ => trivial).bind fun outcome (_ : True) => ?_
      have dropped := (BitArray.aloof_drop plain).on (· = .withoutMapping)
      refine (steady_onHost dropped fun _ => trivial).bind fun _ (_ : True) => ?_
      exact (steady_ofFault fun _ _ => trivial).bind fun _ (_ : True) => steady_pure trivial
  | map handle length =>
      refine (steady_requireHandle handle).bind fun handle _ => ?_
      exact (steady_map handle length).bind fun _ never => never.elim
  | flush length =>
      exact (steady_unavailable fun _ unavailable =>
        Host.runFrom_sync_unavailable unavailable _).bind fun _ never => never.elim
  | unmap length =>
      exact (steady_unavailable fun _ unavailable =>
        Host.runFrom_release_unavailable unavailable _).bind fun _ never => never.elim

theorem runFrom_withoutMapping {α : Type} (action : SessionM α) (session : Session) :
    runFrom (withoutMapping action) session =
      ((runFrom action (session.on .withoutMapping session.host.ledger)).1,
        (runFrom action (session.on .withoutMapping session.host.ledger)).2.on
          session.host.platform
          (runFrom action (session.on .withoutMapping session.host.ledger)).2.host.ledger) := rfl

/-- On the platform without mappings an action goes the same way wherever it is taken
from. -/
theorem steady_withoutMapping {α : Type} {action : SessionM α}
    (steady : Steady (· = .withoutMapping) action (fun _ => True)) :
    Steady platforms (withoutMapping action) (fun _ => True) := by
  intro session unmapped within
  have below := steady (session.on .withoutMapping session.host.ledger) (unmapped.withHost _) rfl
  constructor
  case blind =>
    intro platform ledger admitted
    have same := below.blind .withoutMapping ledger rfl
    have begun : (session.on platform ledger).on .withoutMapping ledger =
      (session.on .withoutMapping session.host.ledger).on .withoutMapping ledger := rfl
    rw [Blind, ← begun] at same
    have kept : (session.on platform ledger).host.ledger = ledger := rfl
    rw [Blind, runFrom_withoutMapping, runFrom_withoutMapping, kept, same]
    rfl
  case unmapped =>
    rw [runFrom_withoutMapping]
    exact below.unmapped.withHost _
  case brought => exact fun _ _ => trivial

/-! ## Steps and runs -/

theorem steady_perform (step : Step) (allowed : Allows platforms step.maps) :
    Steady platforms (perform step) (fun _ => True) := by
  cases step with
  | build name construction =>
      refine (steady_construct construction allowed).bind fun array plain => ?_
      exact (steady_bindArray name plain).bind fun _ _ => steady_pure trivial
  | array name step => exact steady_performArray name step
  | file step => exact steady_performFile step
  | handle name step => exact steady_performHandle name step
  | region name step => exact steady_performRegion name step allowed
  | unmapped step => exact steady_withoutMapping (steady_performUnmapped step)

/-- The session without records. -/
def unrecorded (session : Session) : Session :=
  session.withHost { session.host with events := [] }

/-- Looking at the bytes of an array changes nothing. -/
theorem stateOf_state (name : Option String) (session : Session) :
    (stateOf name session).2 = session := by
  rw [stateOf, bind_apply, get_apply]
  cases name.bind session.arrays.get? with
  | none => rfl
  | some array =>
      have kept : (array.snapshot.run session.host).2 = session.host :=
        array.runFrom_snapshot_state session.host
      dsimp only
      rw [bind_apply, hosted_apply, kept]
      rfl

theorem blind_stateOf (name : Option String) (session : Session) (platform : Platform)
    (ledger : Ledger) : Blind (on platform ledger) (stateOf name) session := by
  refine .look rfl ?_
  cases name.bind session.arrays.get? with
  | none => exact rfl
  | some array =>
      have same : array.snapshot.run (session.host.on platform ledger) =
          ((array.snapshot.run session.host).1,
            (array.snapshot.run session.host).2.on platform ledger) :=
        array.aloof_snapshot platform ledger session.host
      have host : (session.on platform ledger).host = session.host.on platform ledger := rfl
      refine .andThen ?_ rfl
      rw [Blind, hosted_apply, hosted_apply, host, same]
      rfl

/-- A report leaves what its step leaves. -/
theorem report_state (traced : Bool) (step : Step) (session : Session) :
    (report traced step session).2 = (runFrom (perform step) session.unrecorded).2 := by
  cases traced with
  | true => exact stateOf_state step.name? _
  | false => rfl

/-- What is reported of a step is the same on all platforms. -/
theorem blind_report {session : Session} (unmapped : session.Unmapped)
    (within : platforms session.host.platform) (traced : Bool) {step : Step}
    (allowed : Allows platforms step.maps) {platform : Platform} (admitted : platforms platform)
    (ledger : Ledger) : Blind (on platform ledger) (report traced step) session := by
  have steady : Steadily platforms (perform step) (fun _ => True) session.unrecorded :=
    steady_perform step allowed _ (unmapped.withHost _) within
  refine .andThen rfl (.andThen (steady.blind platform ledger admitted) (.look rfl ?_))
  cases traced with
  | true => exact .andThen (blind_stateOf step.name? _ platform ledger) rfl
  | false => exact rfl

theorem unmapped_report {session : Session} (unmapped : session.Unmapped)
    (within : platforms session.host.platform) (traced : Bool) {step : Step}
    (allowed : Allows platforms step.maps) :
    (report traced step session).2.Unmapped ∧
      (report traced step session).2.host.platform = session.host.platform := by
  have steady : Steadily platforms (perform step) (fun _ => True) session.unrecorded :=
    steady_perform step allowed _ (unmapped.withHost _) within
  rw [report_state]
  exact ⟨steady.unmapped, steady.platform within⟩

/-- The reports on the steps of a run. -/
def reports (traced : Bool) (steps : List Step) : StateM Session (List Report) :=
  steps.mapM (report traced)

theorem reports_cons (traced : Bool) (step : Step) (rest : List Step) :
    reports traced (step :: rest) = do
      let first ← report traced step
      let others ← reports traced rest
      return first :: others :=
  List.mapM_cons

/-- A run goes the same way on all platforms, by induction on its steps. -/
theorem blind_reports {session : Session} (unmapped : session.Unmapped)
    (within : platforms session.host.platform) (traced : Bool) {steps : List Step}
    (allowed : forall step, step ∈ steps -> Allows platforms step.maps) :
    (forall platform ledger, platforms platform ->
      Blind (on platform ledger) (reports traced steps) session) ∧
    (reports traced steps session).2.Unmapped ∧
    (reports traced steps session).2.host.platform = session.host.platform := by
  induction steps generalizing session with
  | nil => exact ⟨fun _ _ _ => rfl, unmapped, rfl⟩
  | cons step rest inductionHypothesis =>
      rcases List.forall_mem_cons.mp allowed with ⟨first, others⟩
      rcases unmapped_report unmapped within traced first with ⟨reached, still⟩
      rcases inductionHypothesis reached (still ▸ within) others with ⟨blind, last, kept⟩
      rw [reports_cons]
      refine ⟨?_, last, kept.trans still⟩
      intro platform ledger admitted
      refine .andThen (blind_report unmapped within traced first admitted ledger) ?_
      exact .andThen (blind platform ledger admitted) rfl

end Session

/-- The opening of a mapped array on a platform without mappings goes as on one that has
them up to the point at which the mapping is asked for, and is then refused as not
supported, with the same files left behind.  So nothing is ever mapped there, whatever the
steps of a session are, and no handle has a region of any length.  A session whose steps
do not ask for mappings gives the same reports on both, and they leave the same session. -/
theorem fallback_refines_mapping :
    (forall path capacity mode, MappedArray.openAt path capacity mode =
      MappedArray.ready path capacity mode >>= MappedArray.mapPrepared path capacity) ∧
    (forall (host : Host) ledger path capacity mode, host.platform = .mapping ->
      host.FallsBack ledger path capacity mode) ∧
    (forall (session : Session) traced steps, session.Unmapped ->
      session.host.platform = .withoutMapping ->
      let reached := (Session.reports traced steps session).2
      reached.Unmapped ∧
        forall handle length, Exists fun cause => cause.kind = .unsupported ∧
          runFrom (Region.map handle length) reached.host = (.error cause, reached.host)) ∧
    forall (session : Session) platform ledger traced steps, session.Unmapped ->
      (forall step, step ∈ steps -> Step.maps step = false) ->
      let run := Session.reports traced steps session
      run.2.Unmapped ∧
        Session.reports traced steps (session.on platform ledger) =
          (run.1, run.2.on platform ledger) := by
  refine ⟨MappedArray.openAt_eq, ?_, ?_, ?_⟩
  · intro host ledger path capacity mode maps
    exact Host.fallsBack maps ledger path capacity mode
  · intro session traced steps unmapped unavailable reached
    have allowed (step : Step) (_ : step ∈ steps) :
        Session.Allows (· = .withoutMapping) step.maps := fun _ => rfl
    rcases Session.blind_reports unmapped unavailable traced allowed with ⟨_, last, still⟩
    refine ⟨last, fun handle length => ⟨.mappingUnavailable, rfl, ?_⟩⟩
    exact Region.runFrom_map_unavailable (still.trans unavailable) handle length
  · intro session platform ledger traced steps unmapped plain run
    have allowed (step : Step) (member : step ∈ steps) :
        Session.Allows (fun _ => True) step.maps := by
      intro maps
      rw [plain step member] at maps
      contradiction
    rcases Session.blind_reports unmapped trivial traced allowed with ⟨blind, last, _⟩
    exact ⟨last, blind platform ledger trivial⟩

/-- A mapped array over a missing file leaves the same file on both platforms, though only
one of them maps it; an array over a file goes the same way on both. -/
theorem fallback_refines_mapping_unmappable :
    let able := Unmappable.host.on .mapping {}
    let opened (host : Host) := runFrom (MappedArray.openAt "b" 12 .durable) host
    let file : List Step :=
      [.build "f" (.file "a" 12 none), .array "f" (.operate (.raise 3)), .array "f" .close]
    let mapped : List Step := [.build "m" (.mapped "a" 12 none), .region "r" (.map "h" 0)]
    (opened able).2.volume = (opened (able.on .withoutMapping {})).2.volume ∧
      (opened (able.on .withoutMapping {})).1 = .error (.unsupported
        "memory mapping b: memory-mapped files are not supported on this platform") ∧
      (Session.reports true mapped { host := Unmappable.host }).2.Unmapped ∧
      (Session.reports true file { host := Unmappable.host }).1 =
        (Session.reports true file { host := able }).1 := by
  intro able opened file mapped
  rcases fallback_refines_mapping with ⟨_, opens, never, alike⟩
  have named : Session.Unmapped { host := Unmappable.host } := ⟨Bindings.all_nil, rfl⟩
  rcases (opens able {} "b" 12 .durable rfl).late _ _ rfl with ⟨_, volume, fallback, _⟩
  have refused : opened (able.on .withoutMapping {}) = _ := fallback
  refine ⟨?_, ?_, ?_, ?_⟩
  · rw [volume, refused]
    rfl
  · rw [refused]
    rfl
  · exact (never _ true mapped named rfl).1
  · have run := (alike _ .mapping {} true file named (by decide)).2
    exact (congrArg Prod.fst run).symm

end BitStore
