import BitStore.Proofs.Arrays.Aloof
import BitStore.Proofs.Arrays.Attempts
import BitStore.Proofs.Storage.Mappings

namespace BitStore

/-!
# Opening an array where files cannot be mapped

A platform without mappings refuses a mapping of any file and any length, as an operation
that is not supported.  Until an array asks for its mapping, its opening is aloof: what can
go wrong before goes wrong in the same way on every platform.  From then on there is
nothing left but to refuse, and the file stays as it was made ready.
-/

namespace MappedArray

variable {host : Host}

/-- What is done before an array asks for its mapping: look what the path leads to, and
make the file ready. -/
def ready (path : String) (capacity : Nat) (mode : WriteMode) : ArrayM Host.Prepared := do
  if occupied (← get).volume path then
    throw (.invalidArgument "backing_file" s!"{path} does not represent a valid file")
  Host.prepare path capacity mode true

theorem aloof_ready (path : String) (capacity : Nat) (mode : WriteMode) :
    Host.Aloof (runFrom (ready path capacity mode)) :=
  Host.aloof_get (fun _ _ _ => rfl) fun _ =>
    .ite (Host.aloof_throw _) (Host.aloof_prepare path capacity mode true)

theorem runFrom_ready_occupied {path : String} (taken : occupied host.volume path = true)
    (capacity : Nat) (mode : WriteMode) :
    runFrom (ready path capacity mode) host =
      (.error (.invalidArgument "backing_file" s!"{path} does not represent a valid file"),
        host) := by
  simp only [ready, runFrom_bind, runFrom_get, taken, if_true, runFrom_throw]

theorem runFrom_ready {path : String} (free : occupied host.volume path = false)
    (capacity : Nat) (mode : WriteMode) :
    runFrom (ready path capacity mode) host =
      runFrom (Host.prepare path capacity mode true) host := by
  simp only [ready, runFrom_bind, runFrom_get, free, Bool.false_eq_true, if_false]

/-- A file that is ready was made so, and nothing else happened. -/
theorem prepares_of_ready {path : String} {capacity : Nat} {mode : WriteMode} {after : Host}
    {prepared : Host.Prepared}
    (made : runFrom (ready path capacity mode) host = (.ok prepared, after)) :
    host.Prepares path capacity true (.ok prepared) after := by
  cases taken : occupied host.volume path with
  | true =>
      rw [runFrom_ready_occupied taken] at made
      cases made
  | false =>
      have ends := host.prepares path capacity mode true
      rw [runFrom_ready taken] at made
      rwa [made] at ends

/-- Ask for the mapping of a file that is ready. -/
def mapPrepared (path : String) (capacity : Nat) (prepared : Host.Prepared) :
    ArrayM MappedArray := do
  let region ← ExceptT.adapt (refusal path) (Region.map prepared.handle prepared.length)
  Host.record (.openedMapping path capacity prepared.layout.byteLength prepared.length)
  return ofPrepared prepared region path

/-- The mapping is the last thing that an array asks for. -/
theorem openAt_eq (path : String) (capacity : Nat) (mode : WriteMode) :
    openAt path capacity mode = ready path capacity mode >>= mapPrepared path capacity := by
  refine funext fun host => ?_
  change runFrom (openAt path capacity mode) host = runFrom (ready path capacity mode >>= _) host
  rw [runFrom_bind]
  cases taken : occupied host.volume path with
  | true => rw [runFrom_ready_occupied taken, runFrom_openAt_occupied taken]
  | false =>
      rw [runFrom_ready taken, runFrom_openAt taken]
      rcases runFrom (Host.prepare path capacity mode true) host with ⟨fault | prepared, after⟩
      · rfl
      · simp only [mapPrepared, runFrom_bind, runFrom_adapt, runFrom_liftM, Host.record_apply,
          runFrom_pure]
        rcases runFrom (Region.map prepared.handle prepared.length) after with
          ⟨cause | region, last⟩ <;> rfl

/-- What opening comes to on a platform without mappings. -/
def openUnmapped (path : String) (capacity : Nat) (mode : WriteMode) : ArrayM MappedArray := do
  let _ ← ready path capacity mode
  throw (refusal path .mappingUnavailable)

theorem runFrom_openAt_unavailable (unavailable : host.platform = .withoutMapping)
    (path : String) (capacity : Nat) (mode : WriteMode) :
    runFrom (openAt path capacity mode) host =
      runFrom (openUnmapped path capacity mode) host := by
  have same := ((aloof_ready path capacity mode).keeps host).platform
  rw [openAt_eq, openUnmapped, runFrom_bind, runFrom_bind]
  rcases made : runFrom (ready path capacity mode) host with ⟨fault | prepared, after⟩
  · rfl
  · rw [made] at same
    have still := Region.runFrom_map_unavailable (same.trans unavailable) prepared.handle
      prepared.length
    simp only [mapPrepared, runFrom_bind, runFrom_adapt, still, mapError_error, runFrom_throw]

theorem aloof_openUnmapped (path : String) (capacity : Nat) (mode : WriteMode) :
    Host.Aloof (runFrom (openUnmapped path capacity mode)) :=
  .bind (aloof_ready path capacity mode) fun _ => Host.aloof_throw _

/-- No array in a mapping is ever opened there. -/
theorem openUnmapped_fails (path : String) (capacity : Nat) (mode : WriteMode)
    (array : MappedArray) (after : Host) :
    runFrom (openUnmapped path capacity mode) host ≠ (.ok array, after) := by
  intro opened
  rcases runFrom_bind_ok opened with ⟨prepared, between, _, refused⟩
  cases refused

end MappedArray

namespace Options

variable {options : Options} {host : Host}

/-- What options that name the mapping come to there. -/
def openUnmapped (options : Options) (path : Option String) : ArrayM BitArray := do
  let path ← options.requirePath path
  return .mapped (← MappedArray.openUnmapped path options.capacity options.writeMode)

theorem runFrom_openAt_unavailable (mapped : options.backing = .mappedFile)
    (unavailable : host.platform = .withoutMapping) (path : Option String) :
    runFrom (options.openAt path) host = runFrom (options.openUnmapped path) host := by
  simp only [openAt, mapped, openUnmapped, runFrom_bind, runFrom_outcome]
  cases options.requirePath path with
  | error fault => rfl
  | ok path =>
      dsimp only
      rw [MappedArray.runFrom_openAt_unavailable unavailable]

theorem aloof_openUnmapped (path : Option String) :
    Host.Aloof (runFrom (options.openUnmapped path)) :=
  .bind (Host.aloof_outcome _) fun path =>
    .bind (MappedArray.aloof_openUnmapped path _ _) fun _ => Host.aloof_pure _

theorem openUnmapped_fails (path : Option String) (array : BitArray) (after : Host) :
    runFrom (options.openUnmapped path) host ≠ (.ok array, after) := by
  intro opened
  rcases runFrom_bind_ok opened with ⟨path, between, _, rest⟩
  rcases runFrom_ok_of_return rest with ⟨made, never, _⟩
  exact MappedArray.openUnmapped_fails path _ _ made after never

end Options

/-! ## Two platforms side by side -/

/-- How the opening of a mapped array on a host that maps files compares with the same
opening where files cannot be mapped. -/
structure Host.FallsBack (host : Host) (ledger : Ledger) (path : String) (capacity : Nat)
    (mode : WriteMode) : Prop where
  -- What fails before the mapping is asked for fails alike.
  early : forall fault after,
    runFrom (MappedArray.ready path capacity mode) host = (.error fault, after) ->
    runFrom (MappedArray.openAt path capacity mode) host = (.error fault, after) ∧
    runFrom (MappedArray.openAt path capacity mode) (host.on .withoutMapping ledger) =
      (.error fault, after.on .withoutMapping ledger)
  -- Where the mapping is asked for, it is granted or refused by the system, or else the
  -- operation is not supported.  All of them leave the same volume.
  late : forall prepared after,
    runFrom (MappedArray.ready path capacity mode) host = (.ok prepared, after) ->
    let mapping := runFrom (MappedArray.openAt path capacity mode) host
    ((Exists fun array => mapping.1 = .ok array) ∨
      mapping.1 = .error (.storage s!"map {path}" .noMemory)) ∧
    mapping.2.volume = after.volume ∧
    runFrom (MappedArray.openAt path capacity mode) (host.on .withoutMapping ledger) =
      (.error (.unsupported s!"memory mapping {path}: {StorageError.mappingUnavailable.message}"),
        after.on .withoutMapping ledger) ∧
    (host.volume.Linked -> host.volume.Extends path (capacity / 8 + 2) after.volume)

/-- The opening of an array is compared from the point at which it asks for its mapping. -/
theorem Host.fallsBack {host : Host} (maps : host.platform = .mapping) (ledger : Ledger)
    (path : String) (capacity : Nat) (mode : WriteMode) :
    host.FallsBack ledger path capacity mode := by
  have unmapped : runFrom (MappedArray.openAt path capacity mode) (host.on .withoutMapping ledger) =
      ((runFrom (MappedArray.openUnmapped path capacity mode) host).1,
        (runFrom (MappedArray.openUnmapped path capacity mode) host).2.on .withoutMapping ledger) :=
    (MappedArray.runFrom_openAt_unavailable rfl path capacity mode).trans
      (MappedArray.aloof_openUnmapped path capacity mode .withoutMapping ledger host)
  rw [MappedArray.openUnmapped, runFrom_bind] at unmapped
  constructor
  case early =>
    intro fault after failed
    rw [failed] at unmapped
    refine ⟨?_, unmapped⟩
    rw [MappedArray.openAt_eq, runFrom_bind, failed]
  case late =>
    intro prepared after made
    simp only [made, runFrom_throw] at unmapped
    have same := ((MappedArray.aloof_ready path capacity mode).keeps host).platform
    rw [made] at same
    have extended (linked : host.volume.Linked) :
        host.volume.Extends path (capacity / 8 + 2) after.volume :=
      (MappedArray.prepares_of_ready made).extends_of_ok linked
    have long : 0 < prepared.length.val :=
      Nat.lt_of_lt_of_le (Nat.succ_pos prepared.layout.byteLength) prepared.length.property
    have asked : runFrom (MappedArray.openAt path capacity mode) host =
        runFrom (MappedArray.mapPrepared path capacity prepared) after := by
      rw [MappedArray.openAt_eq, runFrom_bind, made]
    dsimp only
    rw [asked, MappedArray.mapPrepared, runFrom_bind, runFrom_adapt]
    rcases Region.map_available (same.trans maps) prepared.handle prepared.length with
      ⟨region, _, mapped⟩ | ⟨nothing, _⟩ | crowded
    · rw [mapped]
      exact ⟨.inl ⟨_, rfl⟩, rfl, unmapped, extended⟩
    · exact absurd nothing (Nat.ne_of_gt long)
    · rw [crowded]
      exact ⟨.inr rfl, rfl, unmapped, extended⟩

end BitStore
