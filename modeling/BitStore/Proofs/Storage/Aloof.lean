import BitStore.Proofs.Storage.Effects
import BitStore.Storage.WholeFile

namespace BitStore

/-!
# Actions that do not ask for the platform

Most of what is done on a host is done in the same way on every platform.  An action is
blind to a move of the state if it makes no difference to it whether the state is moved
before or after.  It is aloof if it is blind to every exchange of the platform and of the
ledger of mappings: it does not look at them, and leaves both alone.

Aloof actions are put together from aloof actions, so that only a few primitives have to
be looked at.  What is not aloof is asking the system for a mapping, giving one back, and
writing one back to its file.
-/

/-- The action ends alike before and after the move, and what it leaves is moved. -/
def Blind {σ α : Type} (move : σ -> σ) (action : σ -> α × σ) (state : σ) : Prop :=
  action (move state) = ((action state).1, move (action state).2)

section

variable {σ ε α β : Type} {move : σ -> σ} {state : σ}

theorem Blind.bind {action : ExceptT ε (StateM σ) α} {next : α -> ExceptT ε (StateM σ) β}
    (first : Blind move (runFrom action) state)
    (second : forall value after, runFrom action state = (.ok value, after) ->
      Blind move (runFrom (next value)) after) :
    Blind move (runFrom (action >>= next)) state := by
  rw [Blind] at first
  rw [Blind, runFrom_bind, runFrom_bind, first]
  rcases ended : runFrom action state with ⟨_ | value, after⟩
  · rfl
  · exact second value after ended

/-- The same for actions that cannot fail. -/
theorem Blind.andThen {action : StateM σ α} {next : α -> StateM σ β}
    (first : Blind move action state)
    (second : Blind move (next (action state).1) (action state).2) :
    Blind move (action >>= next) state := by
  rw [Blind] at first
  rw [Blind, bind_apply, bind_apply, first]
  exact second

/-- A state that is looked at, but only for what the move leaves alone. -/
theorem Blind.get {next : σ -> ExceptT ε (StateM σ) α} (same : next (move state) = next state)
    (rest : Blind move (runFrom (next state)) state) :
    Blind move (runFrom (MonadState.get >>= next)) state := by
  rw [Blind, runFrom_bind, runFrom_bind, runFrom_get, runFrom_get]
  dsimp only
  rw [same]
  exact rest

/-- The same for actions that cannot fail. -/
theorem Blind.look {next : σ -> StateM σ α} (same : next (move state) = next state)
    (rest : Blind move (next state) state) : Blind move (MonadState.get >>= next) state := by
  rw [Blind, bind_apply, bind_apply, get_apply, get_apply]
  dsimp only
  rw [same]
  exact rest

theorem Blind.ite {condition : Prop} [Decidable condition]
    {first second : ExceptT ε (StateM σ) α}
    (holds : condition -> Blind move (runFrom first) state)
    (fails : ¬ condition -> Blind move (runFrom second) state) :
    Blind move (runFrom (if condition then first else second)) state := by
  by_cases decided : condition
  · rw [if_pos decided]
    exact holds decided
  · rw [if_neg decided]
    exact fails decided

end

/-! ## Aloof actions -/

namespace Host

/-- The host on another platform, with another ledger. -/
def on (platform : Platform) (ledger : Ledger) (host : Host) : Host :=
  { host with platform := platform, ledger := ledger }

/-- An action that is the same on every platform and with every ledger. -/
def Aloof {α : Type} (action : Host -> α × Host) : Prop :=
  forall platform ledger host, Blind (on platform ledger) action host

/-- Neither the platform nor the ledger has changed. -/
structure Keeps (before after : Host) : Prop where
  platform : after.platform = before.platform
  ledger : after.ledger = before.ledger

theorem Keeps.refl (host : Host) : host.Keeps host :=
  ⟨rfl, rfl⟩

theorem Keeps.trans {first second third : Host} (before : first.Keeps second)
    (after : second.Keeps third) : first.Keeps third :=
  ⟨after.platform.trans before.platform, after.ledger.trans before.ledger⟩

variable {ε α β : Type}

/-- An aloof action keeps what it does not look at: it is blind to an exchange of the
platform and the ledger for themselves. -/
theorem Aloof.keeps {action : Host -> α × Host} (aloof : Aloof action) (host : Host) :
    host.Keeps (action host).2 := by
  have same : action (host.on host.platform host.ledger) =
    ((action host).1, (action host).2.on host.platform host.ledger) := aloof _ _ host
  have kept : (action host).2 = (action host).2.on host.platform host.ledger :=
    congrArg Prod.snd same
  constructor
  · rw [kept]
    rfl
  · rw [kept]
    rfl

theorem Aloof.bind {action : ExceptT ε (StateM Host) α} {next : α -> ExceptT ε (StateM Host) β}
    (first : Aloof (runFrom action)) (second : forall value, Aloof (runFrom (next value))) :
    Aloof (runFrom (action >>= next)) :=
  fun platform ledger host =>
    (first platform ledger host).bind fun value after _ => second value platform ledger after

theorem Aloof.andThen {action : StateM Host α} {next : α -> StateM Host β} (first : Aloof action)
    (second : forall value, Aloof (next value)) : Aloof (action >>= next) :=
  fun platform ledger host =>
    (first platform ledger host).andThen (second _ platform ledger _)

theorem aloof_pure (value : α) : Aloof (runFrom (pure value : ExceptT ε (StateM Host) α)) :=
  fun _ _ _ => rfl

theorem aloof_throw (reason : ε) : Aloof (runFrom (throw reason : ExceptT ε (StateM Host) α)) :=
  fun _ _ _ => rfl

theorem aloof_outcome (outcome : Except ε α) :
    Aloof (runFrom (liftM outcome : ExceptT ε (StateM Host) α)) :=
  fun _ _ _ => rfl

/-- An action that cannot fail. -/
theorem Aloof.liftM {action : StateM Host α} (aloof : Aloof action) :
    Aloof (runFrom (liftM action : ExceptT ε (StateM Host) α)) := by
  intro platform ledger host
  have same := aloof platform ledger host
  rw [Blind] at same
  rw [Blind, runFrom_liftM, runFrom_liftM, same]

theorem Aloof.adapt {ε' : Type} {action : ExceptT ε (StateM Host) α}
    (aloof : Aloof (runFrom action)) (reword : ε -> ε') :
    Aloof (runFrom (ExceptT.adapt reword action)) := by
  intro platform ledger host
  have same := aloof platform ledger host
  rw [Blind] at same
  rw [Blind, runFrom_adapt, runFrom_adapt, same]

theorem Aloof.within {action : HostM α} (aloof : Aloof (runFrom action)) (context : String) :
    Aloof (runFrom (HostM.within context action)) :=
  aloof.adapt _

/-- A host of which neither the platform nor the ledger is looked at. -/
theorem aloof_get {next : Host -> ExceptT ε (StateM Host) α}
    (same : forall platform ledger host, next (on platform ledger host) = next host)
    (rest : forall host, Aloof (runFrom (next host))) :
    Aloof (runFrom (MonadState.get >>= next)) :=
  fun platform ledger host =>
    .get (same platform ledger host) (rest host platform ledger host)

theorem Aloof.ite {condition : Prop} [Decidable condition]
    {first second : ExceptT ε (StateM Host) α}
    (holds : Aloof (runFrom first)) (fails : Aloof (runFrom second)) :
    Aloof (runFrom (if condition then first else second)) :=
  fun platform ledger host =>
    .ite (fun _ => holds platform ledger host) (fun _ => fails platform ledger host)

/-! ## Contents and records -/

theorem aloof_record (event : Event) : Aloof (record event) :=
  fun _ _ _ => rfl

theorem aloof_content (file : FileId) : Aloof (content file) :=
  fun _ _ _ => rfl

theorem aloof_updateContent (file : FileId) (change : Content -> Content) :
    Aloof (updateContent file change) :=
  fun _ _ _ => rfl

theorem aloof_requestSync : Aloof (runFrom requestSync) := by
  intro platform ledger host
  rw [Blind, runFrom_requestSync, runFrom_requestSync]
  rfl

end Host

/-! ## Handles -/

namespace Handle

open Host

theorem aloof_openAt (path : String) (mode : WriteMode) (create : Bool) :
    Aloof (runFrom (openAt path mode create)) := by
  intro platform ledger host
  have volume : (host.on platform ledger).volume = host.volume := rfl
  rw [Blind]
  cases opened : host.volume.openFile path create with
  | error cause =>
      rw [runFrom_openAt_refused host opened mode,
        runFrom_openAt_refused (host.on platform ledger) (volume ▸ opened) mode]
  | ok pair =>
      rcases pair with ⟨file, extended⟩
      rw [runFrom_openAt host opened mode,
        runFrom_openAt (host.on platform ledger) (volume ▸ opened) mode]
      rfl

variable (handle : Handle)

theorem aloof_length : Aloof (runFrom handle.length) :=
  fun _ _ _ => rfl

theorem aloof_read (position count : Nat) : Aloof (runFrom (handle.read position count)) := by
  unfold read
  refine .ite (aloof_pure _) (.ite (aloof_throw _) ?_)
  refine .bind (.liftM (aloof_content _)) fun content => ?_
  exact .ite (aloof_throw _) (aloof_pure _)

theorem aloof_readByte (position : Nat) : Aloof (runFrom (handle.readByte position)) := by
  unfold readByte
  refine .ite (aloof_throw _) (.bind (.liftM (aloof_content _)) fun content => ?_)
  exact .ite (aloof_throw _) (aloof_pure _)

theorem aloof_write (position : Nat) (bytes : Bytes) :
    Aloof (runFrom (handle.write position bytes)) := by
  unfold write
  refine .ite (aloof_pure _) (.ite (aloof_throw _) ?_)
  refine aloof_get (fun _ _ _ => rfl) fun host => ?_
  refine .bind (.liftM (aloof_updateContent _ _)) fun _ => ?_
  exact .ite (aloof_throw _) (aloof_pure _)

theorem aloof_writeByte (position : Nat) (value : UInt8) :
    Aloof (runFrom (handle.writeByte position value)) :=
  handle.aloof_write position [value]

theorem aloof_setLength (size : Nat) : Aloof (runFrom (handle.setLength size)) := by
  unfold setLength
  refine .ite (aloof_throw _) (.bind handle.aloof_length fun current => ?_)
  refine aloof_get (fun _ _ _ => rfl) fun host => ?_
  exact .ite (aloof_throw _) (.liftM (aloof_updateContent _ _))

theorem aloof_ensureLength (least : Nat) : Aloof (runFrom (handle.ensureLength least)) := by
  unfold ensureLength
  refine .bind handle.aloof_length fun current => ?_
  by_cases enough : least ≤ current
  · rw [dif_pos enough]
    exact aloof_pure _
  · rw [dif_neg enough]
    refine .bind (.liftM (aloof_record _)) fun _ => ?_
    exact .bind (handle.aloof_setLength least) fun _ => aloof_pure _

theorem aloof_sync : Aloof (runFrom handle.sync) :=
  .bind aloof_requestSync fun _ => .liftM (aloof_updateContent _ _)

end Handle

/-! ## Regions -/

namespace Region

open Host

variable (region : Region)

theorem aloof_view : Aloof region.view :=
  fun _ _ _ => rfl

theorem aloof_load (position : Nat) : Aloof (region.load position) :=
  fun _ _ _ => rfl

theorem aloof_store (position : Nat) (bytes : Bytes) : Aloof (region.store position bytes) :=
  aloof_updateContent _ _

/-- Writing back asks for the platform, but changes neither it nor the ledger. -/
theorem keeps_flush (host : Host) : host.Keeps (runFrom region.flush host).2 := by
  by_cases writesBack : host.WritesBack
  · rw [region.runFrom_flush_granted writesBack]
    exact ⟨rfl, rfl⟩
  · rcases region.runFrom_flush_refused writesBack with ⟨cause, refused⟩
    rw [refused]
    exact Keeps.refl host

end Region

/-! ## Files as a whole -/

namespace Host

theorem aloof_changeVolume (change : Volume -> Except StorageError Volume) :
    Aloof (runFrom (changeVolume change)) := by
  intro platform ledger host
  rw [Blind]
  cases changed : change host.volume with
  | error cause =>
      have other : change (host.on platform ledger).volume = .error cause := changed
      simp only [changeVolume, runFrom_bind, runFrom_get, runFrom_outcome, changed, other]
  | ok volume =>
      have other : change (host.on platform ledger).volume = .ok volume := changed
      simp only [changeVolume, runFrom_bind, runFrom_get, runFrom_outcome, changed, other]
      rfl

theorem aloof_writeFile (path : String) (bytes : Bytes) :
    Aloof (runFrom (writeFile path bytes)) := by
  unfold writeFile
  refine .bind (Handle.aloof_openAt path .buffered true) fun handle => ?_
  refine aloof_get (fun _ _ _ => rfl) fun host => ?_
  refine .bind (.liftM (aloof_updateContent _ _)) fun _ => ?_
  exact .ite (aloof_throw _) (aloof_pure _)

theorem aloof_readFile (path : String) : Aloof (runFrom (readFile path)) := by
  unfold readFile
  refine .bind (Handle.aloof_openAt path .buffered false) fun handle => ?_
  exact .bind (.liftM (aloof_content _)) fun _ => aloof_pure _

theorem aloof_resizeFile (path : String) (size : Nat) :
    Aloof (runFrom (resizeFile path size)) :=
  .bind (Handle.aloof_openAt path .buffered false) fun handle => handle.aloof_setLength size

theorem aloof_presence (path : String) : Aloof (presence path) :=
  fun _ _ _ => rfl

end Host
end BitStore
