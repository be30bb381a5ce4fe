import BitStore.Proofs.Arrays.Platforms
import BitStore.Proofs.Arrays.Shells
import BitStore.Proofs.Session.Sound

namespace BitStore

/-!
# Actions in a session without mappings

In a session in which nothing is mapped, an action is steady for a class of platforms if it
goes the same way on each of them, and again leaves a session in which nothing is mapped.
With an action goes what it brings, since the next one may rely on it: that an array is not
mapped, for instance.  Steady actions are put together from steady ones.

An aloof action on the host is steady for all platforms.  For the one without mappings
alone, asking for a mapping is steady as well, as nothing ever comes of it.
-/

/-- An action on the host that is the same on every platform of a class. -/
def Host.AloofOn {α : Type} (platforms : Platform -> Prop) (action : Host -> α × Host) : Prop :=
  forall platform ledger host, platforms platform -> platforms host.platform ->
    Blind (on platform ledger) action host

theorem Host.Aloof.on {α : Type} {action : Host -> α × Host} (aloof : Aloof action)
    (platforms : Platform -> Prop) : AloofOn platforms action :=
  fun platform ledger host _ _ => aloof platform ledger host

/-- What comes to an aloof action without mappings is the same on all platforms without
mappings. -/
theorem Host.aloofOn_unavailable {α : Type} {action other : Host -> α × Host}
    (aloof : Aloof other)
    (same : forall host, host.platform = .withoutMapping -> action host = other host) :
    AloofOn (· = .withoutMapping) action := by
  rintro platform ledger host rfl unavailable
  rw [Blind, same host unavailable, same (host.on .withoutMapping ledger) rfl]
  exact aloof .withoutMapping ledger host

namespace Session

/-- The session on another platform, with another ledger. -/
def on (platform : Platform) (ledger : Ledger) (session : Session) : Session :=
  session.withHost (session.host.on platform ledger)

/-- Nothing in the session is mapped. -/
structure Unmapped (session : Session) : Prop where
  arrays : session.arrays.All fun array => array.isMapped = false
  regions : session.regions = []

/-- How an action goes from a session: in the same way on all platforms of a class, to a
session in which nothing is mapped, and with a value that is as promised. -/
structure Steadily {α : Type} (platforms : Platform -> Prop) (action : SessionM α)
    (brings : α -> Prop) (session : Session) : Prop where
  blind : forall platform ledger, platforms platform ->
    Blind (on platform ledger) (runFrom action) session
  unmapped : (runFrom action session).2.Unmapped
  brought : forall value, (runFrom action session).1 = .ok value -> brings value

/-- An action goes the same way on all platforms of a class, wherever nothing is mapped. -/
def Steady {α : Type} (platforms : Platform -> Prop) (action : SessionM α) (brings : α -> Prop) :
    Prop :=
  forall session : Session, session.Unmapped -> platforms session.host.platform ->
    Steadily platforms action brings session

section

variable {α β : Type} {platforms : Platform -> Prop} {session : Session} {brings : α -> Prop}

/-- What goes the same way on a platform keeps to it. -/
theorem Steadily.platform {action : SessionM α} (steady : Steadily platforms action brings session)
    (within : platforms session.host.platform) :
    (runFrom action session).2.host.platform = session.host.platform := by
  have same : runFrom action (session.on session.host.platform session.host.ledger) =
    ((runFrom action session).1,
      (runFrom action session).2.on session.host.platform session.host.ledger) :=
    steady.blind _ _ within
  have kept : (runFrom action session).2 =
      (runFrom action session).2.on session.host.platform session.host.ledger :=
    congrArg Prod.snd same
  rw [kept]
  rfl

theorem Steady.bind {action : SessionM α} {next : α -> SessionM β} {brought : β -> Prop}
    (first : Steady platforms action brings)
    (second : forall value, brings value -> Steady platforms (next value) brought) :
    Steady platforms (action >>= next) brought := by
  intro session unmapped within
  have steady := first session unmapped within
  have still := steady.platform within
  have reached := steady.unmapped
  rcases ran : runFrom action session with ⟨refusal | value, after⟩
  · rw [ran] at reached
    have ended : runFrom (action >>= next) session = (.error refusal, after) := by
      rw [runFrom_bind, ran]
    constructor
    case blind =>
      intro platform ledger admitted
      refine (steady.blind platform ledger admitted).bind fun value last other => ?_
      rw [ran] at other
      cases other
    case unmapped => rwa [ended]
    case brought =>
      intro value returned
      rw [ended] at returned
      cases returned
  · rw [ran] at reached still
    have promised := steady.brought value (congrArg Prod.fst ran)
    have later := second value promised after reached (still ▸ within)
    have ended : runFrom (action >>= next) session = runFrom (next value) after := by
      rw [runFrom_bind, ran]
    constructor
    case blind =>
      intro platform ledger admitted
      refine (steady.blind platform ledger admitted).bind fun other last again => ?_
      rw [ran] at again
      cases again
      exact later.blind platform ledger admitted
    case unmapped =>
      rw [ended]
      exact later.unmapped
    case brought =>
      rw [ended]
      exact later.brought

/-- An action that ends as it does whatever the platform, and changes nothing. -/
theorem steady_of_still {action : SessionM α} (outcome : Session -> Except Refusal α)
    (run : forall session, runFrom action session = (outcome session, session))
    (same : forall session platform ledger, outcome (session.on platform ledger) = outcome session)
    (promised : forall session, session.Unmapped -> forall value,
      outcome session = .ok value -> brings value) : Steady platforms action brings := by
  intro session unmapped within
  constructor
  case blind =>
    intro platform ledger _
    rw [Blind, run, run, same]
  case unmapped => rwa [run]
  case brought =>
    rw [run]
    exact promised session unmapped

theorem steady_pure {value : α} (promised : brings value) :
    Steady platforms (pure value) brings := by
  refine steady_of_still (fun _ => .ok value) (fun _ => rfl) (fun _ _ _ => rfl) ?_
  intro _ _ other returned
  cases returned
  exact promised

theorem steady_throw (refusal : Refusal) :
    Steady platforms (throw refusal : SessionM α) brings := by
  refine steady_of_still (fun _ => .error refusal) (fun _ => rfl) (fun _ _ _ => rfl) ?_
  intro _ _ other returned
  cases returned

theorem steady_ofFault {outcome : Except Fault α}
    (promised : forall value, outcome = .ok value -> brings value) :
    Steady platforms (ofFault outcome) brings := by
  refine steady_of_still (fun _ => outcome.mapError .fault)
    (fun session => session.runFrom_ofFault outcome) (fun _ _ _ => rfl) ?_
  intro _ _ value returned
  cases outcome with
  | ok => exact promised value (congrArg Except.ok (Except.ok.inj returned))
  | error => cases returned

/-! ## Actions on the host -/

theorem Unmapped.withHost (unmapped : session.Unmapped) (host : Host) :
    (session.withHost host).Unmapped :=
  ⟨unmapped.arrays, unmapped.regions⟩

/-- An action that leaves no more than another host. -/
theorem steady_of_hosted {action : SessionM α} (ran : Host -> Except Refusal α × Host)
    (run : forall session, runFrom action session =
      ((ran session.host).1, session.withHost (ran session.host).2))
    (aloof : Host.AloofOn platforms ran)
    (promised : forall host, platforms host.platform -> forall value,
      (ran host).1 = .ok value -> brings value) : Steady platforms action brings := by
  intro session unmapped within
  constructor
  case blind =>
    intro platform ledger admitted
    have same : ran (session.host.on platform ledger) =
        ((ran session.host).1, (ran session.host).2.on platform ledger) :=
      aloof platform ledger session.host admitted within
    have host : (session.on platform ledger).host = session.host.on platform ledger := rfl
    rw [Blind, run, run, host, same]
    rfl
  case unmapped =>
    rw [run]
    exact unmapped.withHost _
  case brought =>
    rw [run]
    exact promised session.host within

theorem steady_onHost {action : StateM Host α} (aloof : Host.AloofOn platforms action)
    (promised : forall host, brings (action host).1) : Steady platforms (onHost action) brings := by
  refine steady_of_hosted (fun host => (.ok (action host).1, (action host).2))
    (fun session => session.runFrom_onHost action) ?_ ?_
  · intro platform ledger host admitted within
    have same := aloof platform ledger host admitted within
    rw [Blind] at same
    rw [Blind, same]
  · intro host _ value returned
    cases returned
    exact promised host

/-- An action that may fail on the host; its failure is the reason of the refusal. -/
theorem steady_of_failing {ε : Type} {action : SessionM α} {ran : ExceptT ε (StateM Host) α}
    {refuse : ε -> Refusal}
    (run : forall session, runFrom action session =
      ((runFrom ran session.host).1.mapError refuse,
        session.withHost (runFrom ran session.host).2))
    (aloof : Host.AloofOn platforms (runFrom ran))
    (promised : forall host, platforms host.platform -> forall value after,
      runFrom ran host = (.ok value, after) -> brings value) : Steady platforms action brings := by
  refine steady_of_hosted
    (fun host => ((runFrom ran host).1.mapError refuse, (runFrom ran host).2)) run ?_ ?_
  · intro platform ledger host admitted within
    have same := aloof platform ledger host admitted within
    rw [Blind] at same
    rw [Blind, same]
  · intro host within value returned
    rcases ended : runFrom ran host with ⟨reason | made, after⟩
    · rw [ended] at returned
      cases returned
    · rw [ended] at returned
      cases returned
      exact promised host within value after ended

theorem steady_onStorage {action : HostM α} (aloof : Host.AloofOn platforms (runFrom action))
    (promised : forall host, platforms host.platform -> forall value after,
      runFrom action host = (.ok value, after) -> brings value) :
    Steady platforms (onStorage action) brings :=
  steady_of_failing (fun session => session.runFrom_onStorage action) aloof promised

theorem steady_onArrays {action : ArrayM α} (aloof : Host.AloofOn platforms (runFrom action))
    (promised : forall host, platforms host.platform -> forall value after,
      runFrom action host = (.ok value, after) -> brings value) :
    Steady platforms (onArrays action) brings :=
  steady_of_failing (fun session => session.runFrom_onArrays action) aloof promised

/-! ## Names -/

theorem steady_requireArray (name : String) :
    Steady platforms (requireArray name) (fun array => array.isMapped = false) := by
  refine steady_of_still (fun session => found session.arrays name)
    (fun session => session.runFrom_requireArray name) (fun _ _ _ => rfl) ?_
  exact fun session unmapped array returned =>
    unmapped.arrays name array (get?_of_found returned)

theorem steady_requireMemory (name : String) :
    Steady platforms (requireMemory name) (fun _ => True) := by
  refine (steady_requireArray name).bind fun array _ => ?_
  cases array with
  | memory array => exact steady_pure trivial
  | file array | mapped array => exact steady_throw _

/-- No region has a name. -/
theorem steady_requireRegion (name : String) :
    Steady platforms (requireRegion name) (fun _ => False) := by
  refine steady_of_still (fun session => found session.regions name)
    (fun session => session.runFrom_requireRegion name) (fun _ _ _ => rfl) ?_
  intro session unmapped region returned
  have missing : session.regions.get? name = none := by
    rw [unmapped.regions]
    rfl
  rw [found_of_none missing] at returned
  cases returned

theorem steady_requireHandle (name : String) :
    Steady platforms (requireHandle name) (fun _ => True) :=
  steady_of_still (fun session => found session.handles name)
    (fun session => session.runFrom_requireHandle name) (fun _ _ _ => rfl) fun _ _ _ _ => trivial

theorem steady_meaning (ofName? : String -> Option α) (missing : α) (name : Option String) :
    Steady platforms (meaning ofName? missing name)
      (fun value => meaning? ofName? missing name = some value) := by
  refine steady_of_still
    (fun _ => (meaning? ofName? missing name).elim (.error (.text .shape)) .ok)
    (fun session => session.runFrom_meaning ofName? missing name) (fun _ _ _ => rfl) ?_
  intro _ _ value returned
  cases meant : meaning? ofName? missing name with
  | none =>
      rw [meant] at returned
      cases returned
  | some other =>
      rw [meant] at returned
      cases returned
      rfl

/-- Looking the operand of an operation up. -/
theorem steady_resolve (operation : Operation String) :
    Steady platforms (operation.resolve requireArray) (fun _ => True) := by
  cases operation with
  | merge kind name =>
      exact (steady_requireArray name).bind fun _ _ => steady_pure trivial
  | _ => exact steady_pure trivial

/-- An action on names alone. -/
theorem steady_of_named {action : StateM Session Unit} (change : Session -> Session)
    (ran : forall session : Session, session.Unmapped -> action session = ((), change session))
    (same : forall (session : Session) platform ledger,
      change (session.on platform ledger) = (change session).on platform ledger)
    (unmapped : forall session, session.Unmapped -> (change session).Unmapped) :
    Steady platforms (liftM action) (fun _ => True) := by
  intro session still within
  have moved platform ledger : (session.on platform ledger).Unmapped := still.withHost _
  constructor
  case blind =>
    intro platform ledger _
    rw [Blind, runFrom_liftM, runFrom_liftM, ran _ still, ran _ (moved platform ledger), same]
  case unmapped =>
    rw [runFrom_liftM, ran _ still]
    exact unmapped session still
  case brought => exact fun _ _ => trivial

theorem Unmapped.keepArray {array : BitArray} (unmapped : session.Unmapped) (name : String)
    (plain : array.isMapped = false) : (Session.keepArray name array session).2.Unmapped :=
  ⟨unmapped.arrays.insert name plain, unmapped.regions⟩

theorem steady_keepArray (name : String) {array : BitArray} (plain : array.isMapped = false) :
    Steady platforms (liftM (keepArray name array)) (fun _ => True) :=
  steady_of_named (fun session => (keepArray name array session).2) (fun _ _ => rfl)
    (fun _ _ _ => rfl) fun _ unmapped => unmapped.keepArray name plain

/-- The array that had the name is not mapped, so giving it up comes to nothing. -/
theorem steady_bindArray (name : String) {array : BitArray} (plain : array.isMapped = false) :
    Steady platforms (liftM (bindArray name array)) (fun _ => True) := by
  refine steady_of_named (fun session => (keepArray name array session).2) ?_
    (fun _ _ _ => rfl) fun _ unmapped => unmapped.keepArray name plain
  intro session unmapped
  rw [bindArray, bind_apply, get_apply]
  cases bound : session.arrays.get? name with
  | none => simp only [bind_apply, pure_apply]
  | some earlier =>
      have plain := unmapped.arrays name earlier bound
      cases earlier with
      | memory | file => rfl
      | mapped => contradiction

theorem steady_unbindArray (name : String) :
    Steady platforms (liftM (unbindArray name)) (fun _ => True) :=
  steady_of_named (fun session => (unbindArray name session).2) (fun _ _ => rfl)
    (fun _ _ _ => rfl) fun _ unmapped => ⟨unmapped.arrays.erase name, unmapped.regions⟩

theorem steady_bindHandle (name : String) (handle : Handle) :
    Steady platforms (liftM (bindHandle name handle)) (fun _ => True) :=
  steady_of_named (fun session => (bindHandle name handle session).2) (fun _ _ => rfl)
    (fun _ _ _ => rfl) fun _ unmapped => ⟨unmapped.arrays, unmapped.regions⟩

theorem steady_unbindHandle (name : String) :
    Steady platforms (liftM (unbindHandle name)) (fun _ => True) :=
  steady_of_named (fun session => (unbindHandle name session).2) (fun _ _ => rfl)
    (fun _ _ _ => rfl) fun _ unmapped => ⟨unmapped.arrays, unmapped.regions⟩

end

end Session
end BitStore
