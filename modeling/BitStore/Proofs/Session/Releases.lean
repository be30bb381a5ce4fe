import BitStore.Proofs.Session.Gains

namespace BitStore

/-!
# Every mapping is released once

Whatever the steps of a session are, and whatever they answer, the books balance with what
has a name: a step that gives nothing up keeps what everything owns, and a step that gives
something up releases what that owned.  So no mapping can be missed, nor be released twice,
by whatever way it is given up and whether or not the system takes it back.

What has a name is still mapped when a step begins, and within a step a release comes last:
behind it nothing is viewed, stored or written back any more.
-/

namespace Session

variable {session : Session} {start : Host} {name : String}

/-! ## The books after a step -/

/-- What an action has brought is in the hands of the next one. -/
theorem Brings.balanced_bind {α β : Type} {action : SessionM α} {next : α -> SessionM β}
    {owns : α -> Option Mapping} (brings : session.Brings action owns)
    (balanced : session.Balanced start [])
    (second : forall value (after : Session), after.Balanced start (owns value).toList ->
      (runFrom (next value) after).2.Balanced start []) :
    (runFrom (action >>= next) session).2.Balanced start [] := by
  have gained := brings.balanced start [] balanced
  rw [List.append_nil] at gained
  rw [runFrom_bind]
  generalize runFrom action session = result at gained ⊢
  rcases result with ⟨refusal | value, after⟩
  · exact gained
  · exact second value after gained

/-- Nothing happens where a name stands for nothing. -/
theorem Balanced.found {α β : Type} {action : SessionM α} {next : α -> SessionM β}
    {bindings : Bindings α} (balanced : session.Balanced start [])
    (run : runFrom action session = (found bindings name, session))
    (second : forall value, bindings.get? name = some value ->
      (runFrom (next value) session).2.Balanced start []) :
    (runFrom (action >>= next) session).2.Balanced start [] := by
  rw [runFrom_bind, run]
  cases bound : bindings.get? name with
  | none =>
      rw [found_of_none bound]
      exact balanced
  | some value =>
      rw [found_of_some bound]
      exact second value bound

/-- Closing an array takes its mapping from the books, the first time. -/
theorem Balanced.closeArray {array : BitArray} (maps : start.platform = .mapping)
    (balanced : session.Balanced start []) (bound : session.arrays.get? name = some array) :
    (runFrom (do
      let (outcome, array) ← onHost array.close
      Session.keepArray name array
      ofFault outcome
      return Answer.done) session).2.Balanced start [] := by
  have taken := balanced.unbindArray bound
  rw [List.append_nil] at taken
  rcases BitArray.close_owes maps taken.owes with ⟨outcome, next, after, closed, gone, owes⟩
  have given : (Session.unbindArray name (session.withHost after)).2.Balanced start
      (next.mapping?.toList ++ []) := by
    rw [gone]
    exact taken.withHost owes
  have ended : array.close session.host = ((outcome, next), after) := closed
  simp only [runFrom_bind, runFrom_onHost, ended, runFrom_liftM, runFrom_ofFault]
  cases outcome with
  | ok | error => exact given.keepArray

/-- Unmapping a region takes its mapping from the books, whether or not the system takes it
back. -/
theorem Balanced.unmapNamed {region : Region} (maps : start.platform = .mapping)
    (balanced : session.Balanced start []) (bound : session.regions.get? name = some region) :
    (runFrom (do
      Session.unbindRegion name
      onStorage region.unmap
      return Answer.done : SessionM Answer) session).2.Balanced start [] := by
  have released := (balanced.unbindRegion bound).unmapRegion maps
  rw [runFrom_bind, runFrom_liftM]
  dsimp only
  rw [runFrom_return_state (onStorage region.unmap) fun _ => Answer.done, runFrom_onStorage]
  exact released

theorem Balanced.on {loose : List Mapping} (balanced : session.Balanced start loose)
    (platform : Platform) :
    (session.on platform session.host.ledger).Balanced (start.on platform start.ledger) loose :=
  ⟨balanced.owes.on platform, balanced.arrays, balanced.regions⟩

/-- A step as on a platform without mappings gives nothing up on that which has them. -/
theorem still_withoutMapping {α : Type} {action : SessionM α}
    (still : (session.on .withoutMapping session.host.ledger).Still action) :
    session.Still (withoutMapping action) := by
  refine still_of_gains ?_
  rw [runFrom_withoutMapping]
  have gains := still.gains
  constructor
  case platform => rfl
  case releases => exact gains.releases
  case maps => exact .inl rfl
  case balanced =>
    intro start loose balanced
    -- The books are read as on the other platform, and the step's books as on this one again.
    have inside := gains.balanced _ loose (balanced.on .withoutMapping)
    have platform := balanced.owes.platform
    exact ⟨{ inside.owes with platform := platform }, inside.arrays, inside.regions⟩

theorem still_perform (session : Session) (step : Step) (keeping : step.gives = false) :
    session.Still (perform step) := by
  cases step with
  | build name construction => contradiction
  | array name step => exact session.still_performArray name step keeping
  | file step => exact session.still_performFile step
  | handle name step => exact session.still_performHandle name step
  | region name step => exact session.still_performRegion name step keeping
  | unmapped step => exact still_withoutMapping (still_performUnmapped rfl step)

/-- The books balance again after a step, however it ends. -/
theorem Balanced.perform (maps : start.platform = .mapping) (balanced : session.Balanced start [])
    (step : Step) : (runFrom (perform step) session).2.Balanced start [] := by
  cases giving : step.gives with
  | false => exact (session.still_perform step giving).gains.balanced start [] balanced
  | true =>
      cases step with
      | file | handle | unmapped => contradiction
      | build name construction =>
          refine (session.brings_construct construction).balanced_bind balanced ?_
          exact fun array after owned => owned.bindArray maps
      | array name step =>
          refine balanced.found (session.runFrom_requireArray name) fun array bound => ?_
          cases step with
          | close => exact balanced.closeArray maps bound
          | drop => exact (balanced.unbindArray bound).dropArray (.inr maps)
          | _ => contradiction
      | region name step =>
          cases step with
          | map owner length =>
              refine balanced.found (session.runFrom_requireHandle owner) fun handle _ => ?_
              refine (brings_onStorage (Region.brings_map handle length)).balanced_bind balanced ?_
              exact fun region after owned => owned.bindRegion maps
          | unmap =>
              refine balanced.found (session.runFrom_requireRegion name) fun region bound => ?_
              exact balanced.unmapNamed maps bound
          | drop =>
              refine balanced.found (session.runFrom_requireRegion name) fun region bound => ?_
              exact (balanced.unbindRegion bound).unmapRegion maps
          | _ => contradiction

/-- The books balance along a run, by induction on its steps. -/
theorem Balanced.reports (maps : start.platform = .mapping) (balanced : session.Balanced start [])
    (traced : Bool) (steps : List Step) :
    (Session.reports traced steps session).2.Balanced start [] := by
  induction steps generalizing session with
  | nil => exact balanced
  | cons step rest inductionHypothesis =>
      have begun : session.unrecorded.Balanced start [] := balanced.keeps ⟨rfl, rfl⟩
      have stepped : (report traced step session).2.Balanced start [] := by
        rw [report_state]
        exact begun.perform maps step
      rw [reports_cons]
      exact inductionHypothesis stepped

/-! ## The order within a step -/

/-- The session over other files, where writing back is refused or is not. -/
def overFiles (volume : Volume) (refused : Bool) (session : Session) : Session :=
  session.withHost (session.host.overFiles volume refused)

section

variable {α β : Type} {volume : Volume} {refused : Bool}

theorem blind_hosted {action : StateM Host α}
    (blind : Blind (Host.overFiles volume refused) action session.host) :
    Blind (overFiles volume refused) (hosted action) session := by
  have same : action (session.overFiles volume refused).host = _ := blind
  rw [Blind, hosted_apply, hosted_apply, same]
  rfl

theorem blind_onHost {action : StateM Host α}
    (blind : Blind (Host.overFiles volume refused) action session.host) :
    Blind (overFiles volume refused) (runFrom (onHost action)) session := by
  have same := blind_hosted blind
  rw [Blind] at same
  rw [Blind, onHost, runFrom_lift, runFrom_lift, same]

theorem blind_onStorage {action : HostM α}
    (blind : Blind (Host.overFiles volume refused) (runFrom action) session.host) :
    Blind (overFiles volume refused) (runFrom (onStorage action)) session := by
  refine Blind.bind (blind_onHost blind) fun outcome after _ => ?_
  cases outcome with
  | ok | error => exact rfl

/-- An action that cannot fail, and what comes behind it. -/
theorem blind_liftM {action : StateM Session α} {next : α -> SessionM β}
    (first : Blind (overFiles volume refused) action session)
    (second : Blind (overFiles volume refused) (runFrom (next (action session).1))
      (action session).2) :
    Blind (overFiles volume refused) (runFrom (liftM action >>= next)) session := by
  rw [Blind] at first
  rw [Blind, runFrom_bind, runFrom_bind, runFrom_liftM, runFrom_liftM, first]
  exact second

/-- Names stand for the same over any files. -/
theorem blind_found {action : SessionM α} {next : α -> SessionM β} {bindings : Bindings α}
    (run : runFrom action session = (found bindings name, session))
    (alike : runFrom action (session.overFiles volume refused) =
      (found bindings name, session.overFiles volume refused))
    (second : forall value, bindings.get? name = some value ->
      Blind (overFiles volume refused) (runFrom (next value)) session) :
    Blind (overFiles volume refused) (runFrom (action >>= next)) session := by
  have looked : Blind (overFiles volume refused) (runFrom action) session := by
    rw [Blind, run, alike]
  refine looked.bind fun value after ended => ?_
  rw [run] at ended
  cases congrArg Prod.snd ended
  exact second value (get?_of_found (congrArg Prod.fst ended))

end

theorem blind_bindArray (session : Session) (name : String) (array : BitArray) (volume : Volume)
    (refused : Bool) : Blind (overFiles volume refused) (bindArray name array) session := by
  refine .look rfl (.andThen rfl ?_)
  cases session.arrays.get? name with
  | none => exact rfl
  | some earlier =>
      exact blind_hosted (earlier.blind_drop session.host volume refused)

theorem blind_bindRegion (session : Session) (name : String) (region : Region) (volume : Volume)
    (refused : Bool) : Blind (overFiles volume refused) (bindRegion name region) session := by
  refine .look rfl (.andThen rfl ?_)
  cases session.regions.get? name with
  | none => exact rfl
  | some earlier => exact blind_hosted (earlier.blind_drop session.host volume refused)

/-- Within a step nothing is viewed, stored or written back behind a release.  Either nothing
is released in the step, or what is in the files and whether writing back is refused make
no difference to it; or the step makes something new, releases nothing for it, and they make
no difference to the rest, where the new one takes a name over. -/
inductive Orderly (session : Session) : Step -> Prop where
  | keeping {step : Step} (releases : (runFrom (perform step) session).2.host.ledger.releases =
      session.host.ledger.releases) : Orderly session step
  | apart {step : Step} (blind : forall volume refused,
      Blind (overFiles volume refused) (runFrom (perform step)) session) : Orderly session step
  | build {name : String} {construction : Construction}
      (releases : (runFrom (construct construction) session).2.host.ledger.releases =
        session.host.ledger.releases)
      (blind : forall array (after : Session) volume refused,
        Blind (overFiles volume refused) (bindArray name array) after) :
      Orderly session (.build name construction)
  | map {name owner : String} {length : Nat}
      (releases : forall handle,
        (runFrom (onStorage (Region.map handle length)) session).2.host.ledger.releases =
          session.host.ledger.releases)
      (blind : forall region (after : Session) volume refused,
        Blind (overFiles volume refused) (bindRegion name region) after) :
      Orderly session (.region name (.map owner length))

/-- Closing an array that is not in a mapping releases nothing. -/
theorem releases_close {array : BitArray} (plain : array.isMapped = false)
    (bound : session.arrays.get? name = some array) :
    (runFrom (performArray name .close) session).2.host.ledger.releases =
      session.host.ledger.releases := by
  have kept := (BitArray.aloof_close plain).keeps session.host
  rw [performArray, runFrom_bind, runFrom_requireArray, found_of_some bound]
  dsimp only
  rcases closed : array.close session.host with ⟨⟨outcome, next⟩, after⟩
  rw [closed] at kept
  simp only [runFrom_bind, runFrom_onHost, closed, runFrom_liftM, runFrom_ofFault]
  cases outcome with
  | ok | error => exact congrArg Ledger.releases kept.ledger

theorem orderly_close (session : Session) (name : String) :
    session.Orderly (.array name .close) := by
  cases bound : session.arrays.get? name with
  | none =>
      have run := session.runFrom_requireArray name
      rw [found_of_none bound] at run
      refine .keeping ?_
      rw [perform, performArray, runFrom_bind, run]
  | some array =>
      cases array with
      | memory array | file array => exact .keeping (releases_close rfl bound)
      | mapped array =>
          refine .apart fun volume refused => ?_
          refine blind_found (session.runFrom_requireArray name) (runFrom_requireArray _ name) ?_
          intro other named
          rw [bound] at named
          cases named
          have closed := BitArray.blind_close_mapped array session.host volume refused
          refine (blind_onHost closed).bind fun result after _ => ?_
          rcases result with ⟨outcome, next⟩
          cases outcome with
          | ok | error => rfl

theorem orderly (session : Session) (step : Step) : session.Orderly step := by
  cases giving : step.gives with
  | false => exact .keeping (session.still_perform step giving).gains.releases
  | true =>
      cases step with
      | file | handle | unmapped => contradiction
      | build name construction =>
          exact .build (session.brings_construct construction).releases fun array after =>
            after.blind_bindArray name array
      | array name step =>
          cases step with
          | close => exact session.orderly_close name
          | drop =>
              refine .apart fun volume refused => ?_
              refine blind_found (session.runFrom_requireArray name)
                (runFrom_requireArray _ name) fun array _ => ?_
              have dropped := array.blind_drop (unbindArray name session).2.host volume refused
              exact blind_liftM rfl (Blind.bind (blind_onHost dropped) fun _ _ _ => rfl)
          | _ => contradiction
      | region name step =>
          cases step with
          | map owner length =>
              refine .map (fun handle => ?_) fun region after => after.blind_bindRegion name region
              exact (brings_onStorage (Region.brings_map handle length)).releases
          | unmap =>
              refine .apart fun volume refused => ?_
              refine blind_found (session.runFrom_requireRegion name)
                (runFrom_requireRegion _ name) fun region _ => ?_
              have released := (unbindRegion name session).2.host.blind_release volume refused
                region.mapping
              exact blind_liftM rfl (Blind.bind (blind_onStorage released) fun _ _ _ => rfl)
          | drop =>
              refine .apart fun volume refused => ?_
              refine blind_found (session.runFrom_requireRegion name)
                (runFrom_requireRegion _ name) fun region _ => ?_
              have dropped := region.blind_drop (unbindRegion name session).2.host volume refused
              exact blind_liftM rfl (Blind.bind (blind_onHost dropped) fun _ _ _ => rfl)
          | _ => contradiction

/-! ## What the books tell of a session -/

/-- Every mapping has an address of its own, which is not null.  It is owned by one array
or region that has a name, or else one attempt was made to release it, with its own address
and length; what has a name is still mapped, and is given up once. -/
structure ReleasesOnce (session : Session) : Prop where
  placed : forall mapping, mapping ∈ session.host.ledger.granted -> mapping.address ≠ 0
  distinct : (session.host.ledger.granted.map Mapping.address).Nodup
  granted : forall mapping, mapping ∈ session.host.ledger.released ->
    mapping ∈ session.host.ledger.granted
  once : forall mapping, mapping ∈ session.host.ledger.granted ->
    session.held.count mapping + session.host.ledger.released.count mapping = 1
  mapped : forall mapping, mapping ∈ session.held ->
    mapping ∈ session.host.ledger.granted ∧ mapping ∉ session.host.ledger.released
  ends : forall region : Region, region.mapping ∈ session.held -> region.EndsOnce

theorem Balanced.releasesOnce (balanced : session.Balanced start []) : session.ReleasesOnce := by
  have owes := balanced.owes
  rw [List.nil_append] at owes
  constructor
  case placed => exact fun mapping granted => owes.address_ne_zero granted
  case distinct => exact owes.nodup_addresses
  case granted => exact fun mapping released => owes.granted_of_released released
  case once => exact fun mapping granted => owes.count_eq_one granted
  case mapped => exact fun mapping own => ⟨owes.granted_of_owned own, owes.not_released own⟩
  case ends =>
    exact fun region own => Region.endsOnce (owes.address_ne_zero (owes.granted_of_owned own))

end Session

/-- In a session that begins with no mapping, every mapping that the system grants is
released once, in whatever order steps map, view, store, write back, unmap, close and give
up, and whichever write-backs and releases the system refuses: at any point of the run a
mapping either has one owner and was not released, or has none any more and one attempt was
made to release it, with the address and the length that were granted.  An attempt is
never taken back, so that there is no second one later.  A step works on nothing that was
released before, and within it nothing is viewed or written back behind a release. -/
theorem mappings_released_once {host : Host} (maps : host.platform = .mapping)
    (granted : host.ledger.granted = []) (releases : host.ledger.releases = [])
    (traced : Bool) (steps later : List Step) :
    let reached := (Session.reports traced steps { host := host }).2
    let last := (Session.reports traced later reached).2
    reached.ReleasesOnce ∧ last.ReleasesOnce ∧
      reached.host.ledger.granted <+: last.host.ledger.granted ∧
      reached.host.ledger.releases <+: last.host.ledger.releases ∧
      forall step, reached.unrecorded.Orderly step := by
  intro reached last
  have begun := Session.balanced_unnamed (Host.owes_nil granted releases)
  have balanced : reached.Balanced host [] := begun.reports maps traced steps
  -- The second run has books of its own, whose beginning is what the first one left.
  have again : reached.Balanced reached.host [] :=
    ⟨balanced.owes.restart, balanced.arrays, balanced.regions⟩
  have on : reached.host.platform = .mapping := balanced.owes.platform.trans maps
  have ended : last.Balanced reached.host [] := again.reports on traced later
  exact ⟨balanced.releasesOnce, ended.releasesOnce, ended.owes.granted, ended.owes.releases,
    reached.unrecorded.orderly⟩

namespace Refused

/-- An array and a region on one file.  The array's mapping is written back in vain, and the
system is not going to take it back. -/
def steps : List Step := [
  .build "array" (.mapped "a" 12 none), .handle "handle" (.openAt "a" none true),
  .region "region" (.map "handle" 2), .array "array" (.operate (.raise 3)),
  .array "array" .flushRefused, .array "array" .forbidRelease]

/-- The array is closed twice before it is given up. -/
def later : List Step := [
  .array "array" .close, .array "array" .close, .array "array" .drop,
  .region "region" .flush, .region "region" .unmap]

def reached : Session :=
  (Session.reports false steps {}).2

def last : Session :=
  (Session.reports false later reached).2

def array : Mapping where
  address := 1
  length := 3

def region : Mapping where
  address := 2
  length := 2

end Refused

/-- While the array and the region have names nothing is released.  In the end either was
released once, though the array was closed twice and given up. -/
theorem mappings_released_once_refused :
    Refused.reached.held = [Refused.array, Refused.region] ∧
      Refused.last.held = [] ∧
      Refused.array ∉ Refused.reached.host.ledger.released ∧
      Refused.last.host.ledger.released.count Refused.array = 1 ∧
      Refused.last.host.ledger.released.count Refused.region = 1 := by
  have ran := @mappings_released_once {} rfl rfl rfl false Refused.steps Refused.later
  have before : Refused.reached.ReleasesOnce := ran.1
  have known : Refused.last.ReleasesOnce := ran.2.1
  have held : Refused.reached.held = [Refused.array, Refused.region] := by decide +kernel
  have gone : Refused.last.held = [] := by decide +kernel
  have mapped : Refused.array ∈ Refused.reached.held := by
    rw [held]
    exact List.mem_cons_self
  have once (mapping : Mapping) (granted : mapping ∈ Refused.last.host.ledger.granted) :
      Refused.last.host.ledger.released.count mapping = 1 := by
    have one : Refused.last.held.count mapping +
      Refused.last.host.ledger.released.count mapping = 1 := known.once mapping granted
    rw [gone, List.count_nil, Nat.zero_add] at one
    exact one
  refine ⟨held, gone, (before.mapped _ mapped).2, ?_, ?_⟩
  · exact once Refused.array (by decide +kernel)
  · exact once Refused.region (by decide +kernel)

end BitStore
