import BitStore.Proofs.Arrays.Meaning
import BitStore.Session.Run

namespace BitStore

/-!
# Running the parts of a step

What the parts of a session's steps do to the session, by the equations of
`runFrom`: how they end is a matter of the host or of a name that was looked up, and
all that they leave is another host or another name.
-/

namespace Session

/-- The session on another host. -/
def withHost (session : Session) (host : Host) : Session :=
  { session with host := host }

variable {α : Type} (session : Session)

theorem hosted_apply (action : StateM Host α) :
    hosted action session =
      ((action session.host).1, session.withHost (action session.host).2) := rfl

theorem runFrom_onHost (action : StateM Host α) :
    runFrom (onHost action) session =
      (.ok (action session.host).1, session.withHost (action session.host).2) := rfl

/-- An action that fails on storage is refused; its changes stay. -/
theorem runFrom_onStorage (action : HostM α) :
    runFrom (onStorage action) session =
      ((runFrom action session.host).1.mapError .storage,
        session.withHost (runFrom action session.host).2) := by
  rcases run : runFrom action session.host with ⟨outcome, host⟩
  have ran : action.run session.host = (outcome, host) := run
  cases outcome <;> simp only [onStorage, runFrom_bind, runFrom_onHost, ran] <;> rfl

theorem runFrom_onArrays (action : ArrayM α) :
    runFrom (onArrays action) session =
      ((runFrom action session.host).1.mapError .fault,
        session.withHost (runFrom action session.host).2) := by
  rcases run : runFrom action session.host with ⟨outcome, host⟩
  have ran : action.run session.host = (outcome, host) := run
  cases outcome <;> simp only [onArrays, runFrom_bind, runFrom_onHost, ran] <;> rfl

theorem runFrom_ofFault (outcome : Except Fault α) :
    runFrom (ofFault outcome) session = (outcome.mapError .fault, session) := by
  cases outcome <;> rfl

/-! ## Names -/

/-- What looking a name up gives. -/
def found (bindings : Bindings α) (name : String) : Except Refusal α :=
  match bindings.get? name with
  | some value => .ok value
  | none => .error (.unbound name)

theorem found_of_some {bindings : Bindings α} {name : String} {value : α}
    (bound : bindings.get? name = some value) : found bindings name = .ok value := by
  rw [found, bound]

theorem found_of_none {bindings : Bindings α} {name : String}
    (unbound : bindings.get? name = none) : found bindings name = .error (.unbound name) := by
  rw [found, unbound]

theorem get?_of_found {bindings : Bindings α} {name : String} {value : α}
    (looked : found bindings name = .ok value) : bindings.get? name = some value := by
  rw [found] at looked
  cases bound : bindings.get? name with
  | none =>
      rw [bound] at looked
      cases looked
  | some other =>
      rw [bound] at looked
      cases looked
      rfl

theorem runFrom_require (bindings : Bindings α) (name : String) :
    runFrom (require bindings name) session = (found bindings name, session) := by
  rw [require, found]
  cases bindings.get? name <;> rfl

theorem runFrom_requireArray (name : String) :
    runFrom (requireArray name) session = (found session.arrays name, session) := by
  simp only [requireArray, runFrom_bind, runFrom_get, runFrom_require]

theorem runFrom_requireRegion (name : String) :
    runFrom (requireRegion name) session = (found session.regions name, session) := by
  simp only [requireRegion, runFrom_bind, runFrom_get, runFrom_require]

theorem runFrom_requireHandle (name : String) :
    runFrom (requireHandle name) session = (found session.handles name, session) := by
  simp only [requireHandle, runFrom_bind, runFrom_get, runFrom_require]

/-- An array in memory or a refusal, and nothing else happens. -/
theorem runFrom_requireMemory (name : String) :
    Exists fun outcome => runFrom (requireMemory name) session = (outcome, session) := by
  simp only [requireMemory, runFrom_bind, runFrom_requireArray]
  cases found session.arrays name with
  | error refusal => exact ⟨_, rfl⟩
  | ok array => cases array <;> exact ⟨_, rfl⟩

/-- What a name means, if anything; no name means the default. -/
def meaning? (ofName? : String -> Option α) (missing : α) (name : Option String) : Option α :=
  name.elim (some missing) ofName?

theorem runFrom_meaning (ofName? : String -> Option α) (missing : α) (name : Option String) :
    runFrom (meaning ofName? missing name) session =
      ((meaning? ofName? missing name).elim (.error (.text .shape)) .ok, session) := by
  cases name with
  | none => rfl
  | some name =>
      simp only [meaning, meaning?, Option.elim_some]
      cases ofName? name <;> rfl

theorem runFrom_writeMode (name : Option String) :
    runFrom (writeMode name) session =
      ((meaning? WriteMode.ofName? .durable name).elim (.error (.text .shape)) .ok, session) :=
  session.runFrom_meaning WriteMode.ofName? .durable name

/-- Looking the operand of an operation up changes nothing. -/
theorem runFrom_resolve (operation : Operation String) :
    (Exists fun resolved =>
      runFrom (operation.resolve requireArray) session = (.ok resolved, session) ∧
      operation.resolve session.arrays.get? = some resolved ∧
      forall operand, resolved.operand? = some operand ->
        Exists fun name => session.arrays.get? name = some operand) ∨
    Exists fun refusal =>
      runFrom (operation.resolve requireArray) session = (.error refusal, session) := by
  cases operation with
  | merge kind name =>
      simp only [Operation.resolve, runFrom_bind, runFrom_requireArray]
      cases bound : session.arrays.get? name with
      | none =>
          refine .inr ⟨.unbound name, ?_⟩
          rw [found_of_none bound]
      | some operand =>
          refine .inl ⟨.merge kind operand, ?_, rfl, ?_⟩
          · rw [found_of_some bound]
            rfl
          · intro other named
            exact ⟨name, bound.trans named⟩
  | _ => exact .inl ⟨_, rfl, rfl, fun operand named => by contradiction⟩

/-! ## While the system refuses -/

/-- A session goes on serving after a refusal that was asked for. -/
theorem runFrom_whileSyncRefused {ε : Type} (action : ExceptT ε (StateM Host) α) (host : Host) :
    runFrom (whileSyncRefused action) host =
      ((runFrom action { host with syncRefused := true }).1,
        { (runFrom action { host with syncRefused := true }).2 with syncRefused := false }) := by
  rfl

end Session
end BitStore
