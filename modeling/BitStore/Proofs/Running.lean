import BitStore.Storage.Host

namespace BitStore

/-!
# Running an action from a state

An action that may fail ends with a value or with a reason, and in either case
it leaves a state behind.  `runFrom` gives both at once.  The equations below
run an action one bind at a time, so that what a composite action does follows
from what its parts do, and no proof looks into the transformers.
-/

/-- How an action ends that is begun in a state, and the state that it leaves. -/
def runFrom {σ ε α : Type} (action : ExceptT ε (StateM σ) α) (state : σ) :
    Except ε α × σ :=
  action.run state

variable {σ ε α β : Type}

@[simp] theorem runFrom_pure (value : α) (state : σ) :
    runFrom (ε := ε) (pure value) state = (.ok value, state) := rfl

@[simp] theorem runFrom_throw (reason : ε) (state : σ) :
    runFrom (α := α) (throw reason) state = (.error reason, state) := rfl

/-- A failure of the first action is the failure of the whole; its changes stay. -/
@[simp] theorem runFrom_bind (action : ExceptT ε (StateM σ) α)
    (next : α -> ExceptT ε (StateM σ) β) (state : σ) :
    runFrom (action >>= next) state =
      match runFrom action state with
      | (.ok value, after) => runFrom (next value) after
      | (.error reason, after) => (.error reason, after) := by
  change runFrom (ExceptT.bind action next) state = _
  simp only [runFrom, ExceptT.bind, ExceptT.run, ExceptT.mk]
  change (ExceptT.bindCont next (action state).1) (action state).2 = _
  rcases action state with ⟨_ | _, _⟩ <;> rfl

/-- An action whose value is only made into another one fails as the action does. -/
theorem runFrom_error_of_return {action : ExceptT ε (StateM σ) α} {make : α -> β}
    {reason : ε} {state after : σ}
    (failed : runFrom (do return make (← action)) state = (.error reason, after)) :
    runFrom action state = (.error reason, after) := by
  rw [runFrom_bind] at failed
  rcases ended : runFrom action state with ⟨_ | value, last⟩
  · rw [ended] at failed
    cases failed
    rfl
  · rw [ended] at failed
    cases failed

/-- What succeeds has come through both of its actions. -/
theorem runFrom_bind_ok {action : ExceptT ε (StateM σ) α}
    {next : α -> ExceptT ε (StateM σ) β} {value : β} {state after : σ}
    (ended : runFrom (action >>= next) state = (.ok value, after)) :
    Exists fun first => Exists fun between =>
      runFrom action state = (.ok first, between) ∧
      runFrom (next first) between = (.ok value, after) := by
  rw [runFrom_bind] at ended
  rcases ran : runFrom action state with ⟨_ | first, between⟩
  · rw [ran] at ended
    cases ended
  · rw [ran] at ended
    exact ⟨first, between, rfl, ended⟩

theorem runFrom_ok_of_return {action : ExceptT ε (StateM σ) α} {make : α -> β}
    {made : β} {state after : σ}
    (ended : runFrom (do return make (← action)) state = (.ok made, after)) :
    Exists fun value => runFrom action state = (.ok value, after) ∧ make value = made := by
  rcases runFrom_bind_ok ended with ⟨value, last, ran, returned⟩
  cases returned
  exact ⟨value, ran, rfl⟩

/-- A value that is made into another one; what fails, fails as before. -/
theorem runFrom_return (action : ExceptT ε (StateM σ) α) (make : α -> β) (state : σ) :
    runFrom (do return make (← action)) state =
      ((runFrom action state).1.map make, (runFrom action state).2) := by
  rw [runFrom_bind]
  rcases runFrom action state with ⟨_ | value, after⟩ <;> rfl

/-- Making a value into another one has no effect. -/
theorem runFrom_return_state (action : ExceptT ε (StateM σ) α) (make : α -> β) (state : σ) :
    (runFrom (do return make (← action)) state).2 = (runFrom action state).2 := by
  rw [runFrom_return]

@[simp] theorem runFrom_outcome (outcome : Except ε α) (state : σ) :
    runFrom (liftM outcome : ExceptT ε (StateM σ) α) state = (outcome, state) := rfl

@[simp] theorem runFrom_liftM (action : StateM σ α) (state : σ) :
    runFrom (ε := ε) (liftM action) state =
      (.ok (action state).1, (action state).2) := rfl

@[simp] theorem runFrom_lift (action : StateM σ α) (state : σ) :
    runFrom (ε := ε) (ExceptT.lift action) state =
      (.ok (action state).1, (action state).2) := rfl

@[simp] theorem runFrom_get (state : σ) :
    runFrom (ε := ε) get state = (.ok state, state) := rfl

@[simp] theorem runFrom_set (value state : σ) :
    runFrom (ε := ε) (set value : ExceptT ε (StateM σ) PUnit) state = (.ok ⟨⟩, value) := rfl

@[simp] theorem runFrom_ite (condition : Prop) [Decidable condition]
    (first second : ExceptT ε (StateM σ) α) (state : σ) :
    runFrom (if condition then first else second) state =
      if condition then runFrom first state else runFrom second state := by
  split <;> rfl

theorem mapError_ok {ε' : Type} (reword : ε -> ε') (value : α) :
    Except.mapError reword (.ok value) = .ok value := rfl

theorem mapError_error {ε' : Type} (reword : ε -> ε') (reason : ε) :
    Except.mapError reword (.error reason : Except ε α) = .error (reword reason) := rfl

/-- Reasons given in other words. -/
@[simp] theorem runFrom_adapt {ε' : Type} (reword : ε -> ε')
    (action : ExceptT ε (StateM σ) α) (state : σ) :
    runFrom (ExceptT.adapt reword action) state =
      ((runFrom action state).1.mapError reword, (runFrom action state).2) := rfl

/-- A failure under a context is the fault that carries both. -/
@[simp] theorem runFrom_within (context : String) (action : HostM α) (host : Host) :
    runFrom (HostM.within context action) host =
      ((runFrom action host).1.mapError (Fault.storage context), (runFrom action host).2) := rfl

/-- An action on the state alone, one bind at a time. -/
theorem bind_apply (action : StateM σ α) (next : α -> StateM σ β) (state : σ) :
    (action >>= next) state = next (action state).1 (action state).2 := rfl

theorem get_apply (state : σ) : (get : StateM σ σ) state = (state, state) := rfl

theorem modify_apply (change : σ -> σ) (state : σ) :
    (modify change : StateM σ PUnit) state = (⟨⟩, change state) := rfl

theorem pure_apply (value : α) (state : σ) :
    (pure value : StateM σ α) state = (value, state) := rfl

end BitStore
