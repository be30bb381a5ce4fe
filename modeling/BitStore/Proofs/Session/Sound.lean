import BitStore.Proofs.Arrays.Opening
import BitStore.Proofs.Arrays.Sharing
import BitStore.Proofs.Session.Running

namespace BitStore

/-!
# Sound sessions

In a sound session every name stands for something that can be used: an array that is
closed or intact, a region or a handle whose file is there.  Nothing is asked about
who else has opened a file.  Soundness survives every evolution of the contents, so
one opener need not know what the others do.
-/

namespace Bindings

variable {α : Type} {bindings : Bindings α} {p q : α -> Prop}

/-- All values that names stand for have a property. -/
def All (bindings : Bindings α) (p : α -> Prop) : Prop :=
  forall name value, bindings.get? name = some value -> p value

theorem All.imp (all : bindings.All p) (implies : forall value, p value -> q value) :
    bindings.All q :=
  fun name value bound => implies value (all name value bound)

theorem all_nil : All [] p :=
  fun name value bound => by contradiction

theorem All.cons (all : bindings.All p) {name : String} {value : α} (new : p value) :
    All ((name, value) :: bindings) p := by
  intro other found bound
  rw [get?, List.lookup_cons] at bound
  split at bound
  · exact Option.some.inj bound ▸ new
  · exact all other found bound

theorem All.erase (all : bindings.All p) (name : String) : (bindings.erase name).All p := by
  intro other found bound
  rw [get?_erase] at bound
  split at bound
  · contradiction
  · exact all other found bound

theorem All.insert (all : bindings.All p) (name : String) {value : α} (new : p value) :
    (bindings.insert name value).All p :=
  (all.erase name).cons new

end Bindings

namespace Session

/-- All that names stand for can be used. -/
structure Sound (session : Session) : Prop where
  host : session.host.Sound
  arrays : session.arrays.All fun array => array.Whole session.host
  regions : session.regions.All fun region => session.host.volume.Holds region.file
  handles : session.handles.All fun handle => session.host.volume.Holds handle.file

variable {session : Session} {host : Host} {defined : FileId -> Nat -> Option Bool}
  {reach : FileId -> Nat}

/-- In the beginning nothing has a name. -/
theorem sound_unnamed (sound : host.Sound) : Sound { host := host } where
  host := sound
  arrays := Bindings.all_nil
  regions := Bindings.all_nil
  handles := Bindings.all_nil

theorem Sound.withHost (sound : session.Sound)
    (evolves : session.host.Evolves host defined reach) : (session.withHost host).Sound where
  host := evolves.sound sound.host
  arrays := sound.arrays.imp fun _ whole => whole.evolves evolves
  regions := sound.regions.imp fun region => evolves.held region.file
  handles := sound.handles.imp fun handle => evolves.held handle.file

/-- An action changes no content for being refused to write mappings back. -/
theorem quiet_whileSyncRefused {ε α : Type} (action : ExceptT ε (StateM Host) α) (host : Host)
    (quiet : forall begun, host.Quiet begun -> begun.Quiet (runFrom action begun).2) :
    host.Quiet (runFrom (whileSyncRefused action) host).2 := by
  have begun : host.Quiet { host with syncRefused := true } := Host.quiet_of_same rfl rfl
  rw [runFrom_whileSyncRefused]
  exact (begun.trans (quiet _ begun)).trans (Host.quiet_of_same rfl rfl)

/-! ## Names that come and go -/

theorem Sound.keepArray (sound : session.Sound) (name : String) {array : BitArray}
    (whole : array.Whole session.host) : (keepArray name array session).2.Sound :=
  { sound with arrays := sound.arrays.insert name whole }

theorem Sound.unbindArray (sound : session.Sound) (name : String) :
    (unbindArray name session).2.Sound :=
  { sound with arrays := sound.arrays.erase name }

theorem Sound.unbindRegion (sound : session.Sound) (name : String) :
    (unbindRegion name session).2.Sound :=
  { sound with regions := sound.regions.erase name }

theorem Sound.bindHandle (sound : session.Sound) (name : String) {handle : Handle}
    (held : session.host.volume.Holds handle.file) : (bindHandle name handle session).2.Sound :=
  { sound with handles := sound.handles.insert name held }

theorem Sound.unbindHandle (sound : session.Sound) (name : String) :
    (unbindHandle name session).2.Sound :=
  { sound with handles := sound.handles.erase name }

/-- A new array takes a name over, and the one that had it is given up. -/
theorem Sound.bindArray (sound : session.Sound) (name : String) {array : BitArray}
    (whole : array.Whole session.host) :
    (bindArray name array session).2.Sound ∧
      session.host.Quiet (bindArray name array session).2.host := by
  have kept := sound.keepArray name whole
  unfold Session.bindArray
  cases earlier : session.arrays.get? name with
  | none =>
      simp only [bind_apply, get_apply, earlier, pure_apply]
      exact ⟨kept, Host.Quiet.refl _⟩
  | some given =>
      have quiet := given.quiet_drop session.host
      simp only [bind_apply, get_apply, earlier, hosted_apply]
      exact ⟨kept.withHost quiet, quiet⟩

/-- So does a new region. -/
theorem Sound.bindRegion (sound : session.Sound) (name : String) {region : Region}
    (held : session.host.volume.Holds region.file) :
    (bindRegion name region session).2.Sound ∧
      session.host.Quiet (bindRegion name region session).2.host := by
  have kept : Sound { session with regions := session.regions.insert name region } :=
    { sound with regions := sound.regions.insert name held }
  unfold Session.bindRegion
  cases earlier : session.regions.get? name with
  | none =>
      simp only [bind_apply, get_apply, modify_apply, earlier, pure_apply]
      exact ⟨kept, Host.Quiet.refl _⟩
  | some given =>
      have quiet := given.quiet_drop session.host
      simp only [bind_apply, get_apply, modify_apply, earlier, hosted_apply]
      exact ⟨kept.withHost quiet, quiet⟩

end Session
end BitStore
