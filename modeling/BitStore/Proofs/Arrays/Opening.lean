import BitStore.Proofs.Arrays.Intact
import BitStore.Proofs.Arrays.Preparing

namespace BitStore

/-!
# Opening makes an array intact

An array is opened over the file that its path leads to, whatever the file holds
and whoever else has opened it.  The file reaches as far as the new array needs,
which may be further than before, and that is all that happens to contents.  Where
opening fails, the file may have been extended already: a mapping is refused only
when the file is long enough for it.
-/

namespace Host

/-- The file that a path opens. -/
def opened? (host : Host) (path : String) (create : Bool) : Option FileId :=
  match host.volume.openFile path create with
  | .ok (file, _) => some file
  | .error _ => none

/-- How far files have to reach for an array of this capacity at a path. -/
def openingReach (host : Host) (path : String) (create : Bool) (capacity : Nat)
    (file : FileId) : Nat :=
  if host.opened? path create = some file then capacity / 8 + 2 else 0

theorem openingReach_eq {host : Host} {path : String} {create : Bool} {file : FileId}
    {volume : Volume} (opened : host.volume.openFile path create = .ok (file, volume))
    (capacity : Nat) :
    host.openingReach path create capacity = onlyLength file (capacity / 8 + 2) := by
  funext other
  simp only [openingReach, opened?, opened, onlyLength, Option.some.injEq, eq_comm (a := file)]

/-- A file that is ready is one that reaches far enough, and nothing else has happened;
where it is not made ready, nothing has happened at all. -/
theorem Prepares.cases {host after : Host} {path : String} {capacity : Nat} {create : Bool}
    {outcome : Except Fault Prepared} (sound : host.Sound)
    (ends : host.Prepares path capacity create outcome after) :
    (Exists fun prepared => outcome = .ok prepared ∧
      prepared.length.val ≤ (after.volume.content prepared.handle.file).length ∧
      host.Evolves after (fun _ _ => none) (host.openingReach path create capacity)) ∨
    Exists fun fault => outcome = .error fault ∧ host.Quiet after := by
  cases ends with
  | empty | unopened => exact .inr ⟨_, rfl, Quiet.refl host⟩
  | @unextended file after cause positive opened limits =>
      have quiet := (quiet_of_opened opened sound).1
      exact .inr ⟨_, rfl, quiet.trans (quiet_of_same rfl limits)⟩
  | @ready prepared volume after laid opened long longer =>
      rcases quiet_of_opened opened sound with ⟨quiet, held⟩
      have evolves := longer.evolves held
      refine .inl ⟨prepared, rfl, ?_, ?_⟩
      · rw [evolves.length, onlyLength, if_pos rfl]
        exact Nat.le_of_eq long
      · have reach := openingReach_eq opened capacity
        rw [← laid] at reach ⊢
        rw [reach]
        exact quiet.then_evolves evolves

end Host

namespace FileArray

variable {host : Host}

/-- Opening either gives an intact array, over a file that now reaches far enough, or
leaves all contents as they were. -/
theorem openAt_cases (sound : host.Sound) (path : String) (capacity : Nat) (mode : WriteMode) :
    (Exists fun array => Exists fun after =>
      runFrom (openAt path capacity mode) host = (.ok array, after) ∧
      (BitArray.file array).Intact after ∧
      host.Evolves after (fun _ _ => none) (host.openingReach path false capacity)) ∨
    Exists fun fault => Exists fun after =>
      runFrom (openAt path capacity mode) host = (.error fault, after) ∧ host.Quiet after := by
  cases present : host.volume.isFile path with
  | false =>
      exact .inr ⟨_, host, runFrom_openAt_absent present capacity mode, Host.Quiet.refl host⟩
  | true =>
      rw [runFrom_openAt present]
      have ends := host.prepares path capacity mode false
      generalize runFrom (Host.prepare path capacity mode false) host = result at ends ⊢
      rcases result with ⟨outcome, after⟩
      rcases ends.cases sound with ⟨prepared, rfl, whole, evolves⟩ | ⟨fault, rfl, quiet⟩
      · have reached := Nat.le_trans prepared.length.property whole
        refine .inl ⟨_, _, rfl, .file rfl reached ?_, ?_⟩
        · exact Nat.le_trans reached ((evolves.sound sound).limited prepared.handle.file)
        · exact evolves.then_quiet (Host.quiet_of_same rfl rfl)
      · exact .inr ⟨fault, after, rfl, quiet⟩

end FileArray

namespace MappedArray

variable {host : Host}

/-- Opening either gives an intact array, or fails before or after the file was made
to reach far enough. -/
theorem openAt_cases (sound : host.Sound) (path : String) (capacity : Nat) (mode : WriteMode) :
    (Exists fun array => Exists fun after =>
      runFrom (openAt path capacity mode) host = (.ok array, after) ∧
      (BitArray.mapped array).Intact after ∧
      host.Evolves after (fun _ _ => none) (host.openingReach path true capacity)) ∨
    Exists fun fault => Exists fun after =>
      runFrom (openAt path capacity mode) host = (.error fault, after) ∧
      (host.Quiet after ∨
        host.Evolves after (fun _ _ => none) (host.openingReach path true capacity)) := by
  cases taken : occupied host.volume path with
  | true =>
      exact .inr ⟨_, host, runFrom_openAt_occupied taken capacity mode,
        .inl (Host.Quiet.refl host)⟩
  | false =>
      rw [runFrom_openAt taken]
      have ends := host.prepares path capacity mode true
      generalize runFrom (Host.prepare path capacity mode true) host = result at ends ⊢
      rcases result with ⟨outcome, middle⟩
      rcases ends.cases sound with ⟨prepared, rfl, whole, evolves⟩ | ⟨fault, rfl, quiet⟩
      case inr => exact .inr ⟨fault, middle, rfl, .inl quiet⟩
      dsimp only
      rcases Region.map_cases middle prepared.handle prepared.length with
        ⟨region, after, mapped, same, volume, limits⟩ | ⟨cause, refused⟩
      · rw [mapped]
        refine .inl ⟨_, _, rfl, .mapped rfl ?_, ?_⟩
        · change region.val.length ≤ (after.volume.content region.val.file).length
          rwa [region.property, same, volume]
        · exact evolves.then_quiet (Host.quiet_of_same volume limits)
      · rw [refused]
        exact .inr ⟨_, middle, rfl, .inr evolves⟩

end MappedArray

namespace Options

variable {host : Host}

/-- How far files have to reach for the array that options describe. -/
def openingReach (options : Options) (host : Host) (path : Option String) : FileId -> Nat :=
  match options.backing, path with
  | .file, some path => host.openingReach path false options.capacity
  | .mappedFile, some path => host.openingReach path true options.capacity
  | _, _ => fun _ => 0

/-- Opening by options is opening with the backing that they name. -/
theorem openAt_cases (options : Options) (sound : host.Sound) (path : Option String) :
    (Exists fun array => Exists fun after =>
      runFrom (options.openAt path) host = (.ok array, after) ∧ array.Intact after ∧
      host.Evolves after (fun _ _ => none) (options.openingReach host path)) ∨
    Exists fun fault => Exists fun after =>
      runFrom (options.openAt path) host = (.error fault, after) ∧
      (host.Quiet after ∨
        host.Evolves after (fun _ _ => none) (options.openingReach host path)) := by
  rcases options with ⟨capacity, backing, mode⟩
  cases backing with
  | memory =>
      have unmoved : host.Quiet host := Host.Quiet.refl host
      cases made : MemoryArray.ofCapacity capacity with
      | ok array =>
          refine .inl ⟨.memory array, host, ?_, .memory array, unmoved⟩
          simp only [openAt, runFrom_bind, runFrom_outcome, made, runFrom_pure]
      | error fault =>
          refine .inr ⟨fault, host, ?_, .inl unmoved⟩
          simp only [openAt, runFrom_bind, runFrom_outcome, made]
  | file =>
      cases path with
      | none => exact .inr ⟨_, host, rfl, .inl (Host.Quiet.refl host)⟩
      | some path =>
          rcases FileArray.openAt_cases sound path capacity mode
            with ⟨array, after, opened, intact, evolves⟩ | ⟨fault, after, refused, quiet⟩
          · refine .inl ⟨.file array, after, ?_, intact, evolves⟩
            simp only [openAt, requirePath, runFrom_bind, runFrom_outcome, opened, runFrom_pure]
          · refine .inr ⟨fault, after, ?_, .inl quiet⟩
            simp only [openAt, requirePath, runFrom_bind, runFrom_outcome, refused]
  | mappedFile =>
      cases path with
      | none => exact .inr ⟨_, host, rfl, .inl (Host.Quiet.refl host)⟩
      | some path =>
          rcases MappedArray.openAt_cases sound path capacity mode
            with ⟨array, after, opened, intact, evolves⟩ | ⟨fault, after, refused, effect⟩
          · refine .inl ⟨.mapped array, after, ?_, intact, evolves⟩
            simp only [openAt, requirePath, runFrom_bind, runFrom_outcome, opened, runFrom_pure]
          · refine .inr ⟨fault, after, ?_, effect⟩
            simp only [openAt, requirePath, runFrom_bind, runFrom_outcome, refused]

end Options
end BitStore
