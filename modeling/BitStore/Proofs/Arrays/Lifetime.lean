import BitStore.Proofs.Arrays.Isolation
import BitStore.Proofs.Storage.Paths

namespace BitStore

/-!
# The life of an array over a file

`BitArray.Over` says that an array is open over the file that a path finds, and that
the file is longer than the array.  This lasts until the array is given up.  Meanwhile
its snapshot is the front of what the file holds; a run of operations changes no more
than that front, one of operations that write nothing changes not even that, and nor
does giving the array up.
-/

/-! ## The bytes of a file, front and rest -/

namespace Content

variable {content : Content} {count : Nat}

theorem take_toList (inside : count ≤ content.length) :
    content.toList.take count = content.window 0 count :=
  window_take inside

theorem toList_eq_append (inside : count ≤ content.length) :
    content.toList = content.window 0 count ++ content.toList.drop count := by
  rw [← take_toList inside, List.take_append_drop]

end Content

namespace Bytes

/-- Bytes in front of the rest of a file that was extended. -/
theorem append_drop_rightpad {front bytes : Bytes} {count least : Nat}
    (size : front.length = count) (behind : count ≤ least) :
    front ++ (List.rightpad least 0 bytes).drop count =
      List.rightpad (max bytes.length least) 0 (front ++ bytes.drop count) := by
  apply ext_getD
  · simp only [List.length_append, List.length_drop, length_rightpad, size]
    omega
  · intro place
    rw [getElem?_rightpad, List.getElem?_append, List.getElem?_append]
    split
    next => rfl
    next => rw [List.getElem?_drop, getElem?_rightpad, List.getElem?_drop]

/-- The front of bytes is there also when zeros are put behind them. -/
theorem take_rightpad {bytes : Bytes} {count : Nat} (inside : count ≤ bytes.length)
    (length : Nat) : (List.rightpad length 0 bytes).take count = bytes.take count := by
  rw [List.rightpad, List.take_append_of_le_length inside]

/-- More zeros than are looked at make no difference. -/
theorem take_rightpad_of_le {bytes : Bytes} {count least : Nat} (behind : count ≤ least) :
    (List.rightpad least 0 bytes).take count = (List.rightpad count 0 bytes).take count := by
  apply ext_getD
  · simp only [List.length_take, length_rightpad]
    omega
  · intro place
    rw [List.getElem?_take, List.getElem?_take]
    split
    next => rw [getElem?_rightpad, getElem?_rightpad]
    next => rfl

end Bytes

/-! ## Arrays over the file at a path -/

namespace BitArray

/-- The array is open over the file that a path finds, which is longer than the array. -/
structure Over (array : BitArray) (path : String) (file : FileId) (host : Host) : Prop where
  found : Exists fun location => host.volume.find path = .ok (location, .file file)
  kept : array.file? = some file
  longer : array.layout.byteLength < (host.volume.content file).length
  linked : host.volume.Linked

variable {array : BitArray} {path : String} {file : FileId} {host after : Host} {count : Nat}

theorem Over.held (lies : array.Over path file host) : host.volume.Holds file :=
  Volume.holds_of_length_pos (Nat.zero_lt_of_lt lies.longer)

theorem Over.confined (lies : array.Over path file host)
    (confines : host.Confines file count after) : array.Over path file after where
  found := by
    rw [Volume.find_congr confines.entries]
    exact lies.found
  kept := lies.kept
  longer := (confines.length file).symm ▸ lies.longer
  linked := by
    intro location other listed
    rw [confines.entries] at listed
    exact (confines.held other).mpr (lies.linked location other listed)

theorem Over.bytesAt (lies : array.Over path file host) :
    host.volume.bytesAt path = (host.volume.content file).toList := by
  rcases lies.found with ⟨location, found⟩
  exact Volume.bytesAt_of_found found

/-- Behind a front that was kept to, the file holds what it held. -/
theorem Over.bytesAt_confined (lies : array.Over path file host)
    (confines : host.Confines file count after)
    (inside : count ≤ (host.volume.content file).length) :
    after.volume.bytesAt path =
      (after.volume.content file).window 0 count ++ (host.volume.bytesAt path).drop count := by
  have same : (after.volume.content file).toList.drop count =
      (host.volume.content file).toList.drop count := by
    apply Bytes.ext_getD
    · simp only [List.length_drop, Content.length_toList, confines.length]
    · intro place
      rw [List.getElem?_drop, List.getElem?_drop, Content.getElem?_toList,
        Content.getElem?_toList, confines.tail _ (Nat.le_add_right count place)]
  rw [(lies.confined confines).bytesAt, lies.bytesAt, ← same]
  apply Content.toList_eq_append
  rw [confines.length]
  exact inside

/-- Where no front was changed, nothing was. -/
theorem Over.bytesAt_unchanged (lies : array.Over path file host)
    (confines : host.Confines file 0 after) :
    after.volume.bytesAt path = host.volume.bytesAt path := by
  rw [lies.bytesAt_confined confines (Nat.zero_le _)]
  rfl

/-- The snapshot of an open array is the front of what its file holds. -/
theorem Over.runFrom_snapshot (lies : array.Over path file host)
    (expressible : array.layout.byteLength < offsetBound) :
    runFrom array.snapshot host =
      (.ok ((host.volume.bytesAt path).take array.layout.byteLength), host) := by
  have inside := Nat.le_of_lt lies.longer
  rw [lies.bytesAt, Content.take_toList inside]
  have kept := lies.kept
  cases array with
  | memory array => contradiction
  | file array =>
      rcases Option.map_eq_some_iff.mp kept with ⟨handle, live, rfl⟩
      exact FileArray.runFrom_snapshot live inside expressible
  | mapped array =>
      rcases Option.map_eq_some_iff.mp kept with ⟨region, live, rfl⟩
      exact MappedArray.runFrom_snapshot live inside

/-! ## Runs -/

/-- A run of operations gives the array back and keeps to its front. -/
theorem Over.run (lies : array.Over path file host) (operations : List (Operation BitArray)) :
    Exists fun replies => Exists fun after =>
      array.run operations host = ((replies, array), after) ∧
      host.Confines file array.layout.byteLength after := by
  induction operations generalizing host with
  | nil => exact ⟨[], host, rfl, Host.Confines.refl _ _ host⟩
  | cons operation rest inductionHypothesis =>
      let fronts : Fronts := { left := file, right := file, count := array.layout.byteLength }
      have agree : fronts.Agree host host :=
        ⟨rfl, rfl, rfl, rfl, lies.longer, lies.longer, fun _ _ => rfl⟩
      rcases (Twin.refl lies.kept _).steps rfl agree (matches_self operation file _ host) with
        ⟨reply, middle, _, stepped, _, move⟩
      rcases inductionHypothesis (lies.confined move.left) with ⟨replies, after, ran, confines⟩
      refine ⟨reply :: replies, after, ?_, move.left.trans confines⟩
      simp only [BitArray.run, bind_apply, stepped, ran, pure_apply]

/-! ## Operations that write nothing -/

/-- What is computed from an action that changes nothing changes nothing. -/
theorem runFrom_answered_state {α β : Type} {action : ArrayM α}
    (still : (runFrom action host).2 = host) (answer : α -> β) :
    (runFrom (do return answer (← action)) host).2 = host :=
  (runFrom_return_state action answer host).trans still

theorem runFrom_getBit_state (array : BitArray) (index : Nat) (host : Host) :
    (runFrom (array.getBit index) host).2 = host := by
  cases array with
  | memory array => rfl
  | file array =>
      rw [getBit, FileArray.getBit, runFrom_bind, runFrom_outcome]
      cases array.layout.locate index with
      | error fault => rfl
      | ok address =>
          apply runFrom_answered_state
          simp only [FileArray.readByte, runFrom_bind, runFrom_outcome]
          cases array.live with
          | error fault => rfl
          | ok handle =>
              simp only [runFrom_within]
              exact handle.runFrom_readByte_state address.byte host
  | mapped array =>
      simp only [getBit, MappedArray.getBit, runFrom_bind, runFrom_outcome]
      cases array.live with
      | error fault => rfl
      | ok region =>
          dsimp only
          cases array.layout.locate index with
          | error fault => rfl
          | ok address => rfl

theorem runFrom_next_state (array : BitArray) (first : Nat) (host : Host) :
    (runFrom (array.next? first) host).2 = host := by
  have shot := runFrom_snapshot_state array host
  cases array with
  | memory array => rfl
  | file array =>
      simp only [next?, BitContainer.next?, runFrom_ite]
      split
      · rfl
      · exact runFrom_answered_state shot _
  | mapped array => exact runFrom_answered_state shot _

/-- Writing back changes no byte, whether or not the system refuses it. -/
theorem Over.confines_flush (lies : array.Over path file host) :
    host.Confines file 0 (runFrom array.flush host).2 := by
  have kept := lies.kept
  have held := lies.held
  cases array with
  | memory array => contradiction
  | file array =>
      rcases Option.map_eq_some_iff.mp kept with ⟨handle, live, rfl⟩
      rcases handle.changes_sync host held with ⟨changes, same⟩
      rw [runFrom_flush_file live]
      exact .of_changesOnly changes fun place _ => same place
  | mapped array =>
      rcases Option.map_eq_some_iff.mp kept with ⟨region, live, rfl⟩
      rcases region.changes_flush host held with ⟨changes, same⟩
      rw [runFrom_flush_mapped live]
      exact .of_changesOnly changes fun place _ => same place

theorem Over.step_of_not_writes (lies : array.Over path file host)
    {operation : Operation BitArray} (reads : operation.writes = false) :
    Exists fun reply => Exists fun after =>
      array.step operation host = ((reply, array), after) ∧ host.Confines file 0 after := by
  have still {last : Host} (same : last = host) : host.Confines file 0 last := by
    rw [same]
    exact Host.Confines.refl file 0 host
  cases operation with
  | raise | lower | raiseIfUnset | clear | merge => contradiction
  | get index => exact ⟨_, _, step_of_read rfl rfl, still (runFrom_getBit_state array index host)⟩
  | snapshot | highest | lowest | count | positions =>
      exact ⟨_, _, step_survey rfl (runFrom_container_snapshot array host), still rfl⟩
  | next first => exact ⟨_, _, step_of_read rfl rfl, still (runFrom_next_state array first host)⟩
  | flush => exact ⟨_, _, step_of_read rfl rfl, lies.confines_flush⟩

/-- Nor does a run of such operations. -/
theorem Over.run_of_not_writes (lies : array.Over path file host)
    {operations : List (Operation BitArray)}
    (reads : forall operation, operation ∈ operations -> operation.writes = false) :
    Exists fun replies => Exists fun after =>
      array.run operations host = ((replies, array), after) ∧ host.Confines file 0 after := by
  induction operations generalizing host with
  | nil => exact ⟨[], host, rfl, Host.Confines.refl _ _ host⟩
  | cons operation rest inductionHypothesis =>
      rcases lies.step_of_not_writes (reads operation List.mem_cons_self) with
        ⟨reply, middle, stepped, still⟩
      rcases inductionHypothesis (lies.confined still)
        fun other later => reads other (List.mem_cons_of_mem operation later) with
        ⟨replies, after, ran, confines⟩
      refine ⟨reply :: replies, after, ?_, still.trans confines⟩
      simp only [BitArray.run, bind_apply, stepped, ran, pure_apply]

/-! ## The end of an array -/

end BitArray

/-- How an array is given up: it is closed, or it is dropped, which writes nothing back. -/
inductive Ending where
  | close
  | drop

namespace BitArray

variable {array : BitArray} {path : String} {file : FileId} {host : Host}

/-- Give the array up. -/
def finish (array : BitArray) : Ending -> StateM Host Unit
  | .close => do
      let _ ← array.close
  | .drop => array.drop

theorem Over.confines_finish (lies : array.Over path file host) (ending : Ending) :
    host.Confines file 0 (array.finish ending host).2 := by
  cases ending with
  | close =>
      rcases close_open lies.kept lies.held with ⟨next, after, run, _, _, _, confines⟩
      simp only [finish, bind_apply, run, pure_apply]
      exact confines
  | drop => exact confines_drop lies.kept

/-- The host when the array has performed operations and was given up. -/
def leave (array : BitArray) (operations : List (Operation BitArray)) (ending : Ending)
    (host : Host) : Host :=
  ((array.run operations host).1.2.finish ending (array.run operations host).2).2

/-- What is left when an array has only answered questions is what was there. -/
theorem Over.leave_of_not_writes (lies : array.Over path file host)
    {operations : List (Operation BitArray)}
    (reads : forall operation, operation ∈ operations -> operation.writes = false)
    (ending : Ending) : host.Confines file 0 (array.leave operations ending host) := by
  rcases lies.run_of_not_writes reads with ⟨replies, after, ran, still⟩
  rw [leave, ran]
  exact still.trans ((lies.confined still).confines_finish ending)

end BitArray
end BitStore
