import BitStore.Proofs.Arrays.Closing
import BitStore.Proofs.Arrays.Platforms
import BitStore.Proofs.Arrays.Shells

namespace BitStore

/-!
# Arrays and the books of mappings

An array in a mapping owns that mapping from its opening to its end.  Opening the array
adds it to the books, and closing it, or giving it up, takes it from them; a closed array
has none to give up any more.  In between an array keeps its mapping, whatever is done
with its bits.
-/

namespace BitArray

variable {array next : BitArray}

/-- The mapping that an array owns, if any. -/
def mapping? : BitArray -> Option Mapping
  | .mapped array => array.region.map Region.mapping
  | _ => none

theorem mapping?_of_live {array : MappedArray} {region : Region}
    (live : array.region = some region) :
    (BitArray.mapped array).mapping? = some region.mapping := by
  rw [mapping?, live]
  rfl

/-- Arrays with one shell own the same mapping. -/
theorem mapping?_of_shell (same : next.shell = array.shell) : next.mapping? = array.mapping? := by
  have shell (array : BitArray) : array.shell.mapping? = array.mapping? := by
    cases array <;> rfl
  rw [← shell next, same, shell array]

end BitArray

/-! ## Actions that may bring a mapping along -/

namespace Host

variable {ε α β : Type}

/-- The system grants what the value of the action owns, and nothing where there is none. -/
def Brings (action : ExceptT ε (StateM Host) α) (owns : α -> Option Mapping) : Prop :=
  forall host : Host,
    host.Grants (runFrom action host).2 ((runFrom action host).1.toOption.bind owns)

variable {owns : α -> Option Mapping} {action : ExceptT ε (StateM Host) α}

/-- What comes behind an aloof action brings all there is. -/
theorem Aloof.bind_brings (aloof : Aloof (runFrom action))
    {next : α -> ExceptT ε (StateM Host) β} {owns : β -> Option Mapping}
    (brings : forall value, Brings (next value) owns) : Brings (action >>= next) owns := by
  intro host
  have kept := aloof.keeps host
  rw [runFrom_bind]
  generalize runFrom action host = result at kept ⊢
  rcases result with ⟨reason | value, after⟩
  · exact .nothing kept
  · exact .of_keeps kept (brings value after)

/-- An action that keeps the ledger brings nothing. -/
theorem brings_of_keeps (keeps : forall host : Host, host.Keeps (runFrom action host).2) :
    Brings action fun _ => none := by
  intro host
  have kept := keeps host
  generalize runFrom action host = result at kept ⊢
  rcases result with ⟨reason | value, after⟩ <;> exact .nothing kept

theorem Aloof.brings (aloof : Aloof (runFrom action)) : Brings action fun _ => none :=
  brings_of_keeps aloof.keeps

/-- A value that is made into another one takes what it owns along. -/
theorem Brings.map (brings : Brings action owns) {make : α -> β} {takes : β -> Option Mapping}
    (same : forall value, takes (make value) = owns value) :
    Brings (do return make (← action)) takes := by
  intro host
  have granted := brings host
  rw [runFrom_bind]
  generalize runFrom action host = result at granted ⊢
  rcases result with ⟨reason | value, after⟩
  · exact granted
  · change host.Grants after (takes (make value))
    rw [same]
    exact granted

end Host

/-- A region owns its mapping. -/
theorem Region.brings_map (handle : Handle) (length : Nat) :
    Host.Brings (Region.map handle length) fun region => some region.val.mapping := by
  intro host
  cases maps : host.platform with
  | withoutMapping =>
      rw [Region.runFrom_map_unavailable maps]
      exact .nothing (.refl host)
  | mapping =>
      rcases Region.map_available maps handle length with
        ⟨region, placed, mapped⟩ | ⟨_, refused⟩ | refused
      · rw [mapped]
        exact .next maps placed (.refl _)
      · rw [refused]
        exact .nothing (.refl host)
      · rw [refused]
        exact .nothing (.refl host)

/-- What is left when a region is unmapped, or given up. -/
theorem Region.owes_unmap {region : Region} {host start : Host} {owned : List Mapping}
    (maps : start.platform = .mapping)
    (owes : host.Owes start (region.mapping :: owned)) :
    (runFrom region.unmap host).2.Owes start owned := by
  rw [Region.unmap, Host.runFrom_release (owes.platform.trans maps)]
  exact owes.releasing

namespace MappedArray

theorem brings_mapPrepared (path : String) (capacity : Nat) (prepared : Host.Prepared) :
    Host.Brings (mapPrepared path capacity prepared) fun array =>
      (BitArray.mapped array).mapping? := by
  intro host
  have granted := Region.brings_map prepared.handle prepared.length host
  rw [mapPrepared, runFrom_bind, runFrom_adapt]
  generalize runFrom (Region.map prepared.handle prepared.length) host = result at granted ⊢
  rcases result with ⟨cause | region, after⟩
  · exact granted
  · exact granted.keeps ⟨rfl, rfl⟩

/-- An array that is opened owns the mapping that it was granted. -/
theorem brings_openAt (path : String) (capacity : Nat) (mode : WriteMode) :
    Host.Brings (openAt path capacity mode) fun array => (BitArray.mapped array).mapping? := by
  rw [openAt_eq]
  exact (aloof_ready path capacity mode).bind_brings (brings_mapPrepared path capacity)

end MappedArray

theorem Options.brings_openAt (options : Options) (path : Option String) :
    Host.Brings (options.openAt path) BitArray.mapping? := by
  rcases options with ⟨capacity, backing, mode⟩
  cases backing with
  | memory => exact (Host.aloof_outcome _).brings.map fun _ => rfl
  | file =>
      refine (Host.aloof_outcome _).bind_brings fun path => ?_
      exact (FileArray.aloof_openAt path capacity mode).brings.map fun _ => rfl
  | mappedFile =>
      refine (Host.aloof_outcome _).bind_brings fun path => ?_
      exact (MappedArray.brings_openAt path capacity mode).map fun _ => rfl

/-! ## The end of an array -/

namespace BitArray

variable {host : Host} {start : Host} {owned : List Mapping}

theorem drop_of_plain {array : BitArray} (plain : array.mapping? = none) (host : Host) :
    array.drop host = ((), host) := by
  cases array with
  | memory array | file array => rfl
  | mapped array =>
      have closed : array.region = none := Option.map_eq_none_iff.mp plain
      rw [drop, MappedArray.drop, closed]
      rfl

/-- Giving an array up releases its mapping. -/
theorem owes_drop {array : BitArray} (owes : host.Owes start (array.mapping?.toList ++ owned))
    (maps : array.mapping?.toList = [] ∨ start.platform = .mapping) :
    (array.drop host).2.Owes start owned := by
  cases array with
  | memory array | file array => exact owes
  | mapped array =>
      cases live : array.region with
      | none =>
          simp only [mapping?, live, Option.map_none, Option.toList_none, List.nil_append] at owes
          simp only [drop, MappedArray.drop, live]
          exact owes
      | some region =>
          rw [mapping?_of_live live] at owes maps
          have available := maps.resolve_left (List.cons_ne_nil _ _)
          simp only [drop, MappedArray.drop, live]
          exact Region.owes_unmap available owes

/-- A closed array owns nothing. -/
theorem Closed.mapping? {array : BitArray} (closed : array.Closed) : array.mapping? = none := by
  cases closed with
  | file => rfl
  | mapped closed =>
      rw [BitArray.mapping?, closed]
      rfl

/-- Closing releases the mapping unless that has been done. -/
theorem close_owes {array : BitArray} (maps : start.platform = .mapping)
    (owes : host.Owes start (array.mapping?.toList ++ owned)) :
    Exists fun outcome => Exists fun next => Exists fun after =>
      array.close host = ((outcome, next), after) ∧
      next.mapping? = none ∧ after.Owes start owned := by
  cases closed : array.isClosed with
  | true =>
      have shut := closed_of_isClosed closed
      rw [shut.mapping?] at owes
      exact ⟨_, array, host, shut.close_apply host, shut.mapping?, owes⟩
  | false =>
      cases array with
      | memory array => exact ⟨_, _, host, rfl, rfl, owes⟩
      | file array =>
          rcases Option.isSome_iff_exists.mp (Option.isNone_eq_false_iff.mp closed) with
            ⟨handle, live⟩
          refine ⟨_, .file array.closed, _, close_file live host, rfl, owes.keeps ?_⟩
          exact (FileArray.aloof_finish array.path array.mode handle).keeps host
      | mapped array =>
          rcases Option.isSome_iff_exists.mp (Option.isNone_eq_false_iff.mp closed) with
            ⟨region, live⟩
          rw [mapping?_of_live live] at owes
          refine ⟨_, .mapped array.closed, _, close_mapped live host, rfl, ?_⟩
          rw [MappedArray.finish_apply]
          refine (Region.owes_unmap maps owes).keeps ?_
          cases (runFrom region.unmap host).1 with
          | ok | error => exact ⟨rfl, rfl⟩

/-! ## Nothing is looked at in the end -/

theorem blind_drop (array : BitArray) (host : Host) (volume : Volume) (refused : Bool) :
    Blind (Host.overFiles volume refused) array.drop host := by
  cases array with
  | memory array | file array => exact rfl
  | mapped array =>
      cases live : array.region with
      | none =>
          have same (host : Host) : (BitArray.mapped array).drop host = ((), host) :=
            drop_of_plain (by rw [mapping?, live]; rfl) host
          rw [Blind, same, same]
      | some region =>
          have same : (BitArray.mapped array).drop = region.drop := by
            rw [drop, MappedArray.drop, live]
          rw [same]
          exact region.blind_drop host volume refused

theorem blind_close_mapped (array : MappedArray) (host : Host) (volume : Volume)
    (refused : Bool) :
    Blind (Host.overFiles volume refused) (BitArray.mapped array).close host := by
  cases live : array.region with
  | none =>
      have closed : (BitArray.mapped array).Closed := .mapped live
      rw [Blind, closed.close_apply, closed.close_apply]
  | some region =>
      have released : runFrom region.unmap (host.overFiles volume refused) =
          ((runFrom region.unmap host).1, (runFrom region.unmap host).2.overFiles volume refused) :=
        host.blind_release volume refused region.mapping
      rw [Blind, close_mapped live, close_mapped live, MappedArray.finish_apply,
        MappedArray.finish_apply, released]
      cases (runFrom region.unmap host).1 with
      | ok | error => rfl

end BitArray
end BitStore
