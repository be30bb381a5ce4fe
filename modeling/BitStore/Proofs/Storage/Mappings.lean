import BitStore.Proofs.Storage.Aloof
import Mathlib.Data.List.Nodup

namespace BitStore

/-!
# Mappings and their books

A platform without mappings refuses to grant one, to write one back and to release one, and
nothing happens.  A platform with mappings enters what it grants in the ledger, and every
attempt to release a mapping, whether or not the system takes it back.

The books balance for a list of mappings that are owned if every mapping granted is either
owned or was released, and not both: the owned and the released mappings together are a
permutation of the granted ones.  No entry is ever taken out of the ledger.  Addresses are
given out one after the other from one on, so that no mapping is null and no two have the
same address.  A grant adds to what is owned, and a release takes away from it.
-/

namespace Host

variable {host : Host}

/-! ## Without mappings -/

/-- Nothing is mapped, whatever the length. -/
theorem runFrom_grant_unavailable (unavailable : host.platform = .withoutMapping)
    (length : Nat) : runFrom (grant length) host = (.error .mappingUnavailable, host) := by
  simp only [grant, runFrom_bind, runFrom_get, unavailable, if_true, runFrom_throw]

theorem runFrom_sync_unavailable (unavailable : host.platform = .withoutMapping)
    (mapping : Mapping) : runFrom (sync mapping) host = (.error (.bare .unsupported), host) := by
  simp only [sync, runFrom_bind, runFrom_get, unavailable, if_true, runFrom_throw]

theorem runFrom_release_unavailable (unavailable : host.platform = .withoutMapping)
    (mapping : Mapping) :
    runFrom (release mapping) host = (.error (.bare .unsupported), host) := by
  simp only [release, runFrom_bind, runFrom_get, unavailable, if_true, runFrom_throw]

end Host

theorem Region.runFrom_map_unavailable {host : Host}
    (unavailable : host.platform = .withoutMapping) (handle : Handle) (length : Nat) :
    runFrom (Region.map handle length) host = (.error .mappingUnavailable, host) := by
  simp only [Region.map, runFrom_bind, Host.runFrom_grant_unavailable unavailable]

/-! ## With mappings -/

namespace Host

variable {host : Host}

theorem available_of_maps (maps : host.platform = .mapping) :
    ¬ host.platform = .withoutMapping := by
  rw [maps]
  decide

/-- The host with one more mapping in its ledger. -/
def granting (host : Host) (mapping : Mapping) : Host :=
  { host with ledger := { host.ledger with granted := host.ledger.granted ++ [mapping] } }

/-- The host with one more attempt in its ledger. -/
def releasing (host : Host) (mapping : Mapping) : Host :=
  let attempt : Release :=
    { address := mapping.address
      length := mapping.length
      refused := host.ledger.seals.contains mapping.address }
  { host with ledger := { host.ledger with releases := host.ledger.releases ++ [attempt] } }

/-- The attempt is entered, and fails if it was forbidden. -/
theorem runFrom_release (maps : host.platform = .mapping) (mapping : Mapping) :
    runFrom (release mapping) host =
      (if host.ledger.seals.contains mapping.address then .error .notPermitted else .ok (),
        host.releasing mapping) := by
  simp only [release, runFrom_bind, runFrom_get, if_neg (available_of_maps maps), runFrom_set,
    runFrom_ite, runFrom_throw, runFrom_pure]
  split <;> rfl

end Host

/-- A mapping is granted unless it is empty or too long. -/
theorem Region.map_available {host : Host} (maps : host.platform = .mapping) (handle : Handle)
    (length : Nat) :
    (Exists fun region => region.val.mapping.address = host.ledger.granted.length + 1 ∧
      runFrom (Region.map handle length) host =
        (.ok region, host.granting region.val.mapping)) ∨
    (length = 0 ∧ runFrom (Region.map handle length) host = (.error .emptyMapping, host)) ∨
    runFrom (Region.map handle length) host = (.error .noMemory, host) := by
  have available := Host.available_of_maps maps
  by_cases nothing : length = 0
  · refine .inr (.inl ⟨nothing, ?_⟩)
    simp only [Region.map, Host.grant, runFrom_bind, runFrom_get, if_neg available, if_pos nothing,
      runFrom_throw]
  · by_cases crowded : host.limits.mappingLength ≤ length
    · refine .inr (.inr ?_)
      simp only [Region.map, Host.grant, runFrom_bind, runFrom_get, if_neg available,
        if_neg nothing, if_pos crowded, runFrom_throw]
    · let mapping : Mapping := { address := host.ledger.granted.length + 1, length := length }
      refine .inl ⟨⟨{ mapping := mapping, file := handle.file }, rfl⟩, rfl, ?_⟩
      simp only [Region.map, Host.grant, runFrom_bind, runFrom_get, if_neg available,
        if_neg nothing, if_neg crowded, runFrom_set, runFrom_pure]
      rfl

/-! ## The books -/

/-- The mappings that attempts were made to release. -/
def Ledger.released (ledger : Ledger) : List Mapping :=
  ledger.releases.map fun attempt => { address := attempt.address, length := attempt.length }

namespace Host

variable {host start after : Host} {owned others : List Mapping} {mapping : Mapping}

/-- Since the start the ledger has only been added to, and every mapping granted is owned or
was released, and not both. -/
structure Owes (host start : Host) (owned : List Mapping) : Prop where
  platform : host.platform = start.platform
  granted : start.ledger.granted <+: host.ledger.granted
  releases : start.ledger.releases <+: host.ledger.releases
  addresses : host.ledger.granted.map Mapping.address =
    List.range' 1 host.ledger.granted.length
  accounted : (owned ++ host.ledger.released).Perm host.ledger.granted

/-- With nothing in the ledger nothing is owed. -/
theorem owes_nil (granted : host.ledger.granted = []) (releases : host.ledger.releases = []) :
    host.Owes host [] := by
  constructor
  case platform => rfl
  case granted => exact List.prefix_rfl
  case releases => exact List.prefix_rfl
  case addresses =>
    rw [granted]
    rfl
  case accounted =>
    rw [Ledger.released, granted, releases]
    exact .refl _

/-- What is owed does not depend on when the start was. -/
theorem Owes.restart (owes : host.Owes start owned) : host.Owes host owned :=
  { owes with platform := rfl, granted := List.prefix_rfl, releases := List.prefix_rfl }

/-- Nor on the platform that both are on. -/
theorem Owes.on (owes : host.Owes start owned) (platform : Platform) :
    (host.on platform host.ledger).Owes (start.on platform start.ledger) owned :=
  { owes with platform := rfl }

/-- Which releases are forbidden makes no difference. -/
theorem Owes.of_entries (owes : host.Owes start owned) (same : after.platform = host.platform)
    (granted : after.ledger.granted = host.ledger.granted)
    (releases : after.ledger.releases = host.ledger.releases) : after.Owes start owned := by
  constructor
  case platform => exact same.trans owes.platform
  case granted =>
    rw [granted]
    exact owes.granted
  case releases =>
    rw [releases]
    exact owes.releases
  case addresses =>
    rw [granted]
    exact owes.addresses
  case accounted =>
    rw [Ledger.released, granted, releases]
    exact owes.accounted

theorem Owes.keeps (owes : host.Owes start owned) (keeps : host.Keeps after) :
    after.Owes start owned :=
  owes.of_entries keeps.platform (congrArg Ledger.granted keeps.ledger)
    (congrArg Ledger.releases keeps.ledger)

theorem Owes.perm (owes : host.Owes start owned) (same : owned.Perm others) :
    host.Owes start others :=
  { owes with accounted := (same.symm.append_right _).trans owes.accounted }

theorem Owes.granting (owes : host.Owes start owned)
    (next : mapping.address = host.ledger.granted.length + 1) :
    (host.granting mapping).Owes start (mapping :: owned) := by
  constructor
  case platform => exact owes.platform
  case granted => exact owes.granted.trans (List.prefix_append _ _)
  case releases => exact owes.releases
  case addresses =>
    change (host.ledger.granted ++ [mapping]).map Mapping.address =
      List.range' 1 (host.ledger.granted ++ [mapping]).length
    rw [List.map_append, owes.addresses, List.length_append, List.length_singleton,
      List.range'_1_concat, Nat.add_comm 1, ← next]
    rfl
  case accounted =>
    change ((mapping :: owned) ++ host.ledger.released).Perm (host.ledger.granted ++ [mapping])
    exact (owes.accounted.cons mapping).trans (List.perm_append_singleton _ _).symm

theorem Owes.releasing (owes : host.Owes start (mapping :: owned)) :
    (host.releasing mapping).Owes start owned := by
  constructor
  case platform => exact owes.platform
  case granted => exact owes.granted
  case releases => exact owes.releases.trans (List.prefix_append _ _)
  case addresses => exact owes.addresses
  case accounted =>
    have released : (host.releasing mapping).ledger.released = host.ledger.released ++ [mapping] :=
      List.map_append
    change (owned ++ (host.releasing mapping).ledger.released).Perm host.ledger.granted
    rw [released, ← List.append_assoc]
    exact (List.perm_append_singleton _ _).trans owes.accounted

/-- What becomes of the ledger in between: the system has granted the next mapping, or none,
and released none. -/
inductive Grants (host after : Host) : Option Mapping -> Prop where
  | nothing (keeps : host.Keeps after) : Grants host after none
  | next {mapping : Mapping} (maps : host.platform = .mapping)
      (placed : mapping.address = host.ledger.granted.length + 1)
      (keeps : (host.granting mapping).Keeps after) : Grants host after (some mapping)

section

variable {granted : Option Mapping}

theorem Grants.platform (grants : host.Grants after granted) :
    after.platform = host.platform := by
  cases grants with
  | nothing keeps => exact keeps.platform
  | next maps placed keeps => exact keeps.platform

theorem Grants.releases (grants : host.Grants after granted) :
    after.ledger.releases = host.ledger.releases := by
  cases grants with
  | nothing keeps => exact congrArg Ledger.releases keeps.ledger
  | next maps placed keeps =>
      rw [keeps.ledger]
      rfl

theorem Grants.maps (grants : host.Grants after granted) :
    granted = none ∨ host.platform = .mapping := by
  cases grants with
  | nothing => exact .inl rfl
  | next maps => exact .inr maps

/-- What is granted comes to what is owed. -/
theorem Grants.owes (grants : host.Grants after granted) (owes : host.Owes start owned) :
    after.Owes start (granted.toList ++ owned) := by
  cases grants with
  | nothing keeps => exact owes.keeps keeps
  | next maps placed keeps => exact (owes.granting placed).keeps keeps

theorem Grants.of_keeps {before : Host} (keeps : before.Keeps host)
    (grants : host.Grants after granted) : before.Grants after granted := by
  cases grants with
  | nothing still => exact .nothing (keeps.trans still)
  | next maps placed still =>
      refine .next (keeps.platform.symm.trans maps) ?_ ⟨still.platform.trans keeps.platform, ?_⟩
      · rw [placed, keeps.ledger]
      · rw [still.ledger, granting, granting, keeps.ledger]

theorem Grants.keeps {last : Host} (grants : host.Grants after granted)
    (keeps : after.Keeps last) : host.Grants last granted := by
  cases grants with
  | nothing still => exact .nothing (still.trans keeps)
  | next maps placed still => exact .next maps placed (still.trans keeps)

end

/-! ## What the books tell -/

theorem Owes.address_ne_zero (owes : host.Owes start owned)
    (granted : mapping ∈ host.ledger.granted) :
    mapping.address ≠ 0 := by
  have listed : mapping.address ∈ host.ledger.granted.map Mapping.address :=
    List.mem_map_of_mem granted
  rw [owes.addresses, List.mem_range'_1] at listed
  exact Nat.ne_of_gt listed.1

theorem Owes.nodup_addresses (owes : host.Owes start owned) :
    (host.ledger.granted.map Mapping.address).Nodup := by
  rw [owes.addresses]
  exact List.nodup_range' 1

/-- What is granted is owned once or released once. -/
theorem Owes.count_eq_one (owes : host.Owes start owned)
    (granted : mapping ∈ host.ledger.granted) :
    owned.count mapping + host.ledger.released.count mapping = 1 := by
  have distinct : host.ledger.granted.Nodup :=
    List.Nodup.of_map _ owes.nodup_addresses
  rw [← List.count_append, owes.accounted.count_eq]
  exact List.count_eq_one_of_mem distinct granted

theorem Owes.granted_of_owned (owes : host.Owes start owned) (own : mapping ∈ owned) :
    mapping ∈ host.ledger.granted :=
  owes.accounted.mem_iff.mp (List.mem_append_left _ own)

theorem Owes.granted_of_released (owes : host.Owes start owned)
    (released : mapping ∈ host.ledger.released) : mapping ∈ host.ledger.granted :=
  owes.accounted.mem_iff.mp (List.mem_append_right _ released)

/-- What is still owned was not released. -/
theorem Owes.not_released (owes : host.Owes start owned) (own : mapping ∈ owned) :
    mapping ∉ host.ledger.released := by
  intro released
  have once := owes.count_eq_one (owes.granted_of_owned own)
  have some : 0 < owned.count mapping := List.count_pos_iff.mpr own
  have more : 0 < host.ledger.released.count mapping := List.count_pos_iff.mpr released
  omega

end Host

/-! ## The end of a region -/

namespace Host

/-- The host over other files, where writing back is refused or is not. -/
def overFiles (volume : Volume) (refused : Bool) (host : Host) : Host :=
  { host with volume := volume, syncRefused := refused }

/-- A release goes the same way whatever is in the files: nothing is viewed, stored or
written back. -/
theorem blind_release (host : Host) (volume : Volume) (refused : Bool) (mapping : Mapping) :
    Blind (overFiles volume refused) (runFrom (release mapping)) host := by
  have platform : (host.overFiles volume refused).platform = host.platform := rfl
  rw [Blind]
  cases maps : host.platform with
  | withoutMapping =>
      rw [runFrom_release_unavailable maps, runFrom_release_unavailable (platform.trans maps)]
  | mapping =>
      rw [runFrom_release maps, runFrom_release (platform.trans maps)]
      rfl

end Host

theorem Region.blind_drop (region : Region) (host : Host) (volume : Volume) (refused : Bool) :
    Blind (Host.overFiles volume refused) region.drop host :=
  .andThen (host.blind_release volume refused region.mapping) rfl

/-- A region in the hands of its owner.  The address is zero once the mapping is given up. -/
structure Holder where
  address : Nat
  length : Nat

namespace Holder

/-- The holder of a region that is mapped. -/
def ofRegion (region : Region) : Holder :=
  { address := region.mapping.address, length := region.length }

/-- Attempt to release the range that the holder points to. -/
def release (holder : Holder) : HostM Unit :=
  Host.release { address := holder.address, length := holder.length }

/-- What happens when a holder goes out of use: a mapping that it still has is released in
silence. -/
def destroy (holder : Holder) : StateM Host Unit := do
  if holder.address ≠ 0 then
    let _ ← holder.release.run

/-- Give the mapping up.  The holder goes out of use behind that, with no address left. -/
def unmap (holder : Holder) : HostM Unit := do
  let outcome ← ExceptT.lift holder.release.run
  ExceptT.lift (destroy { holder with address := 0 })
  outcome

/-- A holder that was unmapped attempts no other release when it goes out of use. -/
theorem runFrom_unmap (region : Region) (host : Host) :
    runFrom (ofRegion region).unmap host = runFrom region.unmap host := by
  rcases ended : runFrom region.unmap host with ⟨outcome, after⟩
  have released : (ofRegion region).release.run host = (outcome, after) := ended
  simp only [unmap, runFrom_bind, runFrom_lift, released, runFrom_outcome]
  rfl

/-- A holder that was not unmapped is when it goes out of use. -/
theorem destroy_eq_drop {region : Region} (placed : region.mapping.address ≠ 0) :
    (ofRegion region).destroy = region.drop := by
  have kept : (ofRegion region).address ≠ 0 := placed
  rw [destroy, if_pos kept]
  rfl

end Holder

/-- A region is given up once, even though it goes out of use behind its unmapping: with
notice, or else in silence. -/
structure Region.EndsOnce (region : Region) : Prop where
  unmap : forall host : Host,
    runFrom (Holder.ofRegion region).unmap host = runFrom region.unmap host
  drop : (Holder.ofRegion region).destroy = region.drop

theorem Region.endsOnce {region : Region} (placed : region.mapping.address ≠ 0) :
    region.EndsOnce :=
  ⟨Holder.runFrom_unmap region, Holder.destroy_eq_drop placed⟩

end BitStore
