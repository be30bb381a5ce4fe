import BitStore.Proofs.Arrays.Mappings
import BitStore.Proofs.Session.Sound

namespace BitStore

/-!
# The books of a session

The arrays and regions that names stand for own their mappings.
-/

namespace Bindings

variable {α : Type} {bindings : Bindings α} {name : String} {value : α}

/-- No name occurs twice. -/
def Distinct (bindings : Bindings α) : Prop :=
  (bindings.map Prod.fst).Nodup

theorem Distinct.erase (distinct : bindings.Distinct) (name : String) :
    (bindings.erase name).Distinct :=
  distinct.sublist (List.filter_sublist.map Prod.fst)

/-- A name that no binding has is taken out of none. -/
theorem erase_of_not_mem (fresh : name ∉ bindings.map Prod.fst) :
    bindings.erase name = bindings := by
  refine List.filter_eq_self.mpr fun binding member => bne_iff_ne.mpr fun same => ?_
  exact fresh (same ▸ List.mem_map_of_mem member)

theorem not_mem_erase (bindings : Bindings α) (name : String) :
    name ∉ (bindings.erase name).map Prod.fst := by
  intro listed
  rcases List.mem_map.mp listed with ⟨binding, kept, same⟩
  have other : binding.1 ≠ name := bne_iff_ne.mp (List.mem_filter.mp kept).2
  exact other same

theorem not_mem_of_none (unbound : bindings.get? name = none) :
    name ∉ bindings.map Prod.fst := by
  intro listed
  rcases List.mem_map.mp listed with ⟨binding, member, same⟩
  have other : (name != binding.1) = true := List.lookup_eq_none_iff.mp unbound binding member
  exact bne_iff_ne.mp other same.symm

/-- A name that stands for something has one binding. -/
theorem perm_of_get? (distinct : bindings.Distinct) (bound : bindings.get? name = some value) :
    bindings.Perm (bindings.insert name value) := by
  induction bindings with
  | nil => contradiction
  | cons binding rest inductionHypothesis =>
      rcases binding with ⟨key, first⟩
      rcases List.nodup_cons.mp distinct with ⟨fresh, others⟩
      rw [get?, List.lookup_cons] at bound
      by_cases same : name = key
      · subst same
        rw [beq_self_eq_true] at bound
        cases bound
        have erased : Bindings.erase ((name, value) :: rest) name = rest := by
          rw [Bindings.erase, List.filter_cons_of_neg (by simp)]
          exact erase_of_not_mem fresh
        rw [Bindings.insert, erased]
      · have different : (name == key) = false := beq_eq_false_iff_ne.mpr same
        rw [different] at bound
        have kept : Bindings.erase ((key, first) :: rest) name =
            (key, first) :: Bindings.erase rest name :=
          List.filter_cons_of_pos (bne_iff_ne.mpr (Ne.symm same))
        rw [Bindings.insert, kept]
        exact ((inductionHypothesis others bound).cons _).trans (List.Perm.swap _ _ _)

end Bindings

namespace Session

variable {session : Session} {start : Host} {loose : List Mapping} {name : String}

/-- The mappings of the arrays and regions that have names. -/
def held (session : Session) : List Mapping :=
  session.arrays.filterMap (fun binding => binding.2.mapping?) ++
    session.regions.map fun binding => binding.2.mapping

/-- The books balance with what has a name in the session, and with what is in hand and has
none. -/
structure Balanced (start : Host) (loose : List Mapping) (session : Session) : Prop where
  owes : session.host.Owes start (loose ++ session.held)
  arrays : session.arrays.Distinct
  regions : session.regions.Distinct

/-- In the beginning nothing has a name. -/
theorem balanced_unnamed {host : Host} (owes : host.Owes start []) :
    Balanced start [] { host := host } where
  owes := owes
  arrays := List.nodup_nil
  regions := List.nodup_nil

theorem Balanced.withHost (balanced : session.Balanced start loose) {host : Host}
    {others : List Mapping} (owes : host.Owes start (others ++ session.held)) :
    (session.withHost host).Balanced start others :=
  ⟨owes, balanced.arrays, balanced.regions⟩

theorem Balanced.keeps (balanced : session.Balanced start loose) {host : Host}
    (keeps : session.host.Keeps host) : (session.withHost host).Balanced start loose :=
  balanced.withHost (balanced.owes.keeps keeps)

theorem Balanced.perm (balanced : session.Balanced start loose) {others : List Mapping}
    (same : loose.Perm others) : session.Balanced start others :=
  { balanced with owes := balanced.owes.perm (same.append_right _) }

/-- Forbidding a release is no entry. -/
theorem Balanced.forbidRelease (balanced : session.Balanced start loose) (mapping : Mapping) :
    (session.withHost (Host.forbidRelease mapping session.host).2).Balanced start loose :=
  balanced.withHost (balanced.owes.of_entries rfl rfl rfl)

/-- Handles own nothing. -/
theorem Balanced.handles (balanced : session.Balanced start loose) (handles : Bindings Handle) :
    Balanced start loose { session with handles := handles } :=
  ⟨balanced.owes, balanced.arrays, balanced.regions⟩

/-! ## Names that come and go -/

/-- An array that gets a name takes its mapping along. -/
theorem held_keepArray (session : Session) (name : String) (array : BitArray) :
    (keepArray name array session).2.held =
      array.mapping?.toList ++ (unbindArray name session).2.held := by
  change List.filterMap _ ((name, array) :: session.arrays.erase name) ++ _ = _
  rw [List.filterMap_cons]
  cases array.mapping? with
  | none => rfl
  | some mapping => rfl

theorem perm_loose (own loose rest : List Mapping) :
    ((own ++ loose) ++ rest).Perm (loose ++ (own ++ rest)) := by
  rw [List.append_assoc]
  exact List.perm_append_comm_assoc own loose rest

/-- An array in hand gets a free name. -/
theorem Balanced.keepArray {array : BitArray}
    (balanced : (unbindArray name session).2.Balanced start (array.mapping?.toList ++ loose)) :
    (keepArray name array session).2.Balanced start loose := by
  constructor
  case owes =>
    rw [held_keepArray]
    exact balanced.owes.perm (perm_loose _ _ _)
  case arrays => exact List.nodup_cons.mpr ⟨session.arrays.not_mem_erase name, balanced.arrays⟩
  case regions => exact balanced.regions

/-- An array that loses its name is in hand. -/
theorem Balanced.unbindArray {array : BitArray} (balanced : session.Balanced start loose)
    (bound : session.arrays.get? name = some array) :
    (unbindArray name session).2.Balanced start (array.mapping?.toList ++ loose) := by
  constructor
  case owes =>
    have named : session.held.Perm (Session.keepArray name array session).2.held :=
      ((Bindings.perm_of_get? balanced.arrays bound).filterMap _).append_right _
    rw [held_keepArray] at named
    exact balanced.owes.perm ((named.append_left loose).trans (perm_loose _ _ _).symm)
  case arrays => exact balanced.arrays.erase name
  case regions => exact balanced.regions

/-- Nothing happens to a name that stands for nothing. -/
theorem unbindArray_of_none (unbound : session.arrays.get? name = none) :
    (unbindArray name session).2 = session := by
  have erased := Bindings.erase_of_not_mem (Bindings.not_mem_of_none unbound)
  change { session with arrays := session.arrays.erase name } = session
  rw [erased]

/-- An array whose mapping has not changed takes the place of the earlier one. -/
theorem Balanced.replaceArray {array next : BitArray} (balanced : session.Balanced start loose)
    (bound : session.arrays.get? name = some array) (same : next.mapping? = array.mapping?) :
    (Session.keepArray name next session).2.Balanced start loose := by
  have taken := balanced.unbindArray bound
  rw [← same] at taken
  exact taken.keepArray

/-- Giving an array in hand up. -/
theorem Balanced.dropArray {array : BitArray}
    (balanced : session.Balanced start (array.mapping?.toList ++ loose))
    (maps : array.mapping?.toList = [] ∨ start.platform = .mapping) :
    (session.withHost (array.drop session.host).2).Balanced start loose := by
  have owes := balanced.owes
  rw [List.append_assoc] at owes
  exact balanced.withHost (BitArray.owes_drop owes maps)

/-- A new array takes a name over, and the one that had it is given up. -/
theorem Balanced.bindArray {array : BitArray} (maps : start.platform = .mapping)
    (balanced : session.Balanced start array.mapping?.toList) :
    (bindArray name array session).2.Balanced start [] := by
  rw [Session.bindArray, bind_apply, get_apply]
  cases bound : session.arrays.get? name with
  | none =>
      rw [← unbindArray_of_none bound, ← List.append_nil array.mapping?.toList] at balanced
      exact balanced.keepArray
  | some earlier =>
      -- For a moment both are in hand; only then is the earlier one given up.
      have taken := (balanced.unbindArray bound).perm List.perm_append_comm
      have kept := taken.keepArray
      rw [← List.append_nil earlier.mapping?.toList] at kept
      exact kept.dropArray (.inr maps)

/-! ## Regions -/

theorem held_bindRegion (session : Session) (name : String) (region : Region) :
    (held { session with regions := session.regions.insert name region }).Perm
      (region.mapping :: (unbindRegion name session).2.held) :=
  List.perm_middle

theorem Balanced.unbindRegion {region : Region} (balanced : session.Balanced start loose)
    (bound : session.regions.get? name = some region) :
    (unbindRegion name session).2.Balanced start (region.mapping :: loose) := by
  constructor
  case owes =>
    have named : session.held.Perm (region.mapping :: (Session.unbindRegion name session).2.held) :=
      (((Bindings.perm_of_get? balanced.regions bound).map _).append_left _).trans
        (held_bindRegion session name region)
    exact balanced.owes.perm ((named.append_left loose).trans List.perm_middle)
  case arrays => exact balanced.arrays
  case regions => exact balanced.regions.erase name

theorem unbindRegion_of_none (unbound : session.regions.get? name = none) :
    (unbindRegion name session).2 = session := by
  have erased := Bindings.erase_of_not_mem (Bindings.not_mem_of_none unbound)
  change { session with regions := session.regions.erase name } = session
  rw [erased]

/-- Giving a region in hand up, with notice or in silence. -/
theorem Balanced.unmapRegion {region : Region} (maps : start.platform = .mapping)
    (balanced : session.Balanced start (region.mapping :: loose)) :
    (session.withHost (runFrom region.unmap session.host).2).Balanced start loose :=
  balanced.withHost (Region.owes_unmap maps balanced.owes)

/-- A region in hand gets a free name. -/
theorem Balanced.keepRegion {region : Region}
    (balanced : (Session.unbindRegion name session).2.Balanced start (region.mapping :: loose)) :
    Balanced start loose { session with regions := session.regions.insert name region } := by
  constructor
  case owes =>
    have named := (held_bindRegion session name region).append_left loose
    exact balanced.owes.perm (List.perm_middle.symm.trans named.symm)
  case arrays => exact balanced.arrays
  case regions => exact List.nodup_cons.mpr ⟨session.regions.not_mem_erase name, balanced.regions⟩

/-- A new region takes a name over, and the one that had it is given up. -/
theorem Balanced.bindRegion {region : Region} (maps : start.platform = .mapping)
    (balanced : session.Balanced start [region.mapping]) :
    (bindRegion name region session).2.Balanced start [] := by
  rw [Session.bindRegion, bind_apply, get_apply]
  cases bound : session.regions.get? name with
  | none =>
      rw [← unbindRegion_of_none bound] at balanced
      exact balanced.keepRegion
  | some earlier =>
      have taken := (balanced.unbindRegion bound).perm (List.Perm.swap _ _ _)
      exact taken.keepRegion.unmapRegion maps

end Session
end BitStore
