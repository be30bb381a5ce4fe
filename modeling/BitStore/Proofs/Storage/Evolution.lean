import BitStore.Proofs.Bits.Changes
import BitStore.Proofs.Storage.Access

namespace BitStore

/-!
# How contents evolve

A file has one content, and whoever opened it acts on that.  What an action does to
contents is said here bit by bit: some bits become what the action defines, all
others stay, and a file may get longer, by zeros.  A quiet action defines nothing
and makes no file longer; opening, writing back, mapping and releasing are of this
kind.  What actions do to the ledger, to margins and to the records is left out.
-/

namespace Bytes

/-- The bits that bytes define where they are put at a position of a file. -/
def bitsAt (bytes : Bytes) (place position : Nat) : Option Bool :=
  if place ≤ position / 8 ∧ position / 8 < place + bytes.length
  then some (bytes.bit (position - 8 * place)) else none

theorem bitsAt_nil (place : Nat) : bitsAt [] place = fun _ => none := by
  funext position
  rw [bitsAt, if_neg]
  simp only [List.length_nil]
  omega

/-- What a front of the bytes defines, they define. -/
theorem bitsAt_of_prefix {front bytes : Bytes} (begins : front <+: bytes) {place position : Nat}
    {value : Bool} (defined : front.bitsAt place position = some value) :
    bytes.bitsAt place position = some value := by
  rcases begins with ⟨rest, rfl⟩
  rw [bitsAt] at defined ⊢
  split at defined
  next inside =>
    have within : place ≤ position / 8 ∧ position / 8 < place + (front ++ rest).length := by
      rw [List.length_append]
      omega
    have low : (position - 8 * place) / 8 < front.length := by omega
    rw [if_pos within, ← defined, bit_eq_getD, bit_eq_getD,
      List.getElem?_append_left low]
  next => contradiction

/-- How far bytes reach that are put at a position; none reach nowhere. -/
def extent (bytes : Bytes) (place : Nat) : Nat :=
  if bytes = [] then 0 else place + bytes.length

theorem bit_placed (bytes : Bytes) (content : Content) (place position : Nat) :
    Byte.bit (content.placed place bytes (position / 8)) (position % 8) =
      (bytes.bitsAt place position).getD
        (Byte.bit (content.byte (position / 8)) (position % 8)) := by
  rw [Content.placed, bitsAt]
  split
  next inside =>
    have byte : (position - 8 * place) / 8 = position / 8 - place := by omega
    have bit : (position - 8 * place) % 8 = position % 8 := by omega
    rw [Option.getD_some, bit_eq_getD, byte, bit]
  next => rfl

end Bytes

namespace Host

/-- The bit of a file's content at a position; behind the end no bit is set. -/
def bit (host : Host) (file : FileId) (position : Nat) : Bool :=
  Byte.bit ((host.volume.content file).byte (position / 8)) (position % 8)

/-- A host whose tree leads to files that are there, none of them longer than the
system lets files become. -/
structure Sound (host : Host) : Prop where
  entries : forall location file, (location, Entry.file file) ∈ host.volume.entries ->
    host.volume.Holds file
  limited : forall file, (host.volume.content file).length ≤ host.limits.fileLength

/-- The contents have evolved: the bits that are defined are as defined, all others
as before, and every file is as long as before or reaches as far as it has to. -/
structure Evolves (before after : Host) (defined : FileId -> Nat -> Option Bool)
    (reach : FileId -> Nat) : Prop where
  bits : forall file position,
    after.bit file position = (defined file position).getD (before.bit file position)
  length : forall file, (after.volume.content file).length =
    max (before.volume.content file).length (reach file)
  held : forall file, before.volume.Holds file -> after.volume.Holds file
  limits : after.limits = before.limits
  sound : before.Sound -> after.Sound

/-- No bit has changed and no file has become longer. -/
def Quiet (before after : Host) : Prop :=
  before.Evolves after (fun _ _ => none) (fun _ => 0)

variable {first second third : Host} {defined : FileId -> Nat -> Option Bool}
  {reach : FileId -> Nat}

theorem Evolves.then_quiet (evolves : first.Evolves second defined reach)
    (quiet : second.Quiet third) : first.Evolves third defined reach where
  bits file position := by
    rw [quiet.bits, Option.getD_none, evolves.bits]
  length file := by
    rw [quiet.length, Nat.max_zero, evolves.length]
  held file held := quiet.held file (evolves.held file held)
  limits := quiet.limits.trans evolves.limits
  sound sound := quiet.sound (evolves.sound sound)

theorem Quiet.then_evolves (quiet : first.Quiet second)
    (evolves : second.Evolves third defined reach) : first.Evolves third defined reach where
  bits file position := by
    rw [evolves.bits, quiet.bits, Option.getD_none]
  length file := by
    rw [evolves.length, quiet.length, Nat.max_zero]
  held file held := evolves.held file (quiet.held file held)
  limits := evolves.limits.trans quiet.limits
  sound sound := evolves.sound (quiet.sound sound)

theorem Quiet.trans (before : first.Quiet second) (after : second.Quiet third) :
    first.Quiet third :=
  Evolves.then_quiet before after

theorem Evolves.longer (evolves : first.Evolves second defined reach) (file : FileId) :
    (first.volume.content file).length ≤ (second.volume.content file).length := by
  rw [evolves.length]
  apply Nat.le_max_left

theorem quiet_of_contents
    (length : forall file,
      (second.volume.content file).length = (first.volume.content file).length)
    (bytes : forall file place,
      (second.volume.content file).byte place = (first.volume.content file).byte place)
    (entries : second.volume.entries = first.volume.entries)
    (held : forall file, second.volume.Holds file ↔ first.volume.Holds file)
    (limits : second.limits = first.limits) : first.Quiet second where
  bits file position := by rw [bit, bit, bytes, Option.getD_none]
  length file := by rw [length, Nat.max_zero]
  held file := (held file).mpr
  limits := limits
  sound sound := by
    constructor
    · intro location file member
      rw [entries] at member
      exact (held file).mpr (sound.entries location file member)
    · intro file
      rw [length, limits]
      exact sound.limited file

/-- The volume and the limits are all that is looked at. -/
theorem quiet_of_same (volume : second.volume = first.volume)
    (limits : second.limits = first.limits) : first.Quiet second := by
  apply quiet_of_contents _ _ _ _ limits
  · intro file
    rw [volume]
  · intro file place
    rw [volume]
  · rw [volume]
  · intro file
    rw [volume]

theorem Quiet.refl (host : Host) : host.Quiet host :=
  quiet_of_same rfl rfl

/-- Where at most records were added, nothing has changed. -/
theorem quiet_of_changesOnly (changes : first.ChangesOnly none second) : first.Quiet second :=
  quiet_of_contents changes.length
    (fun file place => congrArg (Content.byte · place)
      (changes.others file (Option.some_ne_none file).symm))
    changes.entries changes.held changes.limits

/-! ## The content of one file -/

/-- Bits of one file. -/
def only (file : FileId) (bits : Nat -> Option Bool) (other : FileId) (position : Nat) :
    Option Bool :=
  if other = file then bits position else none

/-- A length of one file. -/
def onlyLength (file : FileId) (length : Nat) (other : FileId) : Nat :=
  if other = file then length else 0

theorem only_none (file : FileId) : only file (fun _ => none) = fun _ _ => none := by
  funext other position
  rw [only, ite_self]

theorem onlyLength_zero (file : FileId) : onlyLength file 0 = fun _ => 0 := by
  funext other
  rw [onlyLength, ite_self]

variable {host : Host} {file : FileId}

/-- Where every file reaches far enough, nothing has to happen. -/
theorem evolves_of_reached (far : forall file, reach file ≤ (host.volume.content file).length) :
    host.Evolves host (fun _ _ => none) reach where
  bits _ _ := rfl
  length file := (Nat.max_eq_left (far file)).symm
  held _ held := held
  limits := rfl
  sound sound := sound

theorem evolves_withContent (held : host.volume.Holds file) {change : Content -> Content}
    {bits : Nat -> Option Bool} {length : Nat}
    (changed : forall position,
      Byte.bit ((change (host.volume.content file)).byte (position / 8)) (position % 8) =
        (bits position).getD (host.bit file position))
    (long : (change (host.volume.content file)).length =
      max (host.volume.content file).length length)
    (allowed : length ≤ host.limits.fileLength) :
    host.Evolves (host.withContent file change) (only file bits) (onlyLength file length) := by
  have self : (host.withContent file change).volume.content file =
      change (host.volume.content file) :=
    Volume.content_updateContent_self held change
  have rest (other : FileId) (different : other ≠ file) :
      (host.withContent file change).volume.content other = host.volume.content other :=
    Volume.content_updateContent_of_ne host.volume different change
  have lengths (other : FileId) :
      ((host.withContent file change).volume.content other).length =
        max (host.volume.content other).length (onlyLength file length other) := by
    by_cases same : other = file
    · rw [same, self, onlyLength, if_pos rfl, long]
    · rw [rest other same, onlyLength, if_neg same, Nat.max_zero]
  constructor
  case bits =>
    intro other position
    by_cases same : other = file
    · rw [same, bit, self, only, if_pos rfl, changed]
    · rw [bit, rest other same, only, if_neg same, Option.getD_none, bit]
  case length => exact lengths
  case held =>
    intro other heldOther
    exact (Volume.holds_updateContent host.volume file other change).mpr heldOther
  case limits => rfl
  case sound =>
    intro sound
    constructor
    · intro location other member
      exact (Volume.holds_updateContent host.volume file other change).mpr
        (sound.entries location other member)
    · intro other
      have before := sound.limited other
      rw [lengths, onlyLength]
      change max _ _ ≤ host.limits.fileLength
      split <;> omega

/-- A change that leaves all bytes and the length is quiet, whether or not the file
is there. -/
theorem quiet_withContent (host : Host) (file : FileId) {change : Content -> Content}
    (same : forall content place, (change content).byte place = content.byte place)
    (long : forall content, (change content).length = content.length) :
    host.Quiet (host.withContent file change) := by
  by_cases held : host.volume.Holds file
  · have self := Volume.content_updateContent_self held change
    apply quiet_of_contents
    · intro other
      by_cases equal : other = file
      · rw [equal]
        exact (congrArg Content.length self).trans (long _)
      · exact congrArg Content.length
          (Volume.content_updateContent_of_ne host.volume equal change)
    · intro other place
      by_cases equal : other = file
      · rw [equal]
        exact (congrArg (Content.byte · place) self).trans (same _ place)
      · exact congrArg (Content.byte · place)
          (Volume.content_updateContent_of_ne host.volume equal change)
    · rfl
    · exact fun other => Volume.holds_updateContent host.volume file other change
    · rfl
  · have unchanged : host.volume.contents.modify file change = host.volume.contents :=
      List.modify_eq_self (Nat.le_of_not_lt held)
    apply quiet_of_same
    · rw [withContent, Volume.updateContent, unchanged]
    · rfl

end Host
end BitStore
