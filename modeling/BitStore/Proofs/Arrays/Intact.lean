import BitStore.BitArray.Operation
import BitStore.Proofs.Bits.Addresses
import BitStore.Proofs.Storage.Access

namespace BitStore

/-!
# Intact arrays

An array is intact while it is open and its storage still holds all of its
bytes.  Opening makes an array intact, and it stays so for as long as nobody cuts
its file; an array in memory is intact at any time.  This is all that the
operations of an array rest on: on an intact array each of them is a function of
the layout and of the storage bytes, whatever the backing is.

`BitArray.Becomes` is what a change leaves behind.  It fixes the new storage
bytes and says of everything else, the tail of the file included, that it stays.
-/

/-- A capacity is a word of 64 bits.  The bytes that it needs are few enough for each of
them to have an offset. -/
theorem Layout.byteLength_lt_offsetBound {layout : Layout}
    (word : layout.capacity < UInt64.size) : layout.byteLength < offsetBound := by
  have words : UInt64.size = 2 ^ 64 := rfl
  have offsets : offsetBound = 2 ^ 63 := rfl
  rw [byteLength]
  omega

namespace BitArray

/-- The file that an open array keeps its bytes in. -/
def file? : BitArray -> Option FileId
  | .memory _ => none
  | .file array => array.handle.map Handle.file
  | .mapped array => array.region.map Region.file

/-- The bytes of an array: its own, or those at the front of its file. -/
def storage (array : BitArray) (host : Host) : Bytes :=
  match array with
  | .memory array => array.toBytes
  | .file array =>
      match array.handle with
      | some handle => (host.volume.content handle.file).window 0 array.layout.byteLength
      | none => []
  | .mapped array =>
      match array.region with
      | some region => (host.volume.content region.file).window 0 array.layout.byteLength
      | none => []

/-- An array that is open and whose storage is all there.  A file has to be as
long as the system can be asked to write it; a mapping has to lie in its file. -/
inductive Intact (host : Host) : BitArray -> Prop where
  | memory (array : MemoryArray) : Intact host (.memory array)
  | file {array : FileArray} {handle : Handle} (live : array.handle = some handle)
      (whole : array.layout.fileLength ≤ (host.volume.content handle.file).length)
      (allowed : array.layout.fileLength ≤ host.limits.fileLength) :
      Intact host (.file array)
  | mapped {array : MappedArray} {region : Region} (live : array.region = some region)
      (whole : region.length ≤ (host.volume.content region.file).length) :
      Intact host (.mapped array)

/-- What an array has become: the same array over other bytes, with everything
outside of them as before. -/
structure Becomes (array : BitArray) (host : Host) (next : BitArray) (after : Host)
    (bytes : Bytes) : Prop where
  layout : next.layout = array.layout
  file? : next.file? = array.file?
  intact : next.Intact after
  storage : next.storage after = bytes
  changes : host.ChangesOnly array.file? after
  tail : forall file place, array.file? = some file -> array.layout.byteLength ≤ place ->
    (after.volume.content file).byte place = (host.volume.content file).byte place

theorem Intact.isOpen {array : BitArray} {host : Host} (intact : array.Intact host) :
    array.isClosed = false := by
  cases intact with
  | memory array => rfl
  | file live whole allowed => simp only [isClosed, FileArray.isClosed, live, Option.isNone_some]
  | mapped live whole => simp only [isClosed, MappedArray.isClosed, live, Option.isNone_some]

/-- An intact array stays intact while its file only gets longer. -/
theorem Intact.mono {array : BitArray} {host after : Host} (intact : array.Intact host)
    (limits : after.limits = host.limits)
    (longer : forall file, (host.volume.content file).length ≤
      (after.volume.content file).length) : array.Intact after := by
  cases intact with
  | memory array => exact .memory array
  | file live whole allowed =>
      exact .file live (Nat.le_trans whole (longer _)) (limits ▸ allowed)
  | mapped live whole => exact .mapped live (Nat.le_trans whole (longer _))

theorem Intact.changesOnly {array : BitArray} {host after : Host} {file : Option FileId}
    (intact : array.Intact host) (changes : host.ChangesOnly file after) :
    array.Intact after :=
  intact.mono changes.limits fun other => Nat.le_of_eq (changes.length other).symm

/-- Nothing has become of an array where only records were added. -/
theorem becomes_self {array : BitArray} {host after : Host} (intact : array.Intact host)
    (changes : host.ChangesOnly none after) :
    array.Becomes host array after (array.storage host) := by
  have contents : after.volume.content = host.volume.content :=
    funext fun other => changes.others other nofun
  refine ⟨rfl, rfl, intact.changesOnly changes, ?_, ?_, ?_⟩
  · cases array with
    | memory array => rfl
    | file array => simp only [storage, contents]
    | mapped array => simp only [storage, contents]
  · exact { changes with others := fun other _ => changes.others other nofun }
  · intro file place _ _
    rw [contents]

/-- An array in memory takes its bytes along, and the host has no part in it. -/
theorem becomes_memory (array next : MemoryArray) (layout : next.layout = array.layout)
    (host : Host) :
    (BitArray.memory array).Becomes host (.memory next) host next.toBytes where
  layout := layout
  file? := rfl
  intact := .memory next
  storage := rfl
  changes := Host.ChangesOnly.refl none host
  tail file place kept _ := by contradiction

end BitArray

/-! ## An intact array of each backing

All have the capacity twelve, and both files are longer than they need to be. -/

namespace Twelve

def layout : Layout where
  capacity := 12
  capacity_pos := by decide

def memory : MemoryArray where
  layout := layout
  bytes := #[0, 0]
  size_eq := by decide

def file : FileArray where
  layout := layout
  handle := some { file := 0, mode := .durable }
  path := "a"
  mode := .durable

def mapped : MappedArray where
  layout := layout
  region := some { mapping := { address := 4096, length := 5 }, file := 1 }
  path := "b"
  covered := by decide

def closedFile : FileArray :=
  { file with handle := none }

def host : Host where
  volume := { contents := [{ length := 4 }, { length := 5 }] }

theorem file_intact : (BitArray.file file).Intact host :=
  .file rfl (by decide) (by decide)

theorem mapped_intact : (BitArray.mapped mapped).Intact host :=
  .mapped rfl (by decide)

end Twelve

/-! ## The window at the front of a file -/

namespace Content

/-- A window is known by its bytes. -/
theorem window_eq {content : Content} {bytes : Bytes}
    (same : forall place (inside : place < bytes.length),
      content.byte place = bytes[place]) :
    content.window 0 bytes.length = bytes := by
  apply List.ext_getElem (length_window content 0 bytes.length)
  intro place below inside
  simp only [window, List.getElem_map, List.getElem_range', Nat.zero_add, Nat.one_mul]
  exact same place inside

theorem getElem_window {content : Content} {count place : Nat}
    (inside : place < (content.window 0 count).length) :
    (content.window 0 count)[place] = content.byte place := by
  simp only [window, List.getElem_map, List.getElem_range', Nat.zero_add, Nat.one_mul]

theorem window_take {content : Content} {count total : Nat} (inside : count ≤ total) :
    (content.window 0 total).take count = content.window 0 count := by
  simp only [window, ← List.map_take, List.take_range'_of_length_ge inside]

end Content
end BitStore
