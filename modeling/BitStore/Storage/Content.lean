import BitStore.Storage.Pages

namespace BitStore

/-!
# The content of a file

A file holds a byte at every position below its length.  Its bytes are kept in
pages, so a file can be a gigabyte long and cost nothing where it was never
written.

A mapping reaches beyond the end of the file, up to the end of the page where
the file ends.  What is stored there, the margin, is no part of the file: it is
seen through mappings alone, until the last page reaches stable storage or the
file gets another length.  A write that makes the file longer takes over those
positions of the margin that it passes, as zeros where it leaves a gap.
-/

/-- A file's length, its bytes, and what mappings have stored behind its end. -/
structure Content where
  length : Nat := 0
  body : Pages := {}
  margin : Pages := {}
  deriving Repr

namespace Content

/-- The content of a new file. -/
def empty : Content := {}

/-- The content that consists of given bytes. -/
def ofBytes (bytes : Bytes) : Content where
  length := bytes.length
  body := Pages.write {} 0 bytes

/-- The byte at a position, zero where the file has ended. -/
def byte (content : Content) (position : Nat) : UInt8 :=
  if position < content.length then content.body.byte position else 0

/-- The bytes from a position on, with zeros where the file has ended. -/
def window (content : Content) (position count : Nat) : Bytes :=
  (List.range' position count).map content.byte

/-- Everything that the file holds. -/
def toList (content : Content) : Bytes :=
  content.window 0 content.length

/-- The file cut, or extended by zeros, to a length. -/
def resize (content : Content) (size : Nat) : Content where
  length := size
  body := content.body.cut (min content.length size)

/-- The file with bytes written from a position on; a gap in front of them is
filled with zeros. -/
def write (content : Content) (position : Nat) (bytes : Bytes) : Content :=
  if bytes.isEmpty then content
  else
    let body :=
      if position ≤ content.length then content.body else content.body.cut content.length
    { content with
      length := max content.length (position + bytes.length)
      body := body.write position bytes }

/-! ## The view of a mapping -/

/-- The byte that a mapping shows at a position. -/
def mappedByte (content : Content) (position : Nat) : UInt8 :=
  if position < content.length then content.body.byte position
  else content.margin.byte position

/-- The first bytes that a mapping shows. -/
def mappedFront (content : Content) (count : Nat) : Bytes :=
  (List.range count).map content.mappedByte

/-- The file with bytes stored through a mapping from a position on.  Its length
stays; what lies behind its end goes to the margin. -/
def store (content : Content) (position : Nat) (bytes : Bytes) : Content :=
  let room := content.length - position
  { content with
    body := content.body.write position (bytes.take room)
    margin := content.margin.write (max position content.length) (bytes.drop room) }

/-- The file once all of it is on stable storage. -/
def settle (content : Content) : Content :=
  { content with margin := {} }

/-- The file once its pages are on stable storage up to a position. -/
def settleFront (content : Content) (reach : Nat) : Content :=
  if content.length / pageSize * pageSize < reach then content.settle else content

/-! ## Lengths -/

@[simp] theorem length_ofBytes (bytes : Bytes) :
    (ofBytes bytes).length = bytes.length := rfl

@[simp] theorem length_window (content : Content) (position count : Nat) :
    (content.window position count).length = count := by
  simp [window]

@[simp] theorem length_toList (content : Content) :
    content.toList.length = content.length := by
  simp [toList]

@[simp] theorem length_resize (content : Content) (size : Nat) :
    (content.resize size).length = size := rfl

theorem length_write (content : Content) (position : Nat) (bytes : Bytes)
    (written : bytes ≠ []) :
    (content.write position bytes).length =
      max content.length (position + bytes.length) := by
  simp [write, written]

@[simp] theorem length_mappedFront (content : Content) (count : Nat) :
    (content.mappedFront count).length = count := by
  simp [mappedFront]

@[simp] theorem length_store (content : Content) (position : Nat) (bytes : Bytes) :
    (content.store position bytes).length = content.length := rfl

@[simp] theorem length_settleFront (content : Content) (reach : Nat) :
    (content.settleFront reach).length = content.length := by
  simp only [settleFront]
  split <;> rfl

/-! ## Bytes -/

theorem window_getElem? (content : Content) (position count index : Nat)
    (inside : index < count) :
    (content.window position count)[index]? = some (content.byte (position + index)) := by
  simp [window, inside]

theorem toList_getElem? (content : Content) (position : Nat)
    (inside : position < content.length) :
    content.toList[position]? = some (content.byte position) := by
  rw [toList, window_getElem? _ _ _ _ inside, Nat.zero_add]

theorem byte_resize (content : Content) (size place : Nat) :
    (content.resize size).byte place = if place < size then content.byte place else 0 := by
  simp only [byte, resize, Pages.byte_cut]
  by_cases front : place < size
  · rw [if_pos front, if_pos front]
    by_cases inside : place < content.length
    · rw [if_pos (by omega), if_pos inside]
    · rw [if_neg (by omega), if_neg inside]
  · rw [if_neg front, if_neg front]

theorem byte_write (content : Content) (position : Nat) (bytes : Bytes) (place : Nat) :
    (content.write position bytes).byte place =
      if position ≤ place ∧ place < position + bytes.length
      then bytes[place - position]?.getD 0 else content.byte place := by
  cases bytes with
  | nil => rw [if_neg (by simp)]; rfl
  | cons value rest =>
    simp only [write, List.isEmpty_cons, Bool.false_eq_true, if_false, byte, Pages.byte_write]
    by_cases written : position ≤ place ∧ place < position + (value :: rest).length
    · rw [if_pos (by omega), if_pos written, if_pos written]
    · rw [if_neg written, if_neg written]
      by_cases inside : place < content.length
      · rw [if_pos (by omega), if_pos inside]
        split
        · rfl
        · rw [Pages.byte_cut, if_pos inside]
      · rw [if_neg inside]
        split
        next reached => rw [if_neg (by omega), Pages.byte_cut, if_neg inside]
        next => rfl

theorem mappedByte_of_lt (content : Content) (position : Nat)
    (inside : position < content.length) :
    content.mappedByte position = content.byte position := by
  simp [mappedByte, byte, inside]

theorem mappedByte_store (content : Content) (position : Nat) (bytes : Bytes)
    (place : Nat) :
    (content.store position bytes).mappedByte place =
      if position ≤ place ∧ place < position + bytes.length
      then bytes[place - position]?.getD 0 else content.mappedByte place := by
  simp only [mappedByte, store, Pages.byte_write, List.length_take, List.length_drop]
  by_cases inside : place < content.length
  · simp only [inside, if_true]
    by_cases stored : position ≤ place ∧ place < position + bytes.length
    · rw [if_pos stored, if_pos (by omega), List.getElem?_take, if_pos (by omega)]
    · rw [if_neg stored, if_neg (by omega)]
  · simp only [inside, if_false]
    by_cases stored : position ≤ place ∧ place < position + bytes.length
    · rw [if_pos stored, if_pos (by omega), List.getElem?_drop]
      congr 2
      omega
    · rw [if_neg stored, if_neg (by omega)]

/-- Storing through a mapping changes the bytes of the file that it passes. -/
theorem byte_store (content : Content) (position : Nat) (bytes : Bytes) (place : Nat)
    (inside : place < content.length) :
    (content.store position bytes).byte place =
      if position ≤ place ∧ place < position + bytes.length
      then bytes[place - position]?.getD 0 else content.byte place := by
  rw [← mappedByte_of_lt content place inside, ← mappedByte_store,
    mappedByte_of_lt _ _ (by simpa using inside)]

@[simp] theorem byte_settleFront (content : Content) (reach place : Nat) :
    (content.settleFront reach).byte place = content.byte place := by
  simp only [settleFront]
  split <;> rfl

end Content
end BitStore
