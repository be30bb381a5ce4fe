import BitStore.Bits.Sequence
import Std.Data.TreeMap

namespace BitStore

/-!
# Bytes kept in pages

`Pages` gives a byte to every position, zero to all but finitely many of them.
A page is kept only once something is written to it, and only as far as it has
been written, so a byte can be written at any distance for the cost of a page.
What the pages hold is the function `byte`; every operation is described by
what it does to this function, and how bytes are split into pages is not
observable.
-/

def pageSize : Nat :=
  4096

/-- A page, as far as it has been written. -/
abbrev Page := Array UInt8

namespace Page

/-- The byte at an offset, zero where nothing has been written. -/
def byte (page : Page) (offset : Nat) : UInt8 :=
  page[offset]?.getD 0

/-- The page with one byte written, and zeros in front of it as needed. -/
def put (page : Page) (offset : Nat) (value : UInt8) : Page :=
  if inside : offset < page.size then page.set offset value
  else (page ++ Array.replicate (offset - page.size) 0).push value

theorem byte_put (page : Page) (offset : Nat) (value : UInt8) (place : Nat) :
    (page.put offset value).byte place =
      if place = offset then value else page.byte place := by
  simp only [put]
  split
  next inside =>
    by_cases same : place = offset
    · subst same
      simp [byte, inside]
    · rw [if_neg same]
      simp [byte, Ne.symm same]
  next outside =>
    have filled : (page ++
        Array.replicate (offset - page.size) (0 : UInt8)).size = offset := by
      simp only [Array.size_append, Array.size_replicate]
      omega
    simp only [byte, Array.getElem?_push, filled]
    split
    · rfl
    · rw [Array.getElem?_append]
      split
      · rfl
      next after =>
        rw [Array.getElem?_eq_none (by omega : page.size ≤ place),
          Array.getElem?_replicate]
        split <;> rfl

def keep (page : Page) (count : Nat) : Page :=
  page.extract 0 count

theorem byte_keep (page : Page) (count place : Nat) :
    (page.keep count).byte place = if place < count then page.byte place else 0 := by
  simp only [keep, byte, Array.getElem?_extract, Nat.zero_add, Nat.sub_zero]
  by_cases front : place < count
  · by_cases inside : place < page.size
    · rw [if_pos (by omega), if_pos front]
    · rw [if_neg (by omega), if_pos front,
        Array.getElem?_eq_none (by omega : page.size ≤ place)]
  · rw [if_neg (by omega), if_neg front]
    rfl

end Page

/-- The pages that something was written to, by their number. -/
structure Pages where
  table : Std.TreeMap Nat Page := {}
  deriving Repr

namespace Pages

/-- The page of a number, empty unless it is kept. -/
def page (pages : Pages) (number : Nat) : Page :=
  pages.table.getD number #[]

def byte (pages : Pages) (position : Nat) : UInt8 :=
  (pages.page (position / pageSize)).byte (position % pageSize)

def put (pages : Pages) (position : Nat) (value : UInt8) : Pages where
  table := pages.table.alter (position / pageSize) fun page? =>
    some ((page?.getD #[]).put (position % pageSize) value)

/-- Pages with bytes written from a position on. -/
def write (pages : Pages) (position : Nat) : Bytes -> Pages
  | [] => pages
  | value :: rest => (pages.put position value).write (position + 1) rest

/-- Pages with zeros from a position on. -/
def cut (pages : Pages) (position : Nat) : Pages where
  table := pages.table.filterMap fun number page =>
    if number * pageSize < position then some (page.keep (position - number * pageSize))
    else none

/-! ## Bytes -/

@[simp] theorem byte_empty (position : Nat) : ({} : Pages).byte position = 0 := by
  simp [byte, page, Page.byte]

theorem byte_put (pages : Pages) (position : Nat) (value : UInt8) (place : Nat) :
    (pages.put position value).byte place =
      if place = position then value else pages.byte place := by
  simp only [byte, page, put, Std.TreeMap.getD_alter, Nat.compare_eq_eq]
  split
  next samePage =>
    rw [Option.getD_some, Page.byte_put, samePage, Std.TreeMap.getD_eq_getD_getElem?]
    have split := Nat.div_add_mod place pageSize
    have splitPosition := Nat.div_add_mod position pageSize
    by_cases same : place = position
    · simp [same]
    · rw [if_neg same, if_neg]
      intro sameOffset
      rw [samePage, ← sameOffset] at splitPosition
      exact same (split.symm.trans splitPosition)
  next otherPage =>
    rw [if_neg]
    intro same
    exact otherPage (by rw [same])

theorem byte_write (pages : Pages) (position : Nat) (bytes : Bytes) (place : Nat) :
    (pages.write position bytes).byte place =
      if position ≤ place ∧ place < position + bytes.length
      then bytes[place - position]?.getD 0 else pages.byte place := by
  induction bytes generalizing pages position with
  | nil => rw [write, if_neg (by simp)]
  | cons value rest ih =>
    rw [write, ih, byte_put, List.length_cons]
    by_cases same : place = position
    · subst same
      rw [if_neg (by omega), if_pos rfl, if_pos (by omega), Nat.sub_self]
      rfl
    · rw [if_neg same]
      by_cases inside : position + 1 ≤ place ∧ place < position + 1 + rest.length
      · rw [if_pos inside, if_pos (by omega),
          show place - position = place - (position + 1) + 1 by omega,
          List.getElem?_cons_succ]
      · rw [if_neg inside, if_neg (by omega)]

theorem byte_cut (pages : Pages) (position place : Nat) :
    (pages.cut position).byte place =
      if place < position then pages.byte place else 0 := by
  have split := Nat.div_add_mod place pageSize
  have splitBack : place / pageSize * pageSize = pageSize * (place / pageSize) :=
    Nat.mul_comm _ _
  simp only [byte, page, cut, Std.TreeMap.getD_eq_getD_getElem?,
    Std.TreeMap.getElem?_filterMap']
  cases pages.table[place / pageSize]? with
  | none => simp [Page.byte]
  | some page =>
    simp only [Option.bind_some, Option.getD_some]
    by_cases reached : place / pageSize * pageSize < position
    · rw [if_pos reached, Option.getD_some, Page.byte_keep]
      by_cases front : place < position
      · rw [if_pos front, if_pos (by omega)]
      · rw [if_neg front, if_neg (by omega)]
    · rw [if_neg reached, if_neg (by omega)]
      simp [Page.byte]

end Pages
end BitStore
