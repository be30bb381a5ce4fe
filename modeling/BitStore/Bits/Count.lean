import BitStore.Bits.Sequence

namespace BitStore

/-!
# Counting set bits

The count reads eight bytes at a time as one 64-bit word and takes the weight
of the word; the bytes that do not fill a word are counted one by one.  The
order in which a word's bytes are read is a parameter of the count.
-/

/-- Which byte of a word is the most significant one. -/
inductive ByteOrder where
  | little
  | big
  deriving DecidableEq, Repr

/-- The number that a byte sequence spells in the given order. -/
def ByteOrder.value : ByteOrder -> Bytes -> Nat
  | .little, bytes => bytes.foldr (fun byte above => byte.toNat + 256 * above) 0
  | .big, bytes => bytes.foldl (fun above byte => 256 * above + byte.toNat) 0

/-- The number of set bits of a 64-bit word. -/
def wordWeight (word : Nat) : Nat :=
  (List.range 64).countP word.testBit

namespace Bytes

/-- The number of set bits, by whole words first. -/
def cardinality (order : ByteOrder) : Bytes -> Nat
  | a :: b :: c :: d :: e :: f :: g :: h :: rest =>
      wordWeight (order.value [a, b, c, d, e, f, g, h]) + cardinality order rest
  | tail => (tail.map Byte.weight).sum

/-- The number of set bits as the machine counts them, least significant byte first. -/
def count (bytes : Bytes) : Nat :=
  bytes.cardinality .little

end Bytes
end BitStore
