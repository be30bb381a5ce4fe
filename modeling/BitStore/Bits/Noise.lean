import BitStore.Bits.Sequence

namespace BitStore
namespace Bytes

/-!
# Refilling a window with noise

The bytes of a window give way to those that a generator draws.  Which bytes come is
the generator's affair; what stays is not.  The sequence is as long as before, and every
byte outside the window is the one it was.
-/

section

variable {γ : Type} [RandomGen γ]

/-- The next bytes that a generator draws. -/
def drawn (generator : γ) : Nat -> Bytes
  | 0 => []
  | count + 1 =>
      let (value, generator) := randNat generator 0 255
      UInt8.ofNat value :: drawn generator count

/-- The bytes with those from `first` up to, but not including, `stop` drawn anew. -/
def redrawn (bytes : Bytes) (first stop : Nat) (generator : γ) : Bytes :=
  bytes.take first ++ drawn generator (stop - first) ++ bytes.drop stop

theorem length_drawn (generator : γ) (count : Nat) : (drawn generator count).length = count := by
  induction count generalizing generator with
  | zero => rfl
  | succ count inductionHypothesis =>
      rw [drawn, List.length_cons, inductionHypothesis]

variable {bytes : Bytes} {first stop : Nat}

theorem length_redrawn (generator : γ) (ordered : first ≤ stop) (inside : stop ≤ bytes.length) :
    (bytes.redrawn first stop generator).length = bytes.length := by
  rw [redrawn, List.length_append, List.length_append, length_drawn, List.length_take,
    List.length_drop]
  omega

/-- Whatever the generator draws, no byte outside the window is changed. -/
theorem getElem?_redrawn (generator : γ) (ordered : first ≤ stop)
    (inside : stop ≤ bytes.length) {place : Nat} (outside : place < first ∨ stop ≤ place) :
    (bytes.redrawn first stop generator)[place]? = bytes[place]? := by
  have front : (bytes.take first).length = first := by
    rw [List.length_take]
    omega
  have middle : (bytes.take first ++ drawn generator (stop - first)).length = stop := by
    rw [List.length_append, front, length_drawn]
    omega
  rw [redrawn]
  rcases outside with before | behind
  · rw [List.getElem?_append_left (by omega), List.getElem?_append_left (by omega),
      List.getElem?_take, if_pos before]
  · rw [List.getElem?_append_right (by omega), middle, List.getElem?_drop]
    congr 1
    omega

end

/-- Draw a window anew, with the generator of a seed. -/
def refill (bytes : Bytes) (first stop seed : Nat) : Bytes :=
  bytes.redrawn first stop (mkStdGen seed)

end Bytes
end BitStore
