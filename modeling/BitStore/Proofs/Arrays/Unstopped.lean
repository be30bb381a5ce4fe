import BitStore.Proofs.Arrays.Mirrors
import BitStore.Proofs.Arrays.Persistence
import BitStore.Proofs.Arrays.Shells

namespace BitStore

/-!
# Nothing is stopped

`RawArray.Fits` is what holds of the parts of all arrays that there can be.  Parts that fit
are just those of an array, so that the actions on them mirror those on arrays; they are not
stopped, and leave parts that fit.  By induction on how an array has come to be this is true
at any time, whatever has happened to the files in the meantime.
-/

/-! ## Making arrays -/

theorem Mirrors.laid {capacity : Nat} (word : capacity < 1 <<< 64) (host : Host) :
    Mirrors Layout.raw (liftM (RawLayout.ofCapacity capacity)) (liftM (Layout.ofCapacity capacity))
      host :=
  Mirrors.decided (Layout.run_raw_ofCapacity word)

/-- What is made from a layout alone. -/
theorem runFrom_of_layout {capacity : Nat} {make : Layout -> Except Fault MemoryArray}
    {made : Except Fault MemoryArray} {host : Host}
    (makes : made = do make (← Layout.ofCapacity capacity)) :
    runFrom (do return .memory (← made) : ArrayM BitArray) host =
      runFrom (do
        let layout ← Layout.ofCapacity capacity
        return .memory (← make layout) : ArrayM BitArray) host := by
  subst makes
  cases Layout.ofCapacity capacity <;> rfl

/-- What is made of another thing first. -/
theorem Mirrors.made {α : Type} {make : α -> BitArray} {raw : RawM RawArray} {plain : ArrayM α}
    {host : Host} (mirrors : Mirrors (fun value => (make value).raw) raw plain host) :
    Mirrors BitArray.raw raw (do return make (← plain)) host := by
  rw [Mirrors] at mirrors
  rw [Mirrors, mirrors, runFrom_return]
  rcases runFrom plain host with ⟨_ | _, _⟩ <;> rfl

namespace RawArray

variable {capacity : Nat}

theorem ofCapacity_mirrors (word : capacity < 1 <<< 64) (host : Host) :
    Mirrors BitArray.raw (ofCapacity capacity)
      (do return .memory (← MemoryArray.ofCapacity capacity)) host := by
  refine Mirrors.congr (runFrom_of_layout rfl) ?_
  refine Mirrors.bind (Mirrors.laid word host) fun layout _ _ => Mirrors.returns rfl ?_
  rw [BitArray.raw, MemoryArray.toBytes, Array.toList_replicate]
  rfl

theorem ofBytes_mirrors (word : capacity < 1 <<< 64) (bytes : Bytes) (host : Host) :
    Mirrors BitArray.raw (ofBytes bytes capacity)
      (do return .memory (← MemoryArray.ofBytes bytes capacity)) host := by
  refine Mirrors.congr (runFrom_of_layout rfl) ?_
  refine Mirrors.bind (Mirrors.laid word host) fun layout after _ => ?_
  by_cases fits : bytes.length = layout.byteLength
  · change Mirrors _ (if bytes.length = layout.byteLength then _ else _) _ after
    have size : bytes.toArray.size = layout.byteLength := by rwa [List.size_toArray]
    rw [if_pos fits, dif_pos size]
    exact Mirrors.pure
      (BitArray.memory { layout := layout, bytes := bytes.toArray, size_eq := size })
  · change Mirrors _ (if bytes.length = layout.byteLength then _ else _) _ after
    have size : ¬ bytes.toArray.size = layout.byteLength := by rwa [List.size_toArray]
    rw [if_neg fits, dif_neg size]
    exact Mirrors.throw _

theorem openFile_mirrors (word : capacity < 1 <<< 64) (path : String) (mode : WriteMode)
    (host : Host) :
    Mirrors (fun array => BitArray.raw (.file array)) (openFile path capacity mode)
      (FileArray.openAt path capacity mode) host := by
  refine Mirrors.bind Mirrors.begun fun begun _ _ => ?_
  refine Mirrors.branch ?_ (Mirrors.throw _)
  refine Mirrors.bind (Mirrors.laid word _) fun layout _ laid => ?_
  have fits := Layout.capacity_of_ofCapacity (congrArg Prod.fst laid)
  refine Mirrors.bind (Mirrors.array _) fun handle _ _ => ?_
  refine Mirrors.computed (Layout.raw_fileLength (fits ▸ word)) ?_
  refine Mirrors.bind (Mirrors.array _) fun length _ _ => ?_
  refine Mirrors.bind (Mirrors.system _) fun _ _ _ => ?_
  exact Mirrors.pure _

theorem openMapping_mirrors (word : capacity < 1 <<< 64) (path : String) (mode : WriteMode)
    (host : Host) :
    Mirrors (fun array => BitArray.raw (.mapped array)) (openMapping path capacity mode)
      (MappedArray.openAt path capacity mode) host := by
  refine Mirrors.bind Mirrors.begun fun begun _ _ => ?_
  refine Mirrors.branch (Mirrors.throw _) ?_
  refine Mirrors.bind (Mirrors.laid word _) fun layout _ laid => ?_
  have fits := Layout.capacity_of_ofCapacity (congrArg Prod.fst laid)
  refine Mirrors.bind (Mirrors.array _) fun handle _ _ => ?_
  refine Mirrors.computed (Layout.raw_fileLength (fits ▸ word)) ?_
  refine Mirrors.bind (Mirrors.array _) fun length _ _ => ?_
  refine Mirrors.bind (Mirrors.array _) fun region _ _ => ?_
  refine Mirrors.bind (Mirrors.system _) fun _ _ _ => ?_
  exact Mirrors.pure _

theorem openAt_mirrors (backing : Backing) (word : capacity < 1 <<< 64) (path : String)
    (mode : WriteMode) (host : Host) :
    Mirrors BitArray.raw (openAt backing path capacity mode)
      (backing.openAt path capacity mode) host := by
  cases backing with
  | memory => exact ofCapacity_mirrors word host
  | file => exact Mirrors.made (openFile_mirrors word path mode host)
  | mappedFile => exact Mirrors.made (openMapping_mirrors word path mode host)

/-! ## How the parts of an array fit -/

/-- The parts of an array fit. -/
structure Fits (array : RawArray) : Prop where
  word : array.layout.capacity < 1 <<< 64
  positive : 0 < array.layout.capacity
  length : array.layout.byteLength = array.layout.capacity / 8 + 1
  memory : forall bytes, array.storage = .memory bytes ->
    bytes.length = array.layout.byteLength
  mapped : forall region path, array.storage = .mapped (some region) path ->
    array.layout.byteLength + 1 ≤ region.length

end RawArray

theorem BitArray.raw_fits (array : BitArray) (word : array.layout.capacity < 1 <<< 64) :
    array.raw.Fits where
  word := by rwa [raw_layout]
  positive := by
    rw [raw_layout]
    exact array.layout.capacity_pos
  length := by
    rw [raw_layout]
    rfl
  memory := by
    intro bytes kept
    cases array with
    | memory array =>
        cases kept
        exact array.size_eq
    | file array | mapped array => cases kept
  mapped := by
    intro region path kept
    cases array with
    | mapped array =>
        have live : array.region = some region := (RawStorage.mapped.inj kept).1
        exact array.covered region live
    | memory array | file array => cases kept

theorem MemoryArray.capacity_of_ofBytes {bytes : Bytes} {capacity : Nat} {copy : MemoryArray}
    (wrapped : ofBytes bytes capacity = .ok copy) : copy.layout.capacity = capacity := by
  rw [ofBytes] at wrapped
  cases laid : Layout.ofCapacity capacity with
  | error fault =>
      rw [laid] at wrapped
      cases wrapped
  | ok layout =>
      have kept := Layout.capacity_of_ofCapacity laid
      rw [laid] at wrapped
      by_cases fits : bytes.toArray.size = layout.byteLength
      · simp only [bind, Except.bind, dif_pos fits] at wrapped
        cases wrapped
        exact kept
      · simp only [bind, Except.bind, dif_neg fits] at wrapped
        cases wrapped

/-- Closing takes the storage away, and nothing else. -/
theorem BitArray.layout_close (array : BitArray) (host : Host) :
    (array.close host).1.2.layout = array.layout := by
  cases array with
  | memory array => rfl
  | file array => rcases array with ⟨layout, _ | handle, path, mode⟩ <;> rfl
  | mapped array => rcases array with ⟨layout, _ | region, path, covered⟩ <;> rfl

namespace RawArray

variable {array : RawArray}

/-- Parts that fit are those of an array, whose capacity is a word. -/
theorem fits_iff : array.Fits ↔
    Exists fun plain : BitArray => plain.layout.capacity < 1 <<< 64 ∧ plain.raw = array := by
  constructor
  · intro fits
    rcases array with ⟨⟨capacity, byteLength⟩, storage⟩
    have length : byteLength = capacity / 8 + 1 := fits.length
    subst length
    let layout : Layout := { capacity := capacity, capacity_pos := fits.positive }
    cases storage with
    | memory bytes =>
        have size : bytes.toArray.size = layout.byteLength := fits.memory bytes rfl
        exact ⟨.memory { layout := layout, bytes := bytes.toArray, size_eq := size }, fits.word,
          rfl⟩
    | file handle path mode =>
        exact ⟨.file { layout := layout, handle := handle, path := path, mode := mode }, fits.word,
          rfl⟩
    | mapped region path =>
        have covered : forall mapped, mapped ∈ region -> layout.fileLength ≤ mapped.length := by
          rintro mapped rfl
          exact fits.mapped mapped path rfl
        exact ⟨.mapped { layout := layout, region := region, path := path, covered := covered },
          fits.word, rfl⟩
  · rintro ⟨plain, word, rfl⟩
    exact plain.raw_fits word

/-- The arrays that there can be: those that are made, and those that operations and closing
leave, each time on whatever host, with operands that are themselves such arrays. -/
inductive Reached : RawArray -> Prop where
  | opened {backing : Backing} {path : String} {capacity : Nat} {mode : WriteMode}
      {array : RawArray} {host after : Host} (word : capacity < 1 <<< 64)
      (run : (openAt backing path capacity mode).run.run host = .ok (.ok array, after)) :
      Reached array
  | wrapped {bytes : Bytes} {capacity : Nat} {array : RawArray} {host after : Host}
      (word : capacity < 1 <<< 64)
      (run : (ofBytes bytes capacity).run.run host = .ok (.ok array, after)) : Reached array
  | stepped {array next : RawArray} {operation : Operation RawArray}
      {reply : Except Fault Reply} {host after : Host} (reached : Reached array)
      (operands : forall operand, operation.operand? = some operand -> Reached operand)
      (run : (array.step operation).run host = .ok ((reply, next), after)) : Reached next
  | closed {array next : RawArray} {outcome : Except Fault Unit} {host after : Host}
      (reached : Reached array) (run : array.close host = ((outcome, next), after)) :
      Reached next

/-- What operations are about, with an array for each operand. -/
theorem exists_resolve (operation : Operation RawArray)
    (operands : forall operand, operation.operand? = some operand ->
      Exists fun plain : BitArray => plain.raw = operand) :
    Exists fun plain : Operation BitArray => plain.resolve (m := Id) BitArray.raw = operation := by
  cases operation with
  | merge kind operand =>
      rcases operands operand rfl with ⟨plain, rfl⟩
      exact ⟨.merge kind plain, rfl⟩
  | get index => exact ⟨.get index, rfl⟩
  | raise index => exact ⟨.raise index, rfl⟩
  | lower index => exact ⟨.lower index, rfl⟩
  | raiseIfUnset index => exact ⟨.raiseIfUnset index, rfl⟩
  | clear => exact ⟨.clear, rfl⟩
  | snapshot => exact ⟨.snapshot, rfl⟩
  | highest => exact ⟨.highest, rfl⟩
  | lowest => exact ⟨.lowest, rfl⟩
  | next first => exact ⟨.next first, rfl⟩
  | count => exact ⟨.count, rfl⟩
  | positions => exact ⟨.positions, rfl⟩
  | flush => exact ⟨.flush, rfl⟩

/-- An array that there can be is in parts what an array is that cannot be stopped. -/
theorem Reached.plain (reached : array.Reached) :
    Exists fun plain : BitArray => plain.layout.capacity < 1 <<< 64 ∧ plain.raw = array := by
  induction reached with
  | @opened backing path capacity mode array host after word run =>
      rcases (openAt_mirrors backing word path mode host).brought run with ⟨plain, opened, rfl⟩
      exact ⟨plain, (BitArray.capacity_of_opened opened).symm ▸ word, rfl⟩
  | @wrapped bytes capacity array host after word run =>
      rcases (ofBytes_mirrors word bytes host).brought run with ⟨plain, made, rfl⟩
      cases wrapped : MemoryArray.ofBytes bytes capacity with
      | error fault =>
          rw [wrapped] at made
          cases made
      | ok copy =>
          rw [wrapped] at made
          cases made
          exact ⟨.memory copy, (MemoryArray.capacity_of_ofBytes wrapped).symm ▸ word, rfl⟩
  | @stepped array next operation reply host after reached operands run found foundOperands =>
      rcases found with ⟨plain, word, rfl⟩
      rcases exists_resolve operation fun operand named => (foundOperands operand named).imp
        fun _ found => found.2 with ⟨operation, rfl⟩
      rw [plain.run_raw_step word] at run
      cases run
      exact ⟨_, (plain.layout_step operation host).symm ▸ word, rfl⟩
  | @closed array next outcome host after reached run found =>
      rcases found with ⟨plain, word, rfl⟩
      rw [plain.raw_close] at run
      cases run
      exact ⟨_, (plain.layout_close host).symm ▸ word, rfl⟩

theorem Reached.fits (reached : array.Reached) : array.Fits :=
  fits_iff.mpr reached.plain

/-- A snapshot has as many bytes as the array, so that what a merge asserts always holds. -/
theorem Reached.length_of_snapshot (reached : array.Reached) {host after : Host} {bytes : Bytes}
    (shot : array.snapshot.run.run host = .ok (.ok bytes, after)) :
    bytes.length = array.layout.byteLength := by
  rcases reached.plain with ⟨plain, word, rfl⟩
  rcases (plain.snapshot_mirrors host).brought shot with ⟨given, read, rfl⟩
  rw [plain.raw_layout]
  exact BitArray.length_of_snapshot (congrArg Prod.fst read)

/-- No operation on an array that there can be is stopped. -/
theorem Reached.step (reached : array.Reached) {operation : Operation RawArray}
    (operands : forall operand, operation.operand? = some operand -> operand.Reached)
    (host : Host) :
    Exists fun reply => Exists fun next => Exists fun after =>
      (array.step operation).run host = .ok ((reply, next), after) ∧ next.Reached := by
  rcases reached.plain with ⟨plain, word, same⟩
  rcases exists_resolve operation fun operand named => (operands operand named).plain.imp
    fun _ found => found.2 with ⟨resolved, rfl⟩
  have run := plain.run_raw_step word resolved host
  rw [same] at run
  exact ⟨_, _, _, run, .stepped reached operands run⟩

end RawArray

/-! ## Main results -/

/-- Whatever is made of a capacity is made as without the checks. -/
structure MakesUnstopped (capacity : Nat) : Prop where
  layout : (RawLayout.ofCapacity capacity).run = .ok ((Layout.ofCapacity capacity).map Layout.raw)
  opened : forall backing path mode host, Mirrors BitArray.raw
    (RawArray.openAt backing path capacity mode) (backing.openAt path capacity mode) host
  copied : forall bytes host, Mirrors BitArray.raw (RawArray.ofBytes bytes capacity)
    (do return .memory (← MemoryArray.ofBytes bytes capacity)) host

/-- A layout computes as without the checks, on as many bytes as it has. -/
structure Layout.Unstopped (layout : Layout) : Prop where
  fileLength : layout.raw.fileLength = .ok layout.fileLength
  lastSearchable : layout.raw.lastSearchable = .ok layout.lastSearchable
  locate : forall index, (layout.raw.locate index).run = .ok (layout.locate index)
  test : forall index (bytes : Bytes), bytes.length = layout.byteLength ->
    (layout.raw.test bytes index).run = .ok ((layout.locate index).map fun address =>
      address.test (bytes[address.byte]?.getD 0))
  change : forall index (bytes : Bytes) change, bytes.length = layout.byteLength ->
    (layout.raw.change change bytes index).run =
      .ok ((layout.locate index).map fun address =>
        (address.byte, change address (bytes[address.byte]?.getD 0)))

/-- Bytes are searched, scanned and read as without the checks. -/
structure Bytes.Unstopped (bytes : Bytes) : Prop where
  search : forall first last, last < 1 <<< 64 ->
    Checked.next? bytes first last = .ok (bytes.next? first last)
  visits : forall first last, last + 1 < 1 <<< 64 ->
    Checked.visits bytes first last = .ok (bytes.positions first last)
  highest : bytes.length ≤ 1 <<< 61 -> Checked.highest? bytes = .ok bytes.highest?
  lowest : bytes.length ≤ 1 <<< 61 -> Checked.lowest? bytes = .ok bytes.lowest?
  window : forall offset, (Checked.wordWindow bytes offset).run = .ok (bytes.wordWindow offset)
  readWord : forall offset, (Checked.readWord bytes offset).run = .ok (bytes.readWord offset)
  writeWord : forall offset word,
    (Checked.writeWord bytes offset word).run = .ok (bytes.writeWord offset word)

/-- Parts that fit, are read in full and take any step with others that there can be. -/
structure RawArray.Unstopped (array : RawArray) : Prop where
  fits : array.Fits
  snapshot : forall host bytes after, array.snapshot.run.run host = .ok (.ok bytes, after) ->
    bytes.length = array.layout.byteLength
  step : forall (operation : Operation RawArray) host,
    (forall operand, operation.operand? = some operand -> operand.Reached) ->
    Exists fun reply => Exists fun next => Exists fun after =>
      (array.step operation).run host = .ok ((reply, next), after) ∧ next.Reached

theorem makesUnstopped {capacity : Nat} (word : capacity < 1 <<< 64) :
    MakesUnstopped capacity where
  layout := Layout.run_raw_ofCapacity word
  opened backing path mode host := RawArray.openAt_mirrors backing word path mode host
  copied bytes host := RawArray.ofBytes_mirrors word bytes host

theorem Layout.unstopped {layout : Layout} (word : layout.capacity < 1 <<< 64) :
    layout.Unstopped where
  fileLength := Layout.raw_fileLength word
  lastSearchable := layout.raw_lastSearchable
  locate := layout.run_raw_locate
  test index _ size := Layout.run_raw_test size index
  change index _ change size := Layout.run_raw_change change size index

theorem Bytes.unstopped (bytes : Bytes) : bytes.Unstopped where
  search first _ word := Checked.next?_eq bytes first word
  visits first _ beyond := by
    rw [← Bytes.visits_eq_positions]
    exact Checked.visits_eq bytes first beyond
  highest := Checked.highest?_eq
  lowest := Checked.lowest?_eq
  window := Checked.run_wordWindow bytes
  readWord := Checked.run_readWord bytes
  writeWord := Checked.run_writeWord bytes

theorem RawArray.Reached.unstopped {array : RawArray} (reached : array.Reached) :
    array.Unstopped where
  fits := reached.fits
  snapshot _ _ _ := reached.length_of_snapshot
  step _ host operands := reached.step operands host

/-- No computation is stopped, whatever words it is given.  That of a layout needs that the
capacity is a word and, for a bit among bytes, that there are as many bytes as the layout
has.  A search needs that its window ends at a word, searches one after the other that it
ends in front of the last word, and a scan from one of the ends that there are no more than
`2 ^ 61` bytes.  A window of eight bytes needs nothing.  Each comes to what it comes to
without the checks.

The same is true of the arrays.  What makes them and what they do is not stopped, on any
host, and is what is done without the checks.  The parts of every array that there can be fit:
the capacity is positive and the number of bytes is that of the layout, in memory there are as
many bytes, and a mapping has at least one more.  Every snapshot has this number of bytes. -/
theorem never_stopped :
    (forall capacity, capacity < 1 <<< 64 -> MakesUnstopped capacity) ∧
    (forall layout : Layout, layout.capacity < 1 <<< 64 -> layout.Unstopped) ∧
    (forall bytes : Bytes, bytes.Unstopped) ∧
    (forall (array : BitArray) operation host, array.layout.capacity < 1 <<< 64 ->
      (array.raw.step (operation.resolve (m := Id) BitArray.raw)).run host =
        .ok (Prod.map id BitArray.raw (array.step operation host).1,
          (array.step operation host).2)) ∧
    forall array : RawArray, array.Reached -> array.Unstopped :=
  ⟨fun _ word => makesUnstopped word, fun _ word => Layout.unstopped word, Bytes.unstopped,
    fun array operation host word => array.run_raw_step word operation host,
    fun _ reached => reached.unstopped⟩

namespace Tailed

def region : Region where
  mapping := { address := 1, length := 5 }
  file := 0

/-- The parts of an array in a mapping that is longer than its bytes. -/
def mapped : RawArray where
  layout := { capacity := 12, byteLength := 2 }
  storage := .mapped (some region) "a"

theorem mapped_reached : mapped.Reached := by
  have run : Exists fun after =>
      (RawArray.openAt .mappedFile "a" 12 .durable).run.run host = .ok (.ok mapped, after) :=
    ⟨_, rfl⟩
  rcases run with ⟨after, run⟩
  exact .opened (by decide) run

end Tailed

/-- The greatest capacity and a window that ends at the greatest word; and a mapping into which
its own file is merged. -/
theorem never_stopped_greatest :
    let greatest := 1 <<< 64 - 1
    (RawLayout.ofCapacity greatest).run =
      .ok (.ok { capacity := greatest, byteLength := 1 <<< 61 }) ∧
    Checked.next? [0, 128] 3 greatest = .ok (some 15) ∧
    Checked.visits [5, 1] 0 (greatest - 1) = .ok [0, 2, 8] ∧
    Checked.highest? [6, 0] = .ok (some 2) ∧
    (Checked.wordWindow [] greatest).run = .ok (.error (.indexOutOfRange greatest 0)) ∧
    Tailed.mapped.Fits ∧
    Exists fun reply => Exists fun next => Exists fun after =>
      (Tailed.mapped.step (.merge .or Tailed.mapped)).run Tailed.host =
        .ok ((reply, next), after) ∧ next.Reached := by
  intro greatest
  rcases never_stopped with ⟨makes, _, bytes, _, arrays⟩
  have reached := arrays Tailed.mapped Tailed.mapped_reached
  have found : Bytes.next? [0, 128] 3 greatest = some 15 := by decide
  have listed : Bytes.positions [5, 1] 0 (greatest - 1) = [0, 2, 8] := by decide
  have laid : (Layout.ofCapacity greatest).map Layout.raw =
      .ok { capacity := greatest, byteLength := 1 <<< 61 } := by
    have length : greatest / 8 + 1 = 1 <<< 61 := by decide
    rw [Layout.ofCapacity, dif_pos (by decide), ← length]
    rfl
  refine ⟨laid ▸ (makes greatest (by decide)).layout, ?_, ?_, (bytes [6, 0]).highest (by decide),
    (bytes []).window greatest, reached.fits, ?_⟩
  · rw [← found]
    exact (bytes [0, 128]).search 3 greatest (by decide)
  · rw [← listed]
    exact (bytes [5, 1]).visits 0 (greatest - 1) (by decide)
  · apply reached.step
    rintro operand named
    cases named
    exact Tailed.mapped_reached

end BitStore
