import BitStore.Proofs.Arrays.Persistence

namespace BitStore

/-!
# Growth is a join

A file is made long enough by putting zeros behind what it holds, and left alone if it is
long enough already.  Asked for several lengths, it therefore reaches as far as the greatest
of them: in which order they are asked for, and how often, leaves no trace.  Requests that
the system refuses leave none either.

Opening an array asks for one byte more than the array has, and does nothing else to the
bytes of its file.  What holds of the requests thus holds of the arrays that are opened over
one file.
-/

/-! ## Zeros behind zeros -/

namespace Bytes

theorem rightpad_rightpad (bytes : Bytes) (first second : Nat) :
    List.rightpad second 0 (List.rightpad first 0 bytes) =
      List.rightpad (max first second) 0 bytes := by
  apply ext_getD
  · simp only [length_rightpad, Nat.max_assoc]
  · intro place
    simp only [getElem?_rightpad]

end Bytes

/-- The greatest of some lengths. -/
def farthest (lengths : List Nat) : Nat :=
  lengths.foldr max 0

theorem farthest_le_iff {lengths : List Nat} {bound : Nat} :
    farthest lengths ≤ bound ↔ forall length, length ∈ lengths -> length ≤ bound := by
  induction lengths with
  | nil => exact iff_of_true (Nat.zero_le bound) fun _ listed => nomatch listed
  | cons length rest inductionHypothesis =>
      rw [List.forall_mem_cons, ← inductionHypothesis]
      exact Nat.max_le

/-- Neither the order nor repetitions matter. -/
theorem farthest_congr {lengths others : List Nat}
    (same : forall length, length ∈ lengths ↔ length ∈ others) :
    farthest lengths = farthest others := by
  apply Nat.le_antisymm
  · exact farthest_le_iff.mpr fun length listed =>
      farthest_le_iff.mp (Nat.le_refl _) length ((same length).mp listed)
  · exact farthest_le_iff.mpr fun length listed =>
      farthest_le_iff.mp (Nat.le_refl _) length ((same length).mpr listed)

/-- The greatest one of the lengths is the farthest. -/
theorem farthest_eq {lengths : List Nat} {greatest : Nat} (listed : greatest ∈ lengths)
    (above : forall length, length ∈ lengths -> length ≤ greatest) :
    farthest lengths = greatest :=
  Nat.le_antisymm (farthest_le_iff.mpr above) (farthest_le_iff.mp (Nat.le_refl _) greatest listed)

/-! ## Requests -/

namespace Handle

variable (handle : Handle) {host : Host} {least : Nat}

/-- A file that is long enough is left alone, and so is all else. -/
theorem runFrom_ensureLength_of_le (enough : least ≤ (host.volume.content handle.file).length) :
    runFrom (handle.ensureLength least) host = (.ok ⟨_, enough⟩, host) := by
  simp only [ensureLength, Handle.length, runFrom_bind, runFrom_liftM, Host.content_apply,
    runFrom_pure, dif_pos enough]

/-- The host that is about to extend a file. -/
def extending (least : Nat) (host : Host) : Host :=
  host.recorded (.growing (host.volume.content handle.file).length least)

/-- Any other file is extended. -/
theorem runFrom_ensureLength_of_lt (short : (host.volume.content handle.file).length < least)
    {after : Host}
    (extended : runFrom (handle.setLength least) (handle.extending least host) = (.ok (), after)) :
    runFrom (handle.ensureLength least) host = (.ok ⟨least, Nat.le_refl least⟩, after) := by
  rw [extending] at extended
  simp only [ensureLength, Handle.length, runFrom_bind, runFrom_liftM, Host.content_apply,
    runFrom_pure, dif_neg (Nat.not_le_of_lt short), Host.record_apply]
  rw [extended]

/-- What the system answers when it does not extend the file, is the answer. -/
theorem runFrom_ensureLength_refused (short : (host.volume.content handle.file).length < least)
    {cause : StorageError} {after : Host}
    (refused : runFrom (handle.setLength least) (handle.extending least host) =
      (.error cause, after)) :
    runFrom (handle.ensureLength least) host = (.error cause, after) := by
  rw [extending] at refused
  simp only [ensureLength, Handle.length, runFrom_bind, runFrom_liftM, Host.content_apply,
    runFrom_pure, dif_neg (Nat.not_le_of_lt short), Host.record_apply]
  rw [refused]

/-- A request that is refused changes no file. -/
theorem ensureLength_refused {cause : StorageError} {after : Host}
    (refused : runFrom (handle.ensureLength least) host = (.error cause, after)) :
    after.volume = host.volume := by
  rcases handle.ensureLength_cases host least with ⟨_, _, granted, _⟩ | ⟨_, _, failed, same, _⟩
  · rw [refused] at granted
    cases granted
  · rw [refused] at failed
    cases failed
    exact same

/-- A request that is granted puts zeros behind what the file holds, as far as is asked for. -/
theorem ensureLength_granted (held : host.volume.Holds handle.file)
    {length : { length : Nat // least ≤ length }} {after : Host}
    (granted : runFrom (handle.ensureLength least) host = (.ok length, after)) :
    length.val = max (host.volume.content handle.file).length least ∧
      after.volume.Holds handle.file ∧
      (after.volume.content handle.file).toList =
        List.rightpad least 0 (host.volume.content handle.file).toList := by
  rcases handle.ensureLength_cases host least with
    ⟨_, _, asked, long, longer⟩ | ⟨_, _, refused, _⟩
  · rw [granted] at asked
    cases asked
    refine ⟨long, ?_, ?_⟩
    · exact (longer.evolves held).held handle.file held
    · rw [longer.volume, Volume.toList_lengthen held]
  · rw [granted] at refused
    cases refused

end Handle

/-- The second host comes from the first through requests for the length of a file, each of
them through any handle on the file.  The lengths are those that were granted. -/
inductive Host.Grows (file : FileId) : Host -> List Nat -> Host -> Prop where
  | none (host : Host) : Grows file host [] host
  | granted {handle : Handle} {least : Nat} {length : { length : Nat // least ≤ length }}
      {host middle after : Host} {rest : List Nat} (same : handle.file = file)
      (asked : runFrom (handle.ensureLength least) host = (.ok length, middle))
      (later : Grows file middle rest after) : Grows file host (least :: rest) after
  | refused {handle : Handle} {least : Nat} {cause : StorageError} {host middle after : Host}
      {rest : List Nat} (same : handle.file = file)
      (asked : runFrom (handle.ensureLength least) host = (.error cause, middle))
      (later : Grows file middle rest after) : Grows file host rest after

/-- By induction on the requests: what was granted adds up to the farthest of it. -/
theorem Host.Grows.toList {file : FileId} {host after : Host} {lengths : List Nat}
    (grows : Grows file host lengths after) (held : host.volume.Holds file) :
    (after.volume.content file).toList =
      List.rightpad (farthest lengths) 0 (host.volume.content file).toList := by
  induction grows with
  | none host => exact (Bytes.rightpad_of_le (Nat.zero_le _)).symm
  | @granted handle least length host middle after rest same asked later inductionHypothesis =>
      subst same
      rcases handle.ensureLength_granted held asked with ⟨_, stillHeld, grown⟩
      rw [inductionHypothesis stillHeld, grown, Bytes.rightpad_rightpad]
      rfl
  | @refused handle least cause host middle after rest same asked later inductionHypothesis =>
      subst same
      have unchanged := handle.ensureLength_refused asked
      rw [← unchanged] at held ⊢
      exact inductionHypothesis held

/-! ## Arrays over one file -/

/-- The second host comes from the first by opening arrays at a path, one after the other, of
these capacities and with any backing that outlives the process. -/
inductive Host.OpensEach (path : String) : Host -> List Nat -> Host -> Prop where
  | none (host : Host) : OpensEach path host [] host
  | opened {host middle after : Host} {capacity : Nat} {rest : List Nat} {array : BitArray}
      (opens : host.Opens path capacity array middle) (later : OpensEach path middle rest after) :
      OpensEach path host (capacity :: rest) after

/-- The file is as long as the largest of the arrays needs it. -/
theorem Host.OpensEach.bytesAt {path : String} {host after : Host} {capacities : List Nat}
    (opens : OpensEach path host capacities after) (linked : host.volume.Linked) :
    after.volume.bytesAt path =
      List.rightpad (farthest (capacities.map (· / 8 + 2))) 0 (host.volume.bytesAt path) := by
  induction opens with
  | none host => exact (Bytes.rightpad_of_le (Nat.zero_le _)).symm
  | opened opens later inductionHypothesis =>
      rcases opens.lies linked with ⟨_, _, file, lies⟩
      rw [inductionHypothesis lies.linked, opens.bytesAt linked, Bytes.rightpad_rightpad]
      rfl

theorem farthest_needed {capacities : List Nat} {largest : Nat} (listed : largest ∈ capacities)
    (above : forall capacity, capacity ∈ capacities -> capacity ≤ largest) :
    farthest (capacities.map (· / 8 + 2)) = largest / 8 + 2 := by
  apply farthest_eq
  · exact List.mem_map.mpr ⟨largest, listed, rfl⟩
  · intro needed member
    rcases List.mem_map.mp member with ⟨capacity, place, rfl⟩
    exact Nat.add_le_add_right (Nat.div_le_div_right (above capacity place)) 2

theorem farthest_needed_congr {capacities others : List Nat}
    (same : forall capacity, capacity ∈ capacities ↔ capacity ∈ others) :
    farthest (capacities.map (· / 8 + 2)) = farthest (others.map (· / 8 + 2)) := by
  apply farthest_congr
  intro needed
  simp only [List.mem_map, same]

/-! ## Main results -/

/-- What a request for a length comes to.  A file that is too short has its length set, after
the request was recorded, and the outcome of that is the outcome of the request. -/
structure Handle.Extends (handle : Handle) (host : Host) (least : Nat) : Prop where
  granted : forall length after, runFrom (handle.ensureLength least) host = (.ok length, after) ->
    length.val = max (host.volume.content handle.file).length least ∧
      (after.volume.content handle.file).toList =
        List.rightpad least 0 (host.volume.content handle.file).toList
  needless : forall enough : least ≤ (host.volume.content handle.file).length,
    runFrom (handle.ensureLength least) host = (.ok ⟨_, enough⟩, host)
  extended : (host.volume.content handle.file).length < least -> forall after,
    runFrom (handle.setLength least) (handle.extending least host) = (.ok (), after) ->
    runFrom (handle.ensureLength least) host = (.ok ⟨least, Nat.le_refl least⟩, after)
  refused : (host.volume.content handle.file).length < least -> forall cause after,
    runFrom (handle.setLength least) (handle.extending least host) = (.error cause, after) ->
    runFrom (handle.ensureLength least) host = (.error cause, after) ∧ after.volume = host.volume

/-- What a file holds after requests, in whichever order and however often they were made. -/
structure Host.Joins (host : Host) (file : FileId) (lengths : List Nat) (after : Host) :
    Prop where
  content : (after.volume.content file).toList =
    List.rightpad (farthest lengths) 0 (host.volume.content file).toList
  same : forall others other, host.Grows file others other ->
    (forall length, length ∈ lengths ↔ length ∈ others) ->
    (after.volume.content file).toList = (other.volume.content file).toList

/-- What lies at a path after arrays of these capacities were opened there, in whichever order
and however often. -/
structure Host.JoinsAt (host : Host) (path : String) (capacities : List Nat) (after : Host) :
    Prop where
  largest : forall largest, largest ∈ capacities ->
    (forall capacity, capacity ∈ capacities -> capacity ≤ largest) ->
    after.volume.bytesAt path = List.rightpad (largest / 8 + 2) 0 (host.volume.bytesAt path) ∧
      (after.volume.bytesAt path).length =
        max (host.volume.bytesAt path).length (largest / 8 + 2)
  same : forall others other, host.OpensEach path others other ->
    (forall capacity, capacity ∈ capacities ↔ capacity ∈ others) ->
    after.volume.bytesAt path = other.volume.bytesAt path

theorem Handle.extends_of_holds {handle : Handle} {host : Host}
    (held : host.volume.Holds handle.file) (least : Nat) : handle.Extends host least where
  granted length after granted := by
    rcases handle.ensureLength_granted held granted with ⟨long, _, grown⟩
    exact ⟨long, grown⟩
  needless := handle.runFrom_ensureLength_of_le
  extended short _ := handle.runFrom_ensureLength_of_lt short
  refused short cause after refused := by
    have asked := handle.runFrom_ensureLength_refused short refused
    exact ⟨asked, handle.ensureLength_refused asked⟩

theorem Host.Grows.joins {file : FileId} {host after : Host} {lengths : List Nat}
    (grows : host.Grows file lengths after) (held : host.volume.Holds file) :
    host.Joins file lengths after where
  content := grows.toList held
  same others other growsOther same := by
    rw [grows.toList held, growsOther.toList held, farthest_congr same]

theorem Host.OpensEach.joinsAt {path : String} {host after : Host} {capacities : List Nat}
    (opens : host.OpensEach path capacities after) (linked : host.volume.Linked) :
    host.JoinsAt path capacities after where
  largest largest listed above := by
    rw [opens.bytesAt linked, farthest_needed listed above, Bytes.length_rightpad]
    exact ⟨rfl, rfl⟩
  same others other opensOther same := by
    rw [opens.bytesAt linked, opensOther.bytesAt linked, farthest_needed_congr same]

/-- A request for a length answers with the greater one of this length and the present one, and
puts zeros behind what the file holds; where the file is long enough nothing at all changes, and
where the system does not extend it the answer says so and no file changes.  After any number of
requests a file holds what it held, with zeros up to the greatest length that was granted, in
whichever order and however often they were made.  So arrays that are opened over one file leave
the same bytes in every order, as many as the largest array needs. -/
theorem growth_joins :
    (forall (handle : Handle) (host : Host) (least : Nat), host.volume.Holds handle.file ->
      handle.Extends host least) ∧
    (forall (file : FileId) (host after : Host) (lengths : List Nat),
      host.volume.Holds file -> host.Grows file lengths after ->
      host.Joins file lengths after) ∧
    forall (path : String) (host after : Host) (capacities : List Nat),
      host.volume.Linked -> host.OpensEach path capacities after ->
      host.JoinsAt path capacities after :=
  ⟨fun _ _ least held => Handle.extends_of_holds held least,
    fun _ _ _ _ held grows => grows.joins held,
    fun _ _ _ _ linked opens => opens.joinsAt linked⟩

namespace Tailed

def durable : Handle where
  file := 0
  mode := .durable

def buffered : Handle where
  file := 0
  mode := .buffered

theorem grows : Exists fun after => host.Grows 0 [3, 9] after :=
  ⟨_, .granted rfl (rfl : runFrom (durable.ensureLength 3) host = _)
    (.granted rfl (rfl : runFrom (durable.ensureLength 9) _ = _) (.none _))⟩

/-- The same lengths, one of them twice, and a length that the system does not allow. -/
theorem growsAgain : Exists fun after => host.Grows 0 [9, 3, 9] after :=
  ⟨_, .granted rfl (rfl : runFrom (buffered.ensureLength 9) host = _)
    (.refused rfl (rfl : runFrom (durable.ensureLength (1 <<< 30 + 1)) _ = _)
      (.granted rfl (rfl : runFrom (durable.ensureLength 3) _ = _)
        (.granted rfl (rfl : runFrom (buffered.ensureLength 9) _ = _) (.none _))))⟩

theorem opensEach : Exists fun after => host.OpensEach "a" [12, 60] after :=
  ⟨_, .opened opens (.opened ⟨by decide, .mappedFile, .durable, rfl, rfl⟩ (.none _))⟩

theorem opensEachAgain : Exists fun after => host.OpensEach "a" [60, 12] after :=
  ⟨_, .opened ⟨by decide, .mappedFile, .durable, rfl, rfl⟩
    (.opened ⟨by decide, .file, .buffered, rfl, rfl⟩ (.none _))⟩

end Tailed

/-- Five bytes that reach nine in two ways, by requests and by arrays. -/
theorem growth_joins_tailed :
    (Exists fun after => Exists fun other => Tailed.host.Grows 0 [3, 9] after ∧
      Tailed.host.Grows 0 [9, 3, 9] other ∧
      (after.volume.content 0).toList = [0, 0, 7, 7, 7, 0, 0, 0, 0] ∧
      (other.volume.content 0).toList = [0, 0, 7, 7, 7, 0, 0, 0, 0]) ∧
    Exists fun after => Exists fun other => Tailed.host.OpensEach "a" [12, 60] after ∧
      Tailed.host.OpensEach "a" [60, 12] other ∧
      after.volume.bytesAt "a" = other.volume.bytesAt "a" ∧
      (after.volume.bytesAt "a").length = 9 := by
  have held : Tailed.host.volume.Holds 0 := Nat.zero_lt_one
  rcases Tailed.grows with ⟨after, grows⟩
  rcases Tailed.growsAgain with ⟨other, growsAgain⟩
  rcases growth_joins with ⟨_, requests, openings⟩
  have joins := requests 0 _ after _ held grows
  rcases Tailed.opensEach with ⟨last, opens⟩
  rcases Tailed.opensEachAgain with ⟨otherLast, opensAgain⟩
  have joinsAt := openings "a" _ last _ Tailed.linked opens
  refine ⟨⟨after, other, grows, growsAgain, joins.content, ?_⟩, last, otherLast, opens,
    opensAgain, joinsAt.same _ otherLast opensAgain ?_, ?_⟩
  · have members (length : Nat) : length ∈ [3, 9] ↔ length ∈ [9, 3, 9] := by
      simp only [List.mem_cons, List.not_mem_nil, or_false]
      omega
    rw [← joins.same _ other growsAgain members, joins.content]
    rfl
  · intro capacity
    simp only [List.mem_cons, List.not_mem_nil, or_false]
    omega
  · exact (joinsAt.largest 60 (by decide) (by decide)).2

end BitStore
