import BitStore.Proofs.Bits.Changes
import BitStore.Proofs.Storage.Access

namespace BitStore

/-!
# Files by their paths

To whoever has only a path, a file is what the path finds, and what the file holds
are the bytes from its beginning to its end.  Opening a path opens the file that the
path finds, or makes one that it finds from then on; a new file changes what is at
its own location and nothing else.

`Volume.Extends` says that a path has a file of a least length, with the bytes that it
had before and zeros behind them.  A file that was missing had no bytes.
-/

namespace Bytes

/-- Zeros behind the bytes are what is read there anyway. -/
@[simp] theorem getElem?_rightpad (bytes : Bytes) (length place : Nat) :
    (List.rightpad length 0 bytes)[place]?.getD 0 = bytes[place]?.getD 0 := by
  rw [List.rightpad, List.getElem?_append]
  split
  next => rfl
  next outside =>
    rw [List.getElem?_eq_none (Nat.le_of_not_lt outside), List.getElem?_replicate]
    split <;> rfl

theorem length_rightpad (bytes : Bytes) (length : Nat) :
    (List.rightpad length 0 bytes).length = max bytes.length length := by
  rw [List.rightpad, List.length_append, List.length_replicate]
  omega

theorem rightpad_of_le {bytes : Bytes} {length : Nat} (long : length ≤ bytes.length) :
    List.rightpad length 0 bytes = bytes := by
  rw [List.rightpad, Nat.sub_eq_zero_of_le long, List.replicate_zero, List.append_nil]

end Bytes

namespace Content

variable {content : Content} {bytes : Bytes}

/-- Behind the end of a file zeros are read, from the file as from the bytes. -/
@[simp] theorem getElem?_toList (content : Content) (place : Nat) :
    content.toList[place]?.getD 0 = content.byte place := by
  rcases Nat.lt_or_ge place content.length with inside | past
  · rw [toList_getElem? content place inside, Option.getD_some]
  · rw [List.getElem?_eq_none (by rwa [length_toList]), byte_of_le content past]
    rfl

/-- A file holds given bytes if it is as long as they are and has each of them. -/
theorem toList_eq (length : content.length = bytes.length)
    (same : forall place, content.byte place = bytes[place]?.getD 0) : content.toList = bytes := by
  apply Bytes.ext_getD
  · rw [length_toList, length]
  · intro place
    rw [getElem?_toList, same]

/-- A file that is extended holds zeros behind what it held. -/
theorem toList_resize {size : Nat} (longer : content.length ≤ size) :
    (content.resize size).toList = List.rightpad size 0 content.toList := by
  apply toList_eq
  · rw [length_resize, Bytes.length_rightpad, length_toList, Nat.max_eq_right longer]
  · intro place
    rw [byte_resize_of_le content longer, Bytes.getElem?_rightpad, getElem?_toList]

end Content

namespace Volume

variable {before after : Volume} {path : String} {location : Location} {file : FileId}

/-- Every file that is listed is there. -/
def Linked (volume : Volume) : Prop :=
  forall location file, (location, Entry.file file) ∈ volume.entries -> volume.Holds file

theorem mem_of_found (found : before.entry? location = some (.file file)) :
    (location, Entry.file file) ∈ before.entries := by
  unfold entry? at found
  split at found
  · cases Option.some.inj found
  · rcases List.lookup_eq_some_iff.mp found with ⟨front, rest, listed, _⟩
    rw [listed]
    exact List.mem_append_right front List.mem_cons_self

theorem Linked.holds (linked : before.Linked) (found : before.entry? location = some (.file file)) :
    before.Holds file :=
  linked location file (mem_of_found found)

/-- What the file at a path holds; nothing, where there is no file. -/
def bytesAt (volume : Volume) (path : String) : Bytes :=
  match volume.find path with
  | .ok (_, .file file) => (volume.content file).toList
  | _ => []

theorem bytesAt_of_found (found : after.find path = .ok (location, .file file)) :
    after.bytesAt path = (after.content file).toList := by
  rw [bytesAt, found]

theorem bytesAt_of_absent (absent : before.isPresent path = false) : before.bytesAt path = [] := by
  unfold isPresent at absent
  unfold bytesAt
  cases found : before.find path with
  | error cause => rfl
  | ok place =>
      rw [found] at absent
      contradiction

/-- What a path finds is a matter of the entries. -/
theorem find_congr (entries : after.entries = before.entries) (path : String) :
    after.find path = before.find path := by
  rcases before with ⟨listed, contents⟩
  rcases after with ⟨listedAfter, contentsAfter⟩
  cases entries
  rfl

theorem isFile_iff : before.isFile path = true ↔
    Exists fun location => Exists fun file => before.find path = .ok (location, .file file) := by
  unfold isFile
  cases found : before.find path with
  | error cause => simp only [Bool.false_eq_true, reduceCtorEq, exists_false]
  | ok place =>
      rcases place with ⟨location, _ | file⟩
      · simp only [Bool.false_eq_true, Except.ok.injEq, Prod.mk.injEq, reduceCtorEq, and_false,
          exists_false]
      · exact iff_of_true rfl ⟨location, file, rfl⟩

/-! ## A new file -/

theorem content_addFile (volume : Volume) (location : Location) (other : FileId) :
    (volume.addFile location).2.content other = volume.content other := by
  simp only [addFile, content, List.getElem?_append]
  split
  next inside => rfl
  next outside =>
    rw [List.getElem?_eq_none (Nat.le_of_not_lt outside), List.getElem?_singleton]
    split <;> rfl

theorem holds_addFile (volume : Volume) (location : Location) {other : FileId}
    (held : volume.Holds other ∨ other = (volume.addFile location).1) :
    (volume.addFile location).2.Holds other := by
  simp only [Holds, addFile, List.length_append, List.length_singleton] at held ⊢
  rcases held with inside | same
  · exact Nat.lt_succ_of_lt inside
  · exact Nat.lt_succ_of_le (Nat.le_of_eq same)

/-- A new file changes what is at its own location. -/
theorem entry?_addFile (volume : Volume) (location other : Location) (named : location ≠ []) :
    Volume.entry? (volume.addFile location).2 other =
      if other = location then some (.file volume.contents.length) else volume.entry? other := by
  simp only [addFile, addEntry, entry?, List.lookup_cons]
  by_cases same : other = location
  · subst same
    simp only [List.isEmpty_iff, named, if_false, beq_self_eq_true, if_true]
  · simp only [same, if_false, beq_eq_false_iff_ne.mpr same]

theorem enter_addFile {segment : Segment} {directory reached : Location} (named : location ≠ [])
    (free : before.entry? location = none)
    (entered : before.enter directory segment = .ok reached) :
    (before.addFile location).2.enter directory segment = .ok reached := by
  cases segment with
  | here | parent => exact entered
  | name name =>
      simp only [enter] at entered ⊢
      split at entered
      · contradiction
      next short =>
        rw [if_neg short, entry?_addFile _ _ _ named]
        -- the file is where nothing was, and a directory was entered
        have elsewhere : directory ++ [name] ≠ location := by
          intro same
          rw [same, free] at entered
          contradiction
        rwa [if_neg elsewhere]

/-- A way that led to a directory still leads there. -/
theorem follow_addFile {way : List Segment} {directory : Location} (named : location ≠ [])
    (free : before.entry? location = none) (led : before.follow way = .ok directory) :
    (before.addFile location).2.follow way = .ok directory := by
  unfold follow at led ⊢
  generalize [] = start at led ⊢
  induction way generalizing start with
  | nil => exact led
  | cons segment rest inductionHypothesis =>
      rw [List.foldlM_cons] at led ⊢
      cases entered : before.enter start segment with
      | error cause =>
          rw [entered] at led
          contradiction
      | ok reached =>
          rw [entered] at led
          rw [enter_addFile named free entered]
          exact inductionHypothesis reached led

/-! ## What a path opens -/

/-- The location of a name in a directory that a path leads to, and whether a slash
follows the name. -/
def Names (volume : Volume) (path : String) (location : Location) (slash : Bool) : Prop :=
  Exists fun route => Exists fun directory => Exists fun name =>
    Route.ofText path = .ok route ∧ volume.follow route.way = .ok directory ∧
    route.last = .name name ∧ ¬ name.tooLong = true ∧ route.slash = slash ∧
    location = directory ++ [name]

variable {slash : Bool}

theorem Names.ne_nil (names : before.Names path location slash) : location ≠ [] := by
  rcases names with ⟨route, directory, name, _, _, _, _, _, rfl⟩
  exact List.append_ne_nil_of_right_ne_nil directory (List.cons_ne_nil name [])

/-- A path finds what is at the location that it names. -/
theorem Names.find (names : before.Names path location slash) :
    before.find path =
      match before.entry? location with
      | none => .error .notFound
      | some .directory => .ok (location, .directory)
      | some (.file file) =>
          if slash then .error .notADirectory else .ok (location, .file file) := by
  rcases names with ⟨route, directory, name, routed, led, last, short, rfl, rfl⟩
  simp only [Volume.find, routed, bind, Except.bind, led, last, if_neg short]
  rfl

/-- A path still names the location where a file was made. -/
theorem Names.addFile (names : before.Names path location slash)
    (free : before.entry? location = none) :
    (before.addFile location).2.Names path location slash := by
  have named := names.ne_nil
  rcases names with ⟨route, directory, name, routed, led, rest⟩
  exact ⟨route, directory, name, routed, follow_addFile named free led, rest⟩

/-- A path that is opened names a file, or a location where one is made. -/
theorem names_of_opened {create : Bool}
    (opened : before.openFile path create = .ok (file, after)) :
    Exists fun location => Exists fun slash => before.Names path location slash ∧
      (slash = false ∧ before.entry? location = some (.file file) ∧ after = before ∨
        create = true ∧ slash = false ∧ before.entry? location = none ∧
          before.addFile location = (file, after)) := by
  cases routed : Route.ofText path with
  | error cause =>
      rw [openFile, routed] at opened
      contradiction
  | ok route =>
      cases led : before.follow route.way with
      | error cause =>
          simp only [openFile, routed, bind, Except.bind, led] at opened
          contradiction
      | ok directory =>
          simp only [openFile, routed, bind, Except.bind, led] at opened
          cases last : route.last with
          | here | parent =>
              rw [last] at opened
              contradiction
          | name name =>
              rw [last] at opened
              dsimp only at opened
              split at opened
              · contradiction
              next direct =>
              split at opened
              · contradiction
              next short =>
              refine ⟨directory ++ [name], route.slash,
                ⟨route, directory, name, routed, led, last, short, rfl, rfl⟩, ?_⟩
              split at opened
              next => contradiction
              next listed found =>
                split at opened
                · contradiction
                next unslashed =>
                  rcases Prod.mk.inj (Except.ok.inj opened) with ⟨rfl, rfl⟩
                  exact .inl ⟨Bool.eq_false_iff.mpr unslashed, found, rfl⟩
              next found =>
                split at opened
                next creating =>
                  have unslashed : route.slash = false := by
                    simpa only [creating, Bool.true_and, Bool.not_eq_true] using direct
                  exact .inr ⟨creating, unslashed, found, Except.ok.inj opened⟩
                next => contradiction

/-- A path opens the file that it finds.  Where it finds nothing, it may make a file,
which it then finds. -/
theorem openFile_finds {create : Bool}
    (opened : before.openFile path create = .ok (file, after)) :
    (after = before ∧ Exists fun location =>
      before.find path = .ok (location, .file file) ∧
      before.entry? location = some (.file file) ∧ location ≠ []) ∨
    (create = true ∧ before.isPresent path = false ∧ Exists fun location =>
      before.entry? location = none ∧ location ≠ [] ∧ before.addFile location = (file, after) ∧
      after.find path = .ok (location, .file file)) := by
  rcases names_of_opened opened with
    ⟨location, slash, names, ⟨rfl, found, same⟩ | ⟨creating, rfl, free, made⟩⟩
  · refine .inl ⟨same, location, ?_, found, names.ne_nil⟩
    rw [names.find, found]
    rfl
  · have newFile : file = before.contents.length := (congrArg Prod.fst made).symm
    have newVolume : after = (before.addFile location).2 := (congrArg Prod.snd made).symm
    have listed := before.entry?_addFile location location names.ne_nil
    rw [if_pos rfl, ← newFile, ← newVolume] at listed
    have absent : before.isPresent path = false := by
      rw [isPresent, names.find, free]
    have still := names.addFile free
    rw [← newVolume] at still
    refine .inr ⟨creating, absent, location, free, names.ne_nil, made, ?_⟩
    rw [still.find, listed]
    rfl

/-! ## A file made long enough -/

/-- A path has a file of a least length, which holds what was there before and zeros
behind that.  The file was there already, or it is new where nothing was; all that is
at other locations and in other files is as before. -/
structure Extends (before : Volume) (path : String) (least : Nat) (after : Volume) : Prop where
  found : after.isFile path = true
  bytes : after.bytesAt path = List.rightpad least 0 (before.bytesAt path)
  origin : forall {location file}, after.find path = .ok (location, .file file) ->
    before.entry? location = some (.file file) ∨
      before.entry? location = none ∧ before.isPresent path = false
  entries : forall {location file}, after.find path = .ok (location, .file file) ->
    forall other, other ≠ location -> after.entry? other = before.entry? other
  contents : forall {location file}, after.find path = .ok (location, .file file) ->
    forall other, other ≠ file -> after.content other = before.content other

/-- The volume with a file made long enough. -/
def lengthen (volume : Volume) (file : FileId) (least : Nat) : Volume :=
  if least ≤ (volume.content file).length then volume
  else volume.updateContent file fun content => content.resize least

theorem toList_lengthen (held : before.Holds file) (least : Nat) :
    ((before.lengthen file least).content file).toList =
      List.rightpad least 0 (before.content file).toList := by
  unfold lengthen
  split
  next enough => rw [Bytes.rightpad_of_le (by rwa [Content.length_toList])]
  next short =>
    rw [content_updateContent_self held,
      Content.toList_resize (Nat.le_of_lt (Nat.lt_of_not_le short))]

theorem content_lengthen_of_ne {other : FileId} (different : other ≠ file) (least : Nat) :
    (before.lengthen file least).content other = before.content other := by
  unfold lengthen
  split
  next => rfl
  next => exact content_updateContent_of_ne before different _

theorem entries_lengthen (least : Nat) :
    (before.lengthen file least).entries = before.entries := by
  unfold lengthen
  split <;> rfl

theorem Linked.lengthen (linked : before.Linked) (file : FileId) (least : Nat) :
    (before.lengthen file least).Linked := by
  unfold Volume.lengthen
  split
  next => exact linked
  next =>
    intro location other listed
    exact (holds_updateContent before file other _).mpr (linked location other listed)

/-- What is opened is there, and a path that is opened has a file from then on. -/
theorem opened_extends {create : Bool} (linked : before.Linked)
    (opened : before.openFile path create = .ok (file, after)) :
    after.Linked ∧ after.Holds file ∧
      (Exists fun location => after.find path = .ok (location, .file file)) ∧
      before.Extends path 0 after := by
  rcases openFile_finds opened with
    ⟨rfl, location, found, listed, named⟩ |
    ⟨_, absent, location, free, named, made, found⟩
  · refine ⟨linked, linked.holds listed, ⟨location, found⟩, ?_⟩
    constructor
    case found => exact isFile_iff.mpr ⟨location, file, found⟩
    case bytes => rw [Bytes.rightpad_of_le (Nat.zero_le _)]
    case origin =>
      intro other kept here
      cases found.symm.trans here
      exact .inl listed
    case entries => exact fun _ _ _ => rfl
    case contents => exact fun _ _ _ => rfl
  · have newFile : file = (before.addFile location).1 := (congrArg Prod.fst made).symm
    have newVolume : after = (before.addFile location).2 := (congrArg Prod.snd made).symm
    have contents (other : FileId) : after.content other = before.content other := by
      rw [newVolume, content_addFile]
    have held : after.Holds file := by
      rw [newVolume, newFile]
      exact before.holds_addFile location (.inr rfl)
    refine ⟨?_, held, ⟨location, found⟩, ?_⟩
    · intro place other member
      rw [newVolume] at member ⊢
      rcases List.mem_cons.mp member with same | listed
      · cases same
        exact before.holds_addFile location (.inr rfl)
      · exact before.holds_addFile location (.inl (linked place other listed))
    · constructor
      case found => exact isFile_iff.mpr ⟨location, file, found⟩
      case bytes =>
        have empty : before.content file = .empty := by
          rw [newFile, content, addFile, List.getElem?_eq_none (Nat.le_refl _)]
          rfl
        rw [bytesAt_of_found found, contents, empty, bytesAt_of_absent absent]
        rfl
      case origin =>
        intro other kept here
        cases found.symm.trans here
        exact .inr ⟨free, absent⟩
      case entries =>
        intro other kept here elsewhere different
        cases found.symm.trans here
        rw [newVolume, entry?_addFile _ _ _ named, if_neg different]
      case contents => exact fun _ other _ => contents other

/-- An opened file that is made long enough. -/
theorem Extends.lengthen (extension : before.Extends path 0 after) (held : after.Holds file)
    (found : after.find path = .ok (location, .file file)) (least : Nat) :
    before.Extends path least (after.lengthen file least) := by
  have finds : (after.lengthen file least).find path = .ok (location, .file file) := by
    rw [find_congr (entries_lengthen least), found]
  constructor
  case found => exact isFile_iff.mpr ⟨location, file, finds⟩
  case bytes =>
    have before := extension.bytes
    rw [Bytes.rightpad_of_le (Nat.zero_le _), bytesAt_of_found found] at before
    rw [bytesAt_of_found finds, toList_lengthen held, before]
  case origin =>
    intro other kept here
    cases finds.symm.trans here
    exact extension.origin found
  case entries =>
    intro other kept here elsewhere different
    cases finds.symm.trans here
    rw [← extension.entries found elsewhere different]
    unfold entry?
    rw [entries_lengthen]
  case contents =>
    intro other kept here elsewhere different
    cases finds.symm.trans here
    rw [content_lengthen_of_ne different, extension.contents found elsewhere different]

end Volume
end BitStore
