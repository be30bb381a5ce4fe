import BitStore.Config.Text
import BitStore.Proofs.Json.Passing
import BitStore.Proofs.Json.Shapes

namespace BitStore
namespace Options

/-!
# Objects of options

An object of options is a list of members, written with commas between them.  What is read of
it depends on the members alone, not on how they are written: `Draft.add` enters a member into a
draft, and refuses one that is there already.
-/

open Json Json.Reader

/-! ## Members -/

/-- A member of an object of options. -/
inductive Member where
  | capacity (bits : Nat)
  | backing (backing : Backing)
  | writeMode (mode : WriteMode)
  -- A member that options do not have.
  | other (name : String)

/-- The names of the members that options have. -/
def knownNames : List String :=
  ["capacity", "backing", "write_mode"]

namespace Member

def name : Member -> String
  | .capacity _ => "capacity"
  | .backing _ => "backing"
  | .writeMode _ => "write_mode"
  | .other name => name

def capacity? : Member -> Option Nat
  | .capacity found => some found
  | _ => none

def backing? : Member -> Option Backing
  | .backing found => some found
  | _ => none

def writeMode? : Member -> Option WriteMode
  | .writeMode found => some found
  | _ => none

/-- How the value of a member is written; nothing else is asked of the value of a member that
options do not have. -/
inductive ValueWritten : Member -> List Char -> Prop where
  | capacity {bits : Nat} (fits : bits < 2 ^ 64) :
      ValueWritten (.capacity bits) (toString bits).toList
  | backing {backing : Backing} {spelled : List Char}
      (spelling : Spelling spelled backing.name.toList) :
      ValueWritten (.backing backing) (quote spelled)
  | writeMode {mode : WriteMode} {spelled : List Char}
      (spelling : Spelling spelled mode.name.toList) :
      ValueWritten (.writeMode mode) (quote spelled)
  | other {name : String} {value : List Char} (unknown : name ∉ knownNames)
      (written : Json.Written .value value) : ValueWritten (.other name) value

/-- How a member is written: its name, a colon and its value, with blanks around them. -/
inductive Written : Member -> List Char -> Prop where
  | mk {member : Member} {spelled front value back : List Char}
      (spelling : Spelling spelled member.name.toList) (paddedName : Padded (quote spelled) front)
      (written : ValueWritten member value) (padded : Padded value back) :
      Written member (front ++ ':' :: back)

end Member

/-- Members with a comma behind each. -/
inductive Leading : List Member -> List Char -> Prop where
  | nil : Leading [] []
  | cons {member : Member} {members : List Member} {text rest : List Char}
      (written : member.Written text) (others : Leading members rest) :
      Leading (member :: members) (text ++ ',' :: rest)

/-- An object of these members, in this order. -/
inductive ObjectWritten : List Member -> List Char -> Prop where
  | none {blanks : List Char} (blank : Blanks blanks) :
      ObjectWritten [] ('{' :: (blanks ++ ['}']))
  | some {members : List Member} {last : Member} {front text : List Char}
      (leading : Leading members front) (written : last.Written text) :
      ObjectWritten (members ++ [last]) ('{' :: ((front ++ text) ++ ['}']))

/-! ## Entering a member -/

/-- A draft with one more member, unless it has that member. -/
def Draft.add (draft : Draft) : Member -> Option Draft
  | .capacity bits =>
      if draft.capacity.isSome then none else some { draft with capacity := some bits }
  | .backing backing =>
      if draft.backing.isSome then none else some { draft with backing := some backing }
  | .writeMode mode =>
      if draft.writeMode.isSome then none else some { draft with writeMode := some mode }
  | .other _ => some draft

/-- The draft already has the member of this name. -/
def Draft.Has (draft : Draft) (name : String) : Prop :=
  (name = "capacity" ∧ draft.capacity.isSome) ∨ (name = "backing" ∧ draft.backing.isSome) ∨
    (name = "write_mode" ∧ draft.writeMode.isSome)

/-! ## The member of each name -/

section Names

variable (draft : Draft)

theorem readMember_capacity : readMember draft "capacity" = (do
    requireFirst draft.capacity
    mark ':'
    return { draft with capacity := some (← natural) }) :=
  if_pos rfl

theorem readMember_backing : readMember draft "backing" = (do
    requireFirst draft.backing
    mark ':'
    return { draft with backing := some (← choice Backing.ofName?) }) :=
  (if_neg (by decide)).trans (if_pos rfl)

theorem readMember_writeMode : readMember draft "write_mode" = (do
    requireFirst draft.writeMode
    mark ':'
    return { draft with writeMode := some (← choice WriteMode.ofName?) }) :=
  (if_neg (by decide)).trans ((if_neg (by decide)).trans (if_pos rfl))

theorem readMember_other {name : String} (unknown : name ∉ knownNames) :
    readMember draft name = (do
      mark ':'
      skip
      return draft) := by
  simp only [knownNames, List.mem_cons, List.not_mem_nil, or_false, not_or] at unknown
  rw [readMember, if_neg (by simpa using unknown.1), if_neg (by simpa using unknown.2.1),
    if_neg (by simpa using unknown.2.2)]

end Names

section Reading

variable {draft : Draft} {member : Member} {name : String}
  {blanks value back spelled front text rest : List Char} {c : Char} {fuel : Nat}

theorem run_requireFirst_repeated {α : Type} {earlier : Option α}
    (present : earlier.isSome = true) : (requireFirst earlier).run text = .error .shape := by
  rw [requireFirst, if_pos present]
  rfl

/-- A name that has been read before is refused, whatever stands behind it. -/
theorem readMember_repeated (present : draft.Has name) :
    (readMember draft name).run rest = .error .shape := by
  rcases present with ⟨rfl, present⟩ | ⟨rfl, present⟩ | ⟨rfl, present⟩
  case inl => rw [readMember_capacity, run_bind_error (run_requireFirst_repeated present)]
  case inr.inl => rw [readMember_backing, run_bind_error (run_requireFirst_repeated present)]
  case inr.inr => rw [readMember_writeMode, run_bind_error (run_requireFirst_repeated present)]

theorem ofName?_name (backing : Backing) : Backing.ofName? backing.name = some backing := by
  cases backing <;> decide

theorem modeOfName?_name (mode : WriteMode) : WriteMode.ofName? mode.name = some mode := by
  cases mode <;> decide

/-- A member that options have is read once. -/
theorem run_known {α : Type} {earlier : Option α} {reader : Reader α} {found : α}
    (enter : α -> Draft) (blank : Blanks blanks) (taken : reader.run text = .ok (found, rest)) :
    (do
      requireFirst earlier
      mark ':'
      return enter (← reader)).run (blanks ++ ':' :: text) =
      match if earlier.isSome then none else some (enter found) with
      | none => .error .shape
      | some entered => .ok (entered, rest) := by
  cases earlier with
  | some =>
      rw [run_bind_error (run_requireFirst_repeated rfl)]
      rfl
  | none =>
      have first (text : List Char) : (requireFirst (none : Option α)).run text = .ok ((), text) :=
        rfl
      rw [run_bind (first _), run_bind (run_mark blank rfl text), run_bind taken]
      rfl

/-- A member is entered into the draft, and is read up to the blanks behind its value. -/
theorem run_readMember (draft : Draft) (written : member.ValueWritten value) {before : List Char}
    (blankBefore : Blanks before) (blank : Blanks blanks) (follows : Follows closings rest) :
    (readMember draft member.name).run (blanks ++ ':' :: (before ++ (value ++ rest))) =
      match draft.add member with
      | none => .error .shape
      | some entered => .ok (entered, rest) := by
  cases written with
  | capacity fits =>
      rw [Member.name, readMember_capacity, Draft.add]
      exact run_known _ blank (run_natural fits blankBefore follows)
  | @backing backing spelled spelling =>
      rw [Member.name, readMember_backing, Draft.add]
      exact run_known _ blank (run_choice (ofName?_name backing) spelling blankBefore rest)
  | @writeMode mode spelled spelling =>
      rw [Member.name, readMember_writeMode, Draft.add]
      exact run_known _ blank (run_choice (modeOfName?_name mode) spelling blankBefore rest)
  | other unknown written =>
      rw [Member.name, readMember_other draft unknown, run_bind (run_mark blank rfl _),
        run_bind (run_skip written blankBefore follows)]
      rfl

/-- Behind a member and its blanks, a mark is visible. -/
theorem run_member {α : Type} (written : member.Written text) (memMarks : c ∈ [',', '}'])
    (next : Draft -> Char -> Reader α) :
    (do
      let entered ← readMember draft (← quotation)
      next entered (← visible)).run (text ++ c :: rest) =
      match draft.add member with
      | none => .error .shape
      | some entered => (next entered c).run (c :: rest) := by
  have all : forall c, c ∈ [',', '}'] -> isBlank c = false ∧ c ∈ closings := by decide
  have mark := all c memMarks
  rcases written with @⟨spelled, front, value, back, spelling, paddedName, written, padded⟩
  rcases paddedName with @⟨before, behind, blankBefore, blankBehind⟩
  rcases padded with @⟨beforeValue, behindValue, blankBeforeValue, blankBehindValue⟩
  have follows := follows_blanks blankBehindValue mark.2 rest
  have read := run_readMember draft written blankBeforeValue blankBehind follows
  have named := run_quotation blankBefore spelling
    (behind ++ ':' :: (beforeValue ++ (value ++ (behindValue ++ c :: rest))))
  rw [String.ofList_toList] at named
  have spread : before ++ (quote spelled ++ behind) ++
      ':' :: (beforeValue ++ (value ++ behindValue)) ++ c :: rest =
      before ++ (quote spelled ++ (behind ++ ':' ::
        (beforeValue ++ (value ++ (behindValue ++ c :: rest))))) := by
    simp only [List.append_assoc, List.cons_append]
  rw [spread, run_bind named]
  cases entered : draft.add member with
  | none =>
      rw [entered] at read
      exact run_bind_error read _
  | some after =>
      rw [entered] at read
      rw [run_bind read, run_bind (run_visible blankBehindValue mark.1 rest)]

theorem run_readMembers_comma (written : member.Written text) :
    (readMembers draft (fuel + 1)).run (text ++ ',' :: rest) =
      match draft.add member with
      | none => .error .shape
      | some entered => (readMembers entered fuel).run rest :=
  run_member written (by decide) _

theorem run_readMembers_last (written : member.Written text) :
    (readMembers draft (fuel + 1)).run (text ++ '}' :: rest) =
      match draft.add member with
      | none => .error .shape
      | some entered => .ok (entered, '}' :: rest) :=
  run_member written (by decide) _

theorem run_readMembers_leading {members : List Member} (leading : Leading members front)
    (draft : Draft) (fuel : Nat) (rest : List Char) :
    (readMembers draft (members.length + fuel)).run (front ++ rest) =
      match members.foldlM Draft.add draft with
      | none => .error .shape
      | some entered => (readMembers entered fuel).run rest := by
  induction leading generalizing draft with
  | nil => rw [List.length_nil, Nat.zero_add]; rfl
  | @cons member members text more written _ inductionHypothesis =>
      rw [List.length_cons, Nat.add_right_comm, List.append_assoc, List.cons_append,
        run_readMembers_comma written, List.foldlM_cons]
      cases draft.add member with
      | none => rfl
      | some entered => exact inductionHypothesis entered

theorem run_readMembers_all {members : List Member} (leading : Leading members front)
    (written : member.Written text) (draft : Draft) (fuel : Nat) (rest : List Char) :
    (readMembers draft (members.length + (fuel + 1))).run (front ++ (text ++ '}' :: rest)) =
      match (members ++ [member]).foldlM Draft.add draft with
      | none => .error .shape
      | some entered => .ok (entered, '}' :: rest) := by
  rw [run_readMembers_leading leading, List.foldlM_append]
  cases members.foldlM Draft.add draft with
  | none => rfl
  | some entered =>
      change (readMembers entered (fuel + 1)).run (text ++ '}' :: rest) =
        match [member].foldlM Draft.add entered with
        | none => .error .shape
        | some entered => .ok (entered, '}' :: rest)
      rw [run_readMembers_last written, List.foldlM_cons]
      cases entered.add member with
      | none => rfl
      | some last => rfl

/-! ## From the first member on -/

theorem Member.Written.visible (written : member.Written text) (rest : List Char) :
    Exists fun text' => Reader.visible.run (text ++ rest) = .ok ('"', text' ++ rest) ∧
      member.Written text' := by
  rcases written with @⟨spelled, front, value, back, spelling, paddedName, written, padded⟩
  rcases paddedName with @⟨before, behind, blankBefore, blankBehind⟩
  refine ⟨[] ++ (quote spelled ++ behind) ++ ':' :: back, ?_,
    .mk spelling (.mk blanks_nil blankBehind) written padded⟩
  simp only [List.append_assoc, List.nil_append, quote_append]
  exact run_visible blankBefore rfl _

theorem Leading.visible {members : List Member} (leading : Leading (member :: members) front)
    (rest : List Char) :
    Exists fun front' => Reader.visible.run (front ++ rest) = .ok ('"', front' ++ rest) ∧
      Leading (member :: members) front' := by
  rcases leading with _ | @⟨_, _, text, more, written, others⟩
  rcases written.visible (',' :: more ++ rest) with ⟨text', visible, written'⟩
  refine ⟨text' ++ ',' :: more, ?_, .cons written' others⟩
  rw [List.append_assoc, List.append_assoc]
  exact visible

theorem Leading.length_le {members : List Member} (leading : Leading members front) :
    members.length ≤ front.length := by
  induction leading with
  | nil => exact le_rfl
  | cons _ _ inductionHypothesis =>
      rw [List.length_append, List.length_cons, List.length_cons]
      omega

/-- The options of a draft, with the end of the object. -/
def finish (draft : Draft) : Reader Options := do
  let options ← draft.complete
  mark '}'
  return options

theorem run_reader_object (blank : Blanks blanks) (rest : List Char) :
    reader.run (blanks ++ '{' :: rest) = (do
      if (← visible) = '}' then finish {}
      else finish (← readMembers {} (← get).length)).run rest := by
  rw [reader, run_bind (run_visible blank rfl rest)]
  rfl

theorem run_reader_members {seen : List Char} (blank : Blanks blanks)
    (visible : Reader.visible.run text = .ok ('"', seen)) :
    reader.run (blanks ++ '{' :: text) =
      (readMembers {} seen.length >>= finish).run seen := by
  rw [run_reader_object blank, run_bind visible, if_neg (by decide), run_bind (run_get seen)]

/-- What the members of an object amount to. -/
def described (members : List Member) : Except TextFault Options :=
  match members.foldlM Draft.add {} with
  | none => .error .shape
  | some draft => draft.complete

theorem run_finish (draft : Draft) (rest : List Char) :
    (finish draft).run ('}' :: rest) =
      match draft.complete with
      | .error fault => .error fault
      | .ok options => .ok (options, rest) := by
  rw [finish]
  cases draft.complete with
  | error fault => rfl
  | ok options => rfl

theorem visible_members {members : List Member} (leading : Leading members front)
    (written : member.Written text) (rest : List Char) :
    Exists fun front' => Exists fun text' =>
      Reader.visible.run (front ++ text ++ rest) = .ok ('"', front' ++ text' ++ rest) ∧
        Leading members front' ∧ member.Written text' := by
  cases members with
  | nil =>
      cases leading
      rcases written.visible rest with ⟨text', visible, written'⟩
      exact ⟨[], text', visible, .nil, written'⟩
  | cons first others =>
      rcases leading.visible (text ++ rest) with ⟨front', visible, leading'⟩
      refine ⟨front', text, ?_, leading', written⟩
      rw [List.append_assoc, List.append_assoc]
      exact visible

/-- An object is read as its members say. -/
theorem run_reader {members : List Member} (written : ObjectWritten members text)
    (blank : Blanks blanks) (rest : List Char) :
    reader.run (blanks ++ (text ++ rest)) =
      match described members with
      | .error fault => .error fault
      | .ok options => .ok (options, rest) := by
  cases written with
  | none blankInside =>
      rw [bracketed_append, run_reader_object blank, run_bind (run_visible blankInside rfl rest),
        if_pos rfl, run_finish]
      rfl
  | @some members last front text leading written =>
      -- the rounds are as many as the characters that are left once the first blanks are gone, so
      -- the members are taken without those blanks
      rcases visible_members leading written ('}' :: rest) with
        ⟨front', text', visible, leading', written'⟩
      have enough : members.length + 1 ≤ (front' ++ text' ++ '}' :: rest).length := by
        have fits := leading'.length_le
        rw [List.length_append, List.length_append, List.length_cons]
        omega
      rcases Nat.exists_eq_add_of_le enough with ⟨more, rounds⟩
      rw [Nat.add_assoc, Nat.add_comm 1 more] at rounds
      have read := run_readMembers_all leading' written' {} more rest
      rw [bracketed_append, run_reader_members blank visible, rounds, List.append_assoc, described]
      cases found : (members ++ [last]).foldlM Draft.add {} with
      | none =>
          rw [found] at read
          exact run_bind_error read finish
      | some draft =>
          rw [found] at read
          rw [run_bind read]
          exact run_finish draft rest

end Reading

end Options
end BitStore
