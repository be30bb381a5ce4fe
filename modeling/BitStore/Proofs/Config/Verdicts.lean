import BitStore.Proofs.Config.Members

namespace BitStore
namespace Options

/-!
# What an object of options amounts to

A draft takes in any list of members as long as it gets no member twice, whatever the order of
the members is and whichever others stand between them.
-/

open Json Json.Reader

/-! ## The members of each kind -/

def capacities (members : List Member) : List Nat :=
  members.filterMap Member.capacity?

def backings (members : List Member) : List Backing :=
  members.filterMap Member.backing?

def writeModes (members : List Member) : List WriteMode :=
  members.filterMap Member.writeMode?

/-- No member of a known name is there twice, those in the draft counted. -/
def Draft.Admits (draft : Draft) (members : List Member) : Prop :=
  (draft.capacity.toList ++ capacities members).length ≤ 1 ∧
    (draft.backing.toList ++ backings members).length ≤ 1 ∧
      (draft.writeMode.toList ++ writeModes members).length ≤ 1

instance Draft.Admits.decidable (draft : Draft) (members : List Member) :
    Decidable (draft.Admits members) :=
  inferInstanceAs (Decidable (_ ∧ _ ∧ _))

/-- A draft with the members entered. -/
def Draft.after (draft : Draft) (members : List Member) : Draft where
  capacity := (draft.capacity.toList ++ capacities members).head?
  backing := (draft.backing.toList ++ backings members).head?
  writeMode := (draft.writeMode.toList ++ writeModes members).head?

theorem not_length_le_one {α : Type} (first second : α) (rest : List α) :
    ¬ (first :: second :: rest).length ≤ 1 := by
  rw [List.length_cons, List.length_cons]
  omega

theorem admits_nil (draft : Draft) : draft.Admits [] := by
  have short {α : Type} (earlier : Option α) : (earlier.toList ++ []).length ≤ 1 := by
    cases earlier with
    | none => exact Nat.zero_le 1
    | some => exact le_rfl
  exact ⟨short _, short _, short _⟩

theorem after_nil (draft : Draft) : draft.after [] = draft := by
  rcases draft with ⟨_ | _, _ | _, _ | _⟩ <;> rfl

/-- Members are entered one by one exactly if none of them is there twice. -/
theorem foldlM_add (members : List Member) (draft : Draft) :
    members.foldlM Draft.add draft =
      if draft.Admits members then some (draft.after members) else none := by
  induction members generalizing draft with
  | nil =>
      rw [if_pos (admits_nil draft), after_nil]
      rfl
  | cons member members inductionHypothesis =>
      -- a member that is new counts in the draft from here on, where it counted in the list before
      rw [List.foldlM_cons]
      rcases draft with ⟨capacity, backing, writeMode⟩
      cases member with
      | capacity bits =>
          cases capacity with
          | none => exact inductionHypothesis ⟨some bits, backing, writeMode⟩
          | some earlier => exact (if_neg fun admits => not_length_le_one _ _ _ admits.1).symm
      | backing found =>
          cases backing with
          | none => exact inductionHypothesis ⟨capacity, some found, writeMode⟩
          | some earlier => exact (if_neg fun admits => not_length_le_one _ _ _ admits.2.1).symm
      | writeMode mode =>
          cases writeMode with
          | none => exact inductionHypothesis ⟨capacity, backing, some mode⟩
          | some earlier => exact (if_neg fun admits => not_length_le_one _ _ _ admits.2.2).symm
      | other name => exact inductionHypothesis ⟨capacity, backing, writeMode⟩

/-! ## Verdicts -/

section Verdicts

variable {members : List Member}

theorem described_complete {bits : Nat} (capacity : capacities members = [bits])
    (backing : (backings members).length ≤ 1) (writeMode : (writeModes members).length ≤ 1) :
    described members = .ok {
      capacity := bits
      backing := (backings members).head?.getD .memory
      writeMode := (writeModes members).head?.getD .durable } := by
  have admits : Draft.Admits {} members :=
    ⟨(congrArg List.length capacity).le, backing, writeMode⟩
  have found : (Draft.after {} members).capacity = some bits := congrArg List.head? capacity
  rw [described, foldlM_add, if_pos admits]
  change Draft.complete _ = _
  rw [Draft.complete, found]
  rfl

theorem described_lacking (lacking : capacities members = []) :
    described members = .error .shape := by
  have none : (Draft.after {} members).capacity = none := congrArg List.head? lacking
  rw [described, foldlM_add]
  split
  case h_1 => rfl
  case h_2 draft found =>
    split at found
    case isTrue =>
      cases found
      rw [Draft.complete, none]
    case isFalse => cases found

theorem described_repeated (repeated : 1 < (capacities members).length ∨
    1 < (backings members).length ∨ 1 < (writeModes members).length) :
    described members = .error .shape := by
  have refused : ¬ Draft.Admits {} members := by
    rintro ⟨capacity, backing, writeMode⟩
    change (capacities members).length ≤ 1 at capacity
    change (backings members).length ≤ 1 at backing
    change (writeModes members).length ≤ 1 at writeMode
    omega
  rw [described, foldlM_add, if_neg refused]

end Verdicts

/-! ## Whole texts -/

theorem parse_object {members : List Member} {text whole : List Char}
    (written : ObjectWritten members text) (padded : Padded text whole) :
    parse (String.ofList whole) = described members := by
  rcases padded with @⟨before, behind, blankBefore, blankBehind⟩
  have read := run_reader written blankBefore behind
  cases amounts : described members with
  | error fault =>
      rw [amounts] at read
      exact readAll_of_error read
  | ok options =>
      rw [amounts] at read
      exact readAll_of_run read blankBehind

/-! ## A name for the second time -/

theorem Leading.written_of_mem {members : List Member} {front : List Char}
    (leading : Leading members front) {member : Member} (mem : member ∈ members) :
    Exists fun text => member.Written text := by
  induction leading with
  | nil => cases mem
  | cons written _ inductionHypothesis =>
      cases mem with
      | head => exact ⟨_, written⟩
      | tail _ later => exact inductionHypothesis later

theorem isSome_head?_of_mem {α : Type} {found : α} {all : List α} (mem : found ∈ all) :
    all.head?.isSome = true := by
  cases mem <;> rfl

theorem has_after {members : List Member} {front : List Char} (leading : Leading members front)
    {member : Member} (mem : member ∈ members) (known : member.name ∈ knownNames) :
    (Draft.after {} members).Has member.name := by
  cases member with
  | capacity bits =>
      have found : bits ∈ capacities members := List.mem_filterMap.mpr ⟨_, mem, rfl⟩
      exact .inl ⟨rfl, isSome_head?_of_mem found⟩
  | backing backing =>
      have found : backing ∈ backings members := List.mem_filterMap.mpr ⟨_, mem, rfl⟩
      exact .inr (.inl ⟨rfl, isSome_head?_of_mem found⟩)
  | writeMode mode =>
      have found : mode ∈ writeModes members := List.mem_filterMap.mpr ⟨_, mem, rfl⟩
      exact .inr (.inr ⟨rfl, isSome_head?_of_mem found⟩)
  | other name =>
      rcases leading.written_of_mem mem with ⟨_, _, _, _ | _ | _ | unknown, _⟩
      exact absurd known unknown

/-- The second time that a known name is read ends the reading, whatever stands behind it. -/
theorem parse_repeated {members : List Member} {front : List Char} (leading : Leading members front)
    {member : Member} (mem : member ∈ members) (known : member.name ∈ knownNames)
    {spelled text blanks : List Char} (spelling : Spelling spelled member.name.toList)
    (padded : Padded (quote spelled) text) (blank : Blanks blanks) (rest : List Char) :
    parse (String.ofList (blanks ++ '{' :: (front ++ (text ++ rest)))) = .error .shape := by
  apply readAll_of_error
  cases members with
  | nil => cases mem
  | cons first others =>
      rcases padded with @⟨before, behind, blankBefore, blankBehind⟩
      rcases leading.visible (before ++ (quote spelled ++ behind) ++ rest) with
        ⟨front', visible, leading'⟩
      have enough : (first :: others).length + 1 ≤
          (front' ++ (before ++ (quote spelled ++ behind) ++ rest)).length := by
        have fits := leading'.length_le
        simp only [List.length_append, quote, List.length_cons] at fits ⊢
        omega
      rcases Nat.exists_eq_add_of_le enough with ⟨more, rounds⟩
      rw [Nat.add_assoc, Nat.add_comm 1 more] at rounds
      have read := run_readMembers_leading leading' {} (more + 1)
        (before ++ (quote spelled ++ behind) ++ rest)
      rw [run_reader_members blank visible, rounds]
      -- either a member in front is there twice already, or the draft has this one
      refine run_bind_error (read.trans ?_) finish
      cases found : (first :: others).foldlM Draft.add {} with
      | none => rfl
      | some draft =>
          have has : draft.Has member.name := by
            rw [foldlM_add] at found
            split at found
            case isTrue =>
              cases found
              exact has_after leading mem known
            case isFalse => cases found
          have named := run_quotation blankBefore spelling (behind ++ rest)
          rw [String.ofList_toList] at named
          rw [List.append_assoc, List.append_assoc]
          change (quotation >>= _).run _ = _
          rw [run_bind named, run_bind_error (readMember_repeated has)]

end Options
end BitStore
