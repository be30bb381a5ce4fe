import BitStore.Json.Skip
import BitStore.Proofs.Json.Numerals
import BitStore.Proofs.Json.Quotations

namespace BitStore
namespace Json

/-!
# Written values are passed over

The rounds given for a value are twice its characters: each value and each comma takes at most
one round of its own, and each takes a character.  A reader that has looked for the next visible
character has passed the blanks in front of it, and reads on from there as if they were not
there.
-/

/-! ## How values start -/

theorem Number.starts {text : List Char} (number : Number text) :
    Exists fun c => Exists fun rest => text = c :: rest ∧ c ∈ '-' :: decimalDigits := by
  cases number with
  | @mk sign integer fraction exponent signed whole _ _ =>
      simp only [List.mem_cons, List.not_mem_nil, or_false] at signed
      rcases signed with rfl | rfl
      case inl =>
        cases integer with
        | nil => exact absurd rfl whole.digits.nonempty
        | cons first others => exact ⟨_, _, rfl, .tail _ (whole.digits.all _ (.head _))⟩
      case inr => exact ⟨_, _, rfl, .head _⟩

/-- A value does not start with a blank, and is not mistaken for the end of a list. -/
theorem Written.starts {value : List Char} (written : Written .value value) :
    Exists fun c => Exists fun rest => value = c :: rest ∧ isBlank c = false ∧ c ≠ ']' := by
  cases written with
  | number number =>
      have all : forall c, c ∈ '-' :: decimalDigits -> isBlank c = false ∧ c ≠ ']' := by decide
      rcases number.starts with ⟨c, rest, same, memC⟩
      exact ⟨c, rest, same, all c memC⟩
  | null => exact ⟨_, _, rfl, rfl, by decide⟩
  | yes => exact ⟨_, _, rfl, rfl, by decide⟩
  | no => exact ⟨_, _, rfl, rfl, by decide⟩
  | quoted => exact ⟨_, _, rfl, rfl, by decide⟩
  | noList => exact ⟨_, _, rfl, rfl, by decide⟩
  | list => exact ⟨_, _, rfl, rfl, by decide⟩
  | noObject => exact ⟨_, _, rfl, rfl, by decide⟩
  | object => exact ⟨_, _, rfl, rfl, by decide⟩

theorem follows_blanks {c : Char} {blanks : List Char} (blank : Blanks blanks)
    (memClosings : c ∈ closings) (rest : List Char) : Follows closings (blanks ++ c :: rest) := by
  cases blanks with
  | nil => exact follows_cons memClosings
  | cons first others =>
      exact follows_cons (List.mem_append_left [',', ']', '}'] (blank first (.head _)))

namespace Reader

/-! ## Behind the blanks -/

section Seen

variable {c : Char} {text rest : List Char} (seen : visible.run text = .ok (c, rest))

include seen

theorem run_skipQuotation_seen : skipQuotation.run rest = skipQuotation.run text := by
  rw [skipQuotation, mark, bind_assoc]
  exact run_bind_seen seen _

/-- Blanks that were passed do not change what a value is passed over to. -/
theorem run_skipValue_seen (fuel : Nat) :
    (skipValue fuel).run rest = (skipValue fuel).run text := by
  cases fuel with
  | zero => rfl
  | succ fuel =>
      rw [skipValue]
      exact run_bind_seen seen _

theorem run_skipElements_seen (fuel : Nat) :
    (skipElements fuel).run rest = (skipElements fuel).run text := by
  cases fuel with
  | zero => rfl
  | succ fuel => rw [skipElements, StateT.run_bind, StateT.run_bind, run_skipValue_seen seen]

theorem run_skipMembers_seen (fuel : Nat) :
    (skipMembers fuel).run rest = (skipMembers fuel).run text := by
  cases fuel with
  | zero => rfl
  | succ fuel => rw [skipMembers, StateT.run_bind, StateT.run_bind, run_skipQuotation_seen seen]

end Seen

/-! ## The first part of what stands between brackets -/

theorem run_visible_padded {c : Char} {part text : List Char} (padded : Padded (c :: part) text)
    (notBlank : isBlank c = false) (rest : List Char) :
    Exists fun seen => visible.run (text ++ rest) = .ok (c, seen) := by
  cases padded with
  | @mk before behind blankBefore _ =>
      rw [List.append_assoc]
      exact ⟨_, run_visible blankBefore notBlank _⟩

/-- A list that is not empty does not look like an empty one. -/
theorem run_visible_elements {text : List Char} (written : Written .elements text)
    (rest : List Char) :
    Exists fun c => Exists fun seen => visible.run (text ++ rest) = .ok (c, seen) ∧ c ≠ ']' := by
  cases written with
  | element written padded =>
      rcases written.starts with ⟨c, part, rfl, notBlank, other⟩
      rcases run_visible_padded padded notBlank rest with ⟨seen, visible⟩
      exact ⟨c, seen, visible, other⟩
  | elements written padded _ =>
      rcases written.starts with ⟨c, part, rfl, notBlank, other⟩
      rw [List.append_assoc]
      rcases run_visible_padded padded notBlank _ with ⟨seen, visible⟩
      exact ⟨c, seen, visible, other⟩

theorem run_visible_members {text : List Char} (written : Written .members text)
    (rest : List Char) : Exists fun seen => visible.run (text ++ rest) = .ok ('"', seen) := by
  cases written with
  | member _ paddedName _ _ =>
      rw [List.append_assoc]
      exact run_visible_padded paddedName rfl _
  | members _ paddedName _ _ _ =>
      rw [List.append_assoc]
      exact run_visible_padded paddedName rfl _

/-! ## Whole values -/

/-- The part is passed over in twice as many rounds as it has characters; what stands between
brackets takes the closing bracket with it. -/
def Passes : Part -> List Char -> Prop
  | .value, text => forall blanks rest fuel, Blanks blanks -> Follows closings rest ->
      2 * text.length ≤ fuel -> (skipValue fuel).run (blanks ++ (text ++ rest)) = .ok ((), rest)
  | .elements, text => forall rest fuel, 2 * text.length < fuel ->
      (skipElements fuel).run (text ++ ']' :: rest) = .ok ((), rest)
  | .members, text => forall rest fuel, 2 * text.length < fuel ->
      (skipMembers fuel).run (text ++ '}' :: rest) = .ok ((), rest)

section Values

variable {value text name front rest : List Char} {fuel : Nat} {c : Char}

theorem run_skipValue_quote (fuel : Nat) (blank : Blanks front) (rest : List Char) :
    (skipValue (fuel + 1)).run (front ++ '"' :: rest) = skipQuotation.run ('"' :: rest) := by
  rw [skipValue, run_bind (run_visible blank rfl rest)]
  rfl

theorem run_skipValue_list (fuel : Nat) (blank : Blanks front) (rest : List Char) :
    (skipValue (fuel + 1)).run (front ++ '[' :: rest) =
      (visible >>= fun c => if c = ']' then drop else skipElements fuel).run rest := by
  rw [skipValue, run_bind (run_visible blank rfl rest)]
  rfl

theorem run_skipValue_object (fuel : Nat) (blank : Blanks front) (rest : List Char) :
    (skipValue (fuel + 1)).run (front ++ '{' :: rest) =
      (visible >>= fun c => if c = '}' then drop else skipMembers fuel).run rest := by
  rw [skipValue, run_bind (run_visible blank rfl rest)]
  rfl

theorem passes_word {letters : List Char}
    (memWords : letters ∈ [['n', 'u', 'l', 'l'], ['t', 'r', 'u', 'e'], ['f', 'a', 'l', 's', 'e']]) :
    Passes .value letters := by
  intro blanks rest fuel blank _ enough
  simp only [List.mem_cons, List.not_mem_nil, or_false] at memWords
  cases fuel with
  | zero => rcases memWords with rfl | rfl | rfl <;> cases enough
  | succ fuel =>
      rcases memWords with rfl | rfl | rfl
      all_goals
        rw [skipValue, List.cons_append, run_bind (run_visible blank rfl _)]
        exact run_word _ _

/-- What follows a numeral ends it. -/
theorem passes_number (number : Number text) : Passes .value text := by
  intro blanks rest fuel blank follows enough
  have all : forall c, c ∈ '-' :: decimalDigits -> isBlank c = false ∧
      (decide (c = '-') || isDigit c) = true ∧ c ∉ ['n', 't', 'f', '"', '[', '{'] := by decide
  rcases number.starts with ⟨c, more, rfl, memC⟩
  rcases all c memC with ⟨notBlank, numeral, other⟩
  cases fuel with
  | zero => cases enough
  | succ fuel =>
      have skipped := run_skipNumeral number follows
      rw [skipValue, List.cons_append, run_bind (run_visible blank notBlank _)]
      split
      case h_7 =>
        rw [if_pos numeral]
        exact skipped
      all_goals exact absurd other (by decide)

theorem passes_quoted (quotable : Quotable text) : Passes .value (quote text) := by
  intro blanks rest fuel blank _ enough
  cases fuel with
  | zero => cases enough
  | succ fuel =>
      rw [quote_append, run_skipValue_quote fuel blank, ← quote_append]
      exact run_skipQuotation blanks_nil quotable rest

/-! ## Between brackets -/

/-- Behind a value and its blanks, a mark is visible. -/
theorem run_value_padded (passes : Passes .value value) (padded : Padded value text)
    (memMarks : c ∈ [',', ']', '}']) (enough : 2 * text.length ≤ fuel)
    (next : Char -> Reader Unit) :
    (skipValue fuel >>= fun _ => visible >>= next).run (text ++ c :: rest) =
      (next c).run (c :: rest) := by
  have all : forall c, c ∈ [',', ']', '}'] -> isBlank c = false := by decide
  have memClosings : c ∈ closings := List.mem_append_right [' ', '\t', '\n', '\r'] memMarks
  cases padded with
  | @mk before behind blankBefore blankBehind =>
      rw [List.length_append, List.length_append] at enough
      have passed := passes before (behind ++ c :: rest) fuel blankBefore
        (follows_blanks blankBehind memClosings rest) (by omega)
      rw [List.append_assoc, List.append_assoc, run_bind passed,
        run_bind (run_visible blankBehind (all c memMarks) rest)]

/-- The name of a member, with the colon behind it. -/
theorem run_name_padded (named : Quotable name) (padded : Padded (quote name) front)
    (next : Reader Unit) :
    (skipQuotation >>= fun _ => mark ':' >>= fun _ => next).run (front ++ ':' :: rest) =
      next.run rest := by
  cases padded with
  | @mk before behind blankBefore blankBehind =>
      rw [List.append_assoc, List.append_assoc,
        run_bind (run_skipQuotation blankBefore named _), run_bind (run_mark blankBehind rfl rest)]

theorem passes_element (passes : Passes .value value) (padded : Padded value text) :
    Passes .elements text := by
  intro rest fuel enough
  cases fuel with
  | zero => omega
  | succ fuel =>
      rw [skipElements, run_value_padded passes padded (by decide) (by omega)]
      rfl

/-- One round for the value and its comma, and the rest for the values behind it. -/
theorem passes_elements (passes : Passes .value value) (padded : Padded value text)
    (others : Passes .elements front) : Passes .elements (text ++ ',' :: front) := by
  intro rest fuel enough
  rw [List.length_append, List.length_cons] at enough
  cases fuel with
  | zero => omega
  | succ fuel =>
      rw [skipElements, List.append_assoc, List.cons_append,
        run_value_padded passes padded (by decide) (by omega)]
      exact others rest fuel (by omega)

theorem passes_member (named : Quotable name) (paddedName : Padded (quote name) front)
    (passes : Passes .value value) (padded : Padded value text) :
    Passes .members (front ++ ':' :: text) := by
  intro rest fuel enough
  rw [List.length_append, List.length_cons] at enough
  cases fuel with
  | zero => omega
  | succ fuel =>
      rw [skipMembers, List.append_assoc, List.cons_append, run_name_padded named paddedName,
        run_value_padded passes padded (by decide) (by omega)]
      rfl

/-- The same for a member, whose name takes no round. -/
theorem passes_members {others : List Char} (named : Quotable name)
    (paddedName : Padded (quote name) front) (passes : Passes .value value)
    (padded : Padded value text) (passesOthers : Passes .members others) :
    Passes .members (front ++ ':' :: (text ++ ',' :: others)) := by
  intro rest fuel enough
  rw [List.length_append, List.length_cons, List.length_append, List.length_cons] at enough
  cases fuel with
  | zero => omega
  | succ fuel =>
      rw [skipMembers, List.append_assoc, List.cons_append, run_name_padded named paddedName,
        List.append_assoc, List.cons_append,
        run_value_padded passes padded (by decide) (by omega)]
      exact passesOthers rest fuel (by omega)

theorem passes_noList {blanks : List Char} (blank : Blanks blanks) :
    Passes .value ('[' :: (blanks ++ [']'])) := by
  intro before rest fuel blankBefore _ enough
  cases fuel with
  | zero => cases enough
  | succ fuel =>
      rw [bracketed_append, run_skipValue_list fuel blankBefore,
        run_bind (run_visible blank rfl rest)]
      rfl

theorem passes_noObject {blanks : List Char} (blank : Blanks blanks) :
    Passes .value ('{' :: (blanks ++ ['}'])) := by
  intro before rest fuel blankBefore _ enough
  cases fuel with
  | zero => cases enough
  | succ fuel =>
      rw [bracketed_append, run_skipValue_object fuel blankBefore,
        run_bind (run_visible blank rfl rest)]
      rfl

/-- The blanks behind the bracket were passed when its first character was looked for. -/
theorem passes_list (written : Written .elements text) (passes : Passes .elements text) :
    Passes .value ('[' :: (text ++ [']'])) := by
  intro blanks rest fuel blank _ enough
  rw [List.length_cons, List.length_append] at enough
  cases fuel with
  | zero => omega
  | succ fuel =>
      rcases run_visible_elements written (']' :: rest) with ⟨c, seen, visible, other⟩
      rw [bracketed_append, run_skipValue_list fuel blank, run_bind visible, if_neg other,
        run_skipElements_seen visible]
      exact passes rest fuel (by omega)

theorem passes_object (written : Written .members text) (passes : Passes .members text) :
    Passes .value ('{' :: (text ++ ['}'])) := by
  intro blanks rest fuel blank _ enough
  rw [List.length_cons, List.length_append] at enough
  cases fuel with
  | zero => omega
  | succ fuel =>
      rcases run_visible_members written ('}' :: rest) with ⟨seen, visible⟩
      rw [bracketed_append, run_skipValue_object fuel blank, run_bind visible, if_neg (by decide),
        run_skipMembers_seen visible]
      exact passes rest fuel (by omega)

end Values

/-- Whatever is written is passed over, up to what stands behind it. -/
theorem passes_of_written {part : Part} {text : List Char} (written : Written part text) :
    Passes part text := by
  induction written with
  | null => exact passes_word (by decide)
  | yes => exact passes_word (by decide)
  | no => exact passes_word (by decide)
  | number number => exact passes_number number
  | quoted quotable => exact passes_quoted quotable
  | noList blank => exact passes_noList blank
  | list written passes => exact passes_list written passes
  | noObject blank => exact passes_noObject blank
  | object written passes => exact passes_object written passes
  | element _ padded passes => exact passes_element passes padded
  | elements _ padded _ passes others => exact passes_elements passes padded others
  | member named paddedName _ padded passes =>
      exact passes_member named paddedName passes padded
  | members named paddedName _ padded _ passes others =>
      exact passes_members named paddedName passes padded others

theorem run_skip {value blanks rest : List Char} (written : Written .value value)
    (blank : Blanks blanks) (follows : Follows closings rest) :
    skip.run (blanks ++ (value ++ rest)) = .ok ((), rest) := by
  rw [skip, run_bind (run_get _)]
  refine passes_of_written written blanks rest _ blank follows ?_
  rw [List.length_append, List.length_append]
  omega

end Reader
end Json
end BitStore
