import BitStore.Json.Shape
import BitStore.Proofs.Json.Grammar

namespace BitStore
namespace Json

/-!
# Readers, step by step

A reader that takes its part of a text goes on with the rest of it; one that refuses ends the
reading.  `Yields` is about every value that a reader may return, whatever text it reads.
-/

theorem isBlank_iff (c : Char) : isBlank c = true ↔ c ∈ [' ', '\t', '\n', '\r'] := by
  simp only [isBlank, Bool.or_eq_true, decide_eq_true_eq, List.mem_cons, List.not_mem_nil,
    or_false, or_assoc]

namespace Reader

variable {α β : Type} {reader : Reader α} {text rest blanks : List Char} {c : Char}

/-! ## One step after the other -/

/-- What a reader leaves is what the next one reads. -/
theorem run_bind {value : α} (taken : reader.run text = .ok (value, rest))
    (next : α -> Reader β) : (reader >>= next).run text = (next value).run rest := by
  rw [StateT.run_bind, taken]
  rfl

theorem run_bind_error {fault : TextFault} (refused : reader.run text = .error fault)
    (next : α -> Reader β) : (reader >>= next).run text = .error fault := by
  rw [StateT.run_bind, refused]
  rfl

theorem run_get (text : List Char) : (get : Reader (List Char)).run text = .ok (text, text) := rfl

theorem run_peek? (text : List Char) : peek?.run text = .ok (text.head?, text) := rfl

theorem run_next (c : Char) (rest : List Char) : next.run (c :: rest) = .ok (c, rest) := rfl

theorem run_accept (c : Char) (rest : List Char) :
    (accept c).run (c :: rest) = .ok (true, rest) := by
  rw [accept, run_bind (run_peek? _), List.head?_cons, if_pos rfl]
  rfl

theorem run_accept_ne (other : text.head? ≠ some c) : (accept c).run text = .ok (false, text) := by
  rw [accept, run_bind (run_peek? _), if_neg other]
  rfl

/-! ## Several characters -/

section TakingWhile

variable {test : Char -> Bool} {front : List Char}
  (passes : forall c, c ∈ front -> test c = true)
  (stops : forall c, rest.head? = some c -> test c = false)

include passes stops

theorem dropWhile_front : (front ++ rest).dropWhile test = rest := by
  rw [List.dropWhile_append_of_pos passes]
  cases rest with
  | nil => rfl
  | cons c rest => exact List.dropWhile_cons_of_neg (ne_true_of_eq_false (stops c rfl))

theorem takeWhile_front : (front ++ rest).takeWhile test = front := by
  rw [List.takeWhile_append_of_pos passes]
  cases rest with
  | nil => exact List.append_nil front
  | cons c rest =>
      rw [List.takeWhile_cons_of_neg (ne_true_of_eq_false (stops c rfl)), List.append_nil]

/-- A front of characters that pass a test is taken, if what follows does not pass it. -/
theorem run_takeWhile : (takeWhile test).run (front ++ rest) = .ok (front, rest) := by
  change Except.ok ((front ++ rest).takeWhile test, (front ++ rest).dropWhile test) = _
  rw [takeWhile_front passes stops, dropWhile_front passes stops]

end TakingWhile

theorem run_word (letters rest : List Char) :
    (word letters).run (letters ++ rest) = .ok ((), rest) := by
  induction letters with
  | nil => rfl
  | cons c letters inductionHypothesis =>
      rw [word, List.cons_append, run_bind (run_next _ _), if_pos rfl]
      exact inductionHypothesis

/-! ## Behind blanks -/

theorem dropWhile_blanks (blank : Blanks blanks) (seen : isBlank c = false) (rest : List Char) :
    (blanks ++ c :: rest).dropWhile isBlank = c :: rest := by
  refine dropWhile_front (fun other memOther => (isBlank_iff other).mpr (blank other memOther)) ?_
  intro other head
  rw [List.head?_cons, Option.some.injEq] at head
  exact head ▸ seen

/-- Behind blanks the next character is seen, and stays. -/
theorem run_visible (blank : Blanks blanks) (seen : isBlank c = false) (rest : List Char) :
    visible.run (blanks ++ c :: rest) = .ok (c, c :: rest) := by
  have skipped : skipBlanks.run (blanks ++ c :: rest) = .ok ((), c :: rest) := by
    change Except.ok ((), (blanks ++ c :: rest).dropWhile isBlank) = _
    rw [dropWhile_blanks blank seen]
  rw [visible, run_bind skipped, run_bind (run_peek? _)]
  rfl

theorem run_mark (blank : Blanks blanks) (seen : isBlank c = false) (rest : List Char) :
    (mark c).run (blanks ++ c :: rest) = .ok ((), rest) := by
  rw [mark, run_bind (run_visible blank seen rest), if_pos rfl]
  rfl

theorem blanks_nil : Blanks [] := fun _ memC => absurd memC List.not_mem_nil

/-- What stands visible has only blanks in front of it. -/
theorem visible_cases (seen : visible.run text = .ok (c, rest)) :
    Exists fun blanks => Exists fun behind => Blanks blanks ∧ isBlank c = false ∧
      text = blanks ++ c :: behind ∧ rest = c :: behind := by
  have skipped : skipBlanks.run text = .ok ((), text.dropWhile isBlank) := rfl
  have stops := List.head?_dropWhile_not isBlank text
  have split := List.takeWhile_append_dropWhile (p := isBlank) (l := text)
  rw [visible, run_bind skipped, run_bind (run_peek? _)] at seen
  cases left : text.dropWhile isBlank with
  | nil =>
      rw [left] at seen
      cases seen
  | cons first behind =>
      rw [left] at seen stops split
      cases seen
      refine ⟨text.takeWhile isBlank, behind, ?_, stops, split.symm, rfl⟩
      intro other memOther
      exact (isBlank_iff other).mp (List.all_eq_true.mp List.all_takeWhile other memOther)

theorem run_visible_again (seen : visible.run text = .ok (c, rest)) :
    visible.run rest = .ok (c, rest) := by
  rcases visible_cases seen with ⟨_, behind, _, notBlank, _, rfl⟩
  exact run_visible blanks_nil notBlank behind

/-- A step that starts with what is visible does not mind the blanks in front of it. -/
theorem run_bind_seen (seen : visible.run text = .ok (c, rest)) (next : Char -> Reader β) :
    (visible >>= next).run rest = (visible >>= next).run text := by
  rw [run_bind seen, run_bind (run_visible_again seen)]

/-! ## Whole texts -/

/-- A text is read to its end if only blanks are left. -/
theorem readAll_of_run {value : α} (taken : reader.run text = .ok (value, rest))
    (blank : Blanks rest) : readAll reader (String.ofList text) = .ok value := by
  have cleared : (rest ++ []).dropWhile isBlank = [] :=
    dropWhile_front (fun c memC => (isBlank_iff c).mpr (blank c memC)) fun c head => by cases head
  rw [List.append_nil] at cleared
  rw [readAll, String.toList_ofList, taken]
  change (if (rest.dropWhile isBlank).isEmpty then pure value else throw TextFault.malformed) = _
  rw [cleared]
  rfl

theorem readAll_of_error {fault : TextFault} (refused : reader.run text = .error fault) :
    readAll reader (String.ofList text) = .error fault := by
  rw [readAll, String.toList_ofList, refused]
  rfl

/-! ## What readers yield -/

/-- Every value that the reader returns satisfies the predicate. -/
def Yields (reader : Reader α) (holds : α -> Prop) : Prop :=
  forall text value rest, reader.run text = .ok (value, rest) -> holds value

variable {holds : α -> Prop} {holdsNext : β -> Prop} {value : α}

theorem yields_pure (held : holds value) : Yields (pure value) holds := by
  intro text returned rest taken
  cases taken
  exact held

theorem yields_throw (fault : TextFault) : Yields (throw fault) holds := by
  intro text value rest taken
  cases taken

theorem yields_true (reader : Reader α) : Yields reader fun _ => True :=
  fun _ _ _ _ => trivial

/-- A predicate of what is returned goes through a sequence of readers. -/
theorem yields_bind (first : Yields reader holds) {next : α -> Reader β}
    (second : forall value, holds value -> Yields (next value) holdsNext) :
    Yields (reader >>= next) holdsNext := by
  intro text value rest taken
  cases result : reader.run text with
  | error fault =>
      rw [run_bind_error result] at taken
      cases taken
  | ok found =>
      rw [run_bind result] at taken
      exact second _ (first _ _ _ result) _ _ _ taken

/-- The first step may return anything. -/
theorem yields_then {next : α -> Reader β}
    (second : forall value, Yields (next value) holdsNext) :
    Yields (reader >>= next) holdsNext :=
  yields_bind (yields_true reader) fun value _ => second value

theorem yields_readAll (yields : Yields reader holds) {text : String}
    (read : readAll reader text = .ok value) : holds value := by
  cases result : reader.run text.toList with
  | error fault =>
      rw [readAll, result] at read
      cases read
  | ok found =>
      rw [readAll, result] at read
      change (if (found.2.dropWhile isBlank).isEmpty then Except.ok found.1
        else Except.error TextFault.malformed) = _ at read
      split at read
      case isTrue =>
        cases read
        exact yields _ _ _ result
      case isFalse => cases read

end Reader
end Json
end BitStore
