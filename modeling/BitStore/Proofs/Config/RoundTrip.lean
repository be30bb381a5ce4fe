import BitStore.Proofs.Config.Verdicts

namespace BitStore
namespace Options

/-!
# Options survive being written and read

What is written of options is an object with all three members.  Every capacity that is read
fits in 64 bits, in objects and in lists, so whatever has been read can be written.
-/

open Json Json.Reader

/-! ## What is written -/

theorem padded_self (part : List Char) : Padded part part := by
  have padded : Padded part ([] ++ (part ++ [])) := .mk blanks_nil blanks_nil
  rwa [List.append_nil] at padded

theorem spelling_plain {text : List Char} (plain : forall c, c ∈ text -> Plain c) :
    Spelling text text := by
  induction text with
  | nil => exact .nil
  | cons c text inductionHypothesis =>
      have spelling :=
        inductionHypothesis fun other memText => plain other (.tail _ memText)
      exact .plain (plain c (.head _)) spelling

/-- A member with its name as it is, and without blanks. -/
theorem written_plain {member : Member} {value : List Char} (known : member.name ∈ knownNames)
    (written : member.ValueWritten value) :
    member.Written (quote member.name.toList ++ ':' :: value) := by
  have plain : forall name, name ∈ knownNames -> forall c, c ∈ name.toList -> Plain c := by decide
  exact .mk (spelling_plain (plain _ known)) (padded_self _) written (padded_self _)

/-- The members that are written. -/
def members (options : Options) : List Member :=
  [.capacity options.capacity, .backing options.backing, .writeMode options.writeMode]

theorem render_toList (options : Options) : options.render.toList =
    '{' :: (quote "capacity".toList ++ ':' :: (toString options.capacity).toList ++
      ',' :: (quote "backing".toList ++ ':' :: quote options.backing.name.toList ++ ',' :: []) ++
        (quote "write_mode".toList ++ ':' :: quote options.writeMode.name.toList) ++ ['}']) := by
  simp [render, Backing.render, WriteMode.render, quote]

theorem render_written {options : Options} (fits : options.capacity < 2 ^ 64) :
    ObjectWritten options.members options.render.toList := by
  have plainBacking : forall c, c ∈ options.backing.name.toList -> Plain c := by
    cases options.backing <;> decide
  have plainMode : forall c, c ∈ options.writeMode.name.toList -> Plain c := by
    cases options.writeMode <;> decide
  have capacity := written_plain (.head _) (.capacity fits)
  have backing := written_plain (.tail _ (.head _)) (.backing (spelling_plain plainBacking))
  have writeMode :=
    written_plain (.tail _ (.tail _ (.head _))) (.writeMode (spelling_plain plainMode))
  have object := ObjectWritten.some (.cons capacity (.cons backing .nil)) writeMode
  rw [render_toList]
  exact object

theorem parse_render {options : Options} (fits : options.capacity < 2 ^ 64) :
    parse options.render = .ok options := by
  have read := parse_object (render_written fits) (padded_self _)
  rw [String.ofList_toList] at read
  exact read

/-! ## What is read -/

/-- The capacity of the draft fits in 64 bits, if there is one. -/
def Draft.Fits (draft : Draft) : Prop :=
  forall bits, draft.capacity = some bits -> bits < 2 ^ 64

theorem yields_readMember {draft : Draft} (fits : draft.Fits) (name : String) :
    Yields (readMember draft name) Draft.Fits := by
  rw [readMember]
  split
  case isTrue =>
    refine yields_then fun _ => yields_then fun _ => ?_
    refine yields_bind yields_natural fun bits small => ?_
    exact yields_pure fun _ found => Option.some.inj found ▸ small
  case isFalse =>
    split
    case isTrue =>
      exact yields_then fun _ => yields_then fun _ => yields_then fun _ => yields_pure fits
    case isFalse =>
      split
      case isTrue =>
        exact yields_then fun _ => yields_then fun _ => yields_then fun _ => yields_pure fits
      case isFalse => exact yields_then fun _ => yields_then fun _ => yields_pure fits

theorem yields_readMembers {draft : Draft} (fits : draft.Fits) (fuel : Nat) :
    Yields (readMembers draft fuel) Draft.Fits := by
  induction fuel generalizing draft with
  | zero => exact yields_throw _
  | succ fuel inductionHypothesis =>
      refine yields_then fun name => ?_
      refine yields_bind (yields_readMember fits name) fun entered more => yields_then fun c => ?_
      split
      case h_1 => exact yields_then fun _ => inductionHypothesis more
      case h_2 => exact yields_pure more
      case h_3 => exact yields_throw _

theorem yields_finish {draft : Draft} (fits : draft.Fits) :
    Yields (finish draft) fun options => options.capacity < 2 ^ 64 := by
  have completed : Yields (liftM draft.complete : Reader Options)
      fun options => options.capacity < 2 ^ 64 := by
    rw [Draft.complete]
    cases found : draft.capacity with
    | none => exact yields_throw _
    | some bits => exact yields_pure (fits bits found)
  exact yields_bind completed fun options small => yields_then fun _ => yields_pure small

theorem yields_reader : Yields reader fun options => options.capacity < 2 ^ 64 := by
  have empty : Draft.Fits {} := fun _ found => by cases found
  refine yields_then fun c => ?_
  split
  case h_1 =>
    refine yields_then fun _ => yields_then fun c => ?_
    dsimp only
    split
    case isTrue => exact yields_finish empty
    case isFalse =>
      refine yields_then fun text => ?_
      exact yields_bind (yields_readMembers empty _) fun _ fits => yields_finish fits
  case h_2 =>
    have values : Yields (do
        let capacity ← natural
        let backing ← readElement (choice Backing.ofName?) .memory
        let writeMode ← readElement (choice WriteMode.ofName?) .durable
        mark ']'
        return ({ capacity, backing, writeMode } : Options))
        fun options => options.capacity < 2 ^ 64 := by
      refine yields_bind yields_natural fun capacity small => yields_then fun _ => ?_
      exact yields_then fun _ => yields_then fun _ => yields_pure small
    refine yields_then fun _ => yields_then fun c => ?_
    dsimp only
    split
    case isTrue => exact yields_then fun _ => values
    case isFalse => exact values
  case h_3 => exact yields_mismatch

theorem capacity_of_parse {text : String} {options : Options} (read : parse text = .ok options) :
    options.capacity < 2 ^ 64 := by
  have small := yields_readAll yields_reader read
  exact small

/-! ## Texts of options -/

/-- Options are read as they were written, and so are the options that any text describes.  In an
object only the members count, not their order, their blanks or the members with other names:
with one capacity and no known member twice it describes these options, and else it is not of
the shape asked for.  A known name that comes again is noticed at once, before anything behind
it is looked at. -/
theorem texts_describe_options :
    (forall options : Options, options.capacity < 2 ^ 64 -> parse options.render = .ok options) ∧
    (forall (text : String) (options : Options), parse text = .ok options ->
      parse options.render = .ok options) ∧
    (forall (members : List Member) (object : List Char) (text : String),
      ObjectWritten members object -> Padded object text.toList ->
        (forall bits, capacities members = [bits] -> (backings members).length ≤ 1 ->
          (writeModes members).length ≤ 1 ->
            parse text = .ok {
              capacity := bits
              backing := (backings members).head?.getD .memory
              writeMode := (writeModes members).head?.getD .durable }) ∧
        (capacities members = [] -> parse text = .error .shape) ∧
        (1 < (capacities members).length ∨ 1 < (backings members).length ∨
          1 < (writeModes members).length -> parse text = .error .shape)) ∧
    (forall (members : List Member) (member : Member) (blanks front spelled name rest : List Char)
      (text : String), Leading members front -> member ∈ members -> member.name ∈ knownNames ->
        Spelling spelled member.name.toList -> Padded (quote spelled) name -> Blanks blanks ->
          text.toList = blanks ++ '{' :: (front ++ (name ++ rest)) ->
            parse text = .error .shape) := by
  refine ⟨fun options fits => parse_render fits,
    fun text options read => parse_render (capacity_of_parse read), ?objects, ?repeated⟩
  case objects =>
    intro members object text written padded
    have read := parse_object written padded
    rw [String.ofList_toList] at read
    refine ⟨fun bits capacity backing writeMode => ?_, fun lacking => ?_, fun repeated => ?_⟩
    · rw [read, described_complete capacity backing writeMode]
    · rw [read, described_lacking lacking]
    · rw [read, described_repeated repeated]
  case repeated =>
    intro members member blanks front spelled name rest text leading mem known spelling padded
      blank same
    rw [← String.ofList_toList (s := text), same]
    exact parse_repeated leading mem known spelling padded blank rest

/-- Members in another order than that of writing, one of them a member that options do not have;
objects without a capacity and with two of them, and a second capacity that is not written to
its end. -/
theorem texts_describe_options_shuffled :
    parse (render { capacity := 2 ^ 64 - 1, backing := .file, writeMode := .buffered }) =
      .ok { capacity := 2 ^ 64 - 1, backing := .file, writeMode := .buffered } ∧
    parse (render { capacity := 7 }) = .ok { capacity := 7 } ∧
    parse "\x7b\"x\":[\x7b\x7d],\"write_mode\" : \"buffered\", \"capacity\":7 \x7d\n" =
      .ok { capacity := 7, writeMode := .buffered } ∧
    parse "\x7b\"x\":[\x7b\x7d]\x7d" = .error .shape ∧
    parse "\x7b\"capacity\":7,\"capacity\":7\x7d" = .error .shape ∧
    parse "\x7b\"capacity\":7,\"capacity\"?" = .error .shape := by
  rcases texts_describe_options with ⟨written, read, objects, repeated⟩
  have blank : Blanks [' '] := by decide
  have capacity : (Member.capacity 7).Written (quote "capacity".toList ++ ':' :: ['7']) :=
    written_plain (by decide) (.capacity (by decide))
  have other : (Member.other "x").Written (quote "x".toList ++ ':' :: ['[', '{', '}', ']']) :=
    .mk (spelling_plain (by decide)) (padded_self _)
      (.other (by decide) (.list (.element (.noObject blanks_nil) (padded_self _))))
      (padded_self _)
  have writeMode : (Member.writeMode .buffered).Written ((quote "write_mode".toList ++ [' ']) ++
      ':' :: ([' '] ++ (quote "buffered".toList ++ []))) :=
    .mk (spelling_plain (by decide)) (.mk blanks_nil blank)
      (.writeMode (spelling_plain (by decide))) (.mk blank blanks_nil)
  have paddedCapacity : (Member.capacity 7).Written (([' '] ++ (quote "capacity".toList ++ [])) ++
      ':' :: (['7'] ++ [' '])) :=
    .mk (spelling_plain (by decide)) (.mk blank blanks_nil) (.capacity (by decide))
      (.mk blanks_nil blank)
  refine ⟨written _ (by decide), read "[7]" _ rfl, ?_, ?_, ?_, ?_⟩
  · exact (objects [.other "x", .writeMode .buffered, .capacity 7] _ _
      (.some (.cons other (.cons writeMode .nil)) paddedCapacity)
      (.mk blanks_nil (by decide))).1 7 rfl (by decide) (by decide)
  · exact (objects [.other "x"] _ _ (.some .nil other) (padded_self _)).2.1 rfl
  · exact (objects [.capacity 7, .capacity 7] _ _ (.some (.cons capacity .nil) capacity)
      (padded_self _)).2.2 (.inl (by decide))
  · exact repeated [.capacity 7] (.capacity 7) [] _ _ _ ['?'] _ (.cons capacity .nil) (.head _)
      (by decide) (spelling_plain (by decide)) (padded_self _) (by decide) rfl

end Options
end BitStore
