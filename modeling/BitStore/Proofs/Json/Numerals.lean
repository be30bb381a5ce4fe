import Mathlib.Data.List.Basic
import Mathlib.Tactic.IntervalCases
import BitStore.Proofs.Json.Readers

namespace BitStore
namespace Json

/-!
# Numerals are read to their end

The digits of a numeral end where something else than a digit follows, so what stands behind a
value decides that all of them are taken.
-/

/-! ## What follows -/

/-- If the text goes on, then with one of these characters. -/
def Follows (allowed : List Char) (text : List Char) : Prop :=
  forall c, text.head? = some c -> c ∈ allowed

/-- What may follow a value: a blank, a comma or a closing bracket. -/
def closings : List Char :=
  [' ', '\t', '\n', '\r', ',', ']', '}']

section Following

variable {allowed more text fraction exponent rest : List Char} {c : Char}

theorem Follows.mono (follows : Follows allowed text) (subset : allowed ⊆ more) :
    Follows more text :=
  fun c head => subset (follows c head)

theorem follows_cons (memAllowed : c ∈ allowed) : Follows allowed (c :: text) := by
  intro other head
  cases head
  exact memAllowed

theorem Follows.head_ne (follows : Follows allowed text) (notAllowed : c ∉ allowed) :
    text.head? ≠ some c :=
  fun head => notAllowed (follows c head)

theorem Exponent.follows (scaled : Exponent exponent) (ends : Follows closings rest) :
    Follows ('e' :: 'E' :: closings) (exponent ++ rest) := by
  cases scaled with
  | none => exact ends.mono fun c memClosings => .tail _ (.tail _ memClosings)
  | some marked => exact follows_cons (List.mem_append_left closings marked)

theorem Fraction.follows (broken : Fraction fraction) (scaled : Exponent exponent)
    (ends : Follows closings rest) :
    Follows ('.' :: 'e' :: 'E' :: closings) (fraction ++ (exponent ++ rest)) := by
  cases broken with
  | none => exact (scaled.follows ends).mono fun c memAllowed => .tail _ memAllowed
  | some => exact follows_cons (.head _)

end Following

/-! ## Digits -/

/-- The digits are the ten characters that spell numbers. -/
theorem isDigit_iff (c : Char) : isDigit c = true ↔ c ∈ decimalDigits := by
  constructor
  case mp =>
    intro digit
    simp only [isDigit, Bool.and_eq_true, decide_eq_true_eq, Char.le_def] at digit
    have lower : 48 ≤ c.toNat := digit.1
    have upper : c.toNat ≤ 57 := digit.2
    rw [← Char.ofNat_toNat c]
    interval_cases c.toNat <;> decide
  case mpr =>
    have all : forall c, c ∈ decimalDigits -> isDigit c = true := by decide
    exact all c

theorem le_decimal (digits : List Char) (value : Nat) : value ≤ decimal value digits := by
  induction digits generalizing value with
  | nil => exact le_rfl
  | cons c digits inductionHypothesis =>
      have grown := inductionHypothesis (10 * value + digitValue c)
      change value ≤ decimal (10 * value + digitValue c) digits
      omega

/-- Digits whose number fits are taken to the last one. -/
theorem absorb_all {digits : List Char} {value : Nat} (fits : decimal value digits < 2 ^ 64) :
    absorb value digits = (decimal value digits, []) := by
  induction digits generalizing value with
  | nil => rfl
  | cons c digits inductionHypothesis =>
      have fitsSoFar : 10 * value + digitValue c < 1 <<< 64 :=
        (le_decimal digits _).trans_lt fits
      rw [absorb, if_pos fitsSoFar]
      exact inductionHypothesis fits

/-- However many digits there are, what is taken of them fits. -/
theorem absorb_lt (digits : List Char) {value : Nat} (fits : value < 2 ^ 64) :
    (absorb value digits).1 < 2 ^ 64 := by
  induction digits generalizing value with
  | nil => exact fits
  | cons c digits inductionHypothesis =>
      rw [absorb]
      split
      case isTrue fitsSoFar => exact inductionHypothesis fitsSoFar
      case isFalse => exact fits

variable {text integer fraction exponent rest : List Char}

theorem Integer.digits (whole : Integer integer) : Digits integer := by
  cases whole with
  | zero => exact { nonempty := List.cons_ne_nil _ _, all := by decide }
  | positive digits => exact digits

theorem Digits.head_ne {c : Char} (spelled : Digits text) (rest : List Char)
    (other : c ∉ decimalDigits) : (text ++ rest).head? ≠ some c := by
  cases text with
  | nil => exact absurd rfl spelled.nonempty
  | cons first others =>
      intro head
      cases head
      exact other (spelled.all _ (.head _))

theorem Integer.head_ne (whole : Integer integer) : (integer ++ rest).head? ≠ some '-' :=
  whole.digits.head_ne rest (by decide)

/-! ## The numeral of a natural number -/

theorem digits_toDigits (n : Nat) : Digits (Nat.toDigits 10 n) where
  nonempty := List.length_pos_iff.mp Nat.length_toDigits_pos
  all c memDigits := by
    refine (isDigit_iff c).mp ?_
    have digit := Nat.isDigit_of_mem_toDigits (by decide) le_rfl memDigits
    rw [Char.isDigit, Bool.and_eq_true, decide_eq_true_eq, decide_eq_true_eq] at digit
    rw [isDigit, Bool.and_eq_true, decide_eq_true_eq, decide_eq_true_eq]
    exact digit

/-- A positive number is spelled without a zero in front, by induction on the number without its
last digit. -/
theorem toDigits_leads {n : Nat} (positive : 0 < n) : (Nat.toDigits 10 n).head? ≠ some '0' := by
  induction n using Nat.strong_induction_on with
  | h n inductionHypothesis =>
      rcases Nat.lt_or_ge n 10 with small | large
      case inl =>
        rw [Nat.toDigits_of_lt_base small]
        interval_cases n <;> decide
      case inr =>
        -- the last digit does not change what is in front of it
        have leads := inductionHypothesis (n / 10) (by omega) (by omega)
        rw [Nat.toDigits_of_base_le (by decide) large]
        intro head
        rw [List.head?_append_of_ne_nil _ (digits_toDigits _).nonempty] at head
        exact leads head

/-- The numeral of a natural number is well formed. -/
theorem integer_toString (n : Nat) : Integer (toString n).toList := by
  rw [Nat.toString_eq_repr, Nat.toList_repr]
  rcases Nat.eq_zero_or_pos n with rfl | positive
  case inl => exact .zero
  case inr =>
    have spelled := digits_toDigits n
    have leads := toDigits_leads positive
    cases same : Nat.toDigits 10 n with
    | nil => exact absurd same spelled.nonempty
    | cons first others =>
        rw [same] at spelled leads
        exact .positive spelled fun zero => leads (congrArg some zero)

theorem decimal_toString (n : Nat) : decimal 0 (toString n).toList = n := by
  rw [Nat.toString_eq_repr, Nat.toList_repr]
  exact Nat.ofDigitChars_toDigits (by decide) le_rfl

namespace Reader

/-! ## Taking digits -/

section Taking

variable (follows : Follows ('.' :: 'e' :: 'E' :: closings) rest)

include follows

theorem run_takeDigits (all : forall c, c ∈ text -> c ∈ decimalDigits) :
    (takeWhile isDigit).run (text ++ rest) = .ok (text, rest) := by
  have other : forall c, c ∈ '.' :: 'e' :: 'E' :: closings -> isDigit c = false := by decide
  exact run_takeWhile (fun c memText => (isDigit_iff c).mpr (all c memText))
    fun c head => other c (follows c head)

/-- Digits are taken as far as they go. -/
theorem run_digits (spelled : Digits text) : digits.run (text ++ rest) = .ok (text, rest) := by
  cases text with
  | nil => exact absurd rfl spelled.nonempty
  | cons first others =>
      have othersTaken :=
        run_takeDigits follows fun c memOthers => spelled.all c (.tail _ memOthers)
      rw [digits, List.cons_append, run_bind (run_next _ _),
        if_pos ((isDigit_iff first).mpr (spelled.all first (.head _))), run_bind othersTaken]
      rfl

theorem run_skipDigits (spelled : Digits text) :
    skipDigits.run (text ++ rest) = .ok ((), rest) := by
  rw [skipDigits, run_bind (run_takeDigits follows spelled.all),
    if_neg (mt List.isEmpty_iff.mp spelled.nonempty)]
  rfl

end Taking

/-! ## Numerals of natural numbers -/

theorem run_integerDigits (whole : Integer integer)
    (follows : Follows ('.' :: 'e' :: 'E' :: closings) rest) :
    integerDigits.run (integer ++ rest) = .ok (integer, rest) := by
  rw [integerDigits, run_bind (run_digits follows whole.digits)]
  cases whole with
  | zero => rfl
  | positive digits leads =>
      split
      case h_1 same => exact absurd (List.cons.inj same).1 leads
      case h_2 => rfl

theorem run_fractionDigits_none (follows : Follows closings rest) :
    fractionDigits.run rest = .ok (none, rest) := by
  have noPoint : rest.head? ≠ some '.' := follows.head_ne (by decide)
  rw [fractionDigits, run_bind (run_accept_ne noPoint), if_neg Bool.false_ne_true]
  rfl

theorem run_exponent_none (follows : Follows closings rest) :
    exponent?.run rest = .ok (none, rest) := by
  rw [exponent?, run_bind (run_peek? _)]
  split
  case h_1 head => exact absurd head (follows.head_ne (by decide))
  case h_2 head => exact absurd head (follows.head_ne (by decide))
  case h_3 => rfl

/-- A numeral without fraction and exponent is read as its number. -/
theorem run_numeral (whole : Integer integer) (fits : decimal 0 integer < 2 ^ 64)
    (follows : Follows closings rest) :
    numeral.run (integer ++ rest) = .ok (.natural (decimal 0 integer), rest) := by
  have followsDigits := follows.mono fun c (memClosings : c ∈ closings) =>
    List.mem_append_right ['.', 'e', 'E'] memClosings
  rw [numeral, run_bind (run_accept_ne whole.head_ne),
    run_bind (run_integerDigits whole followsDigits), absorb_all fits]
  change (fractionDigits >>= _).run rest = _
  rw [run_bind (run_fractionDigits_none follows)]
  change (exponent? >>= _).run rest = _
  rw [run_bind (run_exponent_none follows)]
  rfl

/-! ## Passing over numerals -/

/-- Pass over an exponent, if there is one. -/
def skipExponent : Reader Unit := do
  match ← peek? with
  | some 'e' | some 'E' =>
      drop
      match ← peek? with
      | some '+' | some '-' => drop
      | _ => pure ()
      skipDigits
  | _ => return

/-- A fraction is passed over if there is one. -/
theorem run_broken (broken : Fraction fraction) (follows : Follows ('e' :: 'E' :: closings) rest)
    (behind : Reader Unit) :
    (do
      let pointed ← accept '.'
      if pointed then do
        skipDigits
        behind
      else behind).run (fraction ++ rest) = behind.run rest := by
  cases broken with
  | none =>
      have noPoint : rest.head? ≠ some '.' := follows.head_ne (by decide)
      rw [List.nil_append, run_bind (run_accept_ne noPoint), if_neg Bool.false_ne_true]
  | some spelled =>
      have followsDigits := follows.mono fun c memFollows => List.mem_cons_of_mem '.' memFollows
      rw [List.cons_append, run_bind (run_accept _ _), if_pos rfl,
        run_bind (run_skipDigits followsDigits spelled)]

/-- The digits of an exponent, with their sign in front of them. -/
theorem run_signed {sign : List Char} (signed : sign ∈ [[], ['+'], ['-']])
    (spelled : Digits text) (follows : Follows ('.' :: 'e' :: 'E' :: closings) rest) :
    (do
      match ← peek? with
      | some '+' | some '-' => drop
      | _ => pure ()
      skipDigits : Reader Unit).run (sign ++ (text ++ rest)) = .ok ((), rest) := by
  have skipped := run_skipDigits follows spelled
  simp only [List.mem_cons, List.not_mem_nil, or_false] at signed
  rcases signed with rfl | rfl | rfl
  case inl =>
    have plus := spelled.head_ne (c := '+') rest (by decide)
    have minus := spelled.head_ne (c := '-') rest (by decide)
    rw [List.nil_append, run_bind (run_peek? _)]
    split
    case h_1 head => exact absurd head plus
    case h_2 head => exact absurd head minus
    case h_3 => exact skipped
  case inr.inl => exact skipped
  case inr.inr => exact skipped

theorem run_skipExponent (scaled : Exponent exponent) (follows : Follows closings rest) :
    skipExponent.run (exponent ++ rest) = .ok ((), rest) := by
  cases scaled with
  | none =>
      rw [skipExponent, List.nil_append, run_bind (run_peek? _)]
      split
      case h_1 head => exact absurd head (follows.head_ne (by decide))
      case h_2 head => exact absurd head (follows.head_ne (by decide))
      case h_3 => rfl
  | @some mark sign digits marked signed spelled =>
      have headed : (mark :: (sign ++ digits) ++ rest) = mark :: (sign ++ (digits ++ rest)) := by
        rw [List.cons_append, List.append_assoc]
      have behind := run_signed signed spelled (follows.mono fun c memClosings =>
        List.mem_append_right ['.', 'e', 'E'] memClosings)
      rw [headed, skipExponent, run_bind (run_peek? _), List.head?_cons]
      simp only [List.mem_cons, List.not_mem_nil, or_false] at marked
      rcases marked with rfl | rfl
      · exact behind
      · exact behind

/-- Any numeral is passed over, up to what follows it. -/
theorem run_skipNumeral (number : Number text) (follows : Follows closings rest) :
    skipNumeral.run (text ++ rest) = .ok ((), rest) := by
  cases number with
  | @mk sign integer fraction exponent signed whole broken scaled =>
      have signSkipped :
          (accept '-').run (sign ++ (integer ++ (fraction ++ (exponent ++ rest)))) =
            .ok (sign ≠ [], integer ++ (fraction ++ (exponent ++ rest))) := by
        simp only [List.mem_cons, List.not_mem_nil, or_false] at signed
        rcases signed with rfl | rfl
        · exact run_accept_ne whole.head_ne
        · exact run_accept _ _
      have behind := (run_broken broken (scaled.follows follows) skipExponent).trans
        (run_skipExponent scaled follows)
      rw [List.append_assoc, List.append_assoc, List.append_assoc, skipNumeral,
        run_bind signSkipped,
        run_bind (run_takeDigits (broken.follows scaled follows) whole.digits.all)]
      cases whole with
      | zero => exact behind
      | positive digits leads =>
          split
          case h_1 none => cases none
          case h_2 same => exact absurd (List.cons.inj same).1 leads
          case h_3 => exact behind

/-! ## Natural numbers of 64 bits -/

/-- What is read as a natural number fits in 64 bits. -/
theorem yields_numeral : Yields numeral fun found =>
    forall value, found = .natural value -> value < 2 ^ 64 := by
  refine yields_then fun negative => yields_then fun whole => ?_
  refine yields_then fun fraction => yields_then fun exponent => ?_
  have wholeFits := absorb_lt whole (Nat.two_pow_pos 64)
  have fits := absorb_lt (fraction.getD []) wholeFits
  split
  case isTrue =>
    refine yields_pure fun value same => ?_
    cases same
    exact fits
  case isFalse =>
    simp only
    split
    case isTrue => exact yields_pure fun value same => by cases same
    case isFalse => exact yields_throw _

end Reader
end Json
end BitStore
