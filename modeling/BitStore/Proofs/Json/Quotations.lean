import Mathlib.Tactic.IntervalCases
import BitStore.Proofs.Json.Readers

namespace BitStore
namespace Json

/-!
# Quoted texts are read to their closing quote

What stands between quotes holds no bare quote, so the first one closes the text.  The rounds
are counted in characters, and every character that is said takes at least one to spell.
-/

/-! ## Escapes -/

theorem escapeLetter?_of_mem {pair : Char × Char} (listed : pair ∈ escapeLetters) :
    escapeLetter? pair.1 = some pair.2 ∧ pair.1 ≠ 'u' := by
  have all : forall pair, pair ∈ escapeLetters ->
      escapeLetter? pair.1 = some pair.2 ∧ pair.1 ≠ 'u' := by decide
  exact all pair listed

theorem HexDigit.lt {c : Char} {value : Nat} (digit : HexDigit c value) : value < 16 := by
  rcases digit with small | capital
  case inl => exact (List.getElem?_eq_some_iff.mp small).1
  case inr => exact (List.getElem?_eq_some_iff.mp capital).1

/-- A digit of base sixteen stands for its place in one of the two alphabets, and is one byte. -/
theorem HexDigit.read {c : Char} {value : Nat} (digit : HexDigit c value) :
    hexValue? c = some value ∧ c.utf8Size = 1 := by
  have small := digit.lt
  rw [HexDigit] at digit
  interval_cases value <;> rcases digit with letter | letter <;> cases letter <;> decide

/-- The two halves of a pair are joined above the characters of one unit. -/
theorem pairedUnits_eq (high low : Nat) :
    pairedUnits (0xD800 + high) (0xDC00 + low) = Char.ofNat (0x10000 + high * 0x400 + low) := by
  rw [pairedUnits, Nat.add_sub_cancel_left, Nat.add_sub_cancel_left]

namespace Reader

variable {digits others rest : List Char} {value high low : Nat}

/-- Four digits are read as the number that they spell. -/
theorem run_unit (spelled : UnitDigits digits value) :
    unit.run (digits ++ rest) = .ok (value, rest) := by
  cases spelled with
  | @mk a b c d first second third fourth digitA digitB digitC digitD =>
      have long : ¬ utf8Length [a, b, c, d] < 4 := by
        simp only [utf8Length, List.map_cons, List.map_nil, digitA.read.2, digitB.read.2,
          digitC.read.2, digitD.read.2]
        decide
      have values : [a, b, c, d].mapM hexValue? = some [first, second, third, fourth] := by
        simp only [List.mapM_cons, List.mapM_nil, digitA.read.1, digitB.read.1, digitC.read.1,
          digitD.read.1]
        rfl
      have taken : ([a, b, c, d] ++ rest).take 4 = [a, b, c, d] := rfl
      rw [unit, run_bind (run_get _), taken, if_neg long, values]
      change Except.ok (((first * 16 + second) * 16 + third) * 16 + fourth, rest) = _
      congr 2
      omega

theorem run_escape_letter {pair : Char × Char} (listed : pair ∈ escapeLetters) :
    escape.run (pair.1 :: rest) = .ok (.char pair.2, rest) := by
  have letter := escapeLetter?_of_mem listed
  rw [escape, run_bind (run_next _ _), if_neg letter.2, letter.1]
  rfl

theorem run_escape_unit (spelled : UnitDigits digits value) :
    escape.run ('u' :: (digits ++ rest)) = .ok (.unit value, rest) := by
  rw [escape, run_bind (run_next _ _), if_pos rfl, run_bind (run_unit spelled)]
  rfl

/-- A unit that is no half of a pair is a character by itself. -/
theorem run_character (single : value < 0xD800 ∨ 0xDFFF < value) :
    (character value).run rest = .ok (Char.ofNat value, rest) := by
  have notTrailing : ¬ isTrailing value = true := by
    simp only [isTrailing, Bool.and_eq_true, decide_eq_true_eq]
    omega
  have notLeading : ¬ isLeading value = true := by
    simp only [isLeading, Bool.and_eq_true, decide_eq_true_eq]
    omega
  rw [character, if_neg notTrailing, if_neg notLeading]
  rfl

/-- The first half of a pair has the second one spelled behind it. -/
theorem run_character_pair (leading : high < 0x400) (spelledLow : UnitDigits others (0xDC00 + low))
    (trailing : low < 0x400) :
    (character (0xD800 + high)).run ('\\' :: 'u' :: (others ++ rest)) =
      .ok (Char.ofNat (0x10000 + high * 0x400 + low), rest) := by
  have notTrailing : ¬ isTrailing (0xD800 + high) = true := by
    simp only [isTrailing, Bool.and_eq_true, decide_eq_true_eq]
    omega
  have isFirst : isLeading (0xD800 + high) = true := by
    simp only [isLeading, Bool.and_eq_true, decide_eq_true_eq]
    omega
  have isSecond : isTrailing (0xDC00 + low) = true := by
    simp only [isTrailing, Bool.and_eq_true, decide_eq_true_eq]
    omega
  rw [character, if_neg notTrailing, if_pos isFirst]
  change (word ['\\', 'u'] >>= _).run (['\\', 'u'] ++ (others ++ rest)) = _
  rw [run_bind (run_word _ _), run_bind (run_unit spelledLow), if_pos isSecond, pairedUnits_eq]
  rfl

/-! ## What a quoted text says -/

section Rounds

variable {fuel : Nat} {c : Char} {text more said : List Char}

theorem run_quoted_plain (plain : Plain c) (later : (quoted fuel).run text = .ok (said, rest)) :
    (quoted (fuel + 1)).run (c :: text) = .ok (c :: said, rest) := by
  rw [quoted, run_bind (run_next _ _), if_neg plain.quote, if_neg plain.escape,
    if_neg (Nat.not_lt.mpr plain.visible), run_bind later]
  rfl

theorem run_quoted_letter (escaped : escape.run text = .ok (.char c, more))
    (later : (quoted fuel).run more = .ok (said, rest)) :
    (quoted (fuel + 1)).run ('\\' :: text) = .ok (c :: said, rest) := by
  rw [quoted, run_bind (run_next _ _), if_neg (by decide), if_pos rfl, run_bind escaped]
  change (pure c >>= fun c => quoted fuel >>= fun said => pure (c :: said) : Reader _).run more = _
  rw [pure_bind, run_bind later]
  rfl

theorem run_quoted_unit {units : List Char} (escaped : escape.run text = .ok (.unit value, units))
    (found : (character value).run units = .ok (c, more))
    (later : (quoted fuel).run more = .ok (said, rest)) :
    (quoted (fuel + 1)).run ('\\' :: text) = .ok (c :: said, rest) := by
  rw [quoted, run_bind (run_next _ _), if_neg (by decide), if_pos rfl, run_bind escaped]
  change (character value >>= _).run units = _
  rw [run_bind found, run_bind later]
  rfl

end Rounds

/-- By induction on the spelling: what is said is read, and the closing quote with it. -/
theorem run_quoted {spelled said : List Char} (spelling : Spelling spelled said) {fuel : Nat}
    (enough : spelled.length < fuel) (rest : List Char) :
    (quoted fuel).run (spelled ++ '"' :: rest) = .ok (said, rest) := by
  induction spelling generalizing fuel with
  | nil =>
      cases fuel with
      | zero => omega
      | succ fuel => rfl
  | plain plain _ inductionHypothesis =>
      cases fuel with
      | zero => omega
      | succ fuel =>
          exact run_quoted_plain plain (inductionHypothesis (Nat.lt_of_succ_lt_succ enough))
  | letter listed _ inductionHypothesis =>
      rw [List.length_cons, List.length_cons] at enough
      cases fuel with
      | zero => omega
      | succ fuel =>
          exact run_quoted_letter (run_escape_letter listed) (inductionHypothesis (by omega))
  | unit digits single _ inductionHypothesis =>
      rw [List.length_cons, List.length_cons, List.length_append] at enough
      cases fuel with
      | zero => omega
      | succ fuel =>
          rw [List.cons_append, List.cons_append, List.append_assoc]
          exact run_quoted_unit (run_escape_unit digits) (run_character single)
            (inductionHypothesis (by omega))
  | pair digits leading digitsLow trailing _ inductionHypothesis =>
      rw [List.length_cons, List.length_cons, List.length_append, List.length_cons,
        List.length_cons, List.length_append] at enough
      cases fuel with
      | zero => omega
      | succ fuel =>
          rw [List.cons_append, List.cons_append, List.append_assoc, List.cons_append,
            List.cons_append, List.append_assoc]
          exact run_quoted_unit (run_escape_unit digits)
            (run_character_pair leading digitsLow trailing) (inductionHypothesis (by omega))

/-- A quoted text is read as what it says, whatever blanks are in front of it. -/
theorem run_quotation {blanks spelled said : List Char} (blank : Blanks blanks)
    (spelling : Spelling spelled said) (rest : List Char) :
    quotation.run (blanks ++ (quote spelled ++ rest)) = .ok (String.ofList said, rest) := by
  have enough : spelled.length < (spelled ++ '"' :: rest).length := by
    rw [List.length_append, List.length_cons]
    omega
  rw [quote_append, quotation, run_bind (run_mark blank rfl _), run_bind (run_get _),
    run_bind (run_quoted spelling enough rest)]
  rfl

/-! ## Passing over a quoted text -/

/-- By induction on the text.  What the units say is not asked for here, only that there are four
digits in each. -/
theorem run_skipQuoted {text : List Char} (quotable : Quotable text) {fuel : Nat}
    (enough : text.length < fuel) (rest : List Char) :
    (skipQuoted fuel).run (text ++ '"' :: rest) = .ok ((), rest) := by
  induction quotable generalizing fuel with
  | nil =>
      cases fuel with
      | zero => omega
      | succ fuel => rfl
  | plain plain _ inductionHypothesis =>
      cases fuel with
      | zero => omega
      | succ fuel =>
          rw [skipQuoted, List.cons_append, run_bind (run_next _ _), if_neg plain.quote,
            if_neg plain.escape, if_neg (Nat.not_lt.mpr plain.visible)]
          exact inductionHypothesis (Nat.lt_of_succ_lt_succ enough)
  | letter listed _ inductionHypothesis =>
      rw [List.length_cons, List.length_cons] at enough
      cases fuel with
      | zero => omega
      | succ fuel =>
          rw [skipQuoted, List.cons_append, run_bind (run_next _ _), if_neg (by decide),
            if_pos rfl, List.cons_append, run_bind (run_escape_letter listed)]
          exact inductionHypothesis (by omega)
  | unit digits _ inductionHypothesis =>
      rw [List.length_cons, List.length_cons, List.length_append] at enough
      cases fuel with
      | zero => omega
      | succ fuel =>
          rw [skipQuoted, List.cons_append, run_bind (run_next _ _), if_neg (by decide),
            if_pos rfl, List.cons_append, List.append_assoc, run_bind (run_escape_unit digits)]
          exact inductionHypothesis (by omega)

theorem run_skipQuotation {blanks text : List Char} (blank : Blanks blanks)
    (quotable : Quotable text) (rest : List Char) :
    skipQuotation.run (blanks ++ (quote text ++ rest)) = .ok ((), rest) := by
  have enough : text.length < (text ++ '"' :: rest).length := by
    rw [List.length_append, List.length_cons]
    omega
  rw [quote_append, skipQuotation, run_bind (run_mark blank rfl _), run_bind (run_get _)]
  exact run_skipQuoted quotable enough rest

end Reader
end Json
end BitStore
