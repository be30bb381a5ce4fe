import BitStore.Json.Shape
import BitStore.Proofs.Json.Numerals
import BitStore.Proofs.Json.Quotations

namespace BitStore
namespace Json
namespace Reader

/-!
# Values of a given shape are read
-/

variable {blanks rest : List Char}

/-- The numeral of a natural number is read as that number, if it fits in 64 bits. -/
theorem run_natural {n : Nat} (fits : n < 2 ^ 64) (blank : Blanks blanks)
    (follows : Follows closings rest) :
    natural.run (blanks ++ ((toString n).toList ++ rest)) = .ok (n, rest) := by
  have whole := integer_toString n
  have taken := run_numeral whole (by rwa [decimal_toString]) follows
  rw [decimal_toString] at taken
  have all : forall c, c ∈ decimalDigits -> isBlank c = false ∧
      (decide (c = '-') || isDigit c) = true := by decide
  cases spelled : (toString n).toList with
  | nil => exact absurd spelled whole.digits.nonempty
  | cons first others =>
      rw [spelled] at whole taken
      have digit := all first (whole.digits.all first (.head _))
      rw [List.cons_append] at taken ⊢
      rw [natural, run_bind (run_visible blank digit.1 _), if_pos digit.2, run_bind taken]
      rfl

/-- A quoted name is read as what it means. -/
theorem run_choice {α : Type} {meaning : String -> Option α} {value : α} {name : String}
    {spelled : List Char} (means : meaning name = some value)
    (spelling : Spelling spelled name.toList) (blank : Blanks blanks) (rest : List Char) :
    (choice meaning).run (blanks ++ (quote spelled ++ rest)) = .ok (value, rest) := by
  have namedRead : (named meaning).run (quote spelled ++ rest) = .ok (value, rest) := by
    have taken := run_quotation blanks_nil spelling rest
    rw [List.nil_append, String.ofList_toList] at taken
    rw [named, run_bind taken, means]
    rfl
  rw [quote_append] at namedRead ⊢
  rw [choice, run_bind (run_visible blank rfl _)]
  exact namedRead

/-! ## Only natural numbers of 64 bits -/

theorem yields_mismatch {α : Type} {holds : α -> Prop} : Yields (mismatch : Reader α) holds := by
  refine yields_then fun c => ?_
  dsimp only
  split
  case h_5 => exact yields_throw _
  case h_6 => exact yields_throw _
  case h_7 =>
    split
    case isTrue => exact yields_then fun _ => yields_throw _
    case isFalse => exact yields_then fun _ => yields_throw _
  all_goals exact yields_then fun _ => yields_throw _

/-- No other number is read than a natural one of 64 bits. -/
theorem yields_natural : Yields natural fun value => value < 2 ^ 64 := by
  refine yields_then fun c => ?_
  split
  case isTrue =>
    refine yields_bind yields_numeral fun found small => ?_
    split
    case h_1 => exact yields_pure (small _ rfl)
    case h_2 => exact yields_throw _
  case isFalse => exact yields_mismatch

end Reader
end Json
end BitStore
