namespace BitStore
namespace Json

/-!
# Well-formed texts

A value is a word, a numeral, a quoted text, a list of values, or an object whose members are
a name and a value each.  `Written` says how they are written, with blanks around the parts,
and nothing of how they are read.  A quoted text of which nobody asks what it says only has to
be `Quotable`; `Spelling` tells what it says, and there every unit has to belong to a
character.
-/

/-- Characters that may stand between the parts of a text. -/
def Blanks (text : List Char) : Prop :=
  forall c, c ∈ text -> c ∈ [' ', '\t', '\n', '\r']

/-- What is said of every character of a text is decided character by character. -/
instance decidableForallMem {holds : Char -> Prop} [DecidablePred holds] (text : List Char) :
    Decidable (forall c, c ∈ text -> holds c) :=
  List.decidableBAll holds text

instance Blanks.decidable (text : List Char) : Decidable (Blanks text) :=
  inferInstanceAs (Decidable (forall c, c ∈ text -> c ∈ [' ', '\t', '\n', '\r']))

/-- A part with blanks around it. -/
inductive Padded (part : List Char) : List Char -> Prop where
  | mk {before behind : List Char} (blankBefore : Blanks before) (blankBehind : Blanks behind) :
      Padded part (before ++ (part ++ behind))

/-! ## Numerals -/

def decimalDigits : List Char :=
  ['0', '1', '2', '3', '4', '5', '6', '7', '8', '9']

/-- At least one digit. -/
structure Digits (text : List Char) : Prop where
  nonempty : text ≠ []
  all : forall c, c ∈ text -> c ∈ decimalDigits

/-- A zero stands alone in front. -/
inductive Integer : List Char -> Prop where
  | zero : Integer ['0']
  | positive {first : Char} {rest : List Char} (digits : Digits (first :: rest))
      (leads : first ≠ '0') : Integer (first :: rest)

inductive Fraction : List Char -> Prop where
  | none : Fraction []
  | some {digits : List Char} (spelled : Digits digits) : Fraction ('.' :: digits)

inductive Exponent : List Char -> Prop where
  | none : Exponent []
  | some {mark : Char} {sign digits : List Char} (marked : mark ∈ ['e', 'E'])
      (signed : sign ∈ [[], ['+'], ['-']]) (spelled : Digits digits) :
      Exponent (mark :: (sign ++ digits))

inductive Number : List Char -> Prop where
  | mk {sign integer fraction exponent : List Char} (signed : sign ∈ [[], ['-']])
      (whole : Integer integer) (broken : Fraction fraction) (scaled : Exponent exponent) :
      Number (sign ++ (integer ++ (fraction ++ exponent)))

/-! ## Quoted texts -/

/-- The letters that stand behind a backslash for a character. -/
def escapeLetters : List (Char × Char) :=
  [('"', '"'), ('\\', '\\'), ('/', '/'), ('b', Char.ofNat 8), ('f', Char.ofNat 12), ('n', '\n'),
    ('r', '\r'), ('t', '\t')]

/-- A digit in base sixteen, in small or in capital letters, and its value. -/
def HexDigit (c : Char) (value : Nat) : Prop :=
  (decimalDigits ++ ['a', 'b', 'c', 'd', 'e', 'f'])[value]? = some c ∨
    (decimalDigits ++ ['A', 'B', 'C', 'D', 'E', 'F'])[value]? = some c

/-- Four digits in base sixteen, and the unit of sixteen bits that they spell. -/
inductive UnitDigits : List Char -> Nat -> Prop where
  | mk {a b c d : Char} {first second third fourth : Nat} (digitA : HexDigit a first)
      (digitB : HexDigit b second) (digitC : HexDigit c third) (digitD : HexDigit d fourth) :
      UnitDigits [a, b, c, d] (first * 4096 + second * 256 + third * 16 + fourth)

/-- A character that stands for itself between quotes. -/
structure Plain (c : Char) : Prop where
  visible : 32 ≤ c.toNat
  quote : c ≠ '"'
  escape : c ≠ '\\'

instance Plain.decidable (c : Char) : Decidable (Plain c) :=
  decidable_of_iff (32 ≤ c.toNat ∧ c ≠ '"' ∧ c ≠ '\\')
    ⟨fun ⟨visible, quote, escape⟩ => ⟨visible, quote, escape⟩,
      fun plain => ⟨plain.visible, plain.quote, plain.escape⟩⟩

/-- What may stand between quotes. -/
inductive Quotable : List Char -> Prop where
  | nil : Quotable []
  | plain {c : Char} {rest : List Char} (plain : Plain c) (quotable : Quotable rest) :
      Quotable (c :: rest)
  | letter {pair : Char × Char} {rest : List Char} (listed : pair ∈ escapeLetters)
      (quotable : Quotable rest) : Quotable ('\\' :: pair.1 :: rest)
  | unit {digits : List Char} {value : Nat} {rest : List Char} (spelled : UnitDigits digits value)
      (quotable : Quotable rest) : Quotable ('\\' :: 'u' :: (digits ++ rest))

/-- What stands between quotes, and the characters that it spells.  A character beyond sixteen
bits is spelled by itself or by two units, and half of such a pair spells nothing. -/
inductive Spelling : List Char -> List Char -> Prop where
  | nil : Spelling [] []
  | plain {c : Char} {rest said : List Char} (plain : Plain c) (spelling : Spelling rest said) :
      Spelling (c :: rest) (c :: said)
  | letter {pair : Char × Char} {rest said : List Char} (listed : pair ∈ escapeLetters)
      (spelling : Spelling rest said) : Spelling ('\\' :: pair.1 :: rest) (pair.2 :: said)
  | unit {digits : List Char} {value : Nat} {rest said : List Char}
      (spelled : UnitDigits digits value) (single : value < 0xD800 ∨ 0xDFFF < value)
      (spelling : Spelling rest said) :
      Spelling ('\\' :: 'u' :: (digits ++ rest)) (Char.ofNat value :: said)
  | pair {digits others : List Char} {high low : Nat} {rest said : List Char}
      (spelled : UnitDigits digits (0xD800 + high)) (leading : high < 0x400)
      (spelledLow : UnitDigits others (0xDC00 + low)) (trailing : low < 0x400)
      (spelling : Spelling rest said) :
      Spelling ('\\' :: 'u' :: (digits ++ '\\' :: 'u' :: (others ++ rest)))
        (Char.ofNat (0x10000 + high * 0x400 + low) :: said)

/-- A text between quotes. -/
def quote (text : List Char) : List Char :=
  '"' :: (text ++ ['"'])

theorem bracketed_append (opening closing : Char) (text rest : List Char) :
    opening :: (text ++ [closing]) ++ rest = opening :: (text ++ closing :: rest) := by
  rw [List.cons_append, List.append_assoc, List.singleton_append]

theorem quote_append (text rest : List Char) :
    quote text ++ rest = '"' :: (text ++ '"' :: rest) :=
  bracketed_append '"' '"' text rest

/-! ## Values -/

/-- The parts of a text that are made of each other. -/
inductive Part where
  | value
  -- The values of a list that is not empty.
  | elements
  -- The members of an object that is not empty.
  | members

/-- How the parts of a text are written. -/
inductive Written : Part -> List Char -> Prop where
  | null : Written .value ['n', 'u', 'l', 'l']
  | yes : Written .value ['t', 'r', 'u', 'e']
  | no : Written .value ['f', 'a', 'l', 's', 'e']
  | number {text : List Char} (number : Number text) : Written .value text
  | quoted {text : List Char} (quotable : Quotable text) : Written .value (quote text)
  | noList {blanks : List Char} (blank : Blanks blanks) : Written .value ('[' :: (blanks ++ [']']))
  | list {elements : List Char} (written : Written .elements elements) :
      Written .value ('[' :: (elements ++ [']']))
  | noObject {blanks : List Char} (blank : Blanks blanks) :
      Written .value ('{' :: (blanks ++ ['}']))
  | object {members : List Char} (written : Written .members members) :
      Written .value ('{' :: (members ++ ['}']))
  | element {value text : List Char} (written : Written .value value)
      (padded : Padded value text) : Written .elements text
  | elements {value text rest : List Char} (written : Written .value value)
      (padded : Padded value text) (others : Written .elements rest) :
      Written .elements (text ++ ',' :: rest)
  | member {name front value back : List Char} (named : Quotable name)
      (paddedName : Padded (quote name) front) (written : Written .value value)
      (padded : Padded value back) : Written .members (front ++ ':' :: back)
  | members {name front value back rest : List Char} (named : Quotable name)
      (paddedName : Padded (quote name) front) (written : Written .value value)
      (padded : Padded value back) (others : Written .members rest) :
      Written .members (front ++ ':' :: (back ++ ',' :: rest))

end Json
end BitStore
