import Calculator.Operator
import Calculator.Text.Blank

/-!
# Derivation trees

The grammar of expressions as data. A tree holds its whole text: each token with
the blanks in front of it. So a text is a sentence of the grammar if some tree
spells it (`Sentence.chars`), and a tree says where in the text its tokens are.

Chains lean to the left in a tree, as their operators group, and a power holds its
exponent to the right.

Nothing is computed here and nothing is read: how a text finds its tree is the
business of readers, and what a tree is worth that of its denotation.
-/

namespace Calculator.Grammar

/-- A run of blanks. -/
abbrev Blanks := { cs : List Char // ∀ c ∈ cs, Text.isBlank c = true }

/-- A run of digits. -/
abbrev Digits := { cs : List Char // ∀ c ∈ cs, c.isDigit = true }

/-- A number as it is written: digits, or digits around a point. -/
inductive Numeral
  | whole (digits : Digits) (some_digit : digits.1 ≠ [])
  | pointed (digits fraction : Digits) (some_digit : digits.1 ≠ [] ∨ fraction.1 ≠ [])

/-- The name of a function as it is written. -/
structure Name where
  first : Char
  rest : List Char
  first_isAlpha : first.isAlpha = true
  rest_isAlphanum : ∀ c ∈ rest, c.isAlphanum = true

/-- The operators between terms. -/
abbrev Additive := { o : Operator // o = .add ∨ o = .sub }

/-- The operators between factors. -/
abbrev Multiplicative := { o : Operator // o = .mul ∨ o = .div ∨ o = .mod }

/-- The two ways to write a power. -/
inductive PowerSign
  | caret
  | stars
  deriving DecidableEq, Repr

mutual

/-- Terms joined by `+` and `-`. -/
inductive Expression
  | term (t : Term)
  | join (e : Expression) (before : Blanks) (o : Additive) (t : Term)

/-- Factors joined by `*`, `/` and `%`. -/
inductive Term
  | factor (f : Factor)
  | join (t : Term) (before : Blanks) (o : Multiplicative) (f : Factor)

/-- A negated factor, or a primary with or without an exponent. -/
inductive Factor
  | neg (before : Blanks) (f : Factor)
  | primary (before : Blanks) (p : Primary)
  | power (before : Blanks) (base : Primary) (between : Blanks) (sign : PowerSign)
    (exponent : Factor)

/-- A number, an expression in parentheses, or a call. -/
inductive Primary
  | number (n : Numeral)
  | group (e : Expression) (before : Blanks)
  | call (name : Name) (between : Blanks) (argument : Expression) (before : Blanks)

end

/-- An expression and the blanks after it. -/
structure Sentence where
  expression : Expression
  after : Blanks

/-! ## Texts of trees -/

/-- The characters of a number. -/
def Numeral.chars : Numeral → List Char
  | whole digits _ => digits.1
  | pointed digits fraction _ => digits.1 ++ '.' :: fraction.1

/-- The digits before the point, and those after it. -/
def Numeral.parts : Numeral → List Char × List Char
  | whole digits _ => (digits.1, [])
  | pointed digits fraction _ => (digits.1, fraction.1)

/-- The characters of a name. -/
def Name.chars (n : Name) : List Char := n.first :: n.rest

/-- The characters of a power sign. -/
def PowerSign.chars : PowerSign → List Char
  | caret => ['^']
  | stars => ['*', '*']

mutual

/-- The characters of an expression. -/
def Expression.chars : Expression → List Char
  | .term t => t.chars
  | .join e before o t => e.chars ++ before.1 ++ o.1.char :: t.chars

/-- The characters of a term. -/
def Term.chars : Term → List Char
  | .factor f => f.chars
  | .join t before o f => t.chars ++ before.1 ++ o.1.char :: f.chars

/-- The characters of a factor. -/
def Factor.chars : Factor → List Char
  | .neg before f => before.1 ++ '-' :: f.chars
  | .primary before p => before.1 ++ p.chars
  | .power before base between sign exponent =>
    before.1 ++ base.chars ++ between.1 ++ sign.chars ++ exponent.chars

/-- The characters of a primary. -/
def Primary.chars : Primary → List Char
  | .number n => n.chars
  | .group e before => '(' :: e.chars ++ before.1 ++ [')']
  | .call name between argument before =>
    name.chars ++ between.1 ++ '(' :: argument.chars ++ before.1 ++ [')']

end

/-- The characters of a sentence. -/
def Sentence.chars (s : Sentence) : List Char := s.expression.chars ++ s.after.1

/-- The text of a sentence. -/
def Sentence.text (s : Sentence) : String := String.ofList s.chars

/-- A number has characters. -/
theorem Numeral.chars_ne_nil (n : Numeral) : n.chars ≠ [] := by
  cases n with
  | whole digits h => exact h
  | pointed digits fraction _ => simp [chars]

/-- A primary has characters. -/
theorem Primary.chars_ne_nil (p : Primary) : p.chars ≠ [] := by
  cases p with
  | number n => simpa [chars] using n.chars_ne_nil
  | group e before => simp [chars]
  | call name between argument before => simp [chars]

/-- A factor has characters. -/
theorem Factor.chars_ne_nil (f : Factor) : f.chars ≠ [] := by
  cases f with
  | neg before f => simp [chars]
  | primary before p => simp [chars, p.chars_ne_nil]
  | power before base between sign exponent => simp [chars, base.chars_ne_nil]

/-- A term has characters. -/
theorem Term.chars_ne_nil (t : Term) : t.chars ≠ [] := by
  cases t with
  | factor f => simpa [chars] using f.chars_ne_nil
  | join t before o f => simp [chars]

/-- An expression has characters. -/
theorem Expression.chars_ne_nil (e : Expression) : e.chars ≠ [] := by
  cases e with
  | term t => simpa [chars] using t.chars_ne_nil
  | join e before o t => simp [chars]

end Calculator.Grammar
