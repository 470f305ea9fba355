import Calculator.Function
import Calculator.Grammar.Tree
import Calculator.Reader.Basic

/-!
# Denotations

What a derivation tree is worth: a number, or the first fault among its nodes,
operands before their operator and an argument before its function, with the
place of the operator, number or name that it belongs to. A tree is given the
offset at which its text starts; the places of its nodes follow from the lengths
of the texts before them.

The *depth* of a tree is the number of levels of the grammar that are nested in
it. Chains do not add to it, however long they are.
-/

namespace Calculator.Grammar

/-- A value, or its fault placed at an offset. -/
def locate {α : Type} (position : Nat) (r : Except Fault α) : Except Located α :=
  r.mapError (⟨·, position⟩)

/-- The value of a number: the nearest, unless that is infinite. -/
def Numeral.value (n : Numeral) : Except Fault Binary64 :=
  checkFinite ((Decimal.ofNumeral n.parts.1 n.parts.2).toBinary64 false)

variable (m : Elementary)

mutual

/-- The value of an expression whose text starts at an offset. -/
def Expression.denote (offset : Nat) : Expression → Except Located Binary64
  | .term t => t.denote offset
  | .join e before o t => do
    let position := offset + e.chars.length + before.1.length
    let x ← e.denote offset
    let y ← t.denote (position + 1)
    locate position (o.1.apply x y)

/-- The value of a term whose text starts at an offset. -/
def Term.denote (offset : Nat) : Term → Except Located Binary64
  | .factor f => f.denote offset
  | .join t before o f => do
    let position := offset + t.chars.length + before.1.length
    let x ← t.denote offset
    let y ← f.denote (position + 1)
    locate position (o.1.apply x y)

/-- The value of a factor whose text starts at an offset. -/
def Factor.denote (offset : Nat) : Factor → Except Located Binary64
  | .neg before f => return -(← f.denote (offset + before.1.length + 1))
  | .primary before p => p.denote (offset + before.1.length)
  | .power before base between sign exponent => do
    let position := offset + before.1.length + base.chars.length + between.1.length
    let x ← base.denote (offset + before.1.length)
    let y ← exponent.denote (position + sign.chars.length)
    locate position (power m x y)

/-- The value of a primary whose text starts at an offset. -/
def Primary.denote (offset : Nat) : Primary → Except Located Binary64
  | .number n => locate offset n.value
  | .group e _ => e.denote (offset + 1)
  | .call name between argument _ => do
    let x ← argument.denote (offset + name.chars.length + between.1.length + 1)
    locate offset (applyNamed m (String.ofList name.chars) x)

end

/-- The value of a sentence. -/
def Sentence.denote (s : Sentence) : Except Located Binary64 := s.expression.denote m 0

mutual

/-- The number of nested levels of an expression. -/
def Expression.depth : Expression → Nat
  | .term t => t.depth + 1
  | .join e _ _ t => max e.depth (t.depth + 1)

/-- The number of nested levels of a term. -/
def Term.depth : Term → Nat
  | .factor f => f.depth + 1
  | .join t _ _ f => max t.depth (f.depth + 1)

/-- The number of nested levels of a factor. -/
def Factor.depth : Factor → Nat
  | .neg _ f => f.depth + 1
  | .primary _ p => p.depth + 1
  | .power _ base _ _ exponent => max base.depth exponent.depth + 1

/-- The number of nested levels of a primary; a call is a level of its own. -/
def Primary.depth : Primary → Nat
  | .number _ => 1
  | .group e _ => e.depth + 1
  | .call _ _ argument _ => argument.depth + 2

end

/-- The number of nested levels of a sentence. -/
def Sentence.depth (s : Sentence) : Nat := s.expression.depth

end Calculator.Grammar
