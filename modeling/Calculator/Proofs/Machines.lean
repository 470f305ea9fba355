import Calculator.Operator

/-!
# Machines

Nothing is assumed about a machine's functions, unless a statement says that the
machine is *regular*: where a function is defined, it has a finite value for a finite
argument, but the exponential may be too large. Of the power nothing is assumed even
then, as its results are looked at.
-/

namespace Calculator.Elementary

/-- On finite arguments in its domain, no function of the machine leaves the numbers,
    and only the exponential is ever infinite. -/
structure Regular (m : Elementary) : Prop where
  sin : ∀ x, x.isFinite → (m.sin x).isFinite
  cos : ∀ x, x.isFinite → (m.cos x).isFinite
  tan : ∀ x, x.isFinite → (m.tan x).isFinite
  sqrt : ∀ x, x.isFinite → x.isNonnegative → (m.sqrt x).isFinite
  ln : ∀ x, x.isFinite → x.isPositive → (m.ln x).isFinite
  log10 : ∀ x, x.isFinite → x.isPositive → (m.log10 x).isFinite
  exp : ∀ x, x.isFinite → (m.exp x).isNaN = false

/-- A machine that knows of each function only a value that is plain: at zero, or, for
    the logarithms, at one. -/
def plain : Elementary where
  sin _ := .zero false
  cos _ := .one
  tan _ := .zero false
  sqrt x := x
  exp _ := .one
  ln _ := .zero false
  log10 _ := .zero false
  pow _ _ := .one

theorem plain_regular : plain.Regular where
  sin _ _ := rfl
  cos _ _ := rfl
  tan _ _ := rfl
  sqrt _ h _ := h
  ln _ _ _ := rfl
  log10 _ _ _ := rfl
  exp _ _ := rfl

end Calculator.Elementary
