import Calculator.Binary64.Basic

/-!
# The nearest number

An exact result is a quotient of naturals, in units of the least magnitude. It
is rounded once, to the nearest of the magnitudes, and to the one of even rank
if two are equally near. Rounding goes by ranks: within the binade of the
quotient the magnitudes are the multiples of a power of two, so it is a division
of naturals rounded to the nearest natural (`roundDiv`), and a quotient that is
rounded up past the last magnitude of its binade lands on the first rank of the
next by itself. Past the last rank of all there is the infinity.
-/

namespace Calculator

attribute [local instance (2000)] instPowNat

/-- The natural nearest to `n / d`, and the even one of two equally near. -/
def roundDiv (n d : Nat) : Nat :=
  let q := n / d
  let twice := 2 * (n % d)
  if d < twice || (twice == d && q % 2 == 1) then q + 1 else q

/-- The rank of the magnitude nearest to `n / d` units, if there were no last
    rank. -/
def nearestRank (n d : Nat) : Nat :=
  let s := (n / d).log2 - 52
  roundDiv n (d * 2 ^ s) + s * binade

namespace Binary64

/-- The number of a sign whose magnitude is nearest to `n / d` units. -/
def nearest (negative : Bool) (n d : Nat) : Binary64 :=
  if h : nearestRank n d < rankCount then finite negative ⟨nearestRank n d, h⟩
  else infinite negative

/-- The number nearest to `± coefficient * 10 ^ exponent`. -/
def ofDecimal (negative : Bool) (coefficient : Nat) (exponent : Int) : Binary64 :=
  match exponent with
  | .ofNat e => nearest negative (coefficient * 10 ^ e * unitsPerOne) 1
  | .negSucc e => nearest negative (coefficient * unitsPerOne) (10 ^ (e + 1))

end Binary64

/-- A rounded quotient is the quotient or the next natural. -/
theorem roundDiv_eq_or (n d : Nat) : roundDiv n d = n / d ∨ roundDiv n d = n / d + 1 := by
  unfold roundDiv
  dsimp only
  split
  · exact .inr rfl
  · exact .inl rfl

/-- A quotient without remainder is not changed by rounding. -/
theorem roundDiv_mul (q : Nat) {d : Nat} (hd : 0 < d) : roundDiv (q * d) d = q := by
  unfold roundDiv
  simp [Nat.mul_div_cancel _ hd]
  omega

/-- A rounded quotient is at most half a divisor away. -/
theorem two_mul_roundDiv_mul (n : Nat) {d : Nat} (hd : 0 < d) :
    2 * n ≤ 2 * (roundDiv n d * d) + d ∧ 2 * (roundDiv n d * d) ≤ 2 * n + d := by
  have hn := Nat.div_add_mod n d
  have hr := Nat.mod_lt n hd
  rw [Nat.mul_comm] at hn
  unfold roundDiv
  dsimp only
  split
  · rename_i h
    simp only [Bool.or_eq_true, decide_eq_true_eq, Bool.and_eq_true, beq_iff_eq] at h
    rw [Nat.add_mul]
    omega
  · rename_i h
    simp only [Bool.or_eq_true, decide_eq_true_eq, Bool.and_eq_true, beq_iff_eq] at h
    omega

end Calculator
