/-!
# Binary64 numbers

The numbers of the calculator are those of the binary64 format: a NaN, two
infinities, and the finite numbers, each with a sign (so there are two zeros).

The finite magnitudes are counted off from zero upwards, and a magnitude is
given by its *rank* in this order. The format is made so that the rank is what
its bits spell: below rank `2 ^ 52` the magnitudes go up in steps of the least
one, `2 ^ (-1074)`, and from there every further `2 ^ 52` ranks are one binade,
in which the steps are twice those of the binade before.

All finite magnitudes are whole multiples of the least one, `units` of it. In
units, sums and remainders of numbers are sums and remainders of naturals, and
a number is the rational `units / 2 ^ 1074` (`Binary64.value`).
-/

namespace Calculator

-- Powers of naturals are the core library's, in the sight of any other library too.
attribute [local instance (2000)] instPowNat

/-- The number of ranks in a binade. -/
abbrev binade : Nat := 2 ^ (52 : Nat)

/-- The number of finite magnitudes, zero included. -/
abbrev rankCount : Nat := 2047 * binade

/-- The place of a finite magnitude, counted from zero. -/
abbrev Rank := Fin rankCount

/-- The number of least magnitudes in one. -/
def unitsPerOne : Nat := 2 ^ (1074 : Nat)

/-- How often the steps are doubled at a rank, compared with the steps from
    zero. -/
def doublings (rank : Nat) : Nat := rank / binade - 1

/-- The number of steps, of the size they have at a rank, from zero to it. -/
def significand (rank : Nat) : Nat :=
  if rank < binade then rank else binade + rank % binade

/-- A magnitude in units of the least one, from its rank. -/
def units (rank : Nat) : Nat := significand rank * 2 ^ doublings rank

/-- A number of the binary64 format. -/
inductive Binary64
  /-- The result that is no number. -/
  | nan
  /-- The infinity of a sign. -/
  | infinite (negative : Bool)
  /-- A finite number: its sign and the rank of its magnitude. -/
  | finite (negative : Bool) (rank : Rank)
  deriving DecidableEq, Repr

namespace Binary64

instance : Inhabited Binary64 := ⟨nan⟩

/-- The zero of a sign. -/
def zero (negative : Bool) : Binary64 := finite negative ⟨0, by decide⟩

def isNaN : Binary64 → Bool
  | nan => true
  | _ => false

def isInfinite : Binary64 → Bool
  | infinite _ => true
  | _ => false

def isFinite : Binary64 → Bool
  | finite .. => true
  | _ => false

/-- Either of the two zeros. -/
def isZero : Binary64 → Bool
  | finite _ k => k.val == 0
  | _ => false

/-- Numbers above zero. -/
def isPositive : Binary64 → Bool
  | nan => false
  | infinite s => !s
  | finite s k => !s && k.val != 0

/-- Numbers not below zero; the negative zero is one. -/
def isNonnegative (x : Binary64) : Bool := x.isPositive || x.isZero

/-- Numbers below zero. -/
def isNegative : Binary64 → Bool
  | nan => false
  | infinite s => s
  | finite s k => s && k.val != 0

/-- The exact value of a finite number, and `0` for the others. -/
def value : Binary64 → Rat
  | finite s k => (if s then -1 else 1) * (units k : Rat) / (unitsPerOne : Rat)
  | _ => 0

/-- The number with the opposite sign. -/
def neg : Binary64 → Binary64
  | nan => nan
  | infinite s => infinite (!s)
  | finite s k => finite (!s) k

/-- The number without its sign. -/
def abs : Binary64 → Binary64
  | nan => nan
  | infinite _ => infinite false
  | finite _ k => finite false k

instance : Neg Binary64 := ⟨neg⟩

/-- A finite number without fractional part. -/
def isInteger : Binary64 → Bool
  | finite _ k => units k % unitsPerOne == 0
  | _ => false

/-- A finite number that is an odd integer. -/
def isOddInteger : Binary64 → Bool
  | finite _ k => units k % unitsPerOne == 0 && units k / unitsPerOne % 2 == 1
  | _ => false

theorem neg_neg (x : Binary64) : x.neg.neg = x := by
  cases x <;> simp [neg]

theorem isFinite_neg (x : Binary64) : x.neg.isFinite = x.isFinite := by
  cases x <;> rfl

theorem isFinite_eq (x : Binary64) : x.isFinite = (!x.isNaN && !x.isInfinite) := by
  cases x <;> rfl

end Binary64

/-- Up to the end of the first binade of normal magnitudes, ranks are units. -/
theorem units_of_lt {rank : Nat} (h : rank < 2 * binade) : units rank = rank := by
  unfold units significand doublings
  unfold binade at h ⊢
  have hd : rank / 2 ^ 52 - 1 = 0 := by omega
  rw [hd, Nat.pow_zero, Nat.mul_one]
  split <;> omega

/-- In the `s`-th binade above the first, a rank counts `2 ^ s` units for each
    step. -/
theorem units_add_mul (m s : Nat) (h₁ : binade ≤ m) (h₂ : m < 2 * binade) :
    units (m + s * binade) = m * 2 ^ s := by
  unfold units significand doublings
  unfold binade at h₁ h₂ ⊢
  have hd : (m + s * 2 ^ 52) / 2 ^ 52 - 1 = s := by omega
  have hm : 2 ^ 52 + (m + s * 2 ^ 52) % 2 ^ 52 = m := by omega
  rw [if_neg (by omega), hd, hm]

end Calculator
