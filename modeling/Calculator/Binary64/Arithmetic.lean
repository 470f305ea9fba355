import Calculator.Binary64.Nearest

/-!
# Arithmetic

The four operations and the remainder. Each takes the exact result on finite
operands and rounds it once. The signs of zero, and the results on infinities
and NaN, are those of the binary64 standard:

* a sum that is exactly zero is the positive zero, unless both operands are the
  negative zero;
* products, quotients have the sign that the signs of the operands make;
* a remainder has the sign of the dividend, and no rounding is needed: it is a
  remainder of naturals in units of the least magnitude.
-/

namespace Calculator.Binary64

/-- A count of units with a sign. -/
def signedUnits (negative : Bool) (rank : Rank) : Int :=
  if negative then -(units rank : Int) else units rank

/-- The number nearest to a sum of units; `zeroSign` is the sign of a zero
    sum. -/
def ofSum (zeroSign : Bool) (sum : Int) : Binary64 :=
  if sum = 0 then zero zeroSign else nearest (sum < 0) sum.natAbs 1

def add : Binary64 → Binary64 → Binary64
  | nan, _ => nan
  | _, nan => nan
  | infinite s, infinite t => if s = t then infinite s else nan
  | infinite s, finite .. => infinite s
  | finite .., infinite t => infinite t
  | finite s a, finite t b => ofSum (s && t) (signedUnits s a + signedUnits t b)

def sub (x y : Binary64) : Binary64 := add x (neg y)

def mul : Binary64 → Binary64 → Binary64
  | nan, _ => nan
  | _, nan => nan
  | infinite s, infinite t => infinite (s ^^ t)
  | infinite s, finite t b => if b.val = 0 then nan else infinite (s ^^ t)
  | finite s a, infinite t => if a.val = 0 then nan else infinite (s ^^ t)
  | finite s a, finite t b => nearest (s ^^ t) (units a * units b) unitsPerOne

def div : Binary64 → Binary64 → Binary64
  | nan, _ => nan
  | _, nan => nan
  | infinite _, infinite _ => nan
  | infinite s, finite t _ => infinite (s ^^ t)
  | finite s _, infinite t => zero (s ^^ t)
  | finite s a, finite t b =>
    if b.val = 0 then
      if a.val = 0 then nan else infinite (s ^^ t)
    else nearest (s ^^ t) (units a * unitsPerOne) (units b)

/-- The remainder of the division that truncates toward zero. -/
def fmod : Binary64 → Binary64 → Binary64
  | nan, _ => nan
  | _, nan => nan
  | infinite _, _ => nan
  | x@(finite ..), infinite _ => x
  | finite s a, finite _ b =>
    if b.val = 0 then nan else nearest s (units a % units b) 1

instance : Add Binary64 := ⟨add⟩
instance : Sub Binary64 := ⟨sub⟩
instance : Mul Binary64 := ⟨mul⟩
instance : Div Binary64 := ⟨div⟩
instance : Mod Binary64 := ⟨fmod⟩

/-- A rounded magnitude is never a NaN. -/
theorem isNaN_nearest (s : Bool) (n d : Nat) : (nearest s n d).isNaN = false := by
  unfold nearest
  split <;> rfl

/-- Finite operands have no NaN for a sum. -/
theorem isNaN_add {x y : Binary64} (hx : x.isFinite) (hy : y.isFinite) :
    (x + y).isNaN = false := by
  cases x <;> cases y <;> simp_all [isFinite]
  show (ofSum _ _).isNaN = false
  unfold ofSum
  split
  · rfl
  · exact isNaN_nearest ..

/-- Finite operands have no NaN for a product. -/
theorem isNaN_mul {x y : Binary64} (hx : x.isFinite) (hy : y.isFinite) :
    (x * y).isNaN = false := by
  cases x <;> cases y <;> simp_all [isFinite]
  exact isNaN_nearest ..

end Calculator.Binary64
