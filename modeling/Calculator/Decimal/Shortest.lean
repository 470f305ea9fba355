import Calculator.Decimal.Basic

/-!
# Shortest decimals

Among the decimals that are read back as a given number there are some of the
fewest digits, and among these one nearest to the number. It is found grid by
grid: for one digit, two digits, and so on up to seventeen, which always
suffice, the candidates are the neighbours of the exact value with that many
digits, the nearer one first. If any decimal on a grid is read back, one of the
two neighbours is, since they are the nearest on either side.
-/

namespace Calculator

/-- The decimal is read as the positive number of this rank. -/
def Decimal.readsAs (d : Decimal) (rank : Rank) : Bool :=
  d.toBinary64 false == .finite false rank

/-- A neighbour of the exact value without its last `k` places that is read back,
    if there is one. -/
def readNeighbour? (rank : Rank) (k : Nat) : Option Decimal :=
  let x := Decimal.exact rank
  [x.nearestAt k, x.floorAt k, x.aboveAt k].find? (·.readsAs rank)

/-- The largest number of digits that is needed. -/
def sufficientDigits : Nat := 17

/-- The shortest decimal that is read back as the magnitude of a rank, and of
    these the nearest. -/
def shortest (rank : Rank) : Decimal :=
  let x := Decimal.exact rank
  let count := digitCount x.coefficient
  ((List.range' 1 sufficientDigits).findSome? fun n => readNeighbour? rank (count - n)).getD x

/-- What is found is read back. -/
theorem readsAs_of_readNeighbour? {rank : Rank} {k : Nat} {d : Decimal}
    (h : readNeighbour? rank k = some d) : d.readsAs rank = true := by
  have := List.find?_some h
  exact this

/-- What is found is one of the two neighbours of the exact value. -/
theorem eq_or_of_readNeighbour? {rank : Rank} {k : Nat} {d : Decimal}
    (h : readNeighbour? rank k = some d) :
    d = (Decimal.exact rank).floorAt k ∨ d = (Decimal.exact rank).aboveAt k := by
  have hm := List.mem_of_find?_eq_some h
  simp only [List.mem_cons, List.not_mem_nil, or_false] at hm
  rcases hm with rfl | rfl | rfl
  · exact Decimal.nearestAt_eq_or ..
  · exact .inl rfl
  · exact .inr rfl

end Calculator
