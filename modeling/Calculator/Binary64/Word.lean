import Calculator.Binary64.Basic

/-!
# Words

The sixty-four bits of a number: the highest is the sign, and the others spell
the rank of the magnitude, which past the last rank stands for the infinity and
then for the NaNs. By its word a number is handed to the machine, for the
functions that the machine computes, and taken back from it.
-/

namespace Calculator.Binary64

attribute [local instance (2000)] instPowNat

/-- The number of a word. -/
def ofWord (w : UInt64) : Binary64 :=
  let negative := 2 ^ (63 : Nat) ≤ w.toNat
  let rank := w.toNat % 2 ^ (63 : Nat)
  if h : rank < rankCount then finite negative ⟨rank, h⟩
  else if rank = rankCount then infinite negative
  else nan

/-- The word of a number. -/
def toWord : Binary64 → UInt64
  | nan => 0x7FF8000000000000
  | infinite s => UInt64.ofNat (rankCount + if s then 2 ^ (63 : Nat) else 0)
  | finite s k => UInt64.ofNat (k + if s then 2 ^ (63 : Nat) else 0)

/-- The number that the machine holds. -/
def ofFloat (x : Float) : Binary64 := ofWord x.toBits

/-- The number, as the machine holds it. -/
def toFloat (x : Binary64) : Float := Float.ofBits x.toWord

/-- The word of a number spells that number. -/
theorem ofWord_toWord (x : Binary64) : ofWord x.toWord = x := by
  cases x with
  | nan => decide +kernel
  | infinite s => cases s <;> decide +kernel
  | finite s k =>
    have hk := k.isLt
    unfold rankCount binade at hk
    have hw : ((finite s k).toWord).toNat = k + if s then 2 ^ 63 else 0 := by
      simp only [toWord]
      rw [UInt64.toNat_ofNat_of_lt']
      show _ < 2 ^ 64
      split <;> omega
    have hr : ((finite s k).toWord).toNat % 2 ^ 63 = k := by rw [hw]; split <;> omega
    have hs : decide (2 ^ 63 ≤ ((finite s k).toWord).toNat) = s := by
      rw [hw]
      cases s
      · simp
        omega
      · simp
    simp only [ofWord, hr, hs, dif_pos k.isLt]

end Calculator.Binary64
