import Calculator.Proofs.Operations

/-!
# When a rank is the nearest

The rank of the nearest magnitude is found by a division that is rounded once, in the binade
of the quotient. So a rank is found if its significand is less than half a step away from the
quotient, in steps of this binade (`nearestRank_eq`).

A quotient that is as near to the magnitude of a rank as one part in `2 ^ 54` meets this
wherever the rank is in its binade (`nearestRank_of_close`). If it is the first one, the
quotient may be in the binade before, where steps are half as long; but then the rounding is
up, past the last rank of that binade.
-/

namespace Calculator

attribute [local instance (2000)] instPowNat

theorem unitsPerOne_pos : 0 < unitsPerOne := by
  rw [unitsPerOne]
  exact Nat.two_pow_pos 1074

/-- A natural less than half a divisor away is the rounded quotient. -/
theorem roundDiv_eq {n d q : Nat} (hlow : 2 * (q * d) < 2 * n + d)
    (hhigh : 2 * n < 2 * (q * d) + d) : roundDiv n d = q := by
  have hd : 0 < d := by omega
  -- Another natural would be a whole divisor away from `q`, and one of the two too far off.
  obtain ⟨hbelow, habove⟩ := two_mul_roundDiv_mul n hd
  rcases Nat.lt_trichotomy (roundDiv n d) q with hlt | heq | hgt
  · have hstep := Nat.mul_le_mul_right d (Nat.succ_le_of_lt hlt)
    rw [Nat.succ_mul] at hstep
    omega
  · exact heq
  · have hstep := Nat.mul_le_mul_right d (Nat.succ_le_of_lt hgt)
    rw [Nat.succ_mul] at hstep
    omega

/-- The binade of a quotient, counted from the first normal one, where the second is. -/
theorem log2_div_sub {n d s : Nat} (hd : 0 < d) (hlow : s = 0 ∨ 2 ^ (52 + s) * d ≤ n)
    (hhigh : n < 2 ^ (53 + s) * d) : (n / d).log2 - 52 = s := by
  have hquotient : n / d < 2 ^ (53 + s) := Nat.div_lt_of_lt_mul (by rwa [Nat.mul_comm])
  have hlt : (n / d).log2 < 53 + s := by
    by_cases hzero : n / d = 0
    · rw [hzero]
      exact Nat.lt_of_lt_of_le (by decide) (Nat.le_add_right 53 s)
    · exact (Nat.log2_lt hzero).2 hquotient
  rcases hlow with rfl | hlow
  · omega
  · have hle : 2 ^ (52 + s) ≤ n / d := (Nat.le_div_iff_mul_le hd).2 hlow
    have hne : n / d ≠ 0 := Nat.ne_of_gt (Nat.lt_of_lt_of_le (Nat.pow_pos Nat.two_pos) hle)
    have hlog := (Nat.le_log2 hne).2 hle
    omega

/-- Within the binade of a quotient, the rank is found whose significand is less than half a
    step away. -/
theorem nearestRank_eq {n d m s : Nat} (hd : 0 < d) (hlow : s = 0 ∨ 2 ^ (52 + s) * d ≤ n)
    (hhigh : n < 2 ^ (53 + s) * d) (hbelow : 2 * (m * (d * 2 ^ s)) < 2 * n + d * 2 ^ s)
    (habove : 2 * n < 2 * (m * (d * 2 ^ s)) + d * 2 ^ s) : nearestRank n d = m + s * binade := by
  rw [nearestRank, log2_div_sub hd hlow hhigh, roundDiv_eq hbelow habove]

theorem nearestRank_zero {d : Nat} (hd : 0 < d) : nearestRank 0 d = 0 := by
  have h := nearestRank_eq (n := 0) (m := 0) (s := 0) hd (.inl rfl) (Nat.mul_pos (by decide) hd)
    (by omega) (by omega)
  rwa [Nat.zero_mul] at h

/-- Quotients are not rounded past the end of their binade. -/
theorem nearestRank_le {n d s : Nat} (h : n < 2 ^ (53 + s) * d) :
    nearestRank n d ≤ (s + 2) * binade := by
  have hquotient : n / d < 2 ^ (53 + s) := Nat.div_lt_of_lt_mul (by rwa [Nat.mul_comm])
  rw [nearestRank]
  generalize ht : (n / d).log2 - 52 = t
  have hts : t ≤ s := by
    by_cases hzero : n / d = 0
    · rw [hzero] at ht
      have hlog : Nat.log2 0 = 0 := by decide
      omega
    · have hlog := (Nat.log2_lt hzero).2 hquotient
      omega
  have hsteps : n / (d * 2 ^ t) < 2 * binade := by
    rw [← Nat.div_div_eq_div_mul]
    refine Nat.div_lt_of_lt_mul (Nat.lt_of_lt_of_le Nat.lt_log2_self ?_)
    have hbinade : 2 * binade = 2 ^ 53 := by decide
    rw [Nat.mul_comm, hbinade, ← Nat.pow_add]
    exact Nat.pow_le_pow_right Nat.two_pos (by omega)
  have hround : roundDiv n (d * 2 ^ t) ≤ 2 * binade := by
    rcases roundDiv_eq_or n (d * 2 ^ t) with h | h <;> omega
  have hbinades := Nat.mul_le_mul_right binade hts
  rw [Nat.add_mul]
  omega

/-! ## Close quotients -/

/-- A rank is its significand in its binade, and the significand is that of a normal
    magnitude above the first two binades. -/
theorem rank_eq (rank : Nat) :
    rank = significand rank + doublings rank * binade ∧ significand rank < 2 * binade ∧
      (doublings rank = 0 ∨ binade ≤ significand rank) := by
  unfold significand doublings binade
  split <;> omega

/-- The rank is found of a magnitude that is close to the quotient: its distance is less than
    one part in `2 ^ 54`. -/
theorem nearestRank_of_close {n d rank : Nat}
    (hbelow : 2 ^ (54 : Nat) * (units rank * d) < 2 ^ (54 : Nat) * n + units rank * d)
    (habove : 2 ^ (54 : Nat) * n < 2 ^ (54 : Nat) * (units rank * d) + units rank * d) :
    nearestRank n d = rank := by
  obtain ⟨hrank, hlt, hnormal⟩ := rank_eq rank
  have hd : 0 < d := Nat.pos_of_ne_zero fun h => by
    rw [h, Nat.mul_zero] at hbelow habove
    omega
  rw [units] at hbelow habove
  generalize significand rank = m at *
  generalize doublings rank = s at *
  -- A step of the binade, times the divisor.
  have hunits : m * 2 ^ s * d = m * (d * 2 ^ s) := by rw [Nat.mul_assoc, Nat.mul_comm (2 ^ s)]
  have hpow (k : Nat) : 2 ^ (k + s) * d = 2 ^ k * (d * 2 ^ s) := by
    rw [Nat.pow_add, Nat.mul_assoc, Nat.mul_comm (2 ^ s)]
  rw [hunits] at hbelow habove
  have hstep : 0 < d * 2 ^ s := Nat.mul_pos hd (Nat.pow_pos Nat.two_pos)
  have hle := Nat.mul_le_mul_right (d * 2 ^ s) (Nat.le_sub_one_of_lt hlt)
  unfold binade at hle hnormal
  by_cases hlow : s = 0 ∨ 2 ^ 52 * (d * 2 ^ s) ≤ n
  · rw [hrank]
    refine nearestRank_eq hd (by rwa [hpow]) ?_ ?_ ?_
    · rw [hpow]
      omega
    · omega
    · omega
  · -- The quotient is in the binade before that of the rank, which is the first of its binade.
    obtain ⟨hs, hn⟩ := not_or.1 hlow
    obtain ⟨t, rfl⟩ := Nat.exists_eq_add_one_of_ne_zero hs
    have hge := Nat.mul_le_mul_right (d * 2 ^ (t + 1)) (hnormal.resolve_left hs)
    have hfirst : m = 2 ^ 52 := by
      refine Nat.le_antisymm (Nat.le_of_not_lt fun hm => ?_) (hnormal.resolve_left hs)
      have hnext := Nat.mul_le_mul_right (d * 2 ^ (t + 1)) (Nat.succ_le_of_lt hm)
      omega
    subst hfirst
    have hhalf : d * 2 ^ (t + 1) = 2 * (d * 2 ^ t) := by
      rw [Nat.pow_succ, ← Nat.mul_assoc, Nat.mul_comm]
    have hpow' (k : Nat) : 2 ^ (k + t) * d = 2 ^ k * (d * 2 ^ t) := by
      rw [Nat.pow_add, Nat.mul_assoc, Nat.mul_comm (2 ^ t)]
    rw [hhalf] at hbelow habove hn hstep
    have hcarry : rank = 2 ^ 53 + t * binade := by
      rw [hrank, Nat.succ_mul]
      unfold binade
      omega
    rw [hcarry]
    refine nearestRank_eq hd (.inr ?_) ?_ ?_ ?_
    · rw [hpow']
      omega
    · rw [hpow']
      omega
    · omega
    · omega

end Calculator
