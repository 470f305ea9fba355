import Calculator.Proofs.Figures
import Calculator.Proofs.NearestNumber

/-!
# Number literals

A number is read from the longest run of digits with at most one point among them
(`LongestRun`). What it is worth as a rational (`runValue`) is rounded once, however many digits
it has: the value is the nearest number, or there is none if the rational is too large
(`Reader.number_nearest`). So it matters neither where a run stands nor how it is written.
-/

namespace Calculator

/-- Digits with at most one point among them, and the digits before and after it. -/
structure IsRun (run whole fraction : List Char) : Prop where
  isDigit : ∀ c ∈ whole ++ fraction, c.isDigit = true
  eq_or : run = whole ∧ fraction = [] ∨ run = whole ++ '.' :: fraction

/-- No longer run stands at the start of a text. -/
structure LongestRun (text run : List Char) : Prop where
  isPrefix : run <+: text
  isRun : ∃ whole fraction, IsRun run whole fraction
  longest : ∀ other whole fraction, IsRun other whole fraction → other <+: text →
    other.length ≤ run.length

/-- The rational that a run spells: its digits, over a power of ten for those after the
    point. -/
def runValue (run : List Char) : ℚ :=
  Nat.ofDigitChars 10 (run.filter Char.isDigit) 0 /
    10 ^ ((run.dropWhile Char.isDigit).drop 1).length

theorem LongestRun.eq {text run run' : List Char} (h : LongestRun text run)
    (h' : LongestRun text run') : run = run' := by
  obtain ⟨w, f, hrun⟩ := h.isRun
  obtain ⟨w', f', hrun'⟩ := h'.isRun
  have hlength := Nat.le_antisymm (h'.longest run w f hrun h.isPrefix)
    (h.longest run' w' f' hrun' h'.isPrefix)
  rw [List.prefix_iff_eq_take.1 h.isPrefix, List.prefix_iff_eq_take.1 h'.isPrefix, hlength]

namespace IsRun

variable {run whole fraction : List Char} (h : IsRun run whole fraction)
include h

/-- A run is worth the numeral of its digits. -/
theorem runValue_eq : runValue run = (Decimal.ofNumeral whole fraction).value := by
  have hdigits := h.isDigit
  have hwhole : ∀ c ∈ whole, c.isDigit = true := fun c hc => hdigits c (List.mem_append_left _ hc)
  rw [runValue, Decimal.value_ofNumeral, zpow_neg, zpow_natCast, ← div_eq_mul_inv]
  rcases h.eq_or with ⟨rfl, rfl⟩ | rfl
  · have hnothing : run.dropWhile Char.isDigit = [] := by
      have hdrop := Text.dropWhile_append_of_head? (r := []) hwhole nofun
      rwa [List.append_nil] at hdrop
    rw [hnothing, List.append_nil, List.filter_eq_self.2 hwhole]
    rfl
  · have hpoint : (whole ++ '.' :: fraction).dropWhile Char.isDigit = '.' :: fraction :=
      Text.dropWhile_append_of_head? hwhole fun a ha => by
        rw [← Option.some.inj ha]
        rfl
    have hfilter : (whole ++ '.' :: fraction).filter Char.isDigit = whole ++ fraction := by
      have hfraction : ∀ c ∈ fraction, c.isDigit = true := fun c hc =>
        hdigits c (List.mem_append_right _ hc)
      rw [List.filter_append, List.filter_eq_self.2 hwhole, List.filter_cons_of_neg (by decide),
        List.filter_eq_self.2 hfraction]
    rw [hpoint, hfilter]
    rfl

/-- Without digits, a run is empty or a point. -/
theorem eq_nil_or_iff : (whole = [] ∧ fraction = []) ↔ run = [] ∨ run = ['.'] := by
  have hdot : '.' ∉ whole := fun hmem =>
    absurd (h.isDigit _ (List.mem_append_left _ hmem)) (by decide)
  rcases h.eq_or with ⟨rfl, rfl⟩ | rfl
  · have hne : run ≠ ['.'] := by
      rintro rfl
      exact hdot (List.mem_singleton_self _)
    simp [hne]
  · cases whole with
    | nil => simp
    | cons c whole => simp

end IsRun

/-- What holds of all characters of a start of a text does not reach further than the longest
    such start. -/
theorem length_le_takeWhile {p : Char → Bool} {w text : List Char} (hw : ∀ c ∈ w, p c = true)
    (h : w <+: text) : w.length ≤ (text.takeWhile p).length := by
  obtain ⟨t, rfl⟩ := h
  rw [List.takeWhile_append_of_pos hw, List.length_append]
  exact Nat.le_add_right _ _

theorem isDigit_of_mem_takeWhile {text : List Char} :
    ∀ c ∈ text.takeWhile Char.isDigit, c.isDigit = true := fun c hc =>
  List.all_eq_true.1 List.all_takeWhile c hc

/-- Before a point, all digits of a text are digits of the run. -/
theorem takeWhile_of_pointed {w t : List Char} (hw : ∀ c ∈ w, c.isDigit = true) :
    (w ++ '.' :: t).takeWhile Char.isDigit = w ∧
      (w ++ '.' :: t).dropWhile Char.isDigit = '.' :: t :=
  have hpoint : ∀ a, ('.' :: t).head? = some a → a.isDigit = false := fun a ha => by
    rw [← Option.some.inj ha]
    rfl
  ⟨Text.takeWhile_append_of_head? hw hpoint, Text.dropWhile_append_of_head? hw hpoint⟩

/-- Without a point after the first digits of a text, these are its longest run. -/
theorem longestRun_of_unpointed {text : List Char}
    (h : (text.dropWhile Char.isDigit).head? ≠ some '.') :
    LongestRun text (text.takeWhile Char.isDigit) := by
  refine ⟨List.takeWhile_prefix _, ⟨_, [], ?_, .inl ⟨rfl, rfl⟩⟩, fun other w f hother hprefix => ?_⟩
  · rw [List.append_nil]
    exact isDigit_of_mem_takeWhile
  · have hw : ∀ c ∈ w, c.isDigit = true := fun c hc =>
      hother.isDigit c (List.mem_append_left _ hc)
    rcases hother.eq_or with ⟨rfl, _⟩ | rfl
    · exact length_le_takeWhile hw hprefix
    · obtain ⟨t, rfl⟩ := hprefix
      rw [List.append_assoc, List.cons_append, (takeWhile_of_pointed hw).2] at h
      exact absurd rfl h

/-- With a point after the first digits of a text, the run goes on with the digits after it. -/
theorem longestRun_of_pointed {text rest : List Char}
    (h : text.dropWhile Char.isDigit = '.' :: rest) :
    LongestRun text (text.takeWhile Char.isDigit ++ '.' :: rest.takeWhile Char.isDigit) := by
  have htext : text.takeWhile Char.isDigit ++ '.' :: rest = text := by
    rw [← h, List.takeWhile_append_dropWhile]
  refine ⟨?_, ⟨_, _, ?_, .inr rfl⟩, fun other w f hother hprefix => ?_⟩
  · conv_rhs => rw [← htext, ← List.takeWhile_append_dropWhile (p := Char.isDigit) (l := rest)]
    rw [← List.cons_append, ← List.append_assoc]
    exact List.prefix_append _ _
  · exact List.forall_mem_append.2 ⟨isDigit_of_mem_takeWhile, isDigit_of_mem_takeWhile⟩
  · have hw : ∀ c ∈ w, c.isDigit = true := fun c hc =>
      hother.isDigit c (List.mem_append_left _ hc)
    rw [List.length_append, List.length_cons]
    rcases hother.eq_or with ⟨rfl, _⟩ | rfl
    · have hle := length_le_takeWhile hw hprefix
      omega
    · obtain ⟨t, rfl⟩ := hprefix
      rw [List.append_assoc, List.cons_append] at h ⊢
      obtain ⟨htake, hdrop⟩ := takeWhile_of_pointed (t := f ++ t) hw
      obtain rfl := (List.cons.inj (hdrop.symm.trans h)).2
      have hle := length_le_takeWhile (fun c hc => hother.isDigit c (List.mem_append_right _ hc))
        (List.prefix_append f t)
      rw [htake, List.length_append, List.length_cons]
      omega

namespace Reader

/-- A number is read from the longest run at the cursor. -/
theorem run_number_of_longestRun (c : Cursor) :
    ∃ run whole fraction, LongestRun c.rest run ∧ IsRun run whole fraction ∧
      number.run c = (literal c.offset whole fraction).run (c.forward run.length) := by
  have hnext := c.rest_forward_takeWhile Char.isDigit
  rw [run_number]
  dsimp only
  split
  · rename_i hpoint
    rw [hnext] at hpoint
    obtain ⟨rest, hrest⟩ := List.head?_eq_some_iff.1 hpoint
    have hafter : ((c.forward (c.rest.takeWhile Char.isDigit).length).forward 1).rest = rest := by
      show List.drop 1 _ = rest
      rw [hnext, hrest]
      rfl
    refine ⟨_, _, _, longestRun_of_pointed hrest, ⟨List.forall_mem_append.2
      ⟨isDigit_of_mem_takeWhile, isDigit_of_mem_takeWhile⟩, .inr rfl⟩, ?_⟩
    rw [hafter, Cursor.forward_forward, Cursor.forward_forward, List.length_append,
      List.length_cons, Nat.add_comm 1]
  · rename_i hpoint
    rw [hnext] at hpoint
    refine ⟨_, _, [], longestRun_of_unpointed hpoint, ⟨?_, .inl ⟨rfl, rfl⟩⟩, rfl⟩
    rw [List.append_nil]
    exact isDigit_of_mem_takeWhile

open Binary64

variable {c : Cursor} {run : List Char} (h : LongestRun c.rest run)
include h

/-- What is read is a decimal with the value of the run, if there is a digit. -/
theorem exists_run_number :
    ∃ d : Decimal, d.value = runValue run ∧ number.run c =
      if run = [] ∨ run = ['.'] then .error ⟨.malformedNumber, c.offset⟩ (c.forward run.length)
      else (valueAt c.offset (checkFinite (d.toBinary64 false))).run (c.forward run.length) := by
  obtain ⟨run', whole, fraction, hlongest, hparts, hrun⟩ := run_number_of_longestRun c
  obtain rfl := h.eq hlongest
  refine ⟨_, hparts.runValue_eq.symm, ?_⟩
  rw [hrun, literal]
  by_cases hnone : run = [] ∨ run = ['.']
  · obtain ⟨rfl, rfl⟩ := hparts.eq_nil_or_iff.2 hnone
    rw [if_pos hnone]
    rfl
  · have hsome : ¬(whole.isEmpty && fraction.isEmpty) = true := fun hempty =>
      hnone (hparts.eq_nil_or_iff.1 (by simpa using hempty))
    rw [if_neg hnone, if_neg hsome]

theorem run_number_of_nil (hnone : run = [] ∨ run = ['.']) :
    number.run c = .error ⟨.malformedNumber, c.offset⟩ (c.forward run.length) := by
  obtain ⟨d, _, hrun⟩ := exists_run_number h
  rw [hrun, if_pos hnone]

variable (hsome : ¬(run = [] ∨ run = ['.']))
include hsome

theorem run_number_of_overflow (hlarge : overflowFrom ≤ runValue run) :
    number.run c = .error ⟨.overflow, c.offset⟩ (c.forward run.length) := by
  obtain ⟨d, hd, hrun⟩ := exists_run_number h
  rw [hrun, if_neg hsome, Decimal.toBinary64_eq_infinite (hd ▸ hlarge)]
  rfl

/-- A run that is not too large has the value of any decimal that is worth it. -/
theorem exists_run_number_of_lt (hlt : runValue run < overflowFrom) :
    ∃ d : Decimal, ∃ k, d.value = runValue run ∧ d.toBinary64 false = .finite false k ∧
      (finite false k).IsNearest d.value ∧
      number.run c = .ok (.finite false k) (c.forward run.length) := by
  obtain ⟨d, hd, hrun⟩ := exists_run_number h
  obtain ⟨k, hk, hnearest⟩ := d.isNearest_toBinary64 (hd ▸ hlt)
  refine ⟨d, k, hd, hk, hnearest, ?_⟩
  rw [hrun, if_neg hsome, hk]
  rfl

omit hsome in
/-- Only a run that is not too large has a value. -/
theorem exists_of_run_number {x : Binary64} {c' : Cursor} (hx : number.run c = .ok x c') :
    ∃ d : Decimal, ∃ k, d.value = runValue run ∧ d.toBinary64 false = .finite false k ∧
      x = .finite false k := by
  by_cases hnone : run = [] ∨ run = ['.']
  · rw [run_number_of_nil h hnone] at hx
    exact absurd hx nofun
  · rcases le_or_gt overflowFrom (runValue run) with hlarge | hlt
    · rw [run_number_of_overflow h hnone hlarge] at hx
      exact absurd hx nofun
    · obtain ⟨d, k, hd, hk, _, hrun⟩ := exists_run_number_of_lt h hnone hlt
      rw [hrun] at hx
      cases hx
      exact ⟨d, k, hd, hk, rfl⟩

omit h hsome in
/-- At any cursor a number is read from the longest run there. Without a digit there is none;
    from halfway past the last magnitude on it is too large; and otherwise it is the number
    nearest to the rational that the run spells, or of two the even one. So numbers keep the
    order of these rationals, and the same rational is read as the same number everywhere. -/
theorem number_nearest (c : Cursor) :
    ∃ run, LongestRun c.rest run ∧
      (if run = [] ∨ run = ['.'] then
          number.run c = .error ⟨.malformedNumber, c.offset⟩ (c.forward run.length)
        else if 2 ^ (1024 : ℕ) - 2 ^ (970 : ℕ) ≤ runValue run then
          number.run c = .error ⟨.overflow, c.offset⟩ (c.forward run.length)
        else ∃ k, number.run c = .ok (.finite false k) (c.forward run.length) ∧
          (Binary64.finite false k).IsNearest (runValue run)) ∧
      ∀ (c' : Cursor) (run' : List Char), LongestRun c'.rest run' → ∀ x x' e e',
        number.run c = .ok x e → number.run c' = .ok x' e' →
          (runValue run ≤ runValue run' → x.value ≤ x'.value) ∧
          (runValue run = runValue run' → x = x') := by
  obtain ⟨run, _, _, h, _, _⟩ := run_number_of_longestRun c
  refine ⟨run, h, ?_, fun c' run' h' x x' e e' hx hx' => ?_⟩
  · split
    · rename_i hnone
      exact run_number_of_nil h hnone
    · rename_i hsome
      split
      · rename_i hlarge
        exact run_number_of_overflow h hsome hlarge
      · rename_i hlt
        obtain ⟨d, k, hd, _, hnearest, hrun⟩ := exists_run_number_of_lt h hsome (not_le.1 hlt)
        exact ⟨k, hrun, hd ▸ hnearest⟩
  · obtain ⟨d, k, hd, hk, rfl⟩ := exists_of_run_number h hx
    obtain ⟨d', k', hd', hk', rfl⟩ := exists_of_run_number h' hx'
    rw [← hd, ← hd']
    refine ⟨fun hle => Decimal.value_toBinary64_mono hle hk hk', fun heq => ?_⟩
    rw [← hk, ← hk', Decimal.toBinary64_congr heq]

/-- `2 ^ 53 + 1` lies halfway between two numbers, and a digit far away decides. -/
example :
    valueOf? (number.run ⟨0, "9007199254740993".toList⟩) =
        some (.finite false ⟨1076 * binade, by decide⟩, ⟨16, []⟩) ∧
      valueOf? (number.run ⟨0, "9007199254740993.00000000000000000000000001e5".toList⟩) =
        some (.finite false ⟨1076 * binade + 1, by decide⟩, ⟨43, ['e', '5']⟩) := by
  decide +kernel

end Reader

end Calculator
