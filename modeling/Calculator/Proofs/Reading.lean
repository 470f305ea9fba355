import Calculator.Decimal.Reading
import Calculator.Proofs.Neighbours
import Calculator.Proofs.WrittenNumbers

/-!
# What is written can be read

A text that is written for a number is read piece by piece: the sign, the digits before the point
and after it, and the power of ten (`Decimal.read?_append`). So what is read is the number nearest
to the decimal that was written (`Binary64.read?_write`).

If the decimal was the shortest one, this is the number itself (`Binary64.read?_text`), and
different numbers have different texts. A result is printed as a decimal of few digits, which can
be read, too (`Binary64.read?_format`); with seventeen digits or more, as the result
(`Binary64.read?_format_of_le`).
-/

namespace Calculator

attribute [local instance (2000)] instPowNat

namespace Text

theorem toLower_of_isDigit {c : Char} (h : c.isDigit = true) : c.toLower = c := by
  have hcodes := toNat_of_isDigit h
  refine dif_neg fun hupper => ?_
  have hletter : 65 ≤ c.toNat := UInt32.le_iff_toNat_le.1 hupper.1
  omega

/-- A digit is no sign. -/
theorem splitSign_of_isDigit {c : Char} (h : c.isDigit = true) (cs : List Char) :
    splitSign (c :: cs) = (false, c :: cs) := by
  rw [splitSign.eq_3]
  · rintro cs' ⟨⟩
    exact absurd h (by decide)
  · rintro cs' ⟨⟩
    exact absurd h (by decide)

end Text

/-- An integer is read with the sign before its digits. -/
theorem readInteger?_signed {digits : List Char} (hne : digits ≠ [])
    (hdigits : ∀ c ∈ digits, c.isDigit = true) (negative : Bool) :
    readInteger? ((if negative then '-' else '+') :: digits) =
      some ((if negative then -1 else 1) * (Nat.ofDigitChars 10 digits 0 : ℤ)) := by
  have hsign : Text.splitSign ((if negative then '-' else '+') :: digits) =
      (negative, digits) := by
    cases negative <;> rfl
  rw [readInteger?, hsign]
  dsimp only
  rw [List.isEmpty_eq_false_iff.2 hne, List.all_eq_true.2 hdigits, Bool.false_or, Bool.not_true,
    if_neg Bool.false_ne_true]
  cases negative with
  | false => rw [if_neg Bool.false_ne_true, if_neg Bool.false_ne_true, one_mul]
  | true => rw [if_pos rfl, if_pos rfl, neg_one_mul]

namespace WrittenNumber

variable {w : WrittenNumber}

/-- The decimal that the number denotes, but for its sign. -/
def decimal (w : WrittenNumber) : Decimal :=
  { Decimal.ofNumeral w.whole w.fraction with exponent := -w.fraction.length + w.exponent }

theorem value_eq_decimal (w : WrittenNumber) :
    w.value = (if w.negative then -1 else 1) * w.decimal.value := by
  have hdecimal : w.decimal.value =
      (Decimal.ofNumeral w.whole w.fraction).value * 10 ^ w.exponent := by
    rw [Decimal.value_ofNumeral, Decimal.value_eq, decimal, zpow_add₀ (by norm_num), mul_assoc]
    rfl
  rw [value, hdecimal, mul_assoc]

/-- A power of ten begins with an `e`, where the digits before it end. -/
theorem isDigit_of_head?_powerChars {p : Option (Bool × List Char)} (a : Char)
    (h : (powerChars p).head? = some a) : a.isDigit = false := by
  cases p with
  | none => cases h
  | some p =>
    rw [← Option.some.inj h]
    rfl

/-- The digits before the point end where it stands, or else where the power of ten begins. -/
theorem isDigit_of_head?_pointed {fraction : List Char} {p : Option (Bool × List Char)} (a : Char)
    (h : (Layout.pointed fraction ++ powerChars p).head? = some a) : a.isDigit = false := by
  cases fraction with
  | nil => exact isDigit_of_head?_powerChars a h
  | cons c cs =>
    rw [← Option.some.inj h]
    rfl

theorem splitFraction_append {fraction : List Char} (hdigits : ∀ c ∈ fraction, c.isDigit = true)
    (p : Option (Bool × List Char)) :
    Decimal.splitFraction (Layout.pointed fraction ++ powerChars p) = (fraction, powerChars p) := by
  cases fraction with
  | nil => cases p <;> rfl
  | cons c cs =>
    show ((c :: cs ++ powerChars p).takeWhile Char.isDigit,
      (c :: cs ++ powerChars p).dropWhile Char.isDigit) = _
    rw [Text.takeWhile_append_of_head? hdigits isDigit_of_head?_powerChars,
      Text.dropWhile_append_of_head? hdigits isDigit_of_head?_powerChars]

theorem readPower?_powerChars (h : w.WellFormed) :
    Decimal.readPower? (powerChars w.power?) = some w.exponent := by
  rw [exponent]
  cases hpower : w.power? with
  | none => rfl
  | some p =>
    obtain ⟨negative, digits⟩ := p
    obtain ⟨_, htwo, hdigits⟩ := h.scientific negative digits hpower
    exact readInteger?_signed (List.ne_nil_of_length_pos (Nat.zero_lt_of_lt htwo)) hdigits negative

end WrittenNumber

open WrittenNumber

/-- A written number without its sign is read as its decimal. -/
theorem Decimal.read?_append {w : WrittenNumber} (h : w.WellFormed) :
    read? (w.whole ++ Layout.pointed w.fraction ++ powerChars w.power?) = some w.decimal := by
  obtain ⟨hwhole, hfraction⟩ := List.forall_mem_append.1 h.isDigit
  rw [read?, List.append_assoc, Text.takeWhile_append_of_head? hwhole isDigit_of_head?_pointed,
    Text.dropWhile_append_of_head? hwhole isDigit_of_head?_pointed,
    splitFraction_append hfraction]
  dsimp only
  rw [List.isEmpty_eq_false_iff.2 h.whole_ne_nil, Bool.false_and, if_neg Bool.false_ne_true,
    readPower?_powerChars h]
  rfl

namespace Binary64

/-- What begins with a digit is read as a decimal, since no name does. -/
theorem read?_of_isDigit {s : String} {negative : Bool} {c : Char} {cs : List Char}
    (hs : Text.splitSign s.toList = (negative, c :: cs)) (hc : c.isDigit = true) :
    read? s = (Decimal.read? (c :: cs)).map (Decimal.toBinary64 negative) := by
  have hword (name : List Char) (hname : name.head?.any Char.isDigit = false) :
      (c :: cs).map Char.toLower ≠ name := by
    rintro rfl
    rw [List.map_cons, List.head?_cons, Text.toLower_of_isDigit hc, Option.any_some, hc] at hname
    cases hname
  rw [read?, hs]
  dsimp only
  rw [decide_eq_false (hword "inf".toList (by decide)),
    decide_eq_false (hword "infinity".toList (by decide)), Bool.or_false,
    if_neg Bool.false_ne_true, if_neg (hword "nan".toList (by decide))]

/-- A written number is read as the number nearest to its decimal, with its sign. -/
theorem read?_chars {w : WrittenNumber} (h : w.WellFormed) :
    read? (String.ofList w.chars) = some (w.decimal.toBinary64 w.negative) := by
  obtain ⟨c, cs, hcs⟩ := List.exists_cons_of_ne_nil h.whole_ne_nil
  have hc : c.isDigit = true := h.isDigit c (by rw [hcs]; exact List.mem_cons_self)
  have hread := Decimal.read?_append h
  have hsign : Text.splitSign (String.ofList w.chars).toList =
      (w.negative, c :: cs ++ Layout.pointed w.fraction ++ powerChars w.power?) := by
    rw [String.toList_ofList, chars, hcs]
    cases w.negative with
    | false => exact Text.splitSign_of_isDigit hc _
    | true => rfl
  rw [hcs] at hread
  exact (read?_of_isDigit hsign hc).trans (congrArg (Option.map _) hread)

theorem read?_nan : read? "nan" = some nan := by decide +kernel

theorem read?_infinite (s : Bool) : read? (if s then "-inf" else "inf") = some (infinite s) := by
  cases s <;> decide +kernel

/-- What is left of a number when its magnitude is known by a decimal only. -/
def through (decimal : Rank → Decimal) : Binary64 → Binary64
  | finite s k => (decimal k).toBinary64 s
  | x => x

/-- What is written for a number is read. -/
theorem read?_write (l : Layout) (decimal : Rank → Decimal) (x : Binary64) :
    read? (x.write l decimal) = some (x.through decimal) := by
  cases x with
  | nan => exact read?_nan
  | infinite s => exact read?_infinite s
  | finite s k =>
    obtain ⟨w, rfl, hwrite, hshows⟩ := l.exists_shows s (decimal k)
    have hvalue : w.decimal.value = (decimal k).value := by
      refine mul_left_cancel₀ ?_ (w.value_eq_decimal.symm.trans hshows.value_eq)
      cases w.negative <;> norm_num
    show read? (l.write w.negative (decimal k)) = _
    rw [hwrite, read?_chars hshows.wellFormed, Decimal.toBinary64_congr hvalue]
    rfl

/-- The text of a number is read as the number. -/
theorem read?_text (x : Binary64) : read? x.text = some x := by
  rw [text, read?_write]
  cases x with
  | nan | infinite s => rfl
  | finite s k =>
    obtain ⟨p, _, hfound, _⟩ := exists_readNeighbour?_shortest k
    exact congrArg some (Decimal.toBinary64_of_readsAs (readsAs_of_readNeighbour? hfound) s)

/-- Different numbers have different texts. -/
theorem text_injective : Function.Injective text := fun x y h => by
  have hread := congrArg read? h
  rw [read?_text, read?_text] at hread
  exact Option.some.inj hread

end Binary64

/-! ## Printed results -/

variable {precision : ℤ}

/-- There are no fewer digits than the precision asks for. -/
theorem le_of_significantDigits {n : ℕ} (h : significantDigits precision = .ok n) :
    precision ≤ n := by
  rw [significantDigits] at h
  split at h
  · cases h
  · split at h
    · obtain rfl := Except.ok.inj h
      omega
    · split at h <;> cases h

namespace Binary64

variable {x : Binary64} {printed : String} (h : x.format precision = .ok printed)
include h

/-- A printed result is read as the number nearest to the digits that are printed. -/
theorem read?_format :
    ∃ n, significantDigits precision = .ok n ∧
      read? printed = some (x.through fun k => (Decimal.exact k).roundTo n) := by
  rw [format] at h
  cases hn : significantDigits precision with
  | error e =>
    rw [hn] at h
    cases h
  | ok n =>
    rw [hn] at h
    obtain rfl := Except.ok.inj h
    exact ⟨n, rfl, read?_write ..⟩

/-- With seventeen digits or more, this is the result again. -/
theorem read?_format_of_le (hp : 17 ≤ precision) : read? printed = some x := by
  obtain ⟨n, hn, hread⟩ := read?_format h
  have hle := le_of_significantDigits hn
  rw [hread]
  cases x with
  | nan | infinite s => rfl
  | finite s k => exact congrArg some (Decimal.toBinary64_of_value_eq (by omega) rfl)

omit h in
/-- With five digits `0.1 + 0.2` is printed as `0.3`, and another number is read. -/
example :
    let x : Binary64 := .finite false ⟨4599075939470750516, by decide⟩
    x.format 5 = .ok "0.3" ∧ read? "0.3" = some (.finite false ⟨4599075939470750515, by decide⟩) ∧
      read? x.text = some x := by
  decide +kernel

end Binary64

end Calculator
