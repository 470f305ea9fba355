import Calculator.Decimal.Layout
import Calculator.Proofs.Follow

/-!
# What numbers are written with

A number is written with digits and few other characters, none of them a blank, so its text
can stand on any line.
-/

namespace Calculator

/-- The figures of a decimal are digits. -/
theorem Decimal.isDigit_of_mem_figures {d : Decimal} {c : Char} (h : c ∈ d.figures) :
    c.isDigit = true := by
  rw [figures] at h
  split at h
  · rw [List.mem_singleton.1 h]
    rfl
  · have hmem := (List.dropWhile_sublist _).subset (List.mem_reverse.1 h)
    exact Nat.isDigit_of_mem_toDigits (by decide) (by decide) (List.mem_reverse.1 hmem)

namespace Layout

/-- The characters of written numbers. -/
def IsWritten (c : Char) : Prop := c.isDigit = true ∨ c ∈ ['.', 'e', '+', '-']

instance : DecidablePred IsWritten := fun _ => inferInstanceAs (Decidable (_ ∨ _))

theorem IsWritten.not_blank {c : Char} (h : IsWritten c) : Text.isBlank c = false := by
  rcases h with h | h
  · exact Text.isBlank_eq_false_of_isAlphanum (Text.isAlphanum_of_isDigit h)
  · have hmarks : ['.', 'e', '+', '-'].any Text.isBlank = false := rfl
    exact Bool.eq_false_iff.2 (List.any_eq_false.1 hmarks c h)

theorem isDigit_of_mem_replicate (n : Nat) : ∀ c ∈ List.replicate n '0', c.isDigit = true := by
  intro c hc
  rw [List.eq_of_mem_replicate hc]
  rfl

theorem isWritten_replicate (n : Nat) : ∀ c ∈ List.replicate n '0', IsWritten c := fun c hc =>
  .inl (isDigit_of_mem_replicate n c hc)

theorem isWritten_power (magnitude : Int) : ∀ c ∈ power magnitude, IsWritten c := by
  refine List.forall_mem_cons.2 ⟨by decide, List.forall_mem_cons.2 ⟨?_, ?_⟩⟩
  · split <;> decide
  · exact List.forall_mem_append.2 ⟨isWritten_replicate _, fun _ hc =>
      .inl (Nat.isDigit_of_mem_toDigits (by decide) (by decide) hc)⟩

section

variable {figures : List Char} (h : ∀ c ∈ figures, c.isDigit = true) (magnitude : Int)
include h

theorem isWritten_fixed (l : Layout) : ∀ c ∈ l.fixed figures magnitude, IsWritten c := by
  have hfigures : ∀ c ∈ figures, IsWritten c := fun c hc => .inl (h c hc)
  cases magnitude with
  | ofNat x =>
    have hwhole : ∀ c ∈ (figures.take (x + 1)).rightpad (x + 1) '0', IsWritten c :=
      List.forall_mem_append.2 ⟨fun c hc => hfigures c (List.mem_of_mem_take hc),
        isWritten_replicate _⟩
    have hfraction : ∀ c ∈ figures.drop (x + 1), IsWritten c := fun c hc =>
      hfigures c (List.mem_of_mem_drop hc)
    rw [fixed.eq_def]
    dsimp only
    split
    · split
      · exact List.forall_mem_append.2 ⟨hwhole,
          List.forall_mem_cons.2 ⟨by decide, List.forall_mem_singleton.2 (by decide)⟩⟩
      · exact hwhole
    · exact List.forall_mem_append.2 ⟨hwhole, List.forall_mem_cons.2 ⟨by decide, hfraction⟩⟩
  | negSucc x =>
    exact List.forall_mem_cons.2 ⟨by decide, List.forall_mem_cons.2 ⟨by decide,
      List.forall_mem_append.2 ⟨isWritten_replicate x, hfigures⟩⟩⟩

theorem isWritten_scientific : ∀ c ∈ scientific figures magnitude, IsWritten c := by
  have hfigures : ∀ c ∈ figures, IsWritten c := fun c hc => .inl (h c hc)
  have hpower := isWritten_power magnitude
  -- With a single figure there is no point.
  match figures with
  | [] => exact hpower
  | [d] => exact List.forall_mem_cons.2 ⟨hfigures d (.head _), hpower⟩
  | d :: d' :: fraction =>
    obtain ⟨hd, hfraction⟩ := List.forall_mem_cons.1 hfigures
    exact List.forall_mem_append.2 ⟨List.forall_mem_cons.2 ⟨hd,
      List.forall_mem_cons.2 ⟨by decide, hfraction⟩⟩, hpower⟩

end

theorem isWritten_chars (l : Layout) (d : Decimal) : ∀ c ∈ l.chars d, IsWritten c := by
  rw [chars]
  split
  · exact isWritten_fixed (fun _ => Decimal.isDigit_of_mem_figures) _ l
  · exact isWritten_scientific (fun _ => Decimal.isDigit_of_mem_figures) _

end Layout

/-- No blank is written for a number, finite or not. -/
theorem Binary64.not_blank_of_mem_write (l : Layout) (decimal : Rank → Decimal) (x : Binary64) :
    ∀ c ∈ (x.write l decimal).toList, Text.isBlank c = false := by
  cases x with
  | nan =>
    have hblank : "nan".toList.any Text.isBlank = false := by decide +kernel
    exact fun c hc => Bool.eq_false_iff.2 (List.any_eq_false.1 hblank c hc)
  | infinite s =>
    have hblank : (if s then "-inf" else "inf").toList.any Text.isBlank = false := by
      cases s <;> decide +kernel
    exact fun c hc => Bool.eq_false_iff.2 (List.any_eq_false.1 hblank c hc)
  | finite s k =>
    intro c hc
    rw [write, Layout.write, String.toList_ofList] at hc
    have hchars := fun hc => (l.isWritten_chars (decimal k) c hc).not_blank
    cases s with
    | false => exact hchars hc
    | true =>
      rcases List.mem_cons.1 hc with rfl | hc
      · rfl
      · exact hchars hc

attribute [local instance (2000)] instPowNat in
/-- For results of at least one digit, there is a way to write values. -/
theorem significantDigits_of_pos {precision : Int} (hpos : 1 ≤ precision)
    (hlt : precision < 2 ^ (31 : Nat)) : significantDigits precision = .ok precision.toNat := by
  have hdigits : max 1 precision.toNat = precision.toNat := by omega
  rw [significantDigits, if_neg (by omega), if_pos hlt, hdigits]

end Calculator
