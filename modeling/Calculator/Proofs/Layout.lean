import Mathlib.Data.List.Forall2
import Calculator.Evaluator
import Calculator.Proofs.Machines
import Calculator.Proofs.Places

/-!
# Only tokens matter

Two texts with the same tokens are read in the same way, however their blanks are laid
out. The two runs go side by side. Between any two moves, the tokens that are left are the
same on both sides, and the places of those of one text correspond to those of the other
(`Aligned`). What the readers look at is only ever the next token, so they do the same; and
where they find a fault is the start of a token, or the end of the text.
-/

namespace Calculator

namespace Reader

variable {α β : Type} (R : Nat → Nat → Prop)

/-- The cursors have the same tokens left, at places that correspond, and so do the ends of
    their texts. -/
structure Aligned (c d : Cursor) : Prop where
  placed : List.Forall₂ (fun x y => R x.1 y.1 ∧ x.2 = y.2) c.placed d.placed
  finish : R c.finish d.finish

/-- Both outcomes are the same value, and the cursors are aligned, or they have the same
    fault, at places that correspond, unless the nesting is too deep. -/
def Parallel : Outcome α → Outcome α → Prop
  | .ok a c, .ok b d => a = b ∧ Aligned R c d
  | .error e _, .error f _ => e.fault = f.fault ∧ (e.fault = .nestingTooDeep ∨
      ∃ p q : Nat, e.position = p ∧ f.position = q ∧ R p q)
  | _, _ => False

variable {R} {c d : Cursor}

namespace Aligned

theorem next? (h : Aligned R c d) : c.next? = d.next? := by
  have hplaced := h.placed
  rw [Cursor.next?, Cursor.next?]
  generalize c.placed = xs, d.placed = ys at hplaced
  cases hplaced with
  | nil => rfl
  | cons hxy _ => exact congrArg some hxy.2

/-- The same character comes next. -/
theorem head? (h : Aligned R c d) : c.pastBlanks.rest.head? = d.pastBlanks.rest.head? := by
  rw [c.head?_pastBlanks, d.head?_pastBlanks, h.next?]

theorem rest_eq_nil_iff (h : Aligned R c d) : c.pastBlanks.rest = [] ↔ d.pastBlanks.rest = [] := by
  rw [← List.head?_eq_none_iff, h.head?, List.head?_eq_none_iff]

/-- The next tokens, or the ends, correspond. -/
theorem place (h : Aligned R c d) : R c.pastBlanks.offset d.pastBlanks.offset := by
  have hplaced := h.placed
  rw [c.offset_pastBlanks, d.offset_pastBlanks]
  generalize c.placed = xs, d.placed = ys at hplaced
  cases hplaced with
  | nil => exact h.finish
  | cons hxy _ => exact hxy.1

theorem pastBlanks (h : Aligned R c d) : Aligned R c.pastBlanks d.pastBlanks where
  placed := by rw [c.placed_pastBlanks, d.placed_pastBlanks]; exact h.placed
  finish := by
    rw [c.reaches_pastBlanks.finish_eq, d.reaches_pastBlanks.finish_eq]
    exact h.finish

/-- What is passed on both sides is the same token. -/
theorem pass (h : Aligned R c d) {t u : Token} {c' d' : Cursor} (hc : c.Passes t c')
    (hd : d.Passes u d') : R c.offset d.offset ∧ t = u ∧ Aligned R c' d' := by
  have hplaced := h.placed
  rw [hc.placed, hd.placed] at hplaced
  obtain ⟨⟨hplace, htoken⟩, hrest⟩ := List.forall₂_cons.1 hplaced
  exact ⟨hplace, htoken, hrest, by rw [hc.reaches.finish_eq, hd.reaches.finish_eq]; exact h.finish⟩

/-- Past a mark that both sides come to. -/
theorem forward_one (h : Aligned R c d) {a : Char} (hc : c.rest.head? = some a)
    (hd : d.rest.head? = some a) (ha : Text.IsMark a) (hstars : a = '*' → c.next? ≠ some .stars) :
    Aligned R (c.forward 1) (d.forward 1) :=
  (h.pass (Cursor.passes_mark hc ha hstars)
    (Cursor.passes_mark hd ha fun hstar => h.next? ▸ hstars hstar)).2.2

end Aligned

/-! ## Two runs -/

/-- The runs of binds go side by side if those of their parts do. -/
theorem Parallel.bind {r r' : Reader α} {f f' : α → Reader β}
    (h : Parallel R (r.run c) (r'.run d))
    (hf : ∀ a c' d', r.run c = .ok a c' → Aligned R c' d' →
      Parallel R ((f a).run c') ((f' a).run d')) :
    Parallel R ((r >>= f).run c) ((r' >>= f').run d) := by
  rw [run_bind, run_bind]
  cases hr : r.run c with
  | ok a c' =>
    cases hr' : r'.run d with
    | ok b d' =>
      rw [hr, hr'] at h
      obtain ⟨rfl, hq⟩ := h
      exact hf a c' d' hr hq
    | error e d' =>
      rw [hr, hr'] at h
      exact h.elim
  | error e c' =>
    cases hr' : r'.run d with
    | ok b d' =>
      rw [hr, hr'] at h
      exact h.elim
    | error e' d' =>
      rw [hr, hr'] at h
      exact h

theorem parallel_pure (h : Aligned R c d) (a : α) :
    Parallel R ((pure a : Reader α).run c) ((pure a : Reader α).run d) := ⟨rfl, h⟩

/-- The same fault, found at places that correspond. -/
theorem parallel_error {fault : Fault} {p q : Nat} (h : R p q) :
    Parallel R (.error ⟨fault, p⟩ c : Outcome α) (.error ⟨fault, q⟩ d) :=
  ⟨rfl, .inr ⟨p, q, rfl, rfl, h⟩⟩

theorem parallel_valueAt {p q : Nat} (hplace : R p q) (x : Except Fault α) (h : Aligned R c d) :
    Parallel R ((valueAt p x).run c) ((valueAt q x).run d) := by
  cases x with
  | ok a => exact ⟨rfl, h⟩
  | error fault => exact parallel_error hplace

theorem parallel_unexpected (h : Aligned R c d) :
    Parallel R ((unexpected : Reader α).run c.pastBlanks)
      ((unexpected : Reader α).run d.pastBlanks) := by
  rw [run_unexpected, run_unexpected, h.head?]
  exact parallel_error h.place

theorem parallel_expect {a : Char} (ha : Text.IsMark a) (hstar : a ≠ '*') (fault : Fault)
    (h : Aligned R c d) : Parallel R ((expect a fault).run c) ((expect a fault).run d) := by
  have hhead := h.head?
  rw [run_expect, run_expect, ← hhead]
  split
  · rename_i hc
    exact ⟨rfl, h.pastBlanks.forward_one hc (hhead.symm.trans hc) ha fun h => absurd h hstar⟩
  · exact parallel_error h.place

/-- A power has its sign on both sides. -/
theorem parallel_powerSign (h : Aligned R c d) :
    Parallel R (powerSign.run c.pastBlanks) (powerSign.run d.pastBlanks) := by
  have hhead := h.head?
  have hnext := h.pastBlanks.next?
  have hc := Cursor.next?_eq_stars_iff c.pastBlanks_pastBlanks
  have hd := Cursor.next?_eq_stars_iff d.pastBlanks_pastBlanks
  simp only [run_powerSign, ← hhead, ← hc, ← hd, ← hnext]
  split
  · rename_i hcaret
    exact ⟨rfl, h.pastBlanks.forward_one hcaret (hhead.symm.trans hcaret) (by decide) nofun⟩
  · split
    · rename_i hstars
      have hpass := h.pastBlanks.pass (Cursor.passes_stars (hc.1 hstars))
        (Cursor.passes_stars (hd.1 (hnext ▸ hstars)))
      exact ⟨rfl, hpass.2.2⟩
    · exact ⟨rfl, h.pastBlanks⟩

/-- What is read as a number is the same on both sides. -/
theorem parallel_number (h : Aligned R c d) {a : Char} (hc : c.rest.head? = some a)
    (hd : d.rest.head? = some a) (ha : (a.isDigit || a = '.') = true) :
    Parallel R (number.run c) (number.run d) := by
  obtain ⟨w, c', hc', _, hrun⟩ := passes_number hc ha
  obtain ⟨w', d', hd', _, hrun'⟩ := passes_number hd ha
  obtain ⟨hplace, htoken, hrest⟩ := h.pass hc' hd'
  obtain rfl := Token.number.inj htoken
  rw [hrun, hrun', literal, literal]
  split
  · exact parallel_error hplace
  · exact parallel_valueAt hplace _ hrest

/-- Chains go side by side if their operands do. -/
theorem parallel_chain {operator? : Char → Option Operator} {operand : Reader Binary64}
    (hp : Progresses operand) (hclears : Clears operator? operand)
    (hmark : ∀ a o, operator? a = some o → Text.IsMark a)
    (hoperand : ∀ c d, Aligned R c d → Parallel R (operand.run c) (operand.run d))
    (h : Aligned R c d) :
    Parallel R ((chain operator? operand).run c) ((chain operator? operand).run d) := by
  rw [chain_eq]
  refine (hoperand c d h).bind fun value c₁ d₁ hrun h₁ => ?_
  have hnext := fun hstar => (hclears hstar c).value hrun
  clear hrun
  -- The induction is on what is left of the first text before each link.
  generalize hn : c₁.rest.length = n
  induction n using Nat.strongRecOn generalizing value c₁ d₁ with
  | ind n ih =>
    have hhead := h₁.head?
    rw [run_chainTail hp, run_chainTail hp, ← hhead]
    split
    · exact ⟨rfl, h₁.pastBlanks⟩
    · rename_i operator ho
      obtain ⟨a, ha, hao⟩ := Option.bind_eq_some_iff.1 ho
      have hpast : Aligned R (c₁.pastBlanks.forward 1) (d₁.pastBlanks.forward 1) := by
        refine h₁.pastBlanks.forward_one ha (hhead.symm.trans ha) (hmark a _ hao) ?_
        rintro rfl
        rw [c₁.next?_pastBlanks]
        exact hnext (by rw [hao]; exact Option.some_ne_none _)
      have hlink := (hoperand _ _ hpast).bind fun y c₂ d₂ _ h₂ =>
        parallel_valueAt h₁.place (operator.apply value y) h₂
      refine Parallel.bind hlink fun value' c₂ d₂ hrun h₂ => ?_
      exact ih _ (hn ▸ length_rest_chainLink_lt hp ho hrun) value' c₂ d₂ h₂
        (fun hstar => (hclears.link _ _ _ hstar _).value hrun) rfl

/-! ## Levels -/

variable {m : Elementary} {frames : Nat}

/-- With the given frames, levels are read side by side. -/
def ReadsAligned (R : Nat → Nat → Prop) (m : Elementary) (frames : Nat) : Prop :=
  ∀ l c d, Aligned R c d → l.Ready c → l.Ready d →
    Parallel R ((read m l frames).run c) ((read m l frames).run d)

section

variable (ih : ReadsAligned R m frames)
include ih

theorem parallel_powered (h : Aligned R c d) (hc : Level.primary.Ready c)
    (hd : Level.primary.Ready d) :
    Parallel R ((powered m frames).run c) ((powered m frames).run d) := by
  refine (ih .primary c d h hc hd).bind fun base c₁ d₁ _ h₁ => ?_
  rw [run_skipBlanks_bind, run_skipBlanks_bind, raised, run_position_bind, run_position_bind]
  refine (parallel_powerSign h₁).bind fun found c₂ d₂ _ h₂ => ?_
  cases found
  · exact parallel_pure h₂ base
  · exact (ih .factor c₂ d₂ h₂ trivial trivial).bind fun y c₃ d₃ _ h₃ =>
      parallel_valueAt h₁.place _ h₃

theorem parallel_group (h : Aligned R c d) :
    Parallel R ((group m frames).run c) ((group m frames).run d) :=
  (ih .expression c d h trivial trivial).bind fun value _ _ _ h₁ =>
    (parallel_expect (by decide) (by decide) _ h₁).bind fun _ _ _ _ h₂ => parallel_pure h₂ value

theorem parallel_argument {p q : Nat} (hplace : R p q) (name : String) (h : Aligned R c d) :
    Parallel R ((argument m frames p name).run c) ((argument m frames q name).run d) :=
  (parallel_expect (by decide) (by decide) _ h).bind fun _ _ _ _ h₁ =>
    (ih .expression _ _ h₁ trivial trivial).bind fun x _ _ _ h₂ =>
      (parallel_expect (by decide) (by decide) _ h₂).bind fun _ _ _ _ h₃ =>
        parallel_valueAt hplace _ h₃

theorem parallel_factor (h : Aligned R c d) :
    Parallel R ((read m .factor (frames + 1)).run c) ((read m .factor (frames + 1)).run d) := by
  have hhead := h.head?
  simp only [run_factor, ← hhead, ← h.rest_eq_nil_iff]
  split
  · exact parallel_error h.place
  · rename_i hc
    have hd : d.pastBlanks.rest ≠ [] := fun hd => hc (h.rest_eq_nil_iff.2 hd)
    split
    · rename_i hminus
      have hpast := h.pastBlanks.forward_one hminus (hhead.symm.trans hminus) (by decide) nofun
      exact (ih .factor _ _ hpast trivial trivial).bind fun x c₁ d₁ _ h₁ => parallel_pure h₁ (-x)
    · exact parallel_powered ih h.pastBlanks (Cursor.ready_pastBlanks hc)
        (Cursor.ready_pastBlanks hd)

theorem parallel_primary (h : Aligned R c d) (hc : Level.primary.Ready c)
    (hd : Level.primary.Ready d) :
    Parallel R ((read m .primary (frames + 1)).run c) ((read m .primary (frames + 1)).run d) := by
  have hhead := h.head?
  have hunexpected := parallel_unexpected (α := Binary64) h
  rw [hc.pastBlanks_eq, hd.pastBlanks_eq] at hhead hunexpected
  obtain ⟨a, ha, _⟩ := hc
  have hda := hhead.symm.trans ha
  rw [run_primary, run_primary, hda, ha]
  dsimp only
  split
  · rename_i hopen
    obtain rfl := hopen
    exact parallel_group ih (h.forward_one ha hda (by decide) nofun)
  · split
    · rename_i hletter
      exact ih .call c d h ⟨a, ha, hletter⟩ ⟨a, hda, hletter⟩
    · split
      · rename_i hnumber
        exact parallel_number h ha hda hnumber
      · exact hunexpected

theorem parallel_call (h : Aligned R c d) (hc : Level.call.Ready c) (hd : Level.call.Ready d) :
    Parallel R ((read m .call (frames + 1)).run c) ((read m .call (frames + 1)).run d) := by
  obtain ⟨a, ha, hletter⟩ := hc
  obtain ⟨b, hb, hletter'⟩ := hd
  obtain ⟨hplace, htoken, hpast⟩ :=
    h.pass (Cursor.passes_name ha hletter) (Cursor.passes_name hb hletter')
  rw [run_call, run_call, ← Token.name.inj htoken]
  rw [← Token.name.inj htoken] at hpast
  exact parallel_argument ih hplace _ hpast

end

variable (R m)

theorem parallel_read (frames : Nat) : ReadsAligned R m frames := by
  induction frames with
  | zero =>
    intro l c d _ _ _
    rw [read_zero, run_tooDeep, run_tooDeep]
    exact ⟨rfl, .inl rfl⟩
  | succ frames ih =>
    intro l c d h hc hd
    cases l with
    | expression =>
      exact parallel_chain (progresses_read m frames .term) (clears_term m frames)
        Operator.isMark_of_additive? (fun c d h => ih .term c d h trivial trivial) h
    | term =>
      exact parallel_chain (progresses_read m frames .factor) (clears_factor m frames)
        Operator.isMark_of_multiplicative? (fun c d h => ih .factor c d h trivial trivial) h
    | factor => exact parallel_factor ih h
    | primary => exact parallel_primary ih h hc hd
    | call => exact parallel_call ih h hc hd

theorem parallel_whole (frames : Nat) (h : Aligned R c d) :
    Parallel R ((whole m frames).run c) ((whole m frames).run d) := by
  refine (parallel_read R m frames .expression c d h trivial trivial).bind fun x c₁ d₁ _ h₁ => ?_
  have hend : c₁.pastBlanks.rest.isEmpty = d₁.pastBlanks.rest.isEmpty := by
    rw [Bool.eq_iff_iff, List.isEmpty_iff, List.isEmpty_iff]
    exact h₁.rest_eq_nil_iff
  rw [run_skipBlanks_bind, run_skipBlanks_bind, run_atEnd_bind, run_atEnd_bind, ← hend]
  cases c₁.pastBlanks.rest.isEmpty
  · exact parallel_unexpected h₁
  · exact parallel_pure h₁.pastBlanks x

end Reader

/-- The offsets are the starts of tokens of the two texts that have the same number, or
    both texts end there. -/
def SamePlace (s t : List Char) (p q : Nat) : Prop :=
  (∃ (i : Nat) (token : Token), (placed 0 s)[i]? = some (p, token) ∧
    (placed 0 t)[i]? = some (q, token)) ∨ (p = s.length ∧ q = t.length)

/-- Texts with the same tokens are aligned at their starts. -/
theorem aligned_start {s t : String} (h : tokens s.toList = tokens t.toList) :
    Reader.Aligned (SamePlace s.toList t.toList) (Cursor.start s) (Cursor.start t) where
  placed := by
    have hmap : (placed 0 s.toList).map Prod.snd = (placed 0 t.toList).map Prod.snd := by
      rw [map_snd_placed, map_snd_placed, h]
    have hlength : (placed 0 s.toList).length = (placed 0 t.toList).length := by
      rw [← List.length_map Prod.snd, hmap, List.length_map]
    show List.Forall₂ _ (placed 0 s.toList) (placed 0 t.toList)
    refine List.forall₂_iff_get.2 ⟨hlength, fun i hi hi' => ?_⟩
    have htoken : (placed 0 s.toList)[i].2 = (placed 0 t.toList)[i].2 := by
      have hget := List.getElem_of_eq hmap (i := i) (by rwa [List.length_map])
      rwa [List.getElem_map, List.getElem_map] at hget
    refine ⟨.inl ⟨i, (placed 0 s.toList)[i].2, List.getElem?_eq_getElem hi, ?_⟩, htoken⟩
    rw [htoken]
    exact List.getElem?_eq_getElem hi'
  finish := .inr ⟨Nat.zero_add _, Nat.zero_add _⟩

namespace Evaluator

/-- Texts with the same tokens have the same value, or the same fault at the same place:
    at the same token, or at the end. Only where the nesting is too deep for them may be
    different places. -/
theorem evaluate_of_tokens_eq (v : Evaluator) (s t : String)
    (h : tokens s.toList = tokens t.toList) :
    (∃ x, v.evaluate s = .ok x ∧ v.evaluate t = .ok x) ∨
      ∃ f g, v.evaluate s = .error f ∧ v.evaluate t = .error g ∧ f.fault = g.fault ∧
        (f.kind = .nestingTooDeep ∨ ∃ p q : Nat, f.position = p ∧ g.position = q ∧
          SamePlace s.toList t.toList p q) := by
  have hruns := Reader.parallel_whole _ v.machine v.frames (aligned_start h)
  rw [evaluate, evaluate]
  cases hs : (Reader.whole v.machine v.frames).run (Cursor.start s) with
  | ok x c =>
    cases ht : (Reader.whole v.machine v.frames).run (Cursor.start t) with
    | ok y d =>
      rw [hs, ht] at hruns
      exact .inl ⟨x, rfl, by rw [hruns.1]⟩
    | error e d =>
      rw [hs, ht] at hruns
      exact hruns.elim
  | error e c =>
    cases ht : (Reader.whole v.machine v.frames).run (Cursor.start t) with
    | ok y d =>
      rw [hs, ht] at hruns
      exact hruns.elim
    | error e' d =>
      rw [hs, ht] at hruns
      refine .inr ⟨_, _, rfl, rfl, hruns.1, hruns.2.imp_left fun hdeep => ?_⟩
      exact congrArg Fault.kind hdeep

/-- Stars that are apart are no power. The fault is at the second of them, wherever it is. -/
theorem evaluate_of_tokens_eq_stars :
    ({ machine := .plain } : Evaluator).evaluate "2 * * 3" =
        .error { fault := .unexpectedCharacter (some '*'), text := "2 * * 3", position := 4 } ∧
      ({ machine := .plain } : Evaluator).evaluate "2*\n*3" =
        .error { fault := .unexpectedCharacter (some '*'), text := "2*\n*3", position := 3 } ∧
      SamePlace "2 * * 3".toList "2*\n*3".toList 4 3 := by
  have hs : ({ machine := .plain } : Evaluator).evaluate "2 * * 3" =
      .error { fault := .unexpectedCharacter (some '*'), text := "2 * * 3", position := 4 } := by
    decide +kernel
  have ht : ({ machine := .plain } : Evaluator).evaluate "2*\n*3" =
      .error { fault := .unexpectedCharacter (some '*'), text := "2*\n*3", position := 3 } := by
    decide +kernel
  refine ⟨hs, ht, ?_⟩
  rcases evaluate_of_tokens_eq { machine := .plain } "2 * * 3" "2*\n*3" (by decide +kernel) with
    ⟨x, hx, _⟩ | ⟨f, g, hf, hg, _, hplace⟩
  · exact absurd (hs.symm.trans hx) nofun
  · obtain rfl := Except.error.inj (hs.symm.trans hf)
    obtain rfl := Except.error.inj (ht.symm.trans hg)
    rcases hplace with hdeep | ⟨p, q, hp, hq, hsame⟩
    · exact absurd hdeep nofun
    · obtain rfl : 4 = p := Int.ofNat.inj hp
      obtain rfl : 3 = q := Int.ofNat.inj hq
      exact hsame

end Evaluator

end Calculator
