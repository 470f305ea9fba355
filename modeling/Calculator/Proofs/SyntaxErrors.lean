import Calculator.Proofs.Completeness
import Calculator.Proofs.Frames
import Calculator.Proofs.Lookahead
import Calculator.Proofs.Soundness

/-!
# Where a text goes wrong

When something is badly written, the failure is found at the first character that cannot
be right: what stands before it begins some sentence, and with it no sentence begins. Or
the text ends too early, and only what is missing is wrong.

That the text before is right is known from reading it (`Reader.ends_whole`). That no
sentence goes on with the character is seen by reading such a sentence: up to there it
is the same text, so reading it would fail in the same way, and sentences do not fail
because of how they are written.
-/

namespace Calculator

namespace Grammar

/-! ## Sentences are well written -/

/-- A result that is a value or a fault of values. -/
def Computes (x : Except Located Binary64) : Prop :=
  ∀ e, x = .error e → e.fault.isSyntactic = false

theorem Computes.bind {x : Except Located Binary64} {f : Binary64 → Except Located Binary64}
    (hx : Computes x) (hf : ∀ a, Computes (f a)) : Computes (x >>= f) := by
  cases x with
  | ok a => exact hf a
  | error e =>
    intro e' h
    rw [← Except.error.inj h]
    exact hx e rfl

theorem computes_locate {position : Nat} {r : Except Fault Binary64}
    (h : ∀ fault, r = .error fault → fault.isSyntactic = false) :
    Computes (locate position r) := by
  cases r with
  | ok a => exact nofun
  | error fault =>
    intro e he
    rw [← Except.error.inj he]
    exact h fault rfl

variable (m : Elementary)

mutual

theorem Expression.computes : ∀ (e : Expression) (k : Nat), Computes (e.denote m k)
  | .term t, k => t.computes k
  | .join e _ _ t, k => by
    rw [Expression.denote]
    exact (e.computes k).bind fun x => (t.computes _).bind fun y =>
      computes_locate fun _ => isSyntactic_of_apply

theorem Term.computes : ∀ (t : Term) (k : Nat), Computes (t.denote m k)
  | .factor f, k => f.computes k
  | .join t _ _ f, k => by
    rw [Term.denote]
    exact (t.computes k).bind fun x => (f.computes _).bind fun y =>
      computes_locate fun _ => isSyntactic_of_apply

theorem Factor.computes : ∀ (f : Factor) (k : Nat), Computes (f.denote m k)
  | .neg _ f, k => by
    rw [Factor.denote]
    exact (f.computes _).bind fun x => nofun
  | .primary _ p, k => p.computes _
  | .power _ base _ _ exponent, k => by
    rw [Factor.denote]
    exact (base.computes _).bind fun x => (exponent.computes _).bind fun y =>
      computes_locate fun _ => isSyntactic_of_power

theorem Primary.computes : ∀ (p : Primary) (k : Nat), Computes (p.denote m k)
  | .number n, k => computes_locate fun _ => isSyntactic_of_checkFinite
  | .group e _, k => e.computes _
  | .call name _ argument _, k => by
    rw [Primary.denote]
    exact (argument.computes _).bind fun x => computes_locate fun _ => isSyntactic_of_applyNamed

end

end Grammar

open Grammar

namespace Reader

/-- No sentence is the same text up to where reading stopped because something is badly
    written. -/
theorem not_shares_of_isSyntactic (m : Elementary) {frames : Nat} {s : String} {e : Located}
    {c : Cursor} (hrun : (whole m frames).run (Cursor.start s) = .error e c)
    (he : e.fault.isSyntactic = true) (t : Sentence) :
    ¬ (Cursor.start s).Shares c.offset (Cursor.start t.text) := by
  intro hshares
  -- The sentence is read with as many frames as it needs, too.
  have hframes := approximates_whole m (Nat.le_max_left frames t.depth) (Cursor.start t.text)
  have hgives := gives_whole m (Nat.le_max_right frames t.depth) (s := t)
  have halike := steady_whole m frames c.offset _ _ hshares
  rw [hrun] at halike
  rcases halike (Nat.le_refl _) with hsame | ⟨_, hexcused⟩
  · cases hsentence : (whole m frames).run (Cursor.start t.text) with
    | ok x d =>
      rw [hsentence] at hsame
      exact hsame
    | error e' d =>
      rw [hsentence] at hsame hframes
      obtain ⟨rfl, _⟩ := hsame
      -- The fault is the same, so it is not that frames ran out, and more frames do not
      -- change it.
      have hroom : ∀ p c', (.error e' d : Outcome Binary64) ≠ .error ⟨.nestingTooDeep, p⟩ c' := by
        intro p c' h
        rw [(EStateM.Result.error.inj h).1] at he
        exact absurd he Bool.false_ne_true
      rw [← hframes.eq hroom] at hgives
      cases hdenote : t.denote m with
      | ok x =>
        rw [hdenote] at hgives
        exact absurd hgives nofun
      | error e =>
        rw [hdenote] at hgives
        obtain ⟨c', hc'⟩ := hgives
        obtain rfl : e' = e := (EStateM.Result.error.inj hc').1
        have hcomputes := t.expression.computes m 0 e' hdenote
        rw [he] at hcomputes
        exact absurd hcomputes.symm Bool.false_ne_true
  · rw [Excused, he] at hexcused
    exact absurd hexcused.symm Bool.false_ne_true

/-- Texts that are the same up to an offset, and have a character there, share it. -/
theorem shares_of_begins {s : String} {w : List Char} {n : Nat} (hn : n < s.toList.length)
    (h : s.toList.take (n + 1) <+: w) :
    (Cursor.start s).Shares n (Cursor.start (String.ofList w)) := by
  refine ⟨rfl, fun k hk => ?_⟩
  obtain ⟨z, rfl⟩ := h
  have hk' : k < (s.toList.take (n + 1)).length := by
    rw [List.length_take]
    exact Nat.lt_min.2 ⟨Nat.lt_succ_of_le (Nat.zero_add k ▸ hk),
      Nat.lt_of_le_of_lt (Nat.zero_add k ▸ hk) hn⟩
  show (String.ofList (s.toList.take (n + 1) ++ z)).toList[k]? = s.toList[k]?
  rw [String.toList_ofList, List.getElem?_append_left hk', List.getElem?_take_of_lt]
  exact Nat.lt_succ_of_le (Nat.zero_add k ▸ hk)

/-- Some sentence begins with the text. -/
def BeginsSentence (w : List Char) : Prop := ∃ t : Sentence, w <+: t.chars

/-- What is read before something badly written begins a sentence; with the next
    character it begins none, and the whole text is none. -/
theorem beginsSentence_of_isSyntactic (m : Elementary) {frames : Nat} {s : String} {e : Located}
    {c : Cursor} (hrun : (whole m frames).run (Cursor.start s) = .error e c)
    (he : e.fault.isSyntactic = true) :
    c.offset ≤ s.toList.length ∧ BeginsSentence (s.toList.take c.offset) ∧
      (c.offset < s.toList.length → ¬ BeginsSentence (s.toList.take (c.offset + 1))) ∧
      (¬ ∃ t : Sentence, t.text = s) ∧ Blames e (s.toList.take c.offset) c := by
  have hread := ends_whole m frames s
  rw [hrun] at hread
  obtain ⟨w, hw, hbegins, hblames⟩ := hread he
  have hchars : s.toList = w ++ c.rest := hw.rest
  have hoffset : c.offset = w.length := by
    rw [hw.offset]
    exact Nat.zero_add _
  have htake : s.toList.take c.offset = w := by
    rw [hchars, hoffset, List.take_left]
  rw [htake]
  refine ⟨?_, hbegins, fun hlt => ?_, ?_, hblames⟩
  · rw [hchars, hoffset, List.length_append]
    exact Nat.le_add_right _ _
  · rintro ⟨t, ht⟩
    exact not_shares_of_isSyntactic m hrun he t (shares_of_begins hlt ht)
  · rintro ⟨t, rfl⟩
    exact not_shares_of_isSyntactic m hrun he t (.refl _ _)

end Reader

namespace Evaluator

open Reader

/-- A failure because of what is written is at the first character that cannot be right,
    or at the end of a text that is right as far as it goes but is no sentence. Of a point
    without digits the point itself may still be right, but not with what follows. -/
theorem beginsSentence_of_evaluate_error (v : Evaluator) (s : String) (f : Failure)
    (h : v.evaluate s = .error f) :
    (f.kind ∈ [.unexpectedEnd, .invalidExpression, .missingClosingParenthesis,
        .missingOpeningParenthesis] →
      ∃ p : Nat, f.position = p ∧ p ≤ s.toList.length ∧ BeginsSentence (s.toList.take p) ∧
        (p < s.toList.length → ¬ BeginsSentence (s.toList.take (p + 1))) ∧
        (p = s.toList.length → ¬ ∃ t : Sentence, t.text = s)) ∧
      (f.kind = .invalidNumber →
        ∃ p : Nat, f.position = p ∧ s.toList[p]? = some '.' ∧
          BeginsSentence (s.toList.take (p + 1)) ∧
          (p + 1 = s.toList.length ∨ ¬ BeginsSentence (s.toList.take (p + 2)))) := by
  rw [evaluate] at h
  cases hrun : (whole v.machine v.frames).run (Cursor.start s) with
  | ok x c =>
    rw [hrun] at h
    cases h
  | error e c =>
    rw [hrun] at h
    obtain rfl : v.failure s e = f := Except.error.inj h
    refine ⟨fun hkind => ?_, fun hkind => ?_⟩
    · obtain ⟨hsyntactic, hfault⟩ : e.fault.isSyntactic = true ∧ e.fault ≠ .malformedNumber :=
        isSyntactic_of_kind hkind
      obtain ⟨hle, hbegins, hnext, hnone, hblames⟩ :=
        beginsSentence_of_isSyntactic v.machine hrun hsyntactic
      rw [Blames, if_neg hfault] at hblames
      exact ⟨c.offset, hblames, hle, hbegins, hnext, fun _ => hnone⟩
    · have hfault : e.fault = .malformedNumber := eq_malformedNumber_of_kind hkind
      obtain ⟨hle, hbegins, hnext, _, hblames⟩ :=
        beginsSentence_of_isSyntactic v.machine hrun (by rw [hfault]; rfl)
      rw [Blames, if_pos hfault] at hblames
      obtain ⟨hpoint, hposition⟩ := hblames
      -- The point is the last thing read.
      obtain ⟨p, hp⟩ : ∃ p, c.offset = p + 1 := by
        refine Nat.exists_eq_add_one.2 (Nat.pos_of_ne_zero fun hzero => ?_)
        rw [hzero, List.take_zero] at hpoint
        cases hpoint
      rw [hp] at hle hbegins hnext hpoint hposition
      refine ⟨p, ?_, ?_, hbegins, ?_⟩
      · show e.position = p
        push_cast at hposition
        omega
      · rw [List.getLast?_take, if_neg (Nat.succ_ne_zero p), Nat.add_sub_cancel,
          Option.or_of_isSome] at hpoint
        · exact hpoint
        · exact Option.isSome_iff_exists.2 ⟨_, List.getElem?_eq_getElem hle⟩
      · exact (Nat.lt_or_eq_of_le hle).symm.imp_right hnext

/-- An operand was expected at the star, and another might have stood there. -/
theorem beginsSentence_of_evaluate_star :
    ({ machine := .plain } : Evaluator).evaluate "2 + * 3" =
        .error { fault := .unexpectedCharacter (some '*'), text := "2 + * 3", position := 4 } ∧
      BeginsSentence ("2 + * 3".toList.take 4) ∧ ¬ BeginsSentence ("2 + * 3".toList.take 5) := by
  have h : ({ machine := .plain } : Evaluator).evaluate "2 + * 3" =
      .error { fault := .unexpectedCharacter (some '*'), text := "2 + * 3", position := 4 } :=
    faultOf?_eq_some_iff.1 (by decide +kernel)
  obtain ⟨p, hp, _, hbegins, hnext, _⟩ :=
    (beginsSentence_of_evaluate_error _ _ _ h).1 (by decide)
  obtain rfl : 4 = p := Int.ofNat.inj hp
  exact ⟨h, hbegins, hnext (by decide)⟩

end Evaluator

end Calculator
