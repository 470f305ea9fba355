import Calculator.Proofs.Coupling
import Calculator.Proofs.Places

/-!
# Spellings of the power

The sign of a power is a caret or two stars. A text and the same text with two stars for every
caret are read in the same way, but where a star stands in front of a caret: of three stars the
first two are the sign of a power.

Neither text can be right there, and both readings fail, as neither the caret nor the third star
begins an operand. But they do not fail at once. The text with the caret has its factor before
the star, and computes with it; if that has no result, this is what is reported, and what comes
after it is never read. The text with the stars goes on to look for an exponent first. So the
two spellings agree on whether there is a value, on the value, and on the kind of a failure,
unless an operation fails with the star and the caret right after its last operand
(`Evaluator.Stranded`).
-/

namespace Calculator

namespace Reader

variable {m : Elementary} {c c₁ c' d : Cursor} {e : Located}

/-! ## Terms -/

section Terms

variable {frames : Nat}

/-- Of a star and a caret, a chain of factors takes the star for an operator, and there is no
    factor after it. -/
theorem misread_chainTail (m : Elementary) (frames : Nat) (hnext : StarCaret c.rest)
    (value : Binary64) :
    Misread ((chainTail Operator.multiplicative? (read m .factor frames) value).run c) := by
  obtain ⟨t, ht⟩ := hnext
  have hstar : c.rest.head? = some '*' := by rw [← ht]; rfl
  have hcaret : (c.forward 1).rest.head? = some '^' := by
    show (c.rest.drop 1).head? = some '^'
    rw [← ht]
    rfl
  have hpast : c.pastBlanks = c := Cursor.pastBlanks_eq_self fun a ha => by
    rw [← Option.some.inj (hstar.symm.trans ha)]
    decide
  rw [run_chainTail (progresses_read m frames .factor), hpast, hstar]
  exact ((misread_factor m frames (.inr rfl) hcaret).bind _).bind _

/-- Where a star and a caret are not passed, no factor follows. -/
theorem coupled_chainTail_of_misread (hnext : StarCaret c'.rest) (value : Binary64)
    {y : Outcome Binary64} (hy : Misread y) {Q : Binary64 → Cursor → Outcome Binary64 → Prop} :
    Coupled Q c ((chainTail Operator.multiplicative? (read m .factor frames) value).run c') y := by
  obtain ⟨e, c'', hrun, hkind⟩ := misread_chainTail m frames hnext value
  rw [hrun]
  exact .misread hkind hy

variable (hfactor : ∀ c d, Starred c d →
  Coupled MatchedFactor c ((read m .factor frames).run c) ((read m .factor frames).run d))
include hfactor

/-- The factors that follow a factor. -/
theorem coupled_factors (value : Binary64) (h : Starred c d) (hpassed : Passed c) :
    Coupled MatchedTerm c
      ((chainTail Operator.multiplicative? (read m .factor frames) value).run c)
      ((chainTail Operator.multiplicative? (read m .factor frames) value).run d) := by
  have hp := progresses_read m frames .factor
  -- The induction is on what is left of the first text before each link.
  generalize hn : c.rest.length = n
  induction n using Nat.strongRecOn generalizing value c d with
  | ind n ih =>
    have hpast : Starred c d.pastBlanks := by
      have hpast := h.pastBlanks
      rwa [hpassed.past] at hpast
    have hsame : d.pastBlanks.rest.head?.bind Operator.multiplicative? =
        c.rest.head?.bind Operator.multiplicative? := by
      rw [hpast]
      exact head?_starred_bind fun hcaret => absurd hcaret hpassed.caret
    rw [run_chainTail hp, run_chainTail hp, hpassed.past, hsame]
    cases ho : c.rest.head?.bind Operator.multiplicative? with
    | none => exact ⟨⟨_, rfl, hpast⟩, hpassed.next⟩
    | some operator =>
      obtain ⟨a, ha, hoperator⟩ := Option.bind_eq_some_iff.1 ho
      have hcaret : a ≠ '^' := fun hcaret => hpassed.caret (hcaret ▸ ha)
      have hlink : Coupled MatchedFactor c
          ((chainLink (read m .factor frames) value c.offset operator).run (c.forward 1))
          ((chainLink (read m .factor frames) value d.pastBlanks.offset operator).run
            (d.pastBlanks.forward 1)) :=
        (hfactor _ _ (hpast.forward_one ha hcaret)).valueAt_factor ha
          (bindsFactor_of_multiplicative? hoperator) (c.reaches_forward 1)
          fun y fault hy => fault.kind_mem_computational_iff.2
            ⟨isSyntactic_of_apply hy, ne_nestingTooDeep_of_apply hy⟩
      refine hlink.bind_factor (fun z c₂ d₂ hz h₂ hpassed₂ => ?_)
        fun z c₂ y hnext hy => coupled_chainTail_of_misread hnext z hy
      have hlt := length_rest_chainLink_lt hp (c := c) (by rw [hpassed.past]; exact ho)
        (by rw [hpassed.past]; exact hz)
      obtain ⟨w, hw⟩ := (progresses_chainLink hp value c.offset operator).exists_reaches hz
      exact (ih _ (hn ▸ hlt) z h₂ hpassed₂ rfl).mono ((c.reaches_forward 1).trans hw)

theorem coupled_term (h : Starred c d) :
    Coupled MatchedTerm c ((read m .term (frames + 1)).run c)
      ((read m .term (frames + 1)).run d) := by
  rw [read_term, chain_eq]
  refine (hfactor c d h).bind_factor (fun z c₁ d₁ hz h₁ hpassed => ?_)
    fun z c₁ y hnext hy => coupled_chainTail_of_misread hnext z hy
  obtain ⟨w, hw⟩ := (progresses_read m frames .factor).exists_reaches hz
  exact (coupled_factors hfactor z h₁ hpassed).mono hw

end Terms

/-! ## Expressions -/

section Expressions

variable {frames : Nat} (hterm : ∀ c d, Starred c d →
  Coupled MatchedTerm c ((read m .term frames).run c) ((read m .term frames).run d))
include hterm

/-- The terms that follow a term. -/
theorem coupled_terms (value : Binary64) (h : Starred c d) :
    Coupled Matched c ((chainTail Operator.additive? (read m .term frames) value).run c)
      ((chainTail Operator.additive? (read m .term frames) value).run d) := by
  have hp := progresses_read m frames .term
  -- The induction is on what is left of the first text before each link.
  generalize hn : c.rest.length = n
  induction n using Nat.strongRecOn generalizing value c d with
  | ind n ih =>
    have hpast := h.pastBlanks
    have hsame : d.pastBlanks.rest.head?.bind Operator.additive? =
        c.pastBlanks.rest.head?.bind Operator.additive? := by
      rw [hpast]
      exact head?_starred_bind fun _ => ⟨rfl, rfl⟩
    rw [run_chainTail hp, run_chainTail hp, hsame]
    cases ho : c.pastBlanks.rest.head?.bind Operator.additive? with
    | none => exact ⟨_, rfl, hpast⟩
    | some operator =>
      obtain ⟨a, ha, hoperator⟩ := Option.bind_eq_some_iff.1 ho
      have hcaret : a ≠ '^' := by
        rintro rfl
        exact absurd hoperator nofun
      have hreach := c.reaches_pastBlanks.trans (c.pastBlanks.reaches_forward 1)
      have hlink : Coupled Matched c
          ((chainLink (read m .term frames) value c.pastBlanks.offset operator).run
            (c.pastBlanks.forward 1))
          ((chainLink (read m .term frames) value d.pastBlanks.offset operator).run
            (d.pastBlanks.forward 1)) :=
        ((hterm _ _ (hpast.forward_one ha hcaret)).mono hreach).valueAt_term
      refine hlink.bind fun z c₂ d₂ hz h₂ => ?_
      obtain ⟨w, hw⟩ :=
        (progresses_chainLink hp value c.pastBlanks.offset operator).exists_reaches hz
      exact (ih _ (hn ▸ length_rest_chainLink_lt hp ho hz) z h₂ rfl).mono (hreach.trans hw)

theorem coupled_expression (h : Starred c d) :
    Coupled Matched c ((read m .expression (frames + 1)).run c)
      ((read m .expression (frames + 1)).run d) := by
  rw [read_expression, chain_eq]
  refine .bind_within (.refl c) (progresses_read m frames .term)
    ((hterm c d h).imp fun _ _ hq => hq.1) fun z c₁ d₁ v hv h₁ => ?_
  exact (coupled_terms hterm z h₁).mono hv

end Expressions

/-! ## Levels -/

/-- What holds after a level: only a factor may have been misread. -/
def MatchedAt : Level → Binary64 → Cursor → Outcome Binary64 → Prop
  | .factor => MatchedFactor
  | .term => MatchedTerm
  | _ => Matched

/-- With the given frames, the levels of the two texts are coupled. -/
def ReadsCoupled (m : Elementary) (frames : Nat) : Prop :=
  ∀ l c d, Starred c d → l.Ready c →
    Coupled (MatchedAt l) c ((read m l frames).run c) ((read m l frames).run d)

section

variable {frames : Nat} (ih : ReadsCoupled m frames)
include ih

theorem coupled_raised (base : Binary64) (hpast : c.pastBlanks = c) (h : Starred c d) :
    Coupled MatchedFactor c ((raised m frames base).run c) ((raised m frames base).run d) := by
  rw [raised, run_position_bind, run_position_bind]
  rcases powerSign_starred h with ⟨a, w, c', d', ha, hbinds, hw, hstarred, hc, hd⟩ |
    ⟨hnext, hc, d', hd, hstar⟩ | ⟨hcaret, hnext, hc, hd⟩
  · rw [run_bind_of_ok hc, run_bind_of_ok hd]
    exact (ih .factor c' d' hstarred trivial).valueAt_factor ha hbinds hw
      fun y fault hy => fault.kind_mem_computational_iff.2
        ⟨isSyntactic_of_power hy, ne_nestingTooDeep_of_power hy⟩
  · rw [run_bind_of_ok hc, run_bind_of_ok hd]
    exact .inr ⟨hnext, (misread_factor m frames (.inl rfl) hstar).bind _⟩
  · rw [run_bind_of_ok hc, run_bind_of_ok hd]
    exact .inl ⟨⟨d, rfl, h⟩, hpast, hcaret, hnext⟩

theorem coupled_powered (h : Starred c d) (hready : Level.primary.Ready c) :
    Coupled MatchedFactor c ((powered m frames).run c) ((powered m frames).run d) := by
  refine .bind_within (.refl c) (progresses_read m frames .primary) (ih .primary c d h hready)
    fun base c₁ d₁ v hv h₁ => ?_
  rw [run_skipBlanks_bind, run_skipBlanks_bind]
  exact (coupled_raised ih base c₁.pastBlanks_pastBlanks h₁.pastBlanks).mono
    (hv.trans c₁.reaches_pastBlanks)

theorem coupled_factor (h : Starred c d) :
    Coupled MatchedFactor c ((read m .factor (frames + 1)).run c)
      ((read m .factor (frames + 1)).run d) := by
  have hpast := h.pastBlanks
  rw [run_factor, run_factor]
  simp only [hpast.rest_eq_nil_iff, hpast.head?_eq_some_iff (a := '-') (by decide) (by decide)]
  split
  · exact fails_of_isSyntactic rfl rfl
  · rename_i hend
    split
    · rename_i hminus
      have hneg := ih .factor _ _ (hpast.forward_one hminus (by decide)) trivial
      refine (hneg.bind_factor (fun x c' d' _ hstarred hpassed => ?_)
        fun x c' y hnext hy => ?_).mono
          (c.reaches_pastBlanks.trans (c.pastBlanks.reaches_forward 1))
      · exact .inl ⟨⟨d', rfl, hstarred⟩, hpassed⟩
      · exact .inr ⟨hnext, hy⟩
    · exact (coupled_powered ih hpast (Cursor.ready_pastBlanks hend)).mono c.reaches_pastBlanks

theorem coupled_group (h : Starred c d) :
    Coupled Matched c ((group m frames).run c) ((group m frames).run d) := by
  refine .bind_within (.refl c) (progresses_read m frames .expression)
    (ih .expression c d h trivial) fun value c₁ d₁ v hv h₁ => ?_
  exact .bind_within hv (progresses_expect _ _) (coupled_expect (by decide) (by decide) rfl h₁)
    fun _ _ _ _ _ h₂ => coupled_pure h₂ value

/-- A call fails at its name if the function does. -/
theorem coupled_argument {start start' : Nat} (name : String) {w : List Char}
    (hw : c.Reaches w c₁) (h : Starred c₁ d)
    (hplace : ∀ fault, StandsAt c ⟨fault, start⟩ BeginsOperand) :
    Coupled Matched c ((argument m frames start name).run c₁)
      ((argument m frames start' name).run d) := by
  refine .bind_within hw (progresses_expect _ _)
    (coupled_expect (by decide) (by decide) rfl h) fun _ c₂ d₂ v₂ hv₂ h₂ => ?_
  refine .bind_within hv₂ (progresses_read m frames .expression)
    (ih .expression c₂ d₂ h₂ trivial) fun x c₃ d₃ v₃ hv₃ h₃ => ?_
  exact .bind_within hv₃ (progresses_expect _ _) (coupled_expect (by decide) (by decide) rfl h₃)
    fun _ _ d₄ _ _ h₄ => coupled_valueAt (fun _ => ⟨d₄, rfl, h₄⟩) fun _ => hplace

theorem coupled_primary (h : Starred c d) :
    Coupled Matched c ((read m .primary (frames + 1)).run c)
      ((read m .primary (frames + 1)).run d) := by
  rw [run_primary, run_primary]
  cases ha : c.rest.head? with
  | none =>
    have hend : d.rest.head? = none :=
      List.head?_eq_none_iff.2 (h.rest_eq_nil_iff.2 (List.head?_eq_none_iff.1 ha))
    rw [hend]
    exact coupled_unexpected
  | some a =>
    by_cases hcaret : a = '^'
    · have hstar : d.rest.head? = some '*' := by
        obtain ⟨r, hr⟩ := List.head?_eq_some_iff.1 ha
        rw [h, hr, hcaret, starred_caret]
        rfl
      rw [hstar, hcaret]
      exact coupled_unexpected
    rw [h, head?_starred ha hcaret]
    dsimp only
    split
    · exact (coupled_group ih (h.forward_one ha hcaret)).mono (c.reaches_forward 1)
    · split
      · rename_i hletter
        exact ih .call c d h ⟨a, ha, hletter⟩
      · split
        · rename_i hnumber
          exact coupled_number h ha hnumber
        · exact coupled_unexpected

theorem coupled_call (h : Starred c d) (hready : Level.call.Ready c) :
    Coupled Matched c ((read m .call (frames + 1)).run c)
      ((read m .call (frames + 1)).run d) := by
  obtain ⟨a, ha, hletter⟩ := hready
  obtain ⟨hname, hpast⟩ := h.takeWhile (p := Char.isAlphanum) (by decide) (by decide)
  rw [run_call, run_call, hname]
  exact coupled_argument ih _ (c.reaches_takeWhile _) hpast fun fault =>
    ⟨[], c, a, .refl c, rfl, ha, .inl (Text.isAlphanum_of_isAlpha hletter)⟩

end

/-- The two spellings are read side by side. -/
theorem coupled_read (m : Elementary) (frames : Nat) : ReadsCoupled m frames := by
  induction frames with
  | zero =>
    intro l c d h _
    rw [read_zero, run_tooDeep, run_tooDeep]
    have hroom : Fault.Kind.nestingTooDeep ∉ Fault.Kind.computational := by decide
    exact .same rfl rfl fun hcomputational => absurd hcomputational hroom
  | succ frames ih =>
    intro l c d h hready
    cases l with
    | expression => exact coupled_expression (fun c d h => ih .term c d h trivial) h
    | term => exact coupled_term (fun c d h => ih .factor c d h trivial) h
    | factor => exact coupled_factor ih h
    | primary => exact coupled_primary ih h
    | call => exact coupled_call ih h hready

theorem coupled_whole (m : Elementary) (frames : Nat) (h : Starred c d) :
    Coupled Matched c ((whole m frames).run c) ((whole m frames).run d) := by
  refine .bind_within (.refl c) (progresses_read m frames .expression)
    (coupled_read m frames .expression c d h trivial) fun value c₁ d₁ v hv h₁ => ?_
  have hpast := h₁.pastBlanks
  rw [run_skipBlanks_bind, run_skipBlanks_bind, run_atEnd_bind, run_atEnd_bind]
  have hend : d₁.pastBlanks.rest.isEmpty = c₁.pastBlanks.rest.isEmpty := by
    rw [Bool.eq_iff_iff, List.isEmpty_iff, List.isEmpty_iff, hpast.rest_eq_nil_iff]
  rw [hend]
  split
  · exact coupled_pure hpast value
  · exact coupled_unexpected

/-- What is known of the place of a fault in a text, is known of the character there. -/
theorem StandsAt.getElem? {s : String} {P : Char → Prop} (h : StandsAt (Cursor.start s) e P) :
    ∃ a ∈ s.toList[e.position.toNat]?, P a := by
  obtain ⟨w, c₀, a, hw, hplace, ha, hP⟩ := h
  obtain ⟨r, hr⟩ := List.head?_eq_some_iff.1 ha
  refine ⟨a, ?_, hP⟩
  have hoffset : c₀.offset = w.length := hw.offset.trans (Nat.zero_add _)
  have htext : s.toList = w ++ a :: r := by rw [← hr]; exact hw.rest
  rw [hplace, hoffset, Int.toNat_natCast, htext, List.getElem?_append_right (Nat.le_refl _),
    Nat.sub_self]
  rfl

/-- An operator begins no operand. -/
theorem not_beginsOperand_of_bindsFactor {a : Char} (h : BindsFactor a) : ¬ BeginsOperand a := by
  rintro (halnum | rfl)
  · simp only [BindsFactor, List.mem_cons, List.not_mem_nil, or_false] at h
    rcases h with rfl | rfl | rfl | rfl <;> exact absurd halnum (by decide)
  · exact absurd h (by decide)

end Reader

/-! ## Texts in two spellings -/

/-- The text with two stars for every caret. -/
def starredText (s : String) : String := String.ofList (starred s.toList)

namespace Evaluator

variable (v : Evaluator)

/-- The value of a text, or the kind of its failure. -/
def verdict (text : String) : Except Fault.Kind Binary64 :=
  (v.evaluate text).mapError Failure.kind

/-- The computation of an operator that binds factors fails, and what is left to be read of the
    text begins with a star and a caret. -/
def Stranded (text : String) : Prop :=
  ∃ e c, (Reader.whole v.machine v.frames).run (Cursor.start text) = .error e c ∧
    e.fault.kind ∈ Fault.Kind.computational ∧ StarCaret c.rest ∧
    ∃ a ∈ text.toList[e.position.toNat]?, Reader.BindsFactor a

instance (text : String) : Decidable (v.Stranded text) :=
  decidable_of_iff ((match (Reader.whole v.machine v.frames).run (Cursor.start text) with
      | .ok _ _ => false
      | .error e c => e.fault.kind ∈ Fault.Kind.computational && StarCaret c.rest &&
        text.toList[e.position.toNat]?.any fun a => Reader.BindsFactor a) = true) <| by
    rw [Stranded]
    cases (Reader.whole v.machine v.frames).run (Cursor.start text) with
    | ok x c => simp
    | error e c => simp [and_assoc, Option.any_eq_true]

variable {v} {s : String}

theorem verdict_of_run_ok {x : Binary64} {c : Cursor}
    (h : (Reader.whole v.machine v.frames).run (Cursor.start s) = .ok x c) :
    v.verdict s = .ok x := by
  rw [verdict, evaluate, h]
  rfl

theorem verdict_of_run_error {e : Located} {c : Cursor}
    (h : (Reader.whole v.machine v.frames).run (Cursor.start s) = .error e c) :
    v.verdict s = .error e.fault.kind := by
  rw [verdict, evaluate, h]
  rfl

theorem HasRoom.verdict_ne (h : v.HasRoom s) : v.verdict s ≠ .error .nestingTooDeep := by
  intro hdeep
  rw [verdict] at hdeep
  cases hs : v.evaluate s with
  | ok x =>
    rw [hs] at hdeep
    exact absurd hdeep nofun
  | error f =>
    rw [hs] at hdeep
    exact h f hs (Except.error.inj hdeep)

/-- Where an operand is missing, the expression is invalid, if there is room. -/
theorem HasRoom.verdict_of_misread (h : v.HasRoom s)
    (hmisread : Reader.Misread ((Reader.whole v.machine v.frames).run (Cursor.start s))) :
    v.verdict s = .error .invalidExpression := by
  obtain ⟨e, c, hrun, hkind⟩ := hmisread
  have hverdict := verdict_of_run_error hrun
  have hroom := h.verdict_ne
  rcases List.mem_cons.1 hkind with hinvalid | hdeep
  · rw [hverdict, hinvalid]
  · rw [hverdict, List.mem_singleton.1 hdeep] at hroom
    exact absurd rfl hroom

/-- As long as there is room for the nesting, a text and the same text with two stars for every
    caret have the same value or fail in the same way. The one exception is a text with an
    operation that fails where a star and a caret come next: with three stars in a row there, the
    text is an invalid expression. -/
theorem evaluate_starred (v : Evaluator) (s : String) (hs : v.HasRoom s)
    (ht : v.HasRoom (starredText s)) :
    (¬ v.Stranded s → v.verdict (starredText s) = v.verdict s) ∧
    (v.Stranded s → (∃ k ∈ Fault.Kind.computational, v.verdict s = .error k) ∧
      v.verdict (starredText s) = .error .invalidExpression) := by
  have hstarred : Reader.Starred (Cursor.start s) (Cursor.start (starredText s)) :=
    String.toList_ofList
  have hcoupled := Reader.coupled_whole v.machine v.frames hstarred
  cases hrun : (Reader.whole v.machine v.frames).run (Cursor.start s) with
  | ok x c =>
    have hnot : ¬ v.Stranded s := fun ⟨e, c', he, _⟩ => absurd (hrun.symm.trans he) nofun
    rw [hrun] at hcoupled
    obtain ⟨d, hd, _⟩ := hcoupled
    refine ⟨fun _ => ?_, fun h => absurd h hnot⟩
    rw [verdict_of_run_ok hrun, verdict_of_run_ok hd]
  | error e c =>
    have hverdict := verdict_of_run_error hrun
    rw [hrun] at hcoupled
    cases hcoupled with
    | same hy hkind hplace =>
      refine ⟨fun _ => by rw [hverdict, verdict_of_run_error hy, hkind], ?_⟩
      rintro ⟨e', c', hrun', hcomputational, hnext, a, ha, hbinds⟩
      obtain ⟨rfl, rfl⟩ := EStateM.Result.error.inj (hrun.symm.trans hrun')
      obtain ⟨b, hb, hbegins⟩ := (hplace hcomputational hnext).getElem?
      obtain rfl : a = b := Option.some.inj (ha.symm.trans hb)
      exact absurd hbegins (Reader.not_beginsOperand_of_bindsFactor hbinds)
    | misread hx hy =>
      have hinvalid := hs.verdict_of_misread ⟨e, c, hrun, hx⟩
      refine ⟨fun _ => by rw [hinvalid, ht.verdict_of_misread hy], ?_⟩
      rintro ⟨e', c', hrun', hcomputational, _⟩
      obtain ⟨rfl, rfl⟩ := EStateM.Result.error.inj (hrun.symm.trans hrun')
      obtain hkind : e.fault.kind = .invalidExpression :=
        Except.error.inj (hverdict.symm.trans hinvalid)
      rw [hkind] at hcomputational
      exact absurd hcomputational (by decide)
    | stranded hx hnext hplace hy =>
      refine ⟨fun hnot => absurd ⟨e, c, hrun, hx, hnext, hplace.getElem?⟩ hnot, fun _ => ?_⟩
      exact ⟨⟨_, hx, hverdict⟩, ht.verdict_of_misread hy⟩

/-- In both texts the exponent of a caret has no base. In the second one, the quotient before it
    fails first. -/
theorem evaluate_starred_quotient :
    let v : Evaluator := { machine := .plain }
    (v.HasRoom "2*^2" ∧ v.HasRoom (starredText "2*^2") ∧ ¬ v.Stranded "2*^2" ∧
      v.verdict (starredText "2*^2") = v.verdict "2*^2") ∧
    (v.HasRoom "1/0*^2" ∧ v.HasRoom (starredText "1/0*^2") ∧ v.Stranded "1/0*^2" ∧
      v.verdict (starredText "1/0*^2") = .error .invalidExpression) := by
  intro v
  have hroom : v.HasRoom "2*^2" := by decide +kernel
  have hroom' : v.HasRoom (starredText "2*^2") := by decide +kernel
  have hnot : ¬ v.Stranded "2*^2" := by decide +kernel
  have hquotient : v.HasRoom "1/0*^2" := by decide +kernel
  have hquotient' : v.HasRoom (starredText "1/0*^2") := by decide +kernel
  have hstranded : v.Stranded "1/0*^2" := by decide +kernel
  exact ⟨⟨hroom, hroom', hnot, (evaluate_starred v _ hroom hroom').1 hnot⟩,
    hquotient, hquotient', hstranded,
    ((evaluate_starred v _ hquotient hquotient').2 hstranded).2⟩

/-- The carets of a text cannot always be exchanged: a quotient may fail before a third star is
    found. -/
theorem verdict_starred_ne : ¬ ∀ (v : Evaluator) (s : String), v.HasRoom s →
    v.HasRoom (starredText s) → v.verdict (starredText s) = v.verdict s := by
  intro h
  have hquotient := h { machine := .plain } "1/0*^2" (by decide +kernel) (by decide +kernel)
  have hkinds : ({ machine := .plain } : Evaluator).verdict (starredText "1/0*^2") ≠
      ({ machine := .plain } : Evaluator).verdict "1/0*^2" := by
    decide +kernel
  exact hkinds hquotient

end Evaluator

end Calculator
