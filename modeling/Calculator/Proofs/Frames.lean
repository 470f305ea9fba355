import Calculator.Proofs.Faults
import Calculator.Proofs.Levels

/-!
# Frames

How many frames there are makes no difference, unless they run out. With more frames a
reader does the same, or what was too deeply nested before now comes out in some way
(`approximates_read`).

They do not always run out: every round of calls, from an expression down to a call and
its argument, reads at least one character. So there is a number of frames, five for each
character and five more, that is enough for a text (`fits_whole`).
-/

namespace Calculator.Reader

variable {α β : Type}

/-- The first outcome is the second, or the nesting was too deep for it. -/
def Limits (x y : Outcome α) : Prop := x = y ∨ ∃ p c, x = .error ⟨.nestingTooDeep, p⟩ c

/-- What the first reader does, the second does, unless the nesting is too deep for the
    first. -/
def Approximates (r r' : Reader α) : Prop := ∀ c, Limits (r.run c) (r'.run c)

theorem Approximates.refl (r : Reader α) : Approximates r r := fun _ => .inl rfl

/-- Only the first outcome is limited, so what is not too deep is the same. -/
theorem Limits.eq {x y : Outcome α} (h : Limits x y)
    (hx : ∀ p c, x ≠ .error ⟨.nestingTooDeep, p⟩ c) : x = y := by
  rcases h with h | ⟨p, c, h⟩
  · exact h
  · exact absurd h (hx p c)

theorem Limits.bind {r r' : Reader α} {f f' : α → Reader β} {c c' : Cursor}
    (hr : Limits (r.run c) (r'.run c')) (hf : ∀ a, Approximates (f a) (f' a)) :
    Limits ((r >>= f).run c) ((r' >>= f').run c') := by
  rw [run_bind, run_bind]
  rcases hr with h | ⟨p, c₁, h⟩
  · rw [← h]
    cases r.run c with
    | ok a c₁ => exact hf a c₁
    | error e c₁ => exact .inl rfl
  · rw [h]
    exact .inr ⟨p, c₁, rfl⟩

theorem Approximates.bind {r r' : Reader α} {f f' : α → Reader β} (hr : Approximates r r')
    (hf : ∀ a, Approximates (f a) (f' a)) : Approximates (r >>= f) (r' >>= f') :=
  fun c => (hr c).bind hf

variable {operator? : Char → Option Operator} {operand operand' : Reader Binary64}

theorem approximates_chainFrom (h : Approximates operand operand') (left : List Char)
    (value : Binary64) :
    Approximates (chainFrom operator? operand left value)
      (chainFrom operator? operand' left value) := by
  induction left generalizing value with
  | nil => exact .refl _
  | cons a left ih =>
    refine (Approximates.refl skipBlanks).bind fun _ => (Approximates.refl _).bind fun next => ?_
    split
    · exact .refl _
    · exact (Approximates.refl _).bind fun start => (Approximates.refl _).bind fun _ =>
        h.bind fun y => (Approximates.refl _).bind ih

theorem approximates_chain (h : Approximates operand operand') :
    Approximates (chain operator? operand) (chain operator? operand') :=
  h.bind fun _ => (Approximates.refl _).bind fun _ => approximates_chainFrom h _ _

variable (m : Elementary) {frames frames' : Nat}

/-- One more frame for each of two readers, of which the first does as the second. -/
theorem approximates_read_succ (h : ∀ l, Approximates (read m l frames) (read m l frames')) :
    ∀ l, Approximates (read m l (frames + 1)) (read m l (frames' + 1)) := by
  have hgroup : Approximates (group m frames) (group m frames') :=
    (h .expression).bind fun _ => .refl _
  have hargument (start : Nat) (name : String) :
      Approximates (argument m frames start name) (argument m frames' start name) :=
    (Approximates.refl _).bind fun _ => (h .expression).bind fun _ => .refl _
  have hraised (base : Binary64) : Approximates (raised m frames base) (raised m frames' base) := by
    refine (Approximates.refl _).bind fun start => (Approximates.refl _).bind fun b => ?_
    cases b
    · exact .refl _
    · exact (h .factor).bind fun _ => .refl _
  have hpowered : Approximates (powered m frames) (powered m frames') :=
    (h .primary).bind fun base => (Approximates.refl _).bind fun _ => hraised base
  intro l
  cases l with
  | expression =>
    rw [read_expression, read_expression]
    exact approximates_chain (h .term)
  | term =>
    rw [read_term, read_term]
    exact approximates_chain (h .factor)
  | factor =>
    intro c
    rw [run_factor, run_factor]
    split
    · exact .inl rfl
    · split
      · exact (h .factor).bind (fun _ => .refl _) _
      · exact hpowered _
  | primary =>
    intro c
    rw [run_primary, run_primary]
    split
    · exact .inl rfl
    · split
      · exact hgroup _
      · split
        · exact h .call c
        · split <;> exact .inl rfl
  | call =>
    intro c
    rw [run_call, run_call]
    exact hargument _ _ _

/-- With more frames a reader does the same, unless the nesting was too deep. -/
theorem approximates_read (h : frames ≤ frames') (l : Level) :
    Approximates (read m l frames) (read m l frames') := by
  induction frames generalizing frames' l with
  | zero =>
    intro c
    rw [read_zero, run_tooDeep]
    exact .inr ⟨_, _, rfl⟩
  | succ frames ih =>
    obtain ⟨frames', rfl⟩ := Nat.exists_eq_add_one.2 (Nat.lt_of_lt_of_le (Nat.succ_pos _) h)
    exact approximates_read_succ m (fun l => ih (Nat.le_of_succ_le_succ h) l) l

theorem approximates_whole (h : frames ≤ frames') :
    Approximates (whole m frames) (whole m frames') :=
  (approximates_read m h .expression).bind fun _ => .refl _

/-- The nesting was too deep. -/
def TooDeep (x : Outcome α) : Prop := ∃ p c, x = .error ⟨.nestingTooDeep, p⟩ c

theorem TooDeep.bind {r : Reader α} {c : Cursor} (h : TooDeep (r.run c)) (f : α → Reader β) :
    TooDeep ((r >>= f).run c) := by
  obtain ⟨p, c', hr⟩ := h
  exact ⟨p, c', run_bind_of_error hr f⟩

/-! ## Enough frames -/

/-- The outcome is none that frames have to do with, and no more is left of the text than
    `k` characters. -/
def Fits (k : Nat) (x : Outcome α) : Prop :=
  Ends x (fun _ c => c.rest.length ≤ k) fun e _ => e.fault ≠ .nestingTooDeep

theorem fits_valueAt {position : Int} {z : Except Fault α} {c : Cursor} {k : Nat}
    (hc : c.rest.length ≤ k) (hz : ∀ fault, z = .error fault → fault ≠ .nestingTooDeep) :
    Fits k ((valueAt position z).run c) :=
  ends_valueAt (fun _ _ => hc) hz

theorem fits_literal (start : Nat) (whole fraction : List Char) {c : Cursor} {k : Nat}
    (hc : c.rest.length ≤ k) : Fits k ((literal start whole fraction).run c) := by
  rw [literal]
  split
  · exact Fault.noConfusion
  · exact fits_valueAt hc fun _ => ne_nestingTooDeep_of_checkFinite

theorem fits_number (c : Cursor) : Fits c.rest.length (number.run c) := by
  have hforward (c : Cursor) (k : Nat) : (c.forward k).rest.length ≤ c.rest.length :=
    (c.reaches_forward k).length_le
  rw [run_number]
  dsimp only
  split
  · exact fits_literal _ _ _ (Nat.le_trans (hforward _ _)
      (Nat.le_trans (hforward _ _) (hforward _ _)))
  · exact fits_literal _ _ _ (hforward _ _)

/-- Past an expected character, less is left of the text. -/
theorem ends_expect_lt (a : Char) (fault : Fault) (h : fault ≠ .nestingTooDeep) (c : Cursor) :
    Ends ((expect a fault).run c) (fun _ c' => c'.rest.length < c.rest.length)
      fun e _ => e.fault ≠ .nestingTooDeep := by
  rw [run_expect]
  split
  · rename_i ha
    have hpast := c.reaches_pastBlanks.length_le
    rwa [(Cursor.reaches_forward_one ha).rest, List.singleton_append, List.length_cons] at hpast
  · exact h

theorem fits_chain {operator? : Char → Option Operator} {operand : Reader Binary64}
    (hp : Progresses operand) {c : Cursor}
    (h : ∀ c' : Cursor, c'.rest.length ≤ c.rest.length → Fits c'.rest.length (operand.run c')) :
    Fits c.rest.length ((chain operator? operand).run c) := by
  refine Ends.imp (ends_chain hp (I := fun _ c' => c'.rest.length ≤ c.rest.length)
    (h c (Nat.le_refl _)) ?_) (fun value c' => ?_) fun _ _ he => he
  · intro value c₁ operator hc₁ ho
    have hlt := length_rest_forward_lt ho
    have hle : (c₁.pastBlanks.forward 1).rest.length ≤ c.rest.length := by omega
    exact Ends.bind (h _ hle) fun y c' hc' =>
      fits_valueAt (Nat.le_trans hc' hle) fun _ => ne_nestingTooDeep_of_apply
  · rintro ⟨c₁, hc₁, rfl, _⟩
    exact Nat.le_trans c₁.reaches_pastBlanks.length_le hc₁

/-- Past the sign of a power, less is left of the text. -/
theorem ends_powerSign (c : Cursor) :
    Ends (powerSign.run c) (fun found c' => c'.rest.length + found.toNat ≤ c.rest.length)
      fun _ _ => False := by
  rw [run_powerSign]
  split
  · rename_i hcaret
    rw [(Cursor.reaches_forward_one hcaret).rest]
    exact Nat.le_refl _
  · split
    · rename_i hstars
      have hlen := (List.getElem?_eq_some_iff.1 hstars.2).1
      show (c.rest.drop 2).length + 1 ≤ c.rest.length
      rw [List.length_drop]
      omega
    · exact Nat.le_refl _

section

variable {m} (h : ∀ l c, 5 * c.rest.length + l.height ≤ frames →
  Fits c.rest.length ((read m l frames).run c))
include h

theorem fits_raised (base : Binary64) {c : Cursor} (hc : 5 * c.rest.length ≤ frames + 2) :
    Fits c.rest.length ((raised m frames base).run c) := by
  rw [raised, run_position_bind]
  refine Ends.bind ((ends_powerSign c).imp (fun _ _ hfound => hfound) nofun) fun found c₁ hc₁ => ?_
  cases found
  · exact hc₁
  · have hlt : c₁.rest.length + 1 ≤ c.rest.length := hc₁
    refine Ends.bind (h .factor c₁ (by rw [Level.height]; omega)) fun y c' hc' => ?_
    exact fits_valueAt (by omega) fun _ => ne_nestingTooDeep_of_power

theorem fits_group {c : Cursor} (hc : 5 * c.rest.length + 5 ≤ frames) :
    Fits c.rest.length ((group m frames).run c) := by
  refine Ends.bind (h .expression c hc) fun x c₁ hc₁ => ?_
  refine Ends.bind (ends_expect_lt ')' (.unclosed false) nofun c₁) fun _ c' hc' => ?_
  exact Nat.le_of_lt (Nat.lt_of_lt_of_le hc' hc₁)

theorem fits_argument (start : Nat) (name : String) {c : Cursor}
    (hc : 5 * c.rest.length ≤ frames) :
    Fits c.rest.length ((argument m frames start name).run c) := by
  refine Ends.bind (ends_expect_lt '(' (.uncalled name) nofun c) fun _ c₁ hc₁ => ?_
  refine Ends.bind (h .expression c₁ (by rw [Level.height]; omega)) fun x c₂ hc₂ => ?_
  refine Ends.bind (ends_expect_lt ')' (.unclosed true) nofun c₂) fun _ c' hc' => ?_
  exact fits_valueAt (by omega) fun _ => ne_nestingTooDeep_of_applyNamed

end

/-- If there are five frames for each character that is left, and those for the levels
    before the first of them, frames do not run out. -/
theorem fits_read (l : Level) (c : Cursor) (h : 5 * c.rest.length + l.height ≤ frames) :
    Fits c.rest.length ((read m l frames).run c) := by
  induction frames generalizing l c with
  | zero => cases l <;> exact absurd h (by simp [Level.height])
  | succ frames ih =>
    have hpast := c.reaches_pastBlanks.length_le
    cases l with
    | expression =>
      rw [Level.height] at h
      rw [read_expression]
      exact fits_chain (progresses_read m frames .term) fun c' hc' =>
        ih .term c' (by rw [Level.height]; omega)
    | term =>
      rw [Level.height] at h
      rw [read_term]
      exact fits_chain (progresses_read m frames .factor) fun c' hc' =>
        ih .factor c' (by rw [Level.height]; omega)
    | factor =>
      rw [Level.height] at h
      rw [run_factor]
      split
      · exact nofun
      · split
        · rename_i hminus
          have hlt := (Cursor.reaches_forward_one hminus).rest ▸ hpast
          rw [List.singleton_append, List.length_cons] at hlt
          refine Ends.bind (ih .factor _ (by rw [Level.height]; omega)) fun x c' hc' => ?_
          exact Nat.le_trans hc' (Nat.le_of_lt hlt)
        · refine Ends.bind (ih .primary _ (by rw [Level.height]; omega)) fun base c₁ hc₁ => ?_
          have hpast₁ := c₁.reaches_pastBlanks.length_le
          rw [run_skipBlanks_bind]
          exact (fits_raised ih base (by omega)).imp (fun _ _ hc' => by omega) fun _ _ he => he
    | primary =>
      rw [Level.height] at h
      rw [run_primary]
      split
      · exact nofun
      · rename_i a ha
        split
        · have hlt : (c.forward 1).rest.length < c.rest.length := by
            rw [(Cursor.reaches_forward_one ha).rest]
            exact Nat.lt_succ_self _
          exact (fits_group ih (by omega)).imp (fun _ _ hc' => by omega) fun _ _ he => he
        · split
          · exact ih .call c (by rw [Level.height]; omega)
          · split
            · exact fits_number c
            · exact nofun
    | call =>
      rw [Level.height] at h
      have hname := (c.reaches_takeWhile Char.isAlphanum).length_le
      rw [run_call]
      exact (fits_argument ih _ _ (by omega)).imp (fun _ _ hc' => by omega) fun _ _ he => he

/-- A text has no fault because of frames, if there are enough for its length. -/
theorem fits_whole (c : Cursor) (h : 5 * c.rest.length + 5 ≤ frames) :
    Fits c.rest.length ((whole m frames).run c) := by
  refine Ends.bind (fits_read m .expression c h) fun value c' hc' => ?_
  have hpast := c'.reaches_pastBlanks.length_le
  rw [run_skipBlanks_bind, run_atEnd_bind]
  cases c'.pastBlanks.rest.isEmpty
  · exact nofun
  · exact Nat.le_trans hpast hc'

theorem Fits.not_tooDeep {x : Outcome α} {k : Nat} (h : Fits k x) : ¬ TooDeep x := by
  rintro ⟨p, c, rfl⟩
  exact h rfl

end Calculator.Reader
