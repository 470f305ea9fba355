import Calculator.Proofs.Faults
import Calculator.Proofs.Levels

/-!
# Looking ahead

A reader that stops at some offset has looked at the text up to the character there, and
no further: on any other text that is the same so far, it does the same (`Alike`).

There is one exception. To see that a star is not half of a power sign, the character
after it is looked at, and then a factor stops at the star. But the term that the factor
is in goes on past the star, unless it fails with the value of the factor. So only a
fault that is not about what is written may depend on one character more. A rule for
binds (`Alike.bind`) carries exceptions along until something moves past them.
-/

namespace Calculator

/-- Two cursors at the same offset, in texts that are the same from there up to the
    offset `n` and the character at it. -/
structure Cursor.Shares (n : Nat) (c d : Cursor) : Prop where
  offset : d.offset = c.offset
  getElem? (k : Nat) : c.offset + k ≤ n → d.rest[k]? = c.rest[k]?

namespace Cursor.Shares

variable {n : Nat} {c d : Cursor}

theorem refl (n : Nat) (c : Cursor) : c.Shares n c := ⟨rfl, fun _ _ => rfl⟩

theorem head? (h : c.Shares n d) (hn : c.offset ≤ n) : d.rest.head? = c.rest.head? := by
  rw [List.head?_eq_getElem?, List.head?_eq_getElem?]
  exact h.getElem? 0 hn

theorem take (h : c.Shares n d) {k : Nat} (hk : c.offset + k ≤ n + 1) :
    d.rest.take k = c.rest.take k := by
  refine List.ext_getElem? fun i => ?_
  rw [List.getElem?_take, List.getElem?_take]
  split
  · exact h.getElem? i (by omega)
  · rfl

theorem forward (h : c.Shares n d) {k : Nat} (hk : k ≤ c.rest.length)
    (hn : c.offset + k ≤ n + 1) : (c.forward k).Shares n (d.forward k) := by
  constructor
  · show d.offset + (d.rest.take k).length = c.offset + (c.rest.take k).length
    rw [h.take hn, h.offset]
  · intro i hi
    have hoffset : (c.forward k).offset = c.offset + k := by
      rw [Cursor.forward, List.length_take, Nat.min_eq_left hk]
    rw [hoffset] at hi
    show (d.rest.drop k)[i]? = (c.rest.drop k)[i]?
    rw [List.getElem?_drop, List.getElem?_drop]
    exact h.getElem? (k + i) (by omega)

/-- Past one character that is there. -/
theorem forward_one (h : c.Shares n d) (hn : c.offset ≤ n) {a : Char} (ha : c.rest.head? = some a) :
    (c.forward 1).Shares n (d.forward 1) := by
  refine h.forward ?_ (Nat.succ_le_succ hn)
  obtain ⟨r, hr⟩ := List.head?_eq_some_iff.1 ha
  rw [hr]
  exact Nat.succ_le_succ (Nat.zero_le _)

end Cursor.Shares

/-- Where the longest run of a class ends is seen at the character after it. -/
theorem Text.takeWhile_eq_of_take_eq {p : Char → Bool} {w w' : List Char}
    (h : w'.take ((w.takeWhile p).length + 1) = w.take ((w.takeWhile p).length + 1)) :
    w'.takeWhile p = w.takeWhile p := by
  induction w generalizing w' with
  | nil =>
    cases w' with
    | nil => rfl
    | cons a' w' => exact absurd h (List.cons_ne_nil _ _)
  | cons a w ih =>
    cases w' with
    | nil => exact absurd h.symm (List.cons_ne_nil _ _)
    | cons a' w' =>
      obtain ⟨rfl, htail⟩ := List.cons.inj h
      by_cases ha : p a' = true
      · rw [List.takeWhile_cons_of_pos ha] at htail ⊢
        rw [List.takeWhile_cons_of_pos ha, ih htail]
      · rw [List.takeWhile_cons_of_neg ha, List.takeWhile_cons_of_neg ha]

namespace Cursor.Shares

variable {n : Nat} {c d : Cursor}

theorem takeWhile (h : c.Shares n d) {p : Char → Bool}
    (hn : (c.forward (c.rest.takeWhile p).length).offset ≤ n) :
    d.rest.takeWhile p = c.rest.takeWhile p ∧
      (c.forward (c.rest.takeWhile p).length).Shares n
        (d.forward (c.rest.takeWhile p).length) := by
  rw [(c.reaches_takeWhile p).offset] at hn
  exact ⟨Text.takeWhile_eq_of_take_eq (h.take (by omega)),
    h.forward (List.takeWhile_prefix p).length_le (by omega)⟩

theorem pastBlanks (h : c.Shares n d) (hn : c.pastBlanks.offset ≤ n) :
    c.pastBlanks.Shares n d.pastBlanks := by
  obtain ⟨hrun, hshares⟩ := h.takeWhile (p := Text.isBlank) hn
  rw [Cursor.pastBlanks, Cursor.pastBlanks, hrun]
  exact hshares

end Cursor.Shares

namespace Reader

variable {α β : Type} {n : Nat} {c d : Cursor} {X Y : Cursor → Prop}

/-- The same value or fault, and cursors that share the text up to the offset `n`. -/
def Same (n : Nat) : Outcome α → Outcome α → Prop
  | .ok a c, .ok b d => b = a ∧ c.Shares n d
  | .error e c, .error e' d => e' = e ∧ c.Shares n d
  | _, _ => False

/-- An outcome that may depend on the character after the one at which it stops: a value
    at an exception, or a fault that is not about what is written. -/
def Excused (X : Cursor → Prop) : Outcome α → Prop
  | .ok _ c => X c
  | .error e _ => e.fault.isSyntactic = false

/-- Two outcomes are the same if the first stops no further than at the offset `n`, unless
    it stops just there and is excused. -/
def Alike (n : Nat) (X : Cursor → Prop) (x y : Outcome α) : Prop :=
  (final x).offset ≤ n → Same n x y ∨ ((final x).offset = n ∧ Excused X x)

/-- No cursor is an exception. -/
def Never (_ : Cursor) : Prop := False

/-- Wherever texts are the same, so are the outcomes. -/
def Steady (X : Cursor → Prop) (r : Reader α) : Prop :=
  ∀ n c d, c.Shares n d → Alike n X (r.run c) (r.run d)

/-- In a bind the exceptions of the first part are passed, or they are those of the
    whole. -/
theorem Alike.bind {r : Reader α} {f : α → Reader β} (hr : Alike n X (r.run c) (r.run d))
    (hp : ∀ a, Progresses (f a))
    (hf : ∀ a c' d', r.run c = .ok a c' → c'.Shares n d' →
      Alike n Y ((f a).run c') ((f a).run d'))
    (hX : ∀ a c', X c' → c'.offset < (final ((f a).run c')).offset ∨ Excused Y ((f a).run c')) :
    Alike n Y ((r >>= f).run c) ((r >>= f).run d) := by
  intro hn
  rw [run_bind] at hn ⊢
  rw [run_bind]
  cases hx : r.run c with
  | ok a c' =>
    rw [hx] at hr hn
    obtain ⟨w, hw⟩ := hp a c'
    rcases hr (Nat.le_trans hw.offset_le hn) with hsame | ⟨hat, hexcept⟩
    · cases hy : r.run d with
      | ok b d' =>
        rw [hy] at hsame
        obtain ⟨rfl, hshares⟩ := hsame
        exact hf b c' d' hx hshares hn
      | error e d' =>
        rw [hy] at hsame
        exact hsame.elim
    · have hstop : (final ((f a).run c')).offset = n := Nat.le_antisymm hn (hat ▸ hw.offset_le)
      rcases hX a c' hexcept with hpast | hexcused
      · exact absurd (hat.trans hstop.symm) (Nat.ne_of_lt hpast)
      · exact .inr ⟨hstop, hexcused⟩
  | error e c' =>
    rw [hx] at hr hn
    rcases hr hn with hsame | hexcused
    · cases hy : r.run d with
      | ok b d' =>
        rw [hy] at hsame
        exact hsame.elim
      | error e' d' =>
        rw [hy] at hsame
        exact .inl hsame
    · exact .inr hexcused

theorem Steady.bind {r : Reader α} {f : α → Reader β} (hr : Steady Never r)
    (hp : ∀ a, Progresses (f a)) (hf : ∀ a, Steady Y (f a)) : Steady Y (r >>= f) :=
  fun n c d h => (hr n c d h).bind hp (fun a c' d' _ h' => hf a n c' d' h') nofun

/-! ## Readers of single characters -/

theorem steady_pure (a : α) : Steady X (pure a) := fun _ _ _ h _ => .inl ⟨rfl, h⟩

theorem steady_position : Steady X position := fun _ _ _ h _ => .inl ⟨h.offset, h⟩

theorem steady_fail (fault : Fault) : Steady X (fail fault : Reader α) :=
  fun _ c d h _ => .inl ⟨by rw [h.offset], h⟩

theorem steady_failAt (position : Int) (fault : Fault) :
    Steady X (failAt position fault : Reader α) := fun _ _ _ h _ => .inl ⟨rfl, h⟩

theorem steady_unexpected : Steady X (unexpected : Reader α) := by
  intro n c d h
  rw [run_unexpected, run_unexpected]
  exact fun hn => .inl ⟨by rw [h.head? hn, h.offset], h⟩

theorem steady_valueAt (position : Int) (x : Except Fault α) : Steady X (valueAt position x) := by
  cases x with
  | ok a => exact steady_pure a
  | error fault => exact steady_failAt position fault

theorem steady_takeWhile (p : Char → Bool) : Steady X (takeWhile p) := by
  intro n c d h hn
  obtain ⟨hrun, hshares⟩ := h.takeWhile hn
  rw [run_takeWhile, run_takeWhile, hrun]
  exact .inl ⟨rfl, hshares⟩

theorem steady_skipBlanks : Steady X skipBlanks := fun _ _ _ h hn => .inl ⟨rfl, h.pastBlanks hn⟩

theorem steady_skip (a : Char) : Steady X (skip a) := by
  intro n c d h hn
  obtain ⟨w, hw⟩ := progresses_skip a c
  have hc : c.offset ≤ n := Nat.le_trans hw.offset_le hn
  rw [run_skip, run_skip, h.head? hc]
  split
  · rename_i ha
    exact .inl ⟨rfl, h.forward_one hc ha⟩
  · exact .inl ⟨rfl, h⟩

theorem steady_expect (a : Char) (fault : Fault) : Steady X (expect a fault) := by
  have hfound (b : Bool) : Progresses (if b then pure () else fail fault : Reader Unit) := by
    cases b
    · exact progresses_fail fault
    · exact progresses_pure ()
  refine steady_skipBlanks.bind (fun _ => (progresses_skip a).bind hfound) fun _ =>
    (steady_skip a).bind hfound fun b => ?_
  cases b
  · exact steady_fail fault
  · exact steady_pure ()

theorem steady_literal (start : Nat) (whole fraction : List Char) :
    Steady X (literal start whole fraction) := by
  rw [literal]
  split
  · exact steady_failAt _ _
  · exact steady_valueAt _ _

theorem steady_number : Steady X number := by
  have hfraction (pointed : Bool) :
      Progresses (fractionAfter pointed) ∧ Steady Never (fractionAfter pointed) := by
    cases pointed
    · exact ⟨progresses_pure [], steady_pure []⟩
    · exact ⟨progresses_takeWhile _, steady_takeWhile _⟩
  have hliteral (start : Nat) (whole : List Char) (pointed : Bool) :
      Progresses (fractionAfter pointed >>= literal start whole) :=
    (hfraction pointed).1.bind fun fraction => progresses_literal start whole fraction
  have hpointed (start : Nat) (whole : List Char) :
      Progresses (skip '.' >>= fun pointed => fractionAfter pointed >>= literal start whole) :=
    (progresses_skip '.').bind (hliteral start whole)
  rw [number_eq]
  refine steady_position.bind (fun start => (progresses_takeWhile _).bind (hpointed start))
    fun start => (steady_takeWhile _).bind (hpointed start) fun whole =>
      (steady_skip '.').bind (hliteral start whole) fun pointed =>
        (hfraction pointed).2.bind (progresses_literal start whole) fun fraction =>
          steady_literal start whole fraction

/-! ## Powers -/

/-- The cursor is at a star. -/
def AtStar (c : Cursor) : Prop := c.rest.head? = some '*'

/-- At a star the character after it decides whether there is a power sign, and if there
    is none, nothing is passed. -/
theorem powerSign_of_shares (h : c.Shares n d) (hn : (final (powerSign.run c)).offset ≤ n) :
    (∃ b c' d', powerSign.run c = .ok b c' ∧ powerSign.run d = .ok b d' ∧ c'.Shares n d') ∨
      (powerSign.run c = .ok false c ∧ c.offset = n ∧ AtStar c) := by
  have hc : c.offset ≤ n := by
    obtain ⟨w, hw⟩ := progresses_powerSign c
    exact Nat.le_trans hw.offset_le hn
  rw [run_powerSign] at hn ⊢
  rw [run_powerSign, h.head? hc]
  by_cases hcaret : c.rest.head? = some '^'
  · rw [if_pos hcaret, if_pos hcaret]
    exact .inl ⟨true, _, _, rfl, rfl, h.forward_one hc hcaret⟩
  rw [if_neg hcaret] at hn
  rw [if_neg hcaret, if_neg hcaret, h.getElem? 0 hc]
  by_cases hstar : c.rest[0]? = some '*'
  · by_cases hsecond : c.rest[1]? = some '*'
    · -- Both stars are passed, so both are known.
      rw [if_pos ⟨hstar, hsecond⟩] at hn
      have hlen : 2 ≤ c.rest.length := (List.getElem?_eq_some_iff.1 hsecond).1
      have hpast : (c.forward 2).offset = c.offset + 2 := by
        rw [Cursor.forward, List.length_take, Nat.min_eq_left hlen]
      have hbound : c.offset + 2 ≤ n := hpast ▸ hn
      rw [if_pos ⟨hstar, hsecond⟩,
        if_pos ⟨hstar, (h.getElem? 1 (Nat.le_of_succ_le hbound)).trans hsecond⟩]
      exact .inl ⟨true, _, _, rfl, rfl, h.forward hlen (Nat.le_succ_of_le hbound)⟩
    · rw [if_neg fun hboth => hsecond hboth.2]
      rcases Nat.lt_or_eq_of_le hc with hlt | heq
      · rw [if_neg fun hboth => hsecond ((h.getElem? 1 hlt).symm.trans hboth.2)]
        exact .inl ⟨false, _, _, rfl, rfl, h⟩
      · exact .inr ⟨rfl, heq, by rwa [AtStar, List.head?_eq_getElem?]⟩
  · rw [if_neg fun hboth => hstar hboth.1, if_neg fun hboth => hstar hboth.1]
    exact .inl ⟨false, _, _, rfl, rfl, h⟩

variable (m : Elementary) {frames : Nat}

/-- A value that is passed on keeps the exceptions; a fault of it is excused. -/
theorem Steady.valueAt {r : Reader α} {f : α → Except Fault β} (h : Steady X r) (position : Int)
    (hf : ∀ a fault, f a = .error fault → fault.isSyntactic = false) :
    Steady X (r >>= fun a => Reader.valueAt position (f a)) := by
  refine fun n c d hc => (h n c d hc).bind (fun _ => progresses_valueAt _ _)
    (fun a c' d' _ h' => steady_valueAt _ _ n c' d' h') fun a c' hexcept => .inr ?_
  cases hfa : f a with
  | ok b => exact hexcept
  | error fault => exact hf a fault hfa

/-- What follows the primary of a factor. -/
theorem steady_raised (hp : ∀ l, Progresses (read m l frames))
    (h : Steady AtStar (read m .factor frames)) (base : Binary64) :
    Steady AtStar (raised m frames base) := by
  intro n c d hc hn
  have hexponent := h.valueAt (f := power m base) c.offset fun y fault => isSyntactic_of_power
  have hbound : (final (powerSign.run c)).offset ≤ n := by
    rw [raised, run_position_bind, run_bind] at hn
    cases hsign : powerSign.run c with
    | ok b c' =>
      rw [hsign] at hn
      have hafter : Progresses (if b then (do
          let exponent ← read m .factor frames
          Reader.valueAt c.offset (power m base exponent)) else return base) := by
        cases b
        · exact progresses_pure base
        · exact (hp .factor).bind fun _ => progresses_valueAt _ _
      obtain ⟨w, hw⟩ := hafter c'
      exact Nat.le_trans hw.offset_le hn
    | error e c' => rwa [hsign] at hn
  rw [raised, run_position_bind] at hn ⊢
  rw [run_position_bind, hc.offset]
  rcases powerSign_of_shares hc hbound with
    ⟨b, c', d', hsign, hsign', hshares⟩ | ⟨hsign, hat, hstar⟩
  · rw [run_bind_of_ok hsign] at hn ⊢
    rw [run_bind_of_ok hsign']
    cases b
    · exact .inl ⟨rfl, hshares⟩
    · exact hexponent n c' d' hshares hn
  · rw [run_bind_of_ok hsign] at hn ⊢
    exact .inr ⟨hat, hstar⟩

theorem steady_powered (hp : ∀ l, Progresses (read m l frames))
    (hprimary : Steady Never (read m .primary frames))
    (hfactor : Steady AtStar (read m .factor frames)) : Steady AtStar (powered m frames) := by
  rw [powered]
  exact hprimary.bind (fun base => progresses_skipBlanks.bind fun _ => progresses_raised m hp base)
    fun base => steady_skipBlanks.bind (fun _ => progresses_raised m hp base)
      fun _ => steady_raised m hp hfactor base

/-! ## Chains -/

section Chain

variable {operator? : Char → Option Operator} {operand : Reader Binary64}

/-- A chain goes on past an operator that it is at. -/
theorem lt_final_chainTail (hp : Progresses operand) {c : Cursor} (value : Binary64)
    (h : (c.pastBlanks.rest.head?.bind operator?).isSome = true) :
    c.offset < (final ((chainTail operator? operand value).run c)).offset := by
  obtain ⟨operator, ho⟩ := Option.isSome_iff_exists.1 h
  obtain ⟨a, ha, _⟩ := Option.bind_eq_some_iff.1 ho
  rw [run_chainTail hp, ho]
  have htail (z : Binary64) : Progresses (chainTail operator? operand z) :=
    progresses_chainTail hp z
  obtain ⟨w, hw⟩ := (progresses_chainLink hp value c.pastBlanks.offset operator).bind htail
    (c.pastBlanks.forward 1)
  have hpast := c.reaches_pastBlanks.trans (Cursor.reaches_forward_one ha)
  have hlast := hw.offset_le
  rw [hpast.offset, List.length_append, List.length_singleton, ← Nat.add_assoc] at hlast
  exact Nat.lt_of_lt_of_le (Nat.lt_succ_of_le (Nat.le_add_right _ _)) hlast

/-- A link gives the operand its value or fails with it; a chain that is at an exception of
    the operand goes on past it. -/
theorem steady_chainTail (hp : Progresses operand) (h : Steady X operand)
    (hX : ∀ c, X c → (c.pastBlanks.rest.head?.bind operator?).isSome = true) (value : Binary64) :
    Steady Never (chainTail operator? operand value) := by
  have htail (z : Binary64) : Progresses (chainTail operator? operand z) :=
    progresses_chainTail hp z
  intro n c d hc hn
  -- The induction is on what is left of the first text.
  generalize hlen : c.rest.length = k
  induction k using Nat.strongRecOn generalizing value c d with
  | ind k ih =>
    have hpast : c.pastBlanks.offset ≤ n := by
      rw [run_chainTail hp] at hn
      split at hn
      · exact hn
      · rename_i operator ho
        obtain ⟨w, hw⟩ := (progresses_chainLink hp value c.pastBlanks.offset operator).bind htail
          (c.pastBlanks.forward 1)
        exact Nat.le_trans (c.pastBlanks.offset_le_offset_forward 1)
          (Nat.le_trans hw.offset_le hn)
    have hblanks := hc.pastBlanks hpast
    rw [run_chainTail hp] at hn ⊢
    rw [run_chainTail hp, hblanks.head? hpast, hblanks.offset]
    cases ho : c.pastBlanks.rest.head?.bind operator? with
    | none => exact .inl ⟨rfl, hblanks⟩
    | some operator =>
      rw [ho] at hn
      obtain ⟨a, ha, _⟩ := Option.bind_eq_some_iff.1 ho
      have hlink : Steady X (chainLink operand value c.pastBlanks.offset operator) :=
        h.valueAt _ fun y fault => isSyntactic_of_apply
      refine (hlink n _ _ (hblanks.forward_one hpast ha)).bind htail ?_
        (fun z c' hexcept => .inl (lt_final_chainTail hp z (hX c' hexcept))) hn
      intro z c' d' hz hshares hn'
      exact ih c'.rest.length (hlen ▸ length_rest_chainLink_lt hp ho hz) z c' d' hshares hn' rfl

theorem steady_chain (hp : Progresses operand) (h : Steady X operand)
    (hX : ∀ c, X c → (c.pastBlanks.rest.head?.bind operator?).isSome = true) :
    Steady Never (chain operator? operand) := by
  rw [chain_eq]
  exact fun n c d hc => (h n c d hc).bind (progresses_chainTail hp)
    (fun x c' d' _ h' => steady_chainTail hp h hX x n c' d' h')
    fun x c' hexcept => .inl (lt_final_chainTail hp x (hX c' hexcept))

end Chain

/-! ## All levels -/

/-- The exceptions of a level: a factor may stop at a star. -/
def exceptions : Level → Cursor → Prop
  | .factor => AtStar
  | _ => Never

/-- A star is an operator between factors. -/
theorem isSome_of_atStar {c : Cursor} (h : AtStar c) :
    (c.pastBlanks.rest.head?.bind Operator.multiplicative?).isSome = true := by
  have hpast : c.pastBlanks = c := Cursor.pastBlanks_eq_self fun a ha => by
    rw [h] at ha
    rw [← Option.some.inj ha]
    decide
  rw [hpast, h]
  rfl

theorem steady_group (h : Steady Never (read m .expression frames)) :
    Steady Never (group m frames) :=
  h.bind (fun x => (progresses_expect _ _).bind fun _ => progresses_pure x) fun x =>
    (steady_expect _ _).bind (fun _ => progresses_pure x) fun _ => steady_pure x

theorem steady_argument (hp : ∀ l, Progresses (read m l frames))
    (h : Steady Never (read m .expression frames)) (start : Nat) (name : String) :
    Steady Never (argument m frames start name) :=
  (steady_expect _ _).bind
    (fun _ => (hp .expression).bind fun _ => (progresses_expect _ _).bind fun _ =>
      progresses_valueAt _ _)
    fun _ => h.bind (fun _ => (progresses_expect _ _).bind fun _ => progresses_valueAt _ _)
      fun _ => (steady_expect _ _).bind (fun _ => progresses_valueAt _ _)
        fun _ => steady_valueAt _ _

/-- No level looks further ahead than it says. -/
theorem steady_read (frames : Nat) : ∀ l, Steady (exceptions l) (read m l frames) := by
  induction frames with
  | zero =>
    intro l
    rw [read_zero]
    exact steady_fail _
  | succ frames ih =>
    have hp := progresses_read m frames
    intro l
    cases l with
    | expression =>
      rw [read_expression]
      exact steady_chain (hp .term) (ih .term) nofun
    | term =>
      rw [read_term]
      exact steady_chain (hp .factor) (ih .factor) fun c => isSome_of_atStar
    | factor =>
      intro n c d hc hn
      have hneg : Steady AtStar (read m .factor frames >>= fun x => pure (-x)) :=
        (ih .factor).valueAt (f := fun x => .ok (-x)) 0 nofun
      -- Whatever the factor does next, it has passed the blanks by then.
      have hpast : c.pastBlanks.offset ≤ n := by
        rw [run_factor] at hn
        split at hn
        · exact hn
        · split at hn
          · obtain ⟨w, hw⟩ := (hp .factor).bind (fun x => progresses_pure (-x))
              (c.pastBlanks.forward 1)
            exact Nat.le_trans (c.pastBlanks.offset_le_offset_forward 1)
              (Nat.le_trans hw.offset_le hn)
          · obtain ⟨w, hw⟩ := progresses_powered m hp c.pastBlanks
            exact Nat.le_trans hw.offset_le hn
      have hblanks := hc.pastBlanks hpast
      have hend : d.pastBlanks.rest = [] ↔ c.pastBlanks.rest = [] := by
        rw [← List.head?_eq_none_iff, ← List.head?_eq_none_iff, hblanks.head? hpast]
      revert hn
      rw [run_factor, run_factor, hblanks.head? hpast, hblanks.offset]
      by_cases hnone : c.pastBlanks.rest = []
      · rw [if_pos hnone, if_pos (hend.2 hnone)]
        exact fun _ => .inl ⟨rfl, hblanks⟩
      rw [if_neg hnone, if_neg fun h => hnone (hend.1 h)]
      by_cases hminus : c.pastBlanks.rest.head? = some '-'
      · rw [if_pos hminus, if_pos hminus]
        exact hneg n _ _ (hblanks.forward_one hpast hminus)
      · rw [if_neg hminus, if_neg hminus]
        exact steady_powered m hp (ih .primary) (ih .factor) n _ _ hblanks
    | primary =>
      intro n c d hc hn
      obtain ⟨w, hw⟩ := progresses_read m (frames + 1) .primary c
      have hc' : c.offset ≤ n := Nat.le_trans hw.offset_le hn
      revert hn
      rw [run_primary, run_primary, hc.head? hc']
      cases ha : c.rest.head? with
      | none => exact steady_unexpected n c d hc
      | some a =>
        dsimp only
        by_cases hopen : a = '('
        · rw [if_pos hopen, if_pos hopen]
          exact steady_group m (ih .expression) n _ _ (hc.forward_one hc' ha)
        rw [if_neg hopen, if_neg hopen]
        by_cases hletter : a.isAlpha = true
        · rw [if_pos hletter, if_pos hletter]
          exact ih .call n c d hc
        rw [if_neg hletter, if_neg hletter]
        by_cases hnumber : (a.isDigit || a = '.') = true
        · rw [if_pos hnumber, if_pos hnumber]
          exact steady_number n c d hc
        · rw [if_neg hnumber, if_neg hnumber]
          exact steady_unexpected n c d hc
    | call =>
      intro n c d hc hn
      rw [run_call] at hn ⊢
      obtain ⟨w, hw⟩ := progresses_argument m hp c.offset
        (String.ofList (c.rest.takeWhile Char.isAlphanum))
        (c.forward (c.rest.takeWhile Char.isAlphanum).length)
      obtain ⟨hname, hshares⟩ := hc.takeWhile (Nat.le_trans hw.offset_le hn)
      rw [run_call, hname, hc.offset]
      exact steady_argument m hp (ih .expression) _ _ n _ _ hshares hn

theorem steady_atEnd : Steady X atEnd := by
  intro n c d h hn
  have hend : d.rest.isEmpty = c.rest.isEmpty := by
    rw [Bool.eq_iff_iff, List.isEmpty_iff, List.isEmpty_iff, ← List.head?_eq_none_iff,
      ← List.head?_eq_none_iff, h.head? hn]
  exact .inl ⟨hend, h⟩

/-- A whole text is read without looking past where reading stops, unless it fails with
    a fault that is not about what is written. -/
theorem steady_whole (frames : Nat) : Steady Never (whole m frames) := by
  have hend (value : Binary64) (b : Bool) :
      Progresses (if b then return value else unexpected : Reader Binary64) ∧
        Steady Never (if b then return value else unexpected : Reader Binary64) := by
    cases b
    · exact ⟨progresses_unexpected, steady_unexpected⟩
    · exact ⟨progresses_pure value, steady_pure value⟩
  exact (steady_read m frames .expression).bind
    (fun value => progresses_skipBlanks.bind fun _ => progresses_atEnd.bind fun b =>
      (hend value b).1)
    fun value => steady_skipBlanks.bind (fun _ => progresses_atEnd.bind fun b => (hend value b).1)
      fun _ => steady_atEnd.bind (fun b => (hend value b).1) fun b => (hend value b).2

end Reader

end Calculator
