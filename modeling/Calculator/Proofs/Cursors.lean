import Calculator.Proofs.Prefixes

/-!
# Reading by hand

A reader that is worked by hand may be asked for anything at any time: for a piece of the
grammar that does not begin at the cursor, for the next piece after a failure, or to move
past the end. Whatever it is asked for, its cursor stays in the text and does not move back.
A piece of the grammar that has a value has at least one character, so the cursor is then
past it (`Consumes`).

This is said first of the readers, at any cursor; then of a step, whichever it is
(`perform_reaches`, `perform_consumes`); and then of all steps in a row
(`performAll_cursors`).
-/

namespace Calculator

/-- Past one character that is there, the offset is greater. -/
theorem Cursor.offset_lt_forward_one {c : Cursor} {a : Char} (h : c.rest.head? = some a) :
    c.offset < (c.forward 1).offset := by
  rw [(reaches_forward_one h).offset]
  exact Nat.lt_succ_self _

namespace Reader

variable {α β : Type}

/-- Wherever the reader starts, it has a value only further on. -/
def Consumes (r : Reader α) : Prop :=
  ∀ c : Cursor, Ends (r.run c) (fun _ c' => c.offset < c'.offset) fun _ _ => True

/-- What a reader passes is passed from before the cursor, too. -/
theorem Consumes.ends {r : Reader α} (h : Consumes r) {c c₁ : Cursor}
    (hc : c.offset ≤ c₁.offset) :
    Ends (r.run c₁) (fun _ c' => c.offset < c'.offset) fun _ _ => True :=
  (h c₁).imp (fun _ _ hc' => Nat.lt_of_le_of_lt hc hc') fun _ _ => id

/-- A reader that starts past a character stops past it. -/
theorem Progresses.ends_lt {r : Reader α} (h : Progresses r) {c c₁ : Cursor}
    (hc : c.offset < c₁.offset) :
    Ends (r.run c₁) (fun _ c' => c.offset < c'.offset) fun _ _ => True := by
  obtain ⟨w, hw⟩ := h c₁
  cases hr : r.run c₁ with
  | ok a c' =>
    rw [hr] at hw
    exact Nat.lt_of_lt_of_le hc hw.offset_le
  | error e c' => trivial

/-- A bind consumes what its first part does. -/
theorem Consumes.bind {r : Reader α} {f : α → Reader β} (hr : Consumes r)
    (hf : ∀ a, Progresses (f a)) : Consumes (r >>= f) :=
  fun c => (hr c).bind fun a _ hc' => (hf a).ends_lt hc'

theorem consumes_expect (a : Char) (fault : Fault) : Consumes (expect a fault) := by
  intro c
  rw [run_expect]
  split
  · rename_i ha
    exact Nat.lt_of_le_of_lt c.reaches_pastBlanks.offset_le (Cursor.offset_lt_forward_one ha)
  · trivial

/-- A number has a digit, so it has a character. -/
theorem consumes_number : Consumes number := by
  intro c
  have hwhole := c.reaches_takeWhile Char.isDigit
  rw [run_number]
  dsimp only
  split
  · rename_i hpoint
    refine (progresses_literal _ _ _).ends_lt (Nat.lt_of_lt_of_le ?_
      (Cursor.offset_le_offset_forward _ _))
    exact Nat.lt_of_le_of_lt hwhole.offset_le (Cursor.offset_lt_forward_one hpoint)
  · cases hdigits : c.rest.takeWhile Char.isDigit with
    | nil => trivial
    | cons d ds =>
      rw [hdigits] at hwhole
      refine (progresses_literal _ _ _).ends_lt ?_
      rw [hwhole.offset]
      exact Nat.lt_add_of_pos_right (Nat.succ_pos _)

theorem consumes_chain {operator? : Char → Option Operator} {operand : Reader Binary64}
    (hp : Progresses operand) (h : Consumes operand) : Consumes (chain operator? operand) := by
  rw [chain_eq]
  exact h.bind (progresses_chainTail hp)

variable (m : Elementary) (frames : Nat)

theorem consumes_argument (start : Nat) (name : String) :
    Consumes (argument m frames start name) :=
  (consumes_expect _ _).bind fun _ => (progresses_read m frames .expression).bind fun _ =>
    (progresses_expect _ _).bind fun _ => progresses_valueAt _ _

/-- No level has a value without a character. -/
theorem consumes_read : ∀ l, Consumes (read m l frames) := by
  have hp := progresses_read m
  induction frames with
  | zero =>
    intro l c
    rw [read_zero, run_tooDeep]
    trivial
  | succ frames ih =>
    intro l
    cases l with
    | expression =>
      rw [read_expression]
      exact consumes_chain (hp frames .term) (ih .term)
    | term =>
      rw [read_term]
      exact consumes_chain (hp frames .factor) (ih .factor)
    | factor =>
      intro c
      have hpast := c.reaches_pastBlanks.offset_le
      rw [run_factor]
      split
      · trivial
      · -- A sign is a character itself; without one, the primary has to have it.
        split
        · rename_i hminus
          refine Progresses.ends_lt ?_
            (Nat.lt_of_le_of_lt hpast (Cursor.offset_lt_forward_one hminus))
          exact (hp frames .factor).bind fun x => progresses_pure (-x)
        · refine Consumes.ends ?_ hpast
          exact (ih .primary).bind fun base => progresses_skipBlanks.bind fun _ =>
            progresses_raised m (hp frames) base
    | primary =>
      intro c
      rw [run_primary]
      split
      · trivial
      · rename_i a ha
        split
        · exact (progresses_group m (hp frames)).ends_lt (Cursor.offset_lt_forward_one ha)
        · split
          · exact ih .call c
          · split
            · exact consumes_number c
            · trivial
    | call =>
      intro c
      rw [run_call]
      exact (consumes_argument m frames _ _).ends (c.reaches_takeWhile _).offset_le

theorem consumes_whole : Consumes (whole m frames) :=
  (consumes_read m frames .expression).bind fun value => progresses_skipBlanks.bind fun _ =>
    progresses_atEnd.bind fun ended => by
      cases ended
      · exact progresses_unexpected
      · exact progresses_pure value

/-! ## Steps -/

/-- Whether a step asks for a piece of the grammar. -/
def Step.isReading : Step → Bool
  | whole | expression | term | factor | primary | call | number => true
  | _ => false

/-- No step moves the cursor back. -/
theorem Step.progresses_reader (s : Step) : Progresses (s.reader m frames) := by
  have hp := progresses_read m frames
  cases s with
  | whole => exact (progresses_whole m frames).bind fun _ => progresses_pure _
  | expression => exact (hp .expression).bind fun _ => progresses_pure _
  | term => exact (hp .term).bind fun _ => progresses_pure _
  | factor => exact (hp .factor).bind fun _ => progresses_pure _
  | primary => exact (hp .primary).bind fun _ => progresses_pure _
  | call => exact (hp .call).bind fun _ => progresses_pure _
  | number => exact progresses_number.bind fun _ => progresses_pure _
  | powerSign => exact progresses_powerSign.bind fun _ => progresses_pure _
  | skipBlanks => exact progresses_skipBlanks.bind fun _ => progresses_pure _
  | atEnd => exact progresses_atEnd.bind fun _ => progresses_pure _
  | peek ahead => exact (progresses_peek ahead).bind fun _ => progresses_pure _
  | advance count => exact (progresses_advance count).bind fun _ => progresses_pure _
  | power | modulo | checkFinite =>
    exact (progresses_valueAt _ _).bind fun _ => progresses_pure _

/-- A step that asks for a piece of the grammar has a value only further on. -/
theorem Step.consumes_reader {s : Step} (h : s.isReading = true) :
    Consumes (s.reader m frames) := by
  have hc := consumes_read m frames
  cases s with
  | whole => exact (consumes_whole m frames).bind fun _ => progresses_pure _
  | expression => exact (hc .expression).bind fun _ => progresses_pure _
  | term => exact (hc .term).bind fun _ => progresses_pure _
  | factor => exact (hc .factor).bind fun _ => progresses_pure _
  | primary => exact (hc .primary).bind fun _ => progresses_pure _
  | call => exact (hc .call).bind fun _ => progresses_pure _
  | number => exact consumes_number.bind fun _ => progresses_pure _
  | _ => exact absurd h Bool.false_ne_true

/-- Where a step leaves the cursor, whether it is answered or fails. -/
theorem perform_reaches (s : Step) (c : Cursor) :
    ∃ w, c.Reaches w (s.perform m frames c).2 := by
  obtain ⟨w, hw⟩ := s.progresses_reader m frames c
  refine ⟨w, ?_⟩
  rw [Step.perform]
  cases h : (s.reader m frames).run c <;> rwa [h] at hw

theorem perform_consumes {s : Step} (hs : s.isReading = true) {c : Cursor} {x : Answer}
    (h : (s.perform m frames c).1 = .ok x) : c.offset < (s.perform m frames c).2.offset := by
  have hends := Step.consumes_reader m frames hs c
  rw [Step.perform] at h ⊢
  cases hrun : (s.reader m frames).run c with
  | ok y c' =>
    rw [hrun] at hends
    exact hends
  | error e c' =>
    rw [hrun] at h
    cases h

/-! ## Steps in a row -/

/-- All cursors of a run are reached from the first. -/
theorem exists_reaches_of_mem_performAll (steps : List Step) {c c' : Cursor}
    (h : c' ∈ (performAll m frames steps c).map Prod.snd) : ∃ w, c.Reaches w c' := by
  induction steps generalizing c with
  | nil => exact absurd h List.not_mem_nil
  | cons s steps ih =>
    obtain ⟨v, hv⟩ := perform_reaches m frames s c
    rcases List.mem_cons.1 h with rfl | htail
    · exact ⟨v, hv⟩
    · obtain ⟨w, hw⟩ := ih htail
      exact ⟨v ++ w, hv.trans hw⟩

/-- The cursors of a run are in the order of their offsets. -/
theorem pairwise_performAll (steps : List Step) (c : Cursor) :
    (c :: (performAll m frames steps c).map Prod.snd).Pairwise fun c₁ c₂ =>
      c₁.offset ≤ c₂.offset := by
  induction steps generalizing c with
  | nil => exact List.pairwise_singleton _ _
  | cons s steps ih =>
    refine List.pairwise_cons.2 ⟨fun c' hc' => ?_, ih _⟩
    obtain ⟨w, hw⟩ := exists_reaches_of_mem_performAll m frames (s :: steps) hc'
    exact hw.offset_le

/-- Where a step that asks for a piece of the grammar has a value, the cursor before the step
    has a smaller offset than the one after it. -/
theorem exists_offset_lt_of_getElem? {steps : List Step} {c c' : Cursor} {i : Nat} {s : Step}
    {x : Answer} (hs : steps[i]? = some s) (hreading : s.isReading = true)
    (h : (performAll m frames steps c)[i]? = some (.ok x, c')) :
    ∃ c₀, (c :: (performAll m frames steps c).map Prod.snd)[i]? = some c₀ ∧
      c₀.offset < c'.offset := by
  induction steps generalizing c i with
  | nil => exact absurd hs nofun
  | cons s' steps ih =>
    cases i with
    | zero =>
      obtain rfl : s' = s := Option.some.inj hs
      have hperform : s'.perform m frames c = (.ok x, c') := Option.some.inj h
      have hlt := perform_consumes m frames hreading (congrArg Prod.fst hperform)
      rw [hperform] at hlt
      exact ⟨c, rfl, hlt⟩
    | succ i => exact ih hs h

/-- Every step is answered, also after failures. -/
theorem length_performAll (steps : List Step) (c : Cursor) :
    (performAll m frames steps c).length = steps.length := by
  induction steps generalizing c with
  | nil => rfl
  | cons s steps ih => exact congrArg Nat.succ (ih _)

/-- A text may be worked by any steps in any order, and they are answered one by one, also
    after failures. The cursor is always in the text and never moves back, and where a piece
    of the grammar has a value, the cursor has moved on. -/
theorem performAll_cursors (s : String) (steps : List Step) :
    let answers := performAll m frames steps (Cursor.start s)
    let cursors := Cursor.start s :: answers.map Prod.snd
    answers.length = steps.length ∧
      (∀ c ∈ cursors, c.offset ≤ s.length ∧ c.rest = s.toList.drop c.offset) ∧
      (cursors.Pairwise fun c c' => c.offset ≤ c'.offset) ∧
      ∀ (i : Nat) (step : Step) (x : Answer) (c' : Cursor),
        steps[i]? = some step → step.isReading = true → answers[i]? = some (.ok x, c') →
          ∃ c, cursors[i]? = some c ∧ c.offset < c'.offset := by
  intro answers cursors
  refine ⟨length_performAll m frames steps _, fun c hc => ?_, pairwise_performAll m frames steps _,
    fun i step x c' hs hreading h => exists_offset_lt_of_getElem? m frames hs hreading h⟩
  obtain ⟨w, hw⟩ : ∃ w, (Cursor.start s).Reaches w c := by
    rcases List.mem_cons.1 hc with rfl | htail
    · exact ⟨[], .refl _⟩
    · exact exists_reaches_of_mem_performAll m frames steps htail
  have hbound : c.offset ≤ (Cursor.start s).finish := hw.finish_eq ▸ c.offset_le_finish
  refine ⟨?_, congrArg Cursor.rest (Cursor.eq_of_reaches_start hw)⟩
  rwa [Cursor.finish, Cursor.start, Nat.zero_add, String.length_toList] at hbound

/-- Two numbers are no sentence, but after the failure the second can be read, and the cursor
    moves past it. -/
theorem performAll_cursors_afterFailure :
    let answers := performAll .plain 1000 [.whole, .number] (Cursor.start "1 2")
    (answers.map fun a => (a.1.toOption, a.2)) =
        [(none, ⟨2, ['2']⟩), (some (.value (.one + .one)), ⟨3, []⟩)] ∧
      ∃ c, (Cursor.start "1 2" :: answers.map Prod.snd)[1]? = some c ∧ c.offset < 3 := by
  intro answers
  have h : (answers.map fun a => (a.1.toOption, a.2)) =
      [(none, ⟨2, ['2']⟩), (some (.value (.one + .one)), ⟨3, []⟩)] := by decide +kernel
  have hsecond := congrArg (·[1]?) h
  rw [List.getElem?_map] at hsecond
  obtain ⟨⟨outcome, c'⟩, hanswer, hpair⟩ := Option.map_eq_some_iff.1 hsecond
  obtain ⟨houtcome, rfl⟩ := Prod.mk.inj hpair
  cases outcome with
  | ok x =>
    exact ⟨h, (performAll_cursors .plain 1000 "1 2" [.whole, .number]).2.2.2 1 .number x _
      rfl rfl hanswer⟩
  | error e => cases houtcome

end Reader

end Calculator
