import Calculator.Evaluator
import Calculator.Proofs.Frames

/-!
# Frames that are in use

The readers stop when they have no frame left. Here they are given again without such a
limit, and count how many of their frames are in use at once. What a reader does in its
frame is said by what the readers do that it calls (`Meter.body`), and these calls can be
unrolled as far as one likes (`Meter.read`). An outcome that is there at some depth of
unrolling is there at every greater one (`Meter.read_le`): it is what the readers come to
when nothing limits them.

A limit does nothing but replace an outcome. A reader with a number of frames does the
same as the one without a limit, if the count does not go beyond that number, and
otherwise the nesting is too deep for it, whatever comes out without the limit
(`Meter.bounds_read`). As there is a number of frames that is enough, there is an outcome
without a limit for every text (`Meter.exists_whole`).
-/

namespace Calculator

open Reader

/-- A reader that need not come to an end, and keeps beside the cursor the most frames that
    were in use at once. -/
abbrev Meter := ExceptT Located (StateT (Cursor × Nat) Option)

namespace Meter

variable {α β : Type}

/-- The value or the fault of an outcome. -/
def result : Outcome α → Except Located α
  | .ok a _ => .ok a
  | .error e _ => .error e

/-- A reader that opens no frame. -/
def quiet (r : Reader α) : Meter α := fun s =>
  some (result (r.run s.1), final (r.run s.1), s.2)

/-- Goes on with a chain whose value is `value` so far. It opens no frame. -/
def links (operator? : Char → Option Operator) (operand : Meter Binary64) :
    (left : List Char) → (value : Binary64) → Meter Binary64
  | [], value => return value
  | _ :: left, value => do
    quiet skipBlanks
    match (← quiet (peek 0)).bind operator? with
    | none => return value
    | some operator =>
      let start ← quiet position
      quiet (advance 1)
      let next ← operand
      let value ← quiet (valueAt start (operator.apply value next))
      links operator? operand left value

variable (m : Elementary)

/-- What the reader of a level does in its frame, if it calls the readers `called`. -/
def body (called : Level → Meter Binary64) : Level → Meter Binary64
  | .expression => do
    let first ← called .term
    links Operator.additive? (called .term) (← get).1.rest first
  | .term => do
    let first ← called .factor
    links Operator.multiplicative? (called .factor) (← get).1.rest first
  | .factor => do
    quiet skipBlanks
    if ← quiet atEnd then quiet (fail .unexpectedEnd)
    else if ← quiet (skip '-') then return -(← called .factor)
    else
      let base ← called .primary
      quiet skipBlanks
      let start ← quiet position
      if ← quiet powerSign then
        let exponent ← called .factor
        quiet (valueAt start (power m base exponent))
      else return base
  | .primary => do
    match ← quiet (peek 0) with
    | none => quiet unexpected
    | some c =>
      if c = '(' then
        quiet (advance 1)
        let value ← called .expression
        quiet (expect ')' (.unclosed false))
        return value
      else if c.isAlpha then called .call
      else if c.isDigit || c = '.' then quiet number
      else quiet unexpected
  | .call => do
    let start ← quiet position
    let name := String.ofList (← quiet (takeWhile Char.isAlphanum))
    quiet (expect '(' (.uncalled name))
    let argument ← called .expression
    quiet (expect ')' (.unclosed true))
    quiet (valueAt start (applyNamed m name argument))

/-- Opens a frame for the reader of a level. Within it, frames are counted afresh; it adds
    itself to them. Its calls are unrolled so deep; below that nothing is said of what they
    come to. -/
def read : (unrolled : Nat) → Level → Meter Binary64
  | 0, _ => fun _ => none
  | unrolled + 1, l => fun outer => do
    let (x, inner) ← body m (read unrolled) l (outer.1, 0)
    return (x, inner.1, max outer.2 (inner.2 + 1))

/-- A whole text. -/
def whole (unrolled : Nat) : Meter Binary64 := do
  let value ← read m unrolled .expression
  quiet skipBlanks
  if ← quiet atEnd then return value else quiet unexpected

/-! ## How meters run -/

theorem run_bind_of_ok {t : Meter α} {s s' : Cursor × Nat} {a : α} (h : t s = some (.ok a, s'))
    (g : α → Meter β) : (t >>= g) s = g a s' := by
  show (t s).bind _ = _
  rw [h]
  rfl

theorem run_bind_of_error {t : Meter α} {s s' : Cursor × Nat} {e : Located}
    (h : t s = some (.error e, s')) (g : α → Meter β) : (t >>= g) s = some (.error e, s') := by
  show (t s).bind _ = _
  rw [h]
  rfl

theorem run_bind_of_none {t : Meter α} {s : Cursor × Nat} (h : t s = none) (g : α → Meter β) :
    (t >>= g) s = none := by
  show (t s).bind _ = _
  rw [h]
  rfl

/-- A frame is opened, and counted with those that are opened within it. -/
theorem run_read_succ (unrolled : Nat) (l : Level) (s : Cursor × Nat) :
    read m (unrolled + 1) l s =
      (body m (read m unrolled) l (s.1, 0)).map fun y => (y.1, y.2.1, max s.2 (y.2.2 + 1)) := by
  show (body m (read m unrolled) l (s.1, 0)).bind _ = _
  cases body m (read m unrolled) l (s.1, 0) <;> rfl

/-! ## Unrolling -/

/-- What the first meter comes to, the second does too. -/
def Below (t t' : Meter α) : Prop := ∀ s y, t s = some y → t' s = some y

theorem Below.refl (t : Meter α) : Below t t := fun _ _ h => h

theorem Below.bind {t t' : Meter α} {g g' : α → Meter β} (ht : Below t t')
    (hg : ∀ a, Below (g a) (g' a)) : Below (t >>= g) (t' >>= g') := by
  intro s y hy
  cases h : t s with
  | none =>
    rw [run_bind_of_none h] at hy
    cases hy
  | some x =>
    have h' := ht s x h
    obtain ⟨e | a, s'⟩ := x
    · rw [run_bind_of_error h] at hy
      rw [run_bind_of_error h', hy]
    · rw [run_bind_of_ok h] at hy
      rw [run_bind_of_ok h']
      exact hg a s' y hy

theorem below_links (operator? : Char → Option Operator) {operand operand' : Meter Binary64}
    (h : Below operand operand') (left : List Char) (value : Binary64) :
    Below (links operator? operand left value) (links operator? operand' left value) := by
  induction left generalizing value with
  | nil => exact .refl _
  | cons a left ih =>
    refine (Below.refl _).bind fun _ => (Below.refl _).bind fun next => ?_
    cases next.bind operator? with
    | none => exact .refl _
    | some operator =>
      exact (Below.refl _).bind fun start => (Below.refl _).bind fun _ =>
        h.bind fun y => (Below.refl _).bind ih

theorem below_body {called called' : Level → Meter Binary64}
    (h : ∀ l, Below (called l) (called' l)) (l : Level) :
    Below (body m called l) (body m called' l) := by
  cases l with
  | expression =>
    exact (h .term).bind fun first => (Below.refl _).bind fun s =>
      below_links _ (h .term) s.1.rest first
  | term =>
    exact (h .factor).bind fun first => (Below.refl _).bind fun s =>
      below_links _ (h .factor) s.1.rest first
  | factor =>
    refine (Below.refl _).bind fun _ => (Below.refl _).bind fun ended => ?_
    cases ended
    · refine (Below.refl _).bind fun minus => ?_
      cases minus
      · refine (h .primary).bind fun base => (Below.refl _).bind fun _ =>
          (Below.refl _).bind fun start => (Below.refl _).bind fun sign => ?_
        cases sign
        · exact .refl _
        · exact (h .factor).bind fun y => .refl _
      · exact (h .factor).bind fun x => .refl _
    · -- The branches that are not taken differ, and are best left out of the comparison.
      rw [if_pos rfl, if_pos rfl]
      exact .refl _
  | primary =>
    refine (Below.refl _).bind fun next => ?_
    cases next with
    | none => exact .refl _
    | some a =>
      dsimp only
      split
      · exact (Below.refl _).bind fun _ => (h .expression).bind fun value => .refl _
      · split
        · exact h .call
        · exact .refl _
  | call =>
    exact (Below.refl _).bind fun start => (Below.refl _).bind fun name =>
      (Below.refl _).bind fun _ => (h .expression).bind fun x => .refl _

/-- Unrolling the calls deeper takes no outcome back. -/
theorem read_le {n n' : Nat} (hn : n ≤ n') (l : Level) : Below (read m n l) (read m n' l) := by
  induction n generalizing n' l with
  | zero =>
    intro s y h
    cases h
  | succ n ih =>
    obtain ⟨n', rfl⟩ := Nat.exists_eq_add_one.2 (Nat.lt_of_lt_of_le (Nat.succ_pos n) hn)
    intro s y hy
    rw [run_read_succ] at hy ⊢
    obtain ⟨x, hx, hxy⟩ := Option.map_eq_some_iff.1 hy
    have hx' := below_body m (fun l => ih (Nat.le_of_succ_le_succ hn) l) l _ x hx
    exact Option.map_eq_some_iff.2 ⟨x, hx', hxy⟩

theorem whole_le {n n' : Nat} (hn : n ≤ n') : Below (whole m n) (whole m n') :=
  (read_le m hn .expression).bind fun _ => .refl _

/-! ## Limits -/

/-- With a number of frames, the reader does what the meter does, and no more frames are
    counted; or the nesting is too deep for it, and the meter, if it comes to an end, counts
    more frames than there are. -/
def Bounds (frames : Nat) (t : Meter α) (r : Reader α) : Prop :=
  ∀ c n,
    (∃ k, t (c, n) = some (result (r.run c), final (r.run c), k) ∧ n ≤ k ∧
      (n ≤ frames → k ≤ frames)) ∨
    (TooDeep (r.run c) ∧ ∀ x s, t (c, n) = some (x, s) → n ≤ s.2 ∧ frames < s.2)

variable {m} {frames : Nat}

theorem bounds_quiet (r : Reader α) : Bounds frames (quiet r) r :=
  fun _ n => .inl ⟨n, rfl, Nat.le_refl n, id⟩

theorem bounds_pure (a : α) : Bounds frames (pure a) (pure a) :=
  fun _ n => .inl ⟨n, rfl, Nat.le_refl n, id⟩

theorem Bounds.bind {t : Meter α} {r : Reader α} {g : α → Meter β} {f : α → Reader β}
    (h : Bounds frames t r) (hf : ∀ a, Bounds frames (g a) (f a)) :
    Bounds frames (t >>= g) (r >>= f) := by
  intro c n
  rw [Reader.run_bind]
  rcases h c n with ⟨k, ht, hnk, hk⟩ | ⟨⟨p, c', hr⟩, ht⟩
  · cases hr : r.run c with
    | error e c' =>
      rw [hr] at ht
      exact .inl ⟨k, run_bind_of_error ht g, hnk, hk⟩
    | ok a c' =>
      rw [hr] at ht
      rw [run_bind_of_ok ht g]
      rcases hf a c' k with ⟨k', hg, hkk', hk'⟩ | ⟨hdeep, hg⟩
      · exact .inl ⟨k', hg, Nat.le_trans hnk hkk', fun hn => hk' (hk hn)⟩
      · exact .inr ⟨hdeep, fun x s hx => ⟨Nat.le_trans hnk (hg x s hx).1, (hg x s hx).2⟩⟩
  · rw [hr]
    refine .inr ⟨⟨p, c', rfl⟩, fun x s hx => ?_⟩
    cases hmeter : t (c, n) with
    | none =>
      rw [run_bind_of_none hmeter] at hx
      exact absurd hx nofun
    | some y =>
      obtain ⟨y | a, c₁, k⟩ := y
      · rw [run_bind_of_error hmeter] at hx
        obtain rfl := (Prod.mk.inj (Option.some.inj hx)).2
        exact ht _ _ hmeter
      · -- The meter goes on past the nesting that is too deep; what it counted stays.
        rw [run_bind_of_ok hmeter] at hx
        obtain ⟨hnk, hk⟩ := ht _ _ hmeter
        have hks : k ≤ s.2 := by
          rcases hf a c₁ k with ⟨k', hg, hkk', _⟩ | ⟨_, hg⟩
          · rw [hg] at hx
            rw [← (Prod.mk.inj (Option.some.inj hx)).2]
            exact hkk'
          · exact (hg x s hx).1
        exact ⟨Nat.le_trans hnk hks, Nat.lt_of_lt_of_le hk hks⟩

theorem bounds_get {g : Cursor × Nat → Meter β} {f : Cursor → Reader β}
    (h : ∀ s, Bounds frames (g s) (f s.1)) : Bounds frames (get >>= g) (get >>= f) :=
  fun c n => h (c, n) c n

/-- One frame more for the reader is one more that may be counted. -/
theorem bounds_frame {unrolled : Nat} {l : Level} {r : Reader Binary64}
    (h : Bounds frames (body m (read m unrolled) l) r) :
    Bounds (frames + 1) (read m (unrolled + 1) l) r := by
  intro c n
  rw [run_read_succ]
  rcases h c 0 with ⟨k, ht, _, hk⟩ | ⟨hdeep, ht⟩
  · have hcount := hk (Nat.zero_le _)
    exact .inl ⟨max n (k + 1), by rw [ht]; rfl, Nat.le_max_left _ _, fun hn => by omega⟩
  · refine .inr ⟨hdeep, fun x s hx => ?_⟩
    obtain ⟨y, hy, hxs⟩ := Option.map_eq_some_iff.1 hx
    have hcount := (ht _ _ hy).2
    rw [← (Prod.mk.inj hxs).2]
    exact ⟨Nat.le_max_left _ _, Nat.lt_of_lt_of_le (Nat.succ_lt_succ hcount) (Nat.le_max_right _ _)⟩

theorem bounds_links (operator? : Char → Option Operator) {operand : Meter Binary64}
    {operand' : Reader Binary64} (h : Bounds frames operand operand') (left : List Char)
    (value : Binary64) :
    Bounds frames (links operator? operand left value)
      (chainFrom operator? operand' left value) := by
  induction left generalizing value with
  | nil => exact bounds_pure value
  | cons a left ih =>
    refine (bounds_quiet _).bind fun _ => (bounds_quiet _).bind fun next => ?_
    cases next.bind operator? with
    | none => exact bounds_pure value
    | some operator =>
      exact (bounds_quiet _).bind fun start => (bounds_quiet _).bind fun _ =>
        h.bind fun y => (bounds_quiet _).bind ih

theorem bounds_body {called : Level → Meter Binary64}
    (h : ∀ l, Bounds frames (called l) (Reader.read m l frames)) (l : Level) :
    Bounds frames (body m called l) (Reader.read m l (frames + 1)) := by
  cases l with
  | expression =>
    exact (h .term).bind fun first => bounds_get fun s =>
      bounds_links _ (h .term) s.1.rest first
  | term =>
    exact (h .factor).bind fun first => bounds_get fun s =>
      bounds_links _ (h .factor) s.1.rest first
  | factor =>
    refine (bounds_quiet _).bind fun _ => (bounds_quiet _).bind fun ended => ?_
    cases ended
    · refine (bounds_quiet _).bind fun minus => ?_
      cases minus
      · refine (h .primary).bind fun base => (bounds_quiet _).bind fun _ =>
          (bounds_quiet _).bind fun start => (bounds_quiet _).bind fun sign => ?_
        cases sign
        · exact bounds_pure base
        · exact (h .factor).bind fun y => bounds_quiet _
      · exact (h .factor).bind fun x => bounds_pure (-x)
    · exact bounds_quiet (Reader.fail .unexpectedEnd)
  | primary =>
    refine (bounds_quiet _).bind fun next => ?_
    cases next with
    | none => exact bounds_quiet _
    | some a =>
      dsimp only
      split
      · exact (bounds_quiet _).bind fun _ => (h .expression).bind fun value =>
          (bounds_quiet _).bind fun _ => bounds_pure value
      · split
        · exact h .call
        · split
          · exact bounds_quiet _
          · exact bounds_quiet _
  | call =>
    exact (bounds_quiet _).bind fun start => (bounds_quiet _).bind fun name =>
      (bounds_quiet _).bind fun _ => (h .expression).bind fun x =>
        (bounds_quiet _).bind fun _ => bounds_quiet _

variable (m)

/-- The readers with frames do what those without a limit do, up to the frames that they
    have. -/
theorem bounds_read {unrolled : Nat} (hframes : frames ≤ unrolled) (l : Level) :
    Bounds frames (read m unrolled l) (Reader.read m l frames) := by
  induction frames generalizing unrolled l with
  | zero =>
    intro c n
    rw [read_zero]
    refine .inr ⟨⟨_, _, rfl⟩, fun x s hx => ?_⟩
    cases unrolled with
    | zero => cases hx
    | succ unrolled =>
      rw [run_read_succ] at hx
      obtain ⟨y, _, hxs⟩ := Option.map_eq_some_iff.1 hx
      rw [← (Prod.mk.inj hxs).2]
      exact ⟨Nat.le_max_left _ _, Nat.lt_of_lt_of_le (Nat.succ_pos _) (Nat.le_max_right _ _)⟩
  | succ frames ih =>
    cases unrolled with
    | zero => exact absurd hframes (Nat.not_succ_le_zero _)
    | succ unrolled =>
      exact bounds_frame (bounds_body (fun l => ih (Nat.le_of_succ_le_succ hframes) l) l)

theorem bounds_whole {unrolled : Nat} (hframes : frames ≤ unrolled) :
    Bounds frames (whole m unrolled) (Reader.whole m frames) := by
  refine (bounds_read m hframes .expression).bind fun value => (bounds_quiet _).bind fun _ =>
    (bounds_quiet _).bind fun ended => ?_
  cases ended
  · exact bounds_quiet unexpected
  · exact bounds_pure value

/-- Without a limit a text is read to one outcome, in which the nesting is not too deep, and
    with one count. A reader with at least as many frames has the same outcome, and for one
    with less the nesting is too deep. -/
theorem exists_whole (c : Cursor) :
    ∃ x c' peak, (∀ y, (∃ unrolled, whole m unrolled (c, 0) = some y) ↔
        y = (result x, c', peak)) ∧ ¬ TooDeep x ∧
      ∀ frames, (peak ≤ frames → result ((Reader.whole m frames).run c) = result x) ∧
        (frames < peak → TooDeep ((Reader.whole m frames).run c)) := by
  let enough := 5 * c.rest.length + 5
  have henough := (fits_whole m c (Nat.le_refl enough)).not_tooDeep
  rcases bounds_whole m (Nat.le_refl enough) c 0 with ⟨peak, hmeter, _⟩ | ⟨hdeep, _⟩
  · refine ⟨_, final ((Reader.whole m enough).run c), peak, fun y => ⟨?_, ?_⟩, henough,
      fun frames => ?_⟩
    · rintro ⟨unrolled, hy⟩
      have hleft := whole_le m (Nat.le_max_left unrolled enough) _ _ hy
      have hright := whole_le m (Nat.le_max_right unrolled enough) _ _ hmeter
      exact Option.some.inj (hleft.symm.trans hright)
    · rintro rfl
      exact ⟨enough, hmeter⟩
    · have hmeter := whole_le m (Nat.le_max_right frames enough) _ _ hmeter
      rcases bounds_whole m (Nat.le_max_left frames enough) c 0 with ⟨k, hk, _, hle⟩ | ⟨hdeep, hlt⟩
      · -- The same count twice: it stays within the frames, and both give the meter's outcome.
        rw [hmeter] at hk
        obtain ⟨hresult, hrest⟩ := Prod.mk.inj (Option.some.inj hk)
        have hpeak : peak ≤ frames := (Prod.mk.inj hrest).2 ▸ hle (Nat.zero_le _)
        exact ⟨fun _ => hresult.symm, fun hlt => absurd hpeak (Nat.not_le_of_lt hlt)⟩
      · have hpeak := (hlt _ _ hmeter).2
        exact ⟨fun hle => absurd hle (Nat.not_le_of_lt hpeak), fun _ => hdeep⟩
  · exact absurd hdeep henough

end Meter

/-- Without a limit on frames an evaluation comes to an outcome, however deep its calls
    have to be unrolled for it, and `peak` is the most frames that are in use at once. -/
def Evaluator.Unlimited (v : Evaluator) (text : String) (outcome : Except Failure Binary64)
    (peak : Nat) : Prop :=
  ∃ unrolled x c, Meter.whole v.machine unrolled (Cursor.start text, 0) = some (x, c, peak) ∧
    x.mapError (v.failure text) = outcome

/-- An evaluation ends as its reader does. -/
theorem Evaluator.evaluate_eq_result (v : Evaluator) (text : String) :
    v.evaluate text =
      (Meter.result ((whole v.machine v.frames).run (Cursor.start text))).mapError
        (v.failure text) := by
  rw [evaluate]
  cases (whole v.machine v.frames).run (Cursor.start text) <;> rfl

end Calculator
