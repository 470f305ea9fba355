import Calculator.Evaluator
import Calculator.Proofs.Follow
import Calculator.Proofs.Machines
import Calculator.Proofs.Nodes

/-!
# Sentences are read as their trees

A reader that stands at the text of a tree, followed by what may follow the tree, and
has as many frames as the tree is deep, gives the denotation of the tree: the value,
and then it stands past the text and the blanks after it; or the fault, which is that
of the first node that fails.

Trees lean to the left and are read from the left on, so a chain is followed up to
each of its operands in turn: `Follow` says that a chain has been read that far, with
the denotation of the tree up to there (`ChainReads.link`).
-/

namespace Calculator

open Grammar

namespace Reader

variable {α β : Type}

/-- The outcome is a denotation: its value with the cursor `c` after it, or its
    fault. -/
def Gives (x : Outcome α) (d : Except Located α) (c : Cursor) : Prop :=
  match d with
  | .ok a => x = .ok a c
  | .error e => ∃ c', x = .error e c'

theorem gives_pure (a : α) (c : Cursor) : Gives ((pure a : Reader α).run c) (pure a) c := rfl

/-- Readers are bound as denotations are. -/
theorem Gives.bind {r : Reader α} {f : α → Reader β} {c c₁ c₂ : Cursor} {d : Except Located α}
    {g : α → Except Located β} (h : Gives (r.run c) d c₁)
    (hf : ∀ a, Gives ((f a).run c₁) (g a) c₂) : Gives ((r >>= f).run c) (d >>= g) c₂ := by
  cases d with
  | ok a =>
    rw [run_bind_of_ok h]
    exact hf a
  | error e =>
    obtain ⟨c', hc'⟩ := h
    exact ⟨c', run_bind_of_error hc' f⟩

/-- What is computed at a place is denoted there. -/
theorem gives_valueAt (position : Nat) (x : Except Fault α) (c : Cursor) :
    Gives ((valueAt position x).run c) (locate position x) c := by
  cases x with
  | ok a => rfl
  | error fault => exact ⟨c, rfl⟩

/-! ## Chains -/

section Chain

variable {operator? : Char → Option Operator} {operand : Reader Binary64}

variable (operator? operand) in
/-- A chain read from `c` on has come to `c'`, with the denotation `d` so far: however
    it goes on from there, so does the whole. -/
def ChainReads (c : Cursor) (d : Except Located Binary64) (c' : Cursor) : Prop :=
  ∀ (g : Binary64 → Except Located Binary64) (c₂ : Cursor),
    (∀ x, Gives ((chainTail operator? operand x).run c') (g x) c₂) →
      Gives ((chain operator? operand).run c) (d >>= g) c₂

theorem ChainReads.first {c c' : Cursor} {d : Except Located Binary64}
    (h : Gives (operand.run c) d c') : ChainReads operator? operand c d c' := by
  intro g c₂ hg
  rw [chain_eq]
  exact h.bind hg

/-- A chain that has come to blanks and an operator comes to the end of its operand. -/
theorem ChainReads.link (hp : Progresses operand) {c c₂ : Cursor} {k : Nat} {s : List Char}
    {d d' : Except Located Binary64} (b : Blanks) {o : Operator} (ho : operator? o.char = some o)
    (h : ChainReads operator? operand c d (Cursor.mk k (b.1 ++ o.char :: s)).pastBlanks)
    (h' : Gives (operand.run ⟨k + b.1.length + 1, s⟩) d' c₂) :
    ChainReads operator? operand c
      (do let x ← d; let y ← d'; locate (k + b.1.length) (o.apply x y)) c₂ := by
  have hpast := Cursor.pastBlanks_append_cons k b.2 o.isBlank_char s
  intro g c₃ hg
  rw [bind_assoc]
  refine h _ c₃ fun x => ?_
  rw [run_chainTail hp, Cursor.pastBlanks_pastBlanks, hpast, List.head?_cons, Option.bind_some, ho]
  exact (h'.bind fun y => gives_valueAt _ _ _).bind hg

/-- A chain ends where no operator of its table stands. -/
theorem ChainReads.gives (hp : Progresses operand) {c : Cursor} {k : Nat} {r : List Char}
    {d : Except Located Binary64}
    (h : ChainReads operator? operand c d (Cursor.mk k r).pastBlanks)
    (ho : (r.dropWhile Text.isBlank).head?.bind operator? = none) :
    Gives ((chain operator? operand).run c) d (Cursor.mk k r).pastBlanks := by
  have hend := h pure (Cursor.mk k r).pastBlanks fun x => by
    rw [run_chainTail hp, Cursor.pastBlanks_pastBlanks, Cursor.rest_pastBlanks, ho]
    exact gives_pure x _
  rwa [bind_pure] at hend

end Chain

/-! ## Numbers -/

/-- A numeral that is not followed by what could belong to it is read as a whole. -/
theorem gives_number (n : Numeral) {r : List Char}
    (hdigit : ∀ a, r.head? = some a → a.isDigit = false) (hpoint : r.head? ≠ some '.') (k : Nat) :
    Gives (number.run ⟨k, n.chars ++ r⟩) (locate k n.value) ⟨k + n.chars.length, r⟩ := by
  rw [run_number]
  cases n with
  | whole digits h =>
    obtain ⟨ds, hds⟩ := digits
    have hne : ds.isEmpty = false := by simpa using h
    have hrun : (ds ++ r).takeWhile Char.isDigit = ds :=
      Text.takeWhile_append_of_head? hds hdigit
    dsimp only [Numeral.chars]
    rw [Cursor.forward_takeWhile_append k hds hdigit, if_neg hpoint, hrun, literal,
      hne, Bool.false_and, if_neg Bool.false_ne_true]
    exact gives_valueAt ..
  | pointed digits fraction h =>
    obtain ⟨ds, hds⟩ := digits
    obtain ⟨fs, hfs⟩ := fraction
    have hne : (ds.isEmpty && fs.isEmpty) = false := by
      rw [Bool.and_eq_false_iff]
      simpa using h
    have hstop : ∀ a, ('.' :: fs ++ r).head? = some a → a.isDigit = false := by
      intro a ha
      rw [← Option.some.inj ha]
      rfl
    have hrun : (ds ++ ('.' :: fs ++ r)).takeWhile Char.isDigit = ds :=
      Text.takeWhile_append_of_head? hds hstop
    have hfraction : (fs ++ r).takeWhile Char.isDigit = fs :=
      Text.takeWhile_append_of_head? hfs hdigit
    dsimp only [Numeral.chars]
    have hfirst : (Cursor.mk (k + ds.length) ('.' :: fs ++ r)).forward 1 =
        ⟨k + ds.length + 1, fs ++ r⟩ := rfl
    rw [List.append_assoc, Cursor.forward_takeWhile_append k hds hstop, if_pos (by rfl), hrun,
      hfirst, Cursor.forward_takeWhile_append _ hfs hdigit, hfraction, literal, hne,
      if_neg Bool.false_ne_true]
    have hlen : k + (ds ++ '.' :: fs).length = k + ds.length + 1 + fs.length := by
      rw [List.length_append, List.length_cons]
      omega
    rw [hlen]
    exact gives_valueAt ..

end Reader

namespace Grammar

/-! ## Trees have levels -/

theorem Term.depth_pos (t : Term) : 0 < t.depth := by
  cases t with
  | factor f => exact Nat.succ_pos _
  | join t before o f => exact Nat.lt_of_lt_of_le (Nat.succ_pos _) (Nat.le_max_right ..)

theorem Expression.depth_pos (e : Expression) : 0 < e.depth := by
  cases e with
  | term t => exact Nat.succ_pos _
  | join e before o t => exact Nat.lt_of_lt_of_le (Nat.succ_pos _) (Nat.le_max_right ..)

theorem Factor.depth_pos (f : Factor) : 0 < f.depth := by
  cases f <;> exact Nat.succ_pos _

theorem Primary.depth_pos (p : Primary) : 0 < p.depth := by
  cases p <;> exact Nat.succ_pos _

end Grammar

namespace Reader

/-! ## Trees are read -/

variable (m : Elementary)

/-- A character that was expected is passed with the blanks before it. -/
theorem run_expect_append {a : Char} (ha : Text.isBlank a = false) (fault : Fault) (k : Nat)
    (b : Blanks) (r : List Char) :
    (expect a fault).run ⟨k, b.1 ++ a :: r⟩ = .ok () ⟨k + b.1.length + 1, r⟩ := by
  rw [run_expect, Cursor.pastBlanks_append_cons k b.2 ha, if_pos (by rfl)]
  rfl

theorem run_expect_pastBlanks (a : Char) (fault : Fault) (c : Cursor) :
    (expect a fault).run c.pastBlanks = (expect a fault).run c := by
  rw [run_expect, run_expect, Cursor.pastBlanks_pastBlanks]

section

variable {frames k : Nat} {e : Expression} {before : Blanks} {r : List Char}

/-- A group is read, past its parenthesis, as its expression. -/
theorem gives_group
    (h : Gives ((read m .expression frames).run ⟨k, e.chars ++ (before.1 ++ ')' :: r)⟩)
      (e.denote m k) (Cursor.mk (k + e.chars.length) (before.1 ++ ')' :: r)).pastBlanks) :
    Gives ((group m frames).run ⟨k, e.chars ++ (before.1 ++ ')' :: r)⟩) (e.denote m k)
      ⟨k + e.chars.length + before.1.length + 1, r⟩ := by
  rw [group, ← bind_pure (e.denote m k)]
  refine h.bind fun x => ?_
  rw [run_bind, run_expect_pastBlanks, run_expect_append (by decide)]
  exact gives_pure x _

/-- A call is read, past its name, as its argument and the application. -/
theorem gives_argument {start : Nat} {name : String} {between : Blanks}
    (h : Gives ((read m .expression frames).run
        ⟨k + between.1.length + 1, e.chars ++ (before.1 ++ ')' :: r)⟩)
      (e.denote m (k + between.1.length + 1))
      (Cursor.mk (k + between.1.length + 1 + e.chars.length) (before.1 ++ ')' :: r)).pastBlanks) :
    Gives ((argument m frames start name).run
        ⟨k, between.1 ++ '(' :: (e.chars ++ (before.1 ++ ')' :: r))⟩)
      (do let x ← e.denote m (k + between.1.length + 1); locate start (applyNamed m name x))
      ⟨k + between.1.length + 1 + e.chars.length + before.1.length + 1, r⟩ := by
  rw [argument, run_bind_of_ok (run_expect_append (by decide) _ k between _)]
  refine h.bind fun x => ?_
  rw [run_bind, run_expect_pastBlanks, run_expect_append (by decide)]
  exact gives_valueAt start _ _

end

/-- A factor that begins with a primary is read, past its blanks, as the primary and
    its power. -/
theorem run_factor_append {frames k : Nat} {s r : List Char} (b : Blanks) {p : Primary}
    (hs : s = b.1 ++ (p.chars ++ r)) :
    (read m .factor (frames + 1)).run ⟨k, s⟩ =
      (powered m frames).run ⟨k + b.1.length, p.chars ++ r⟩ := by
  obtain ⟨a, w, hp, ha⟩ := p.exists_chars_eq_cons
  have hpast : (Cursor.mk k s).pastBlanks = ⟨k + b.1.length, a :: (w ++ r)⟩ := by
    rw [hs, hp]
    exact Cursor.pastBlanks_append_cons k b.2 (of_begins_primary ha).1 _
  have hminus : (a :: (w ++ r)).head? ≠ some '-' :=
    fun h => (of_begins_primary ha).2.1 (Option.some.inj h)
  rw [run_factor, hpast, if_neg (List.cons_ne_nil a _), if_neg hminus, hp]
  rfl

/-- An expression is read if its chain of terms is. -/
theorem gives_expression_of_chainReads {e : Expression} {frames k : Nat} {s r : List Char}
    (h : e.depth ≤ frames) (hr : Follows .expression r)
    (hchain : ∀ f, e.depth ≤ f + 1 →
      ChainReads Operator.additive? (read m .term f) ⟨k, s⟩ (e.denote m k)
        (Cursor.mk (k + e.chars.length) r).pastBlanks) :
    Gives ((read m .expression frames).run ⟨k, s⟩) (e.denote m k)
      (Cursor.mk (k + e.chars.length) r).pastBlanks := by
  cases frames with
  | zero => exact absurd h (Nat.not_le_of_lt e.depth_pos)
  | succ f => exact (hchain f h).gives (progresses_read m f .term) hr.additive?_eq_none

/-- A term is read if its chain of factors is. -/
theorem gives_term_of_chainReads {t : Term} {frames k : Nat} {s r : List Char}
    (h : t.depth ≤ frames) (hr : Follows .term r)
    (hchain : ∀ f, t.depth ≤ f + 1 →
      ChainReads Operator.multiplicative? (read m .factor f) ⟨k, s⟩ (t.denote m k)
        (Cursor.mk (k + t.chars.length) r).pastBlanks) :
    Gives ((read m .term frames).run ⟨k, s⟩) (t.denote m k)
      (Cursor.mk (k + t.chars.length) r).pastBlanks := by
  cases frames with
  | zero => exact absurd h (Nat.not_le_of_lt t.depth_pos)
  | succ f => exact (hchain f h).gives (progresses_read m f .factor) hr.multiplicative?_eq_none

/-- A primary that begins with a numeral is the number. -/
theorem run_primary_number {frames k : Nat} {n : Numeral} {s r : List Char}
    (hs : s = n.chars ++ r) :
    (read m .primary (frames + 1)).run ⟨k, s⟩ = number.run ⟨k, s⟩ := by
  obtain ⟨a, w, hn, ha⟩ := n.exists_chars_eq_cons
  have hparen : a ≠ '(' := by
    rcases ha with ha | rfl
    · rintro rfl
      exact absurd ha (by decide)
    · decide
  have hletter : ¬ a.isAlpha = true := by
    intro h
    rcases ha with ha | rfl
    · rw [Text.isDigit_eq_false_of_isAlpha h] at ha
      exact Bool.false_ne_true ha
    · exact absurd h (by decide)
  have hdigit : (a.isDigit || a = '.') = true := by simpa using ha
  rw [run_primary, hs, hn]
  dsimp only [List.cons_append, List.head?_cons]
  rw [if_neg hparen, if_neg hletter, if_pos hdigit]

/-- A primary that begins with a name is a call. -/
theorem run_primary_call {frames k : Nat} {name : Name} {s r : List Char} (between : Blanks)
    (hs : s = name.chars ++ (between.1 ++ '(' :: r)) :
    (read m .primary (frames + 2)).run ⟨k, s⟩ =
      (argument m frames k (String.ofList name.chars)).run
        ⟨k + name.chars.length, between.1 ++ '(' :: r⟩ := by
  have hparen : name.first ≠ '(' := by
    intro h
    have := name.first_isAlpha
    rw [h] at this
    exact absurd this (by decide)
  have hstop := isAlphanum_eq_false_of_head?_append between r
  have hhead : s.head? = some name.first := by rw [hs]; rfl
  rw [run_primary]
  dsimp only
  rw [hhead]
  dsimp only
  rw [if_neg hparen, if_pos name.first_isAlpha, run_call, hs,
    Cursor.forward_takeWhile_append k name.isAlphanum_of_mem_chars hstop,
    Text.takeWhile_append_of_head? name.isAlphanum_of_mem_chars hstop]

/-- The cursor past the blanks before the sign of a power. -/
theorem pastBlanks_sign (k : Nat) (b : Blanks) (sign : PowerSign) (r : List Char) :
    (Cursor.mk k (b.1 ++ (sign.chars ++ r))).pastBlanks = ⟨k + b.1.length, sign.chars ++ r⟩ := by
  cases sign with
  | caret => exact Cursor.pastBlanks_append_cons k b.2 (by decide) r
  | stars => exact Cursor.pastBlanks_append_cons k b.2 (by decide) ('*' :: r)

/-- The sign of a power is found and passed. -/
theorem run_powerSign_append (k : Nat) (sign : PowerSign) (r : List Char) :
    powerSign.run ⟨k, sign.chars ++ r⟩ = .ok true ⟨k + sign.chars.length, r⟩ := by
  cases sign <;> rfl

mutual

/-- A chain of terms is read term by term. -/
theorem chainReads_expression (e : Expression) {frames : Nat} (h : e.depth ≤ frames + 1) (k : Nat)
    {s r : List Char} (hs : s = e.chars ++ r) (hr : Follows .term r) :
    ChainReads Operator.additive? (read m .term frames) ⟨k, s⟩ (e.denote m k)
      (Cursor.mk (k + e.chars.length) r).pastBlanks := by
  cases e with
  | term t =>
    rw [Expression.depth] at h
    exact .first (gives_term_of_chainReads m (Nat.le_of_succ_le_succ h) hr
      fun f hf => chainReads_term t hf k hs hr.factor)
  | join e before o t =>
    rw [Expression.depth, Nat.max_le] at h
    have hrest : s = e.chars ++ (before.1 ++ o.1.char :: (t.chars ++ r)) := by
      rw [hs, Expression.chars]
      simp only [List.append_assoc, List.cons_append]
    -- The chain before the last operator is read first; it is followed by that operator.
    have he := chainReads_expression e h.1 k hrest (follows_additive before o _)
    have ht := gives_term_of_chainReads m (Nat.le_of_succ_le_succ h.2) hr
      fun f hf => chainReads_term t hf (k + e.chars.length + before.1.length + 1) rfl hr.factor
    have hlen : k + (Expression.join e before o t).chars.length =
        k + e.chars.length + before.1.length + 1 + t.chars.length := by
      rw [Expression.chars]
      simp only [List.length_append, List.length_cons]
      omega
    rw [hlen]
    exact he.link (progresses_read m frames .term) before (Operator.additive?_char o) ht

/-- A chain of factors is read factor by factor. -/
theorem chainReads_term (t : Term) {frames : Nat} (h : t.depth ≤ frames + 1) (k : Nat)
    {s r : List Char} (hs : s = t.chars ++ r) (hr : Follows .factor r) :
    ChainReads Operator.multiplicative? (read m .factor frames) ⟨k, s⟩ (t.denote m k)
      (Cursor.mk (k + t.chars.length) r).pastBlanks := by
  cases t with
  | factor f =>
    rw [Term.depth] at h
    exact .first (gives_factor f (Nat.le_of_succ_le_succ h) k hs hr)
  | join t before o f =>
    rw [Term.depth, Nat.max_le] at h
    have hrest : s = t.chars ++ (before.1 ++ o.1.char :: (f.chars ++ r)) := by
      rw [hs, Term.chars]
      simp only [List.append_assoc, List.cons_append]
    have ht := chainReads_term t h.1 k hrest (follows_multiplicative before o f r)
    have hf := gives_factor f (Nat.le_of_succ_le_succ h.2)
      (k + t.chars.length + before.1.length + 1) rfl hr
    have hlen : k + (Term.join t before o f).chars.length =
        k + t.chars.length + before.1.length + 1 + f.chars.length := by
      rw [Term.chars]
      simp only [List.length_append, List.length_cons]
      omega
    rw [hlen]
    exact ht.link (progresses_read m frames .factor) before (Operator.multiplicative?_char o) hf

/-- A factor is read with the blanks after it. -/
theorem gives_factor (f : Factor) {frames : Nat} (h : f.depth ≤ frames) (k : Nat)
    {s r : List Char} (hs : s = f.chars ++ r) (hr : Follows .factor r) :
    Gives ((read m .factor frames).run ⟨k, s⟩) (f.denote m k)
      (Cursor.mk (k + f.chars.length) r).pastBlanks := by
  obtain ⟨frames, rfl⟩ := Nat.exists_eq_add_one.2 (Nat.lt_of_lt_of_le f.depth_pos h)
  cases f with
  | neg before f =>
    rw [Factor.depth] at h
    rw [Factor.chars, List.append_assoc, List.cons_append] at hs
    have hf := gives_factor f (Nat.le_of_succ_le_succ h) (k + before.1.length + 1) rfl hr
    have hlen : k + (Factor.neg before f).chars.length =
        k + before.1.length + 1 + f.chars.length := by
      rw [Factor.chars]
      simp only [List.length_append, List.length_cons]
      omega
    rw [run_factor, hs, Cursor.pastBlanks_append_cons k before.2 (by decide),
      if_neg (List.cons_ne_nil '-' _), if_pos (by rfl), hlen]
    exact hf.bind fun x => gives_pure (-x) _
  | primary before p =>
    rw [Factor.depth] at h
    rw [Factor.chars, List.append_assoc] at hs
    have hp := gives_primary p (Nat.le_of_succ_le_succ h) (k + before.1.length) rfl hr.primary
    have hlen : k + (Factor.primary before p).chars.length =
        k + before.1.length + p.chars.length := by
      rw [Factor.chars]
      simp only [List.length_append]
      omega
    rw [run_factor_append m before hs, hlen, Factor.denote,
      ← bind_pure (p.denote m (k + before.1.length))]
    refine hp.bind fun x => ?_
    -- What follows a factor is no sign of a power, so its primary stays as it is.
    rw [run_skipBlanks_bind, raised, run_position_bind, run_bind_of_ok (hr.run_powerSign _)]
    exact gives_pure x _
  | power before base between sign exponent =>
    rw [Factor.depth, Nat.succ_le_succ_iff, Nat.max_le] at h
    have hrest : s =
        before.1 ++ (base.chars ++ (between.1 ++ (sign.chars ++ (exponent.chars ++ r)))) := by
      rw [hs, Factor.chars]
      simp only [List.append_assoc]
    have hbase := gives_primary base h.1 (k + before.1.length) rfl
      (follows_sign between sign (exponent.chars ++ r))
    have hexponent := gives_factor exponent h.2
      (k + before.1.length + base.chars.length + between.1.length + sign.chars.length) rfl hr
    have hlen : k + (Factor.power before base between sign exponent).chars.length =
        k + before.1.length + base.chars.length + between.1.length + sign.chars.length +
          exponent.chars.length := by
      rw [Factor.chars]
      simp only [List.length_append]
      omega
    rw [run_factor_append m before hrest, hlen, Factor.denote]
    refine hbase.bind fun x => ?_
    rw [run_skipBlanks_bind, pastBlanks_sign, raised, run_position_bind,
      run_bind_of_ok (run_powerSign_append _ sign _)]
    exact hexponent.bind fun y => gives_valueAt _ _ _

/-- A primary is read up to its end. -/
theorem gives_primary (p : Primary) {frames : Nat} (h : p.depth ≤ frames) (k : Nat)
    {s r : List Char} (hs : s = p.chars ++ r) (hr : Follows .primary r) :
    Gives ((read m .primary frames).run ⟨k, s⟩) (p.denote m k) ⟨k + p.chars.length, r⟩ := by
  obtain ⟨frames, rfl⟩ := Nat.exists_eq_add_one.2 (Nat.lt_of_lt_of_le p.depth_pos h)
  cases p with
  | number n =>
    rw [Primary.chars] at hs
    rw [run_primary_number m hs]
    have hpoint : r.head? ≠ some '.' := fun hp => (hr.isAlphanum_eq_false _ hp).2 rfl
    exact hs ▸ gives_number n hr.isDigit_eq_false hpoint k
  | group e before =>
    rw [Primary.depth] at h
    have hrest : s = '(' :: (e.chars ++ (before.1 ++ ')' :: r)) := by
      rw [hs, Primary.chars]
      simp only [List.append_assoc, List.cons_append, List.nil_append]
    have he := gives_expression_of_chainReads m (Nat.le_of_succ_le_succ h) (follows_close before r)
      fun f hf => chainReads_expression e hf (k + 1) rfl (follows_close before r).term
    have hlen : k + (Primary.group e before).chars.length =
        k + 1 + e.chars.length + before.1.length + 1 := by
      rw [Primary.chars]
      simp only [List.length_append, List.length_cons, List.length_nil]
      omega
    rw [run_primary, hrest, hlen]
    exact gives_group m he
  | call name between e before =>
    rw [Primary.depth] at h
    -- A call takes a frame of its own, besides that of the primary.
    obtain ⟨frames, rfl⟩ := Nat.exists_eq_add_one.2
      (Nat.lt_of_lt_of_le (Nat.succ_pos _) (Nat.le_of_succ_le_succ h))
    have hrest : s = name.chars ++ (between.1 ++ '(' :: (e.chars ++ (before.1 ++ ')' :: r))) := by
      rw [hs, Primary.chars]
      simp only [List.append_assoc, List.cons_append, List.nil_append]
    have hd : e.depth ≤ frames := Nat.le_of_succ_le_succ (Nat.le_of_succ_le_succ h)
    have he := gives_expression_of_chainReads m hd (follows_close before r)
      fun f hf => chainReads_expression e hf (k + name.chars.length + between.1.length + 1) rfl
        (follows_close before r).term
    have hlen : k + (Primary.call name between e before).chars.length =
        k + name.chars.length + between.1.length + 1 + e.chars.length + before.1.length + 1 := by
      rw [Primary.chars]
      simp only [List.length_append, List.length_cons, List.length_nil]
      omega
    rw [run_primary_call m between hrest, hlen]
    exact gives_argument m he

end

/-- A sentence that is not too deep is read to its end, with its denotation. -/
theorem gives_whole {s : Sentence} {frames : Nat} (h : s.depth ≤ frames) :
    Gives ((whole m frames).run (Cursor.start s.text)) (s.denote m) ⟨s.chars.length, []⟩ := by
  obtain ⟨e, after⟩ := s
  have hafter : Follows .expression after.1 := follows_blanks _ after
  have he := gives_expression_of_chainReads m h hafter
    fun f hf => chainReads_expression m e hf 0 (s := e.chars ++ after.1) rfl hafter.term
  have hend : (Cursor.mk (0 + e.chars.length) after.1).pastBlanks =
      ⟨(e.chars ++ after.1).length, []⟩ := by
    have := Cursor.pastBlanks_append (0 + e.chars.length) after.2 []
    rw [List.append_nil] at this
    rw [this, Nat.zero_add, List.length_append]
    rfl
  rw [hend] at he
  show Gives ((whole m frames).run ⟨0, (String.ofList (e.chars ++ after.1)).toList⟩)
    (e.denote m 0) _
  rw [String.toList_ofList, whole, ← bind_pure (e.denote m 0)]
  exact he.bind fun x => gives_pure x _

end Reader

namespace Evaluator

/-- A sentence evaluates to its denotation. If that is a fault, it is the fault of the
    first node that has one, operands before their operator and an argument before its
    function, at the offset of the token of that node. -/
theorem evaluate_text_eq_denote (v : Evaluator) (s : Sentence) (h : s.depth ≤ v.frames) :
    v.evaluate s.text = (s.denote v.machine).mapError (v.failure s.text) ∧
      (∀ e, s.denote v.machine = .error e ↔
        (s.nodes v.machine).findSome? Node.located? = some e) ∧
      ∀ n ∈ s.nodes v.machine, n.StandsIn 0 s.chars := by
  refine ⟨?_, fun e => ?_, fun n hn => ?_⟩
  · have hs := Reader.gives_whole v.machine h
    rw [evaluate]
    cases hd : s.denote v.machine with
    | ok x =>
      rw [hd] at hs
      rw [show (Reader.whole v.machine v.frames).run (Cursor.start s.text) = _ from hs]
      rfl
    | error e =>
      rw [hd] at hs
      obtain ⟨c, hc⟩ := hs
      rw [hc]
      rfl
  · rw [Sentence.nodes, Expression.findSome?_nodes]
    exact faultOf?_eq_some_iff.symm
  · obtain ⟨before, after, ht, hp⟩ := Expression.standsIn v.machine s.expression 0 n hn
    exact ⟨before, after ++ s.after.1, by rw [Sentence.chars, ht, List.append_assoc], hp⟩

/-- The sentence `3 % ( 2 ** 0 - 1 ) + ln(0)`. Two of its nodes fail. -/
def zeroRemainder : Sentence :=
  let none : Blanks := ⟨[], nofun⟩
  let space : Blanks := ⟨[' '], List.forall_mem_singleton.2 rfl⟩
  let digit (d : Char) (h : d.isDigit = true) : Primary :=
    .number (.whole ⟨[d], by simpa using h⟩ (List.cons_ne_nil _ _))
  let difference : Expression :=
    .join (.term (.factor (.power space (digit '2' rfl) space .stars
        (.primary space (digit '0' rfl))))) space ⟨.sub, .inr rfl⟩
      (.factor (.primary space (digit '1' rfl)))
  let logarithm : Primary :=
    .call ⟨'l', ['n'], rfl, List.forall_mem_singleton.2 rfl⟩ none
      (.term (.factor (.primary none (digit '0' rfl)))) none
  { expression := .join
      (.term (.join (.factor (.primary none (digit '3' rfl))) space ⟨.mod, .inr (.inr rfl)⟩
        (.primary space (.group difference space))))
      space ⟨.add, .inl rfl⟩ (.factor (.primary space logarithm))
    after := none }

/-- The remainder fails before the logarithm is looked at. -/
theorem evaluate_text_zeroRemainder :
    zeroRemainder.depth ≤ 1000 ∧
      ({ machine := .plain } : Evaluator).evaluate "3 % ( 2 ** 0 - 1 ) + ln(0)" =
        .error { fault := .moduloByZero, text := "3 % ( 2 ** 0 - 1 ) + ln(0)", position := 2 } :=
  have hdenote : zeroRemainder.denote .plain = .error ⟨.moduloByZero, 2⟩ :=
    faultOf?_eq_some_iff.1 (by decide +kernel)
  ⟨by decide, ((evaluate_text_eq_denote { machine := .plain } zeroRemainder (by decide)).1).trans
    (by rw [hdenote]; rfl)⟩

end Evaluator

end Calculator
