import Calculator.Grammar.Denotation
import Calculator.Proofs.Follow

/-!
# One tree for a text

The text of a tree, and what follows it, determine the tree (`Determined`), provided
that what follows may follow the tree. So no text is that of two sentences
(`Sentence.text_injective`).

Trees lean to the left, and their texts are compared from the left on. So a chain is
taken as its first operand and the links after it, its *spine*, and two chains are
compared link by link.
-/

namespace Calculator

/-- An operator is known by its character. -/
theorem Operator.char_injective {o o' : Operator} (h : o.char = o'.char) : o = o' := by
  revert h
  cases o <;> cases o' <;> decide

namespace Grammar

/-! ## Texts that are cut in one way -/

/-- A text is cut in one way into a run of a class and what goes on outside the class. -/
theorem cancel_run {p : Char → Bool} {w w' r r' : List Char} (hw : ∀ a ∈ w, p a = true)
    (hw' : ∀ a ∈ w', p a = true) (hr : ∀ a, r.head? = some a → p a = false)
    (hr' : ∀ a, r'.head? = some a → p a = false) (h : w ++ r = w' ++ r') : w = w' ∧ r = r' := by
  have hrun := congrArg (List.takeWhile p) h
  rw [Text.takeWhile_append_of_head? hw hr, Text.takeWhile_append_of_head? hw' hr'] at hrun
  subst hrun
  exact ⟨rfl, List.append_cancel_left h⟩

/-- Blanks end at the first character that is none. -/
theorem cancel_blanks {b b' : Blanks} {a a' : Char} {r r' : List Char}
    (ha : Text.isBlank a = false) (ha' : Text.isBlank a' = false)
    (h : b.1 ++ a :: r = b'.1 ++ a' :: r') : b = b' ∧ a = a' ∧ r = r' := by
  have hhead {a x : Char} {s : List Char} (ha : Text.isBlank a = false)
      (hx : (a :: s).head? = some x) : Text.isBlank x = false := by
    rwa [← Option.some.inj hx]
  obtain ⟨hb, hr⟩ := cancel_run b.2 b'.2 (fun _ => hhead ha) (fun _ => hhead ha') h
  obtain ⟨rfl, rfl⟩ := List.cons.inj hr
  exact ⟨Subtype.ext hb, rfl, rfl⟩

/-- A number ends where neither a digit nor a point follows. -/
theorem cancel_numeral {n n' : Numeral} {r r' : List Char}
    (hr : ∀ a, r.head? = some a → a.isDigit = false ∧ a ≠ '.')
    (hr' : ∀ a, r'.head? = some a → a.isDigit = false ∧ a ≠ '.')
    (h : n.chars ++ r = n'.chars ++ r') : n = n' ∧ r = r' := by
  have hpoint (s : List Char) (a : Char) (ha : ('.' :: s).head? = some a) : a.isDigit = false := by
    rw [← Option.some.inj ha]
    rfl
  have hdigit {r : List Char} (hr : ∀ a, r.head? = some a → a.isDigit = false ∧ a ≠ '.') (a : Char)
      (ha : r.head? = some a) : a.isDigit = false := (hr a ha).1
  cases n with
  | whole ds hd =>
    cases n' with
    | whole ds' hd' =>
      obtain ⟨hds, rfl⟩ := cancel_run ds.2 ds'.2 (hdigit hr) (hdigit hr') h
      obtain rfl : ds = ds' := Subtype.ext hds
      exact ⟨rfl, rfl⟩
    | pointed ds' fs' hd' =>
      rw [Numeral.chars, Numeral.chars, List.append_assoc] at h
      obtain ⟨_, rfl⟩ := cancel_run ds.2 ds'.2 (hdigit hr) (hpoint _) h
      exact absurd rfl (hr '.' rfl).2
  | pointed ds fs hd =>
    rw [Numeral.chars, List.append_assoc] at h
    cases n' with
    | whole ds' hd' =>
      obtain ⟨_, rfl⟩ := cancel_run ds.2 ds'.2 (hpoint _) (hdigit hr') h
      have hpointless := hr' '.' rfl
      exact absurd rfl hpointless.2
    | pointed ds' fs' hd' =>
      rw [Numeral.chars, List.append_assoc] at h
      obtain ⟨hds, htail⟩ := cancel_run ds.2 ds'.2 (hpoint _) (hpoint _) h
      obtain ⟨hfs, rfl⟩ := cancel_run fs.2 fs'.2 (hdigit hr) (hdigit hr') (List.cons.inj htail).2
      obtain rfl : ds = ds' := Subtype.ext hds
      obtain rfl : fs = fs' := Subtype.ext hfs
      exact ⟨rfl, rfl⟩

/-- A name ends where its parenthesis or the blanks before it begin. -/
theorem cancel_name {name name' : Name} {b b' : Blanks} {r r' : List Char}
    (h : name.chars ++ (b.1 ++ '(' :: r) = name'.chars ++ (b'.1 ++ '(' :: r')) :
    name = name' ∧ b = b' ∧ r = r' := by
  obtain ⟨hname, htail⟩ := cancel_run name.isAlphanum_of_mem_chars name'.isAlphanum_of_mem_chars
    (isAlphanum_eq_false_of_head?_append b r) (isAlphanum_eq_false_of_head?_append b' r') h
  obtain ⟨hb, _, hr⟩ := cancel_blanks (by decide) (by decide) htail
  obtain ⟨a, w, ha, hw⟩ := name
  obtain ⟨a', w', ha', hw'⟩ := name'
  obtain ⟨rfl, rfl⟩ := List.cons.inj hname
  exact ⟨rfl, hb, hr⟩

/-! ## Spines -/

variable {α : Type} {spell : α → List Char}

/-- The text of `t` and what follows it determine `t`. -/
def Determined (l : Level) (spell : α → List Char) (t : α) : Prop :=
  ∀ t' r r', Follows l r → Follows l r' → spell t ++ r = spell t' ++ r' → t = t' ∧ r = r'

/-- A link of a chain: an operator, the blanks before it, and an operand. -/
structure Link (P : Operator → Prop) (α : Type) where
  before : Blanks
  operator : { o : Operator // P o }
  operand : α

/-- The characters of a link. -/
def Link.chars {P : Operator → Prop} (spell : α → List Char) (k : Link P α) : List Char :=
  k.before.1 ++ k.operator.1.char :: spell k.operand

/-- The first term of an expression. -/
def Expression.first : Expression → Term
  | .term t => t
  | .join e _ _ _ => e.first

/-- The other terms of an expression, with their operators. -/
def Expression.links : Expression → List (Link (fun o => o = .add ∨ o = .sub) Term)
  | .term _ => []
  | .join e before o t => e.links ++ [⟨before, o, t⟩]

/-- The first factor of a term. -/
def Term.first : Term → Factor
  | .factor f => f
  | .join t _ _ _ => t.first

/-- The other factors of a term, with their operators. -/
def Term.links : Term → List (Link (fun o => o = .mul ∨ o = .div ∨ o = .mod) Factor)
  | .factor _ => []
  | .join t before o f => t.links ++ [⟨before, o, f⟩]

/-- An expression is rebuilt from its spine. -/
theorem Expression.foldl_links (e : Expression) :
    e.links.foldl (fun e k => .join e k.before k.operator k.operand) (.term e.first) = e := by
  cases e with
  | term t => rfl
  | join e before o t =>
    rw [links, first, List.foldl_append, foldl_links e]
    rfl

theorem Term.foldl_links (t : Term) :
    t.links.foldl (fun t k => .join t k.before k.operator k.operand) (.factor t.first) = t := by
  cases t with
  | factor f => rfl
  | join t before o f =>
    rw [links, first, List.foldl_append, foldl_links t]
    rfl

theorem Expression.chars_spine (e : Expression) :
    e.chars = e.first.chars ++ e.links.flatMap (Link.chars Term.chars) := by
  cases e with
  | term t => rw [links, first, List.flatMap_nil, List.append_nil, chars]
  | join e before o t =>
    rw [chars, links, first, List.flatMap_append, List.flatMap_singleton, chars_spine e, Link.chars]
    simp only [List.append_assoc]

theorem Term.chars_spine (t : Term) :
    t.chars = t.first.chars ++ t.links.flatMap (Link.chars Factor.chars) := by
  cases t with
  | factor f => rw [links, first, List.flatMap_nil, List.append_nil, chars]
  | join t before o f =>
    rw [chars, links, first, List.flatMap_append, List.flatMap_singleton, chars_spine t, Link.chars]
    simp only [List.append_assoc]

/-- The terms of an expression are less deep than it. -/
theorem Expression.depth_spine (e : Expression) :
    e.first.depth < e.depth ∧ ∀ k ∈ e.links, k.operand.depth < e.depth := by
  cases e with
  | term t =>
    rw [depth, first, links]
    exact ⟨Nat.lt_succ_self _, List.forall_mem_nil _⟩
  | join e before o t =>
    have he : e.depth ≤ (join e before o t).depth := by rw [depth]; exact Nat.le_max_left _ _
    have ht : t.depth + 1 ≤ (join e before o t).depth := by rw [depth]; exact Nat.le_max_right _ _
    obtain ⟨hfirst, hlinks⟩ := depth_spine e
    refine ⟨Nat.lt_of_lt_of_le hfirst he, fun k hk => ?_⟩
    rcases List.mem_append.1 hk with hk | hk
    · exact Nat.lt_of_lt_of_le (hlinks k hk) he
    · rw [List.mem_singleton.1 hk]
      exact ht

/-- The factors of a term are less deep than it. -/
theorem Term.depth_spine (t : Term) :
    t.first.depth < t.depth ∧ ∀ k ∈ t.links, k.operand.depth < t.depth := by
  cases t with
  | factor f =>
    rw [depth, first, links]
    exact ⟨Nat.lt_succ_self _, List.forall_mem_nil _⟩
  | join t before o f =>
    have ht : t.depth ≤ (join t before o f).depth := by rw [depth]; exact Nat.le_max_left _ _
    have hf : f.depth + 1 ≤ (join t before o f).depth := by rw [depth]; exact Nat.le_max_right _ _
    obtain ⟨hfirst, hlinks⟩ := depth_spine t
    refine ⟨Nat.lt_of_lt_of_le hfirst ht, fun k hk => ?_⟩
    rcases List.mem_append.1 hk with hk | hk
    · exact Nat.lt_of_lt_of_le (hlinks k hk) ht
    · rw [List.mem_singleton.1 hk]
      exact hf

/-- How links stand between the operands of two levels: an operand may be followed by
    them, and a whole chain may not. -/
structure Separates (P : Operator → Prop) (spell : α → List Char) (outer inner : Level) : Prop where
  inner_of_outer {r : List Char} : Follows outer r → Follows inner r
  follows (k : Link P α) (r : List Char) : Follows inner (k.chars spell ++ r)
  not_follows (k : Link P α) (r : List Char) : ¬ Follows outer (k.chars spell ++ r)

variable {P : Operator → Prop} {outer inner : Level}

theorem Separates.follows_links (h : Separates P spell outer inner) {r : List Char}
    (hr : Follows outer r) (ks : List (Link P α)) :
    Follows inner (ks.flatMap (Link.chars spell) ++ r) := by
  cases ks with
  | nil => exact h.inner_of_outer hr
  | cons k ks =>
    rw [List.flatMap_cons, List.append_assoc]
    exact h.follows k _

/-- Links are determined if their operands are. -/
theorem Separates.cancel_links (h : Separates P spell outer inner) {ks ks' : List (Link P α)}
    {r r' : List Char} (hks : ∀ k ∈ ks, Determined inner spell k.operand) (hr : Follows outer r)
    (hr' : Follows outer r')
    (htext : ks.flatMap (Link.chars spell) ++ r = ks'.flatMap (Link.chars spell) ++ r') :
    ks = ks' ∧ r = r' := by
  induction ks generalizing ks' with
  | nil =>
    cases ks' with
    | nil => exact ⟨rfl, htext⟩
    | cons k' ks' =>
      rw [List.flatMap_nil, List.nil_append, List.flatMap_cons, List.append_assoc] at htext
      -- The first chain ends where the second goes on, but no link may follow a whole chain.
      exact absurd (htext ▸ hr) (h.not_follows k' _)
  | cons k ks ih =>
    rw [List.flatMap_cons, List.append_assoc] at htext
    cases ks' with
    | nil =>
      rw [List.flatMap_nil, List.nil_append] at htext
      exact absurd (htext ▸ hr') (h.not_follows k _)
    | cons k' ks' =>
      rw [List.flatMap_cons, List.append_assoc, Link.chars, Link.chars, List.append_assoc,
        List.append_assoc, List.cons_append, List.cons_append] at htext
      obtain ⟨hb, ho, htext⟩ :=
        cancel_blanks k.operator.1.isBlank_char k'.operator.1.isBlank_char htext
      obtain ⟨hoperand, htext⟩ := hks k List.mem_cons_self k'.operand _ _ (h.follows_links hr ks)
        (h.follows_links hr' ks') htext
      obtain ⟨rfl, rfl⟩ := ih (fun k hk => hks k (List.mem_cons_of_mem _ hk)) htext
      obtain ⟨b, o, a⟩ := k
      obtain ⟨b', o', a'⟩ := k'
      obtain rfl : o = o' := Subtype.ext (Operator.char_injective ho)
      obtain rfl : b = b' := hb
      obtain rfl : a = a' := hoperand
      exact ⟨rfl, rfl⟩

/-- A chain is determined if its operands are. -/
theorem Separates.cancel_spine (h : Separates P spell outer inner) {a a' : α}
    {ks ks' : List (Link P α)} {r r' : List Char} (ha : Determined inner spell a)
    (hks : ∀ k ∈ ks, Determined inner spell k.operand) (hr : Follows outer r)
    (hr' : Follows outer r')
    (htext : spell a ++ ks.flatMap (Link.chars spell) ++ r =
      spell a' ++ ks'.flatMap (Link.chars spell) ++ r') : a = a' ∧ ks = ks' ∧ r = r' := by
  rw [List.append_assoc, List.append_assoc] at htext
  obtain ⟨rfl, hlinks⟩ := ha a' _ _ (h.follows_links hr ks) (h.follows_links hr' ks') htext
  exact ⟨rfl, h.cancel_links hks hr hr' hlinks⟩

/-- What follows the blanks. -/
theorem mem_closers_of_follows {l : Level} {b : Blanks} {a : Char} {r : List Char}
    (ha : Text.isBlank a = false) (h : Follows l (b.1 ++ a :: r)) : a ∈ l.closers := by
  refine h.closed a ?_
  rw [Text.dropWhile_isBlank_append b.2, Text.dropWhile_isBlank_cons ha]
  rfl

theorem not_mem_closers_additive (o : Additive) : o.1.char ∉ Level.expression.closers := by
  obtain ⟨o, rfl | rfl⟩ := o <;> decide

theorem not_mem_closers_multiplicative (o : Multiplicative) : o.1.char ∉ Level.term.closers := by
  obtain ⟨o, rfl | rfl | rfl⟩ := o <;> decide

theorem separates_additive :
    Separates (fun o => o = .add ∨ o = .sub) Term.chars .expression .term where
  inner_of_outer := Follows.term
  follows k r := by
    rw [Link.chars, List.append_assoc]
    exact follows_additive k.before k.operator _
  not_follows k r h := by
    rw [Link.chars, List.append_assoc, List.cons_append] at h
    have := mem_closers_of_follows k.operator.1.isBlank_char h
    exact not_mem_closers_additive k.operator this

theorem separates_multiplicative :
    Separates (fun o => o = .mul ∨ o = .div ∨ o = .mod) Factor.chars .term .factor where
  inner_of_outer := Follows.factor
  follows k r := by
    rw [Link.chars, List.append_assoc]
    exact follows_multiplicative k.before k.operator k.operand r
  not_follows k r h := by
    rw [Link.chars, List.append_assoc, List.cons_append] at h
    have := mem_closers_of_follows k.operator.1.isBlank_char h
    exact not_mem_closers_multiplicative k.operator this

/-! ## Trees -/

/-- A factor is not followed by the sign of a power. -/
theorem not_follows_sign (b : Blanks) (sign : PowerSign) (r : List Char) :
    ¬ Follows .factor (b.1 ++ (sign.chars ++ r)) := by
  intro h
  cases sign with
  | caret => exact absurd (mem_closers_of_follows (b := b) (by decide) h) (by decide)
  | stars =>
    refine h.not_power rfl ?_
    rw [Text.dropWhile_isBlank_append b.2]
    exact List.prefix_append _ _

theorem cancel_sign {b b' : Blanks} {sign sign' : PowerSign} {f f' : Factor} {r r' : List Char}
    (h : b.1 ++ (sign.chars ++ (f.chars ++ r)) = b'.1 ++ (sign'.chars ++ (f'.chars ++ r'))) :
    b = b' ∧ sign = sign' ∧ f.chars ++ r = f'.chars ++ r' := by
  cases sign <;> cases sign'
  · obtain ⟨hb, _, hr⟩ := cancel_blanks (by decide) (by decide) h
    exact ⟨hb, rfl, hr⟩
  · obtain ⟨_, ha, _⟩ := cancel_blanks (by decide) (by decide) h
    exact absurd ha (by decide)
  · obtain ⟨_, ha, _⟩ := cancel_blanks (by decide) (by decide) h
    exact absurd ha (by decide)
  · obtain ⟨hb, _, hr⟩ := cancel_blanks (by decide) (by decide) h
    exact ⟨hb, rfl, (List.cons.inj hr).2⟩

/-- A minus does not begin a primary. -/
theorem neg_ne_primary {b b' : Blanks} {p : Primary} {r r' : List Char} :
    b.1 ++ '-' :: r ≠ b'.1 ++ (p.chars ++ r') := by
  obtain ⟨a, w, hp, ha⟩ := p.exists_chars_eq_cons
  obtain ⟨hblank, hminus, _⟩ := of_begins_primary ha
  rw [hp]
  intro h
  exact hminus (cancel_blanks (by decide) hblank h).2.1.symm

/-- The three kinds of primaries begin with different characters. -/
theorem numeral_ne_group {n : Numeral} {r r' : List Char} : n.chars ++ r ≠ '(' :: r' := by
  obtain ⟨a, w, hn, ha⟩ := n.exists_chars_eq_cons
  rw [hn]
  intro h
  rw [(List.cons.inj h).1] at ha
  exact absurd ha (by decide)

theorem numeral_ne_call {n : Numeral} {name : Name} {r r' : List Char} :
    n.chars ++ r ≠ name.chars ++ r' := by
  obtain ⟨a, w, hn, ha⟩ := n.exists_chars_eq_cons
  rw [hn]
  intro h
  have hletter := name.first_isAlpha
  rw [← (List.cons.inj h).1] at hletter
  rcases ha with ha | rfl
  · rw [Text.isDigit_eq_false_of_isAlpha hletter] at ha
    exact Bool.false_ne_true ha
  · exact absurd hletter (by decide)

theorem group_ne_call {name : Name} {r r' : List Char} : '(' :: r ≠ name.chars ++ r' := by
  intro h
  have hletter := name.first_isAlpha
  rw [← (List.cons.inj h).1] at hletter
  exact absurd hletter (by decide)

/-- The blanks before a primary end where it begins. -/
theorem cancel_before {b b' : Blanks} {p p' : Primary} {r r' : List Char}
    (h : b.1 ++ (p.chars ++ r) = b'.1 ++ (p'.chars ++ r')) :
    b = b' ∧ p.chars ++ r = p'.chars ++ r' := by
  obtain ⟨a, w, hp, ha⟩ := p.exists_chars_eq_cons
  obtain ⟨a', w', hp', ha'⟩ := p'.exists_chars_eq_cons
  rw [hp, hp'] at h ⊢
  obtain ⟨hb, haa, hr⟩ := cancel_blanks (of_begins_primary ha).1 (of_begins_primary ha').1 h
  subst haa
  exact ⟨hb, congrArg (a :: ·) hr⟩

/-- An expression is determined if its terms are. -/
theorem Expression.determined {e : Expression}
    (h : ∀ t : Term, t.depth < e.depth → Determined .term Term.chars t) :
    Determined .expression Expression.chars e := by
  intro e' r r' hr hr' htext
  rw [e.chars_spine, e'.chars_spine] at htext
  obtain ⟨hfirst, hlinks, rfl⟩ := separates_additive.cancel_spine (h _ e.depth_spine.1)
    (fun k hk => h _ (e.depth_spine.2 k hk)) hr hr' htext
  refine ⟨?_, rfl⟩
  rw [← e.foldl_links, ← e'.foldl_links, hfirst, hlinks]

/-- A term is determined if its factors are. -/
theorem Term.determined {t : Term}
    (h : ∀ f : Factor, f.depth < t.depth → Determined .factor Factor.chars f) :
    Determined .term Term.chars t := by
  intro t' r r' hr hr' htext
  rw [t.chars_spine, t'.chars_spine] at htext
  obtain ⟨hfirst, hlinks, rfl⟩ := separates_multiplicative.cancel_spine (h _ t.depth_spine.1)
    (fun k hk => h _ (t.depth_spine.2 k hk)) hr hr' htext
  refine ⟨?_, rfl⟩
  rw [← t.foldl_links, ← t'.foldl_links, hfirst, hlinks]

/-- A factor is determined if its primary and the factor in it are. -/
theorem Factor.determined {f : Factor}
    (hp : ∀ p : Primary, p.depth < f.depth → Determined .primary Primary.chars p)
    (hf : ∀ g : Factor, g.depth < f.depth → Determined .factor Factor.chars g) :
    Determined .factor Factor.chars f := by
  intro f' r r' hr hr' htext
  cases f with
  | neg b g =>
    rw [depth] at hf
    cases f' with
    | neg b' g' =>
      simp only [chars, List.append_assoc, List.cons_append] at htext
      obtain ⟨rfl, _, htail⟩ := cancel_blanks (by decide) (by decide) htext
      obtain ⟨rfl, rfl⟩ := hf g (Nat.lt_succ_self _) g' r r' hr hr' htail
      exact ⟨rfl, rfl⟩
    | primary b' p' =>
      simp only [chars, List.append_assoc, List.cons_append] at htext
      exact absurd htext neg_ne_primary
    | power b' p' between' sign' g' =>
      simp only [chars, List.append_assoc, List.cons_append] at htext
      exact absurd htext neg_ne_primary
  | primary b p =>
    rw [depth] at hp
    cases f' with
    | neg b' g' =>
      simp only [chars, List.append_assoc, List.cons_append] at htext
      exact absurd htext.symm neg_ne_primary
    | primary b' p' =>
      simp only [chars, List.append_assoc] at htext
      obtain ⟨rfl, htail⟩ := cancel_before htext
      obtain ⟨rfl, rfl⟩ := hp p (Nat.lt_succ_self _) p' r r' hr.primary hr'.primary htail
      exact ⟨rfl, rfl⟩
    | power b' p' between' sign' g' =>
      simp only [chars, List.append_assoc] at htext
      obtain ⟨_, htail⟩ := cancel_before htext
      -- The primaries are the same, so a sign of a power follows a whole factor.
      obtain ⟨_, rfl⟩ := hp p (Nat.lt_succ_self _) p' _ _ hr.primary
        (follows_sign between' sign' _) htail
      exact absurd hr (not_follows_sign between' sign' _)
  | power b p between sign g =>
    rw [depth] at hp hf
    have hp := hp p (Nat.lt_succ_of_le (Nat.le_max_left _ _))
    have hf := hf g (Nat.lt_succ_of_le (Nat.le_max_right _ _))
    cases f' with
    | neg b' g' =>
      simp only [chars, List.append_assoc, List.cons_append] at htext
      exact absurd htext.symm neg_ne_primary
    | primary b' p' =>
      simp only [chars, List.append_assoc] at htext
      obtain ⟨_, htail⟩ := cancel_before htext
      obtain ⟨_, rfl⟩ := hp p' _ _ (follows_sign between sign _) hr'.primary htail
      exact absurd hr' (not_follows_sign between sign _)
    | power b' p' between' sign' g' =>
      simp only [chars, List.append_assoc] at htext
      obtain ⟨rfl, htail⟩ := cancel_before htext
      obtain ⟨rfl, hsign⟩ := hp p' _ _ (follows_sign between sign _)
        (follows_sign between' sign' _) htail
      obtain ⟨rfl, rfl, hexponent⟩ := cancel_sign hsign
      obtain ⟨rfl, rfl⟩ := hf g' r r' hr hr' hexponent
      exact ⟨rfl, rfl⟩

/-- A primary is determined if the expression in it is. -/
theorem Primary.determined {p : Primary}
    (h : ∀ e : Expression, e.depth < p.depth → Determined .expression Expression.chars e) :
    Determined .primary Primary.chars p := by
  intro p' r r' hr hr' htext
  have hnumber {r : List Char} (hr : Follows .primary r) (a : Char) (ha : r.head? = some a) :
      a.isDigit = false ∧ a ≠ '.' :=
    ⟨hr.isDigit_eq_false a ha, (hr.isAlphanum_eq_false a ha).2⟩
  cases p with
  | number n =>
    cases p' with
    | number n' =>
      simp only [chars] at htext
      obtain ⟨rfl, rfl⟩ := cancel_numeral (hnumber hr) (hnumber hr') htext
      exact ⟨rfl, rfl⟩
    | group e' b' =>
      simp only [chars, List.cons_append] at htext
      exact absurd htext numeral_ne_group
    | call name' between' e' b' =>
      simp only [chars, List.append_assoc] at htext
      exact absurd htext numeral_ne_call
  | group e b =>
    rw [depth] at h
    cases p' with
    | number n' =>
      simp only [chars, List.cons_append] at htext
      exact absurd htext.symm numeral_ne_group
    | group e' b' =>
      simp only [chars, List.append_assoc, List.cons_append, List.nil_append] at htext
      obtain ⟨rfl, hclose⟩ := h e (Nat.lt_succ_self _) e' _ _ (follows_close b r)
        (follows_close b' r') (List.cons.inj htext).2
      obtain ⟨rfl, _, rfl⟩ := cancel_blanks (by decide) (by decide) hclose
      exact ⟨rfl, rfl⟩
    | call name' between' e' b' =>
      simp only [chars, List.append_assoc, List.cons_append] at htext
      exact absurd htext group_ne_call
  | call name between e b =>
    rw [depth] at h
    cases p' with
    | number n' =>
      simp only [chars, List.append_assoc] at htext
      exact absurd htext.symm numeral_ne_call
    | group e' b' =>
      simp only [chars, List.append_assoc, List.cons_append] at htext
      exact absurd htext.symm group_ne_call
    | call name' between' e' b' =>
      simp only [chars, List.append_assoc, List.cons_append, List.nil_append] at htext
      obtain ⟨rfl, rfl, hargument⟩ := cancel_name htext
      obtain ⟨rfl, hclose⟩ := h e (Nat.lt_succ_of_lt (Nat.lt_succ_self _)) e' _ _
        (follows_close b r) (follows_close b' r') hargument
      obtain ⟨rfl, _, rfl⟩ := cancel_blanks (by decide) (by decide) hclose
      exact ⟨rfl, rfl⟩

/-- Every tree is determined; the induction is on a bound of the depth. -/
theorem determined (n : Nat) :
    (∀ e : Expression, e.depth < n → Determined .expression Expression.chars e) ∧
      (∀ t : Term, t.depth < n → Determined .term Term.chars t) ∧
      (∀ f : Factor, f.depth < n → Determined .factor Factor.chars f) ∧
      (∀ p : Primary, p.depth < n → Determined .primary Primary.chars p) := by
  induction n with
  | zero => exact ⟨nofun, nofun, nofun, nofun⟩
  | succ n ih =>
    obtain ⟨he, ht, hf, hp⟩ := ih
    have below {i j : Nat} (hi : i < n + 1) (hj : j < i) : j < n :=
      Nat.lt_of_lt_of_le hj (Nat.le_of_lt_succ hi)
    exact ⟨fun _ hn => Expression.determined fun t h => ht t (below hn h),
      fun _ hn => Term.determined fun f h => hf f (below hn h),
      fun _ hn => Factor.determined (fun p h => hp p (below hn h)) fun f h => hf f (below hn h),
      fun _ hn => Primary.determined fun e h => he e (below hn h)⟩

/-- No text is that of two sentences. -/
theorem Sentence.text_injective {s s' : Sentence} (h : s.text = s'.text) : s = s' := by
  obtain ⟨e, b⟩ := s
  obtain ⟨e', b'⟩ := s'
  have hchars : e.chars ++ b.1 = e'.chars ++ b'.1 := String.ofList_injective h
  obtain ⟨rfl, hb⟩ := (determined (e.depth + 1)).1 e (Nat.lt_succ_self _) e' b.1 b'.1
    (follows_blanks _ b) (follows_blanks _ b') hchars
  obtain rfl : b = b' := Subtype.ext hb
  rfl

end Grammar

end Calculator
