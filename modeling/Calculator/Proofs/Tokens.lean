import Mathlib.Data.List.Chain
import Calculator.Proofs.Follow

/-!
# Tokens

A text cut into tokens, without regard to the grammar: blanks are dropped, and each token
is as long as it can be (`tokens`). So `1e5` is a number and a name, `1.2.3` two numbers,
and `* *` two signs, where `**` is one token.

The tokens of the text of a tree are those of the tree (`Expression.tokens_append`), and
how they stand next to each other is the same at every level (`Phrase`). From this it can
be read off what a sentence never holds (`Orderly`).
-/

namespace Calculator

open Grammar

/-- What a text is made of, apart from blanks. -/
inductive Token
  | number (chars : List Char)
  | name (chars : List Char)
  | stars
  /-- Any other character, whether the grammar knows it or not. -/
  | sign (c : Char)
  deriving DecidableEq, Repr

namespace Token

/-- The characters of a token. -/
def chars : Token → List Char
  | number w | name w => w
  | stars => ['*', '*']
  | sign a => [a]

/-- Whether a primary may begin with the token. -/
def opens : Token → Bool
  | number _ | name _ => true
  | stars => false
  | sign a => a = '('

/-- Whether a primary may end with the token. -/
def closes : Token → Bool
  | number _ => true
  | name _ | stars => false
  | sign a => a = ')'

/-- Whether the token is a name. -/
def names : Token → Bool
  | name _ => true
  | number _ | stars | sign _ => false

/-- Whether the token is an operator that needs an operand before it. A minus may also
    stand for itself. -/
def joins : Token → Bool
  | number _ | name _ => false
  | stars => true
  | sign a => a ∈ ['+', '*', '/', '%', '^']

/-- Counts open parentheses. There is no count if a closing one comes too early. -/
def nest (depth : Nat) (t : Token) : Option Nat :=
  if t = sign '(' then some (depth + 1)
  else if t = sign ')' then if depth = 0 then none else some (depth - 1)
  else some depth

end Token

/-- The number at the start of a text, and the rest. -/
def cutNumber (cs : List Char) : Token × List Char :=
  let r := cs.dropWhile Char.isDigit
  if r.head? = some '.' then
    (.number (cs.takeWhile Char.isDigit ++ '.' :: r.tail.takeWhile Char.isDigit),
      r.tail.dropWhile Char.isDigit)
  else (.number (cs.takeWhile Char.isDigit), r)

/-- The token that begins with a character, and the rest. -/
def cutToken (a : Char) (cs : List Char) : Token × List Char :=
  if a.isDigit || a = '.' then cutNumber (a :: cs)
  else if a.isAlpha then (.name (a :: cs.takeWhile Char.isAlphanum), cs.dropWhile Char.isAlphanum)
  else if a = '*' && cs.head? = some '*' then (.stars, cs.tail)
  else (.sign a, cs)

/-- A token has at least the character it begins with. -/
theorem length_cutToken_le (a : Char) (cs : List Char) : (cutToken a cs).2.length ≤ cs.length := by
  have hdrop (p : Char → Bool) (cs : List Char) : (cs.dropWhile p).length ≤ cs.length :=
    (List.dropWhile_suffix p).length_le
  rw [cutToken]
  split
  · rename_i ha
    rw [cutNumber]
    by_cases hdigit : a.isDigit = true
    · rw [List.dropWhile_cons_of_pos hdigit]
      split
      · refine Nat.le_trans (hdrop _ _) (Nat.le_trans ?_ (hdrop Char.isDigit cs))
        rw [List.length_tail]
        exact Nat.sub_le _ _
      · exact hdrop _ _
    · -- No digit stands before the point, so there is only the fraction to be dropped.
      obtain rfl : a = '.' := by simpa [hdigit] using ha
      exact hdrop _ _
  · split
    · exact hdrop _ _
    · split
      · rw [List.length_tail]
        exact Nat.sub_le _ _
      · exact Nat.le_refl _

/-- The tokens of a text. -/
def tokens : List Char → List Token
  | [] => []
  | a :: cs =>
    if Text.isBlank a then tokens cs
    else (cutToken a cs).1 :: tokens (cutToken a cs).2
  termination_by cs => cs.length
  decreasing_by
  · exact Nat.lt_succ_self _
  · exact Nat.lt_succ_of_le (length_cutToken_le a cs)

/-- The characters of a token and those after it are the text. -/
theorem chars_append_cutToken (a : Char) (cs : List Char) :
    (cutToken a cs).1.chars ++ (cutToken a cs).2 = a :: cs := by
  rw [cutToken]
  split
  · rw [cutNumber]
    split
    · rename_i hpoint
      obtain ⟨r, hr⟩ := List.head?_eq_some_iff.1 hpoint
      rw [hr, List.tail_cons, Token.chars, List.append_assoc, List.cons_append,
        List.takeWhile_append_dropWhile, ← hr, List.takeWhile_append_dropWhile]
    · exact List.takeWhile_append_dropWhile
  · split
    · exact congrArg (a :: ·) List.takeWhile_append_dropWhile
    · split
      · rename_i hstars
        simp only [Bool.and_eq_true, decide_eq_true_eq] at hstars
        obtain ⟨rfl, hhead⟩ := hstars
        obtain ⟨r, rfl⟩ := List.head?_eq_some_iff.1 hhead
        rfl
      · rfl

/-! ### Cuts by the first character -/

theorem cutToken_number {a : Char} (ha : (a.isDigit || a = '.') = true) (cs : List Char) :
    cutToken a cs = cutNumber (a :: cs) := by
  rw [cutToken, if_pos ha]

theorem cutToken_name {a : Char} (ha : a.isAlpha = true) (cs : List Char) :
    cutToken a cs =
      (.name (a :: cs.takeWhile Char.isAlphanum), cs.dropWhile Char.isAlphanum) := by
  have hnumber : ¬(a.isDigit || a = '.') = true := by
    rw [Text.isDigit_eq_false_of_isAlpha ha]
    intro h
    obtain rfl : a = '.' := by simpa using h
    exact absurd ha (by decide)
  rw [cutToken, if_neg hnumber, if_pos ha]

theorem cutToken_stars {cs : List Char} (h : cs.head? = some '*') :
    cutToken '*' cs = (.stars, cs.tail) := by
  rw [cutToken, h]
  rfl

/-- A character that is not of a number or a name is cut off by itself, but for two stars. -/
theorem cutToken_sign {a : Char} (ha : a.isAlphanum = false ∧ a ≠ '.') {cs : List Char}
    (hcs : a = '*' → cs.head? ≠ some '*') : cutToken a cs = (.sign a, cs) := by
  have hclass := ha.1
  rw [Char.isAlphanum, Bool.or_eq_false_iff] at hclass
  have hstars : ¬(decide (a = '*') && decide (cs.head? = some '*')) = true := by
    rw [Bool.and_eq_true, decide_eq_true_eq, decide_eq_true_eq]
    exact fun h => hcs h.1 h.2
  rw [cutToken, hclass.2, hclass.1, decide_eq_false ha.2, if_neg hstars]
  rfl

theorem chars_cutToken_ne_nil (a : Char) (cs : List Char) : (cutToken a cs).1.chars ≠ [] := by
  intro h
  have htext := chars_append_cutToken a cs
  rw [h, List.nil_append] at htext
  have hle := length_cutToken_le a cs
  rw [htext] at hle
  exact absurd hle (Nat.not_succ_le_self _)

/-- A token begins with the character where it is cut. -/
theorem head?_chars_cutToken (a : Char) (cs : List Char) :
    (cutToken a cs).1.chars.head? = some a := by
  have htext := congrArg List.head? (chars_append_cutToken a cs)
  rwa [List.head?_append_of_ne_nil _ (chars_cutToken_ne_nil a cs)] at htext

theorem tokens_nil : tokens [] = [] := by rw [tokens.eq_def]

theorem tokens_cons_of_isBlank {a : Char} (ha : Text.isBlank a = true) (cs : List Char) :
    tokens (a :: cs) = tokens cs := by
  rw [tokens.eq_def]
  exact if_pos ha

theorem tokens_cons {a : Char} (ha : Text.isBlank a = false) (cs : List Char) :
    tokens (a :: cs) = (cutToken a cs).1 :: tokens (cutToken a cs).2 := by
  rw [tokens.eq_def]
  exact if_neg (by rw [ha]; exact Bool.false_ne_true)

/-- Nothing but blanks is lost. -/
theorem mem_chars_of_mem {cs : List Char} {a : Char} (h : a ∈ cs) :
    Text.isBlank a = true ∨ ∃ t ∈ tokens cs, a ∈ t.chars := by
  generalize hn : cs.length = n
  induction n using Nat.strongRecOn generalizing cs with
  | ind n ih =>
    cases cs with
    | nil => exact absurd h List.not_mem_nil
    | cons x cs =>
      have hx := chars_append_cutToken x cs
      cases hblank : Text.isBlank x with
      | true =>
        rw [tokens_cons_of_isBlank hblank]
        rcases List.mem_cons.1 h with rfl | h
        · exact .inl hblank
        · exact ih _ (hn ▸ Nat.lt_succ_self _) h rfl
      | false =>
        rw [tokens_cons hblank]
        rw [← hx] at h
        rcases List.mem_append.1 h with h | h
        · exact .inr ⟨_, List.mem_cons_self, h⟩
        · refine (ih _ (hn ▸ Nat.lt_succ_of_le (length_cutToken_le x cs)) h rfl).imp_right ?_
          rintro ⟨t, ht, ha⟩
          exact ⟨t, List.mem_cons_of_mem _ ht, ha⟩

/-! ## Tokens of trees -/

/-- What goes on so that a number or a name before it has ended. -/
def Apart (r : List Char) : Prop := ∀ a, r.head? = some a → a.isAlphanum = false ∧ a ≠ '.'

theorem Follows.apart {r : List Char} (h : Follows .primary r) : Apart r := h.isAlphanum_eq_false

theorem Apart.isDigit {r : List Char} (h : Apart r) (a : Char) (ha : r.head? = some a) :
    a.isDigit = false := by
  have := (h a ha).1
  rw [Char.isAlphanum, Bool.or_eq_false_iff] at this
  exact this.2

theorem tokens_blanks (b : Blanks) (r : List Char) : tokens (b.1 ++ r) = tokens r := by
  obtain ⟨b, hb⟩ := b
  induction b with
  | nil => rfl
  | cons a b ih =>
    have ha := hb a List.mem_cons_self
    exact (tokens_cons_of_isBlank ha (b ++ r)).trans
      (ih fun x hx => hb x (List.mem_cons_of_mem _ hx))

theorem cutNumber_append (n : Numeral) {r : List Char} (hr : Apart r) :
    cutNumber (n.chars ++ r) = (.number n.chars, r) := by
  rw [cutNumber]
  cases n with
  | whole ds hd =>
    have hpoint : r.head? ≠ some '.' := fun h => (hr '.' h).2 rfl
    rw [Numeral.chars, Text.dropWhile_append_of_head? ds.2 hr.isDigit,
      Text.takeWhile_append_of_head? ds.2 hr.isDigit, if_neg hpoint]
  | pointed ds fs hd =>
    have hpoint (s : List Char) (a : Char) (ha : ('.' :: s).head? = some a) :
        a.isDigit = false := by
      rw [← Option.some.inj ha]
      rfl
    rw [Numeral.chars, List.append_assoc, List.cons_append,
      Text.dropWhile_append_of_head? ds.2 (hpoint _),
      Text.takeWhile_append_of_head? ds.2 (hpoint _), List.head?_cons, if_pos rfl, List.tail_cons,
      Text.dropWhile_append_of_head? fs.2 hr.isDigit,
      Text.takeWhile_append_of_head? fs.2 hr.isDigit]

theorem tokens_numeral (n : Numeral) {r : List Char} (hr : Apart r) :
    tokens (n.chars ++ r) = .number n.chars :: tokens r := by
  have hcut := cutNumber_append n hr
  obtain ⟨a, w, hn, ha⟩ := n.exists_chars_eq_cons
  have hnumber : (a.isDigit || a = '.') = true := by simpa using ha
  rw [hn, List.cons_append] at hcut ⊢
  rw [tokens_cons (of_begins_primary (.inr (.inr ha))).1, cutToken_number hnumber, hcut]

theorem tokens_name (name : Name) {r : List Char}
    (hr : ∀ a, r.head? = some a → a.isAlphanum = false) :
    tokens (name.chars ++ r) = .name name.chars :: tokens r := by
  obtain ⟨a, w, ha, hw⟩ := name
  rw [Name.chars, List.cons_append, tokens_cons (of_begins_primary (.inr (.inl ha))).1,
    cutToken_name ha, Text.takeWhile_append_of_head? hw hr,
    Text.dropWhile_append_of_head? hw hr]

/-- A character that is neither a blank nor of a number or a name is a token by itself,
    but for two stars. -/
theorem tokens_sign {a : Char} (hblank : Text.isBlank a = false)
    (ha : a.isAlphanum = false ∧ a ≠ '.') {r : List Char} (hr : a = '*' → r.head? ≠ some '*') :
    tokens (a :: r) = .sign a :: tokens r := by
  rw [tokens_cons hblank, cutToken_sign ha hr]

theorem tokens_mark {a : Char} (ha : a = '-' ∨ a = '(' ∨ a = ')') (r : List Char) :
    tokens (a :: r) = .sign a :: tokens r := by
  rcases ha with rfl | rfl | rfl <;> exact tokens_sign (by decide) (by decide) nofun

theorem tokens_stars (r : List Char) : tokens ('*' :: '*' :: r) = .stars :: tokens r :=
  tokens_cons (by decide) _

namespace Grammar

/-- The token of a power sign. -/
def PowerSign.token : PowerSign → Token
  | caret => .sign '^'
  | stars => .stars

mutual

/-- The tokens of an expression. -/
def Expression.tokens : Expression → List Token
  | .term t => t.tokens
  | .join e _ o t => e.tokens ++ .sign o.1.char :: t.tokens

/-- The tokens of a term. -/
def Term.tokens : Term → List Token
  | .factor f => f.tokens
  | .join t _ o f => t.tokens ++ .sign o.1.char :: f.tokens

/-- The tokens of a factor. -/
def Factor.tokens : Factor → List Token
  | .neg _ f => .sign '-' :: f.tokens
  | .primary _ p => p.tokens
  | .power _ base _ sign exponent => base.tokens ++ sign.token :: exponent.tokens

/-- The tokens of a primary. -/
def Primary.tokens : Primary → List Token
  | .number n => [.number n.chars]
  | .group e _ => .sign '(' :: e.tokens ++ [.sign ')']
  | .call name _ argument _ =>
    .name name.chars :: .sign '(' :: argument.tokens ++ [.sign ')']

end

theorem apart_char (o : Operator) : o.char.isAlphanum = false ∧ o.char ≠ '.' := by
  cases o <;> decide

theorem tokens_powerSign (sign : PowerSign) (f : Factor) (r : List Char) :
    Calculator.tokens (sign.chars ++ (f.chars ++ r)) =
      sign.token :: Calculator.tokens (f.chars ++ r) := by
  cases sign with
  | caret => exact tokens_sign (by decide) (by decide) nofun
  | stars => exact tokens_stars _

/-- The tokens of an expression that is closed by a parenthesis. -/
theorem tokens_close {e : Expression} (before : Blanks) (r : List Char)
    (he : ∀ r, Apart r → Calculator.tokens (e.chars ++ r) = e.tokens ++ Calculator.tokens r) :
    Calculator.tokens (e.chars ++ (before.1 ++ ')' :: r)) =
      e.tokens ++ .sign ')' :: Calculator.tokens r := by
  rw [he _ (follows_close before r).term.factor.primary.apart, tokens_blanks,
    tokens_mark (.inr (.inr rfl))]

mutual

/-- The tokens of a text that begins with an expression. -/
theorem Expression.tokens_append (e : Expression) {r : List Char} (hr : Apart r) :
    Calculator.tokens (e.chars ++ r) = e.tokens ++ Calculator.tokens r := by
  cases e with
  | term t => exact t.tokens_append hr
  | join e before o t =>
    have hnext : Apart (before.1 ++ o.1.char :: (t.chars ++ r)) :=
      (follows_additive before o _).factor.primary.apart
    have hstar : o.1.char = '*' → (t.chars ++ r).head? ≠ some '*' := by
      obtain ⟨o, rfl | rfl⟩ := o <;> exact nofun
    simp only [Expression.chars, Expression.tokens, List.append_assoc, List.cons_append]
    rw [e.tokens_append hnext, tokens_blanks, tokens_sign o.1.isBlank_char
      (apart_char o.1) hstar, t.tokens_append hr]

/-- The tokens of a text that begins with a term. -/
theorem Term.tokens_append (t : Term) {r : List Char} (hr : Apart r) :
    Calculator.tokens (t.chars ++ r) = t.tokens ++ Calculator.tokens r := by
  cases t with
  | factor f => exact f.tokens_append hr
  | join t before o f =>
    have hnext : Apart (before.1 ++ o.1.char :: (f.chars ++ r)) :=
      (follows_multiplicative before o f r).primary.apart
    simp only [Term.chars, Term.tokens, List.append_assoc, List.cons_append]
    rw [t.tokens_append hnext, tokens_blanks, tokens_sign o.1.isBlank_char
      (apart_char o.1) (fun _ => f.head?_chars_ne_star r), f.tokens_append hr]

/-- The tokens of a text that begins with a factor. -/
theorem Factor.tokens_append (f : Factor) {r : List Char} (hr : Apart r) :
    Calculator.tokens (f.chars ++ r) = f.tokens ++ Calculator.tokens r := by
  cases f with
  | neg before f =>
    simp only [Factor.chars, Factor.tokens, List.append_assoc, List.cons_append]
    rw [tokens_blanks, tokens_mark (.inl rfl), f.tokens_append hr]
  | primary before p =>
    simp only [Factor.chars, Factor.tokens, List.append_assoc]
    rw [tokens_blanks, p.tokens_append hr]
  | power before base between sign exponent =>
    have hnext : Apart (between.1 ++ (sign.chars ++ (exponent.chars ++ r))) :=
      (follows_sign between sign _).apart
    simp only [Factor.chars, Factor.tokens, List.append_assoc, List.cons_append]
    rw [tokens_blanks, base.tokens_append hnext, tokens_blanks, tokens_powerSign,
      exponent.tokens_append hr]

/-- The tokens of a text that begins with a primary. -/
theorem Primary.tokens_append (p : Primary) {r : List Char} (hr : Apart r) :
    Calculator.tokens (p.chars ++ r) = p.tokens ++ Calculator.tokens r := by
  cases p with
  | number n => exact tokens_numeral n hr
  | group e before =>
    simp only [Primary.chars, Primary.tokens, List.append_assoc, List.cons_append,
      List.nil_append]
    rw [tokens_mark (.inr (.inl rfl)), tokens_close before r fun _ hs => e.tokens_append hs]
  | call name between e before =>
    simp only [Primary.chars, Primary.tokens, List.append_assoc, List.cons_append,
      List.nil_append]
    rw [tokens_name name (isAlphanum_eq_false_of_head?_append between _), tokens_blanks,
      tokens_mark (.inr (.inl rfl)), tokens_close before r fun _ hs => e.tokens_append hs]

end

/-- The tokens of a sentence. -/
theorem Sentence.tokens_chars (s : Sentence) :
    Calculator.tokens s.chars = s.expression.tokens := by
  have hafter : Calculator.tokens s.after.1 = [] := by
    have := tokens_blanks s.after []
    rw [List.append_nil] at this
    rw [this, tokens_nil]
  rw [Sentence.chars, s.expression.tokens_append
    (follows_blanks .primary s.after).apart, hafter, List.append_nil]

end Grammar

/-! ## How tokens stand beside each other -/

/-- Whether an expression may begin with the token. -/
def Token.Starts (t : Token) : Prop := t = .sign '-' ∨ t.opens = true

/-- Whether the token may stand after an operand and before another. -/
def Token.Divides (t : Token) : Prop := t = .sign '-' ∨ t.joins = true

/-- Whether the second token may follow the first: after an operand there is an operator
    or a closing parenthesis, after a name an opening one, and otherwise an operand. -/
def Fits (a b : Token) : Prop :=
  if a.closes then b = .sign ')' ∨ b.Divides
  else if a.names then b = .sign '('
  else b.Starts

/-- Whether the token is one of the grammar. -/
def Token.Known : Token → Prop
  | number w => ∃ n : Numeral, n.chars = w
  | name w => ∃ n : Name, n.chars = w
  | stars => True
  | sign a => a ∈ ['+', '-', '*', '/', '%', '^', '(', ')']

/-- Tokens as those of an expression. -/
structure Phrase (ts : List Token) : Prop where
  starts : ∃ a, ts.head? = some a ∧ a.Starts
  ends : ∃ a, ts.getLast? = some a ∧ a.closes = true
  fits : ts.IsChain Fits
  balanced : ∀ depth, ts.foldlM Token.nest depth = some depth
  known : ∀ t ∈ ts, t.Known

namespace Token

theorem Divides.fits {a b : Token} (ha : a.closes = true) (hb : b.Divides) : Fits a b := by
  rw [Fits, if_pos ha]
  exact .inr hb

theorem known_sign {a : Char} (h : a ∈ ['+', '-', '*', '/', '%', '^', '(', ')']) :
    (sign a).Known := h

/-- An operator is no end of an operand, no name and no parenthesis. -/
theorem Divides.eq_false {t : Token} (h : t.Divides) :
    t.closes = false ∧ t.names = false ∧ t ≠ sign '(' ∧ t ≠ sign ')' := by
  have hsign {c : Char} (hc : (sign c).Divides) (a : Char) (ha : a = '(' ∨ a = ')') : c ≠ a := by
    rintro rfl
    rcases ha with rfl | rfl <;> exact absurd hc (by simp [Divides, joins])
  cases t with
  | number w => exact absurd h (by simp [Divides, joins])
  | name w => exact absurd h (by simp [Divides, joins])
  | stars => exact ⟨rfl, rfl, nofun, nofun⟩
  | sign c =>
    have hopen := hsign h '(' (.inl rfl)
    have hclose := hsign h ')' (.inr rfl)
    exact ⟨decide_eq_false hclose, rfl, fun hc => hopen (sign.inj hc),
      fun hc => hclose (sign.inj hc)⟩

/-- After what neither ends an operand nor is a name there is an operand. -/
theorem Starts.fits {a b : Token} (hcloses : a.closes = false) (hnames : a.names = false)
    (hb : b.Starts) : Fits a b := by
  rw [Fits, hcloses, hnames]
  exact hb

theorem nest_of_ne {t : Token} (h : t ≠ sign '(' ∧ t ≠ sign ')') (depth : Nat) :
    t.nest depth = some depth := by
  rw [nest, if_neg h.1, if_neg h.2]

end Token

/-- A chain goes on with a token that fits to its end. -/
theorem isChain_append_cons {ts us : List Token} {a o : Token} (hts : ts.IsChain Fits)
    (hus : (o :: us).IsChain Fits) (ha : ts.getLast? = some a) (hfits : Fits a o) :
    (ts ++ o :: us).IsChain Fits := by
  refine hts.append hus fun x hx y hy => ?_
  rw [ha] at hx
  rw [← Option.some.inj hx, ← Option.some.inj hy]
  exact hfits

theorem isChain_cons_of_head? {us : List Token} {a o : Token} (hus : us.IsChain Fits)
    (ha : us.head? = some a) (hfits : Fits o a) : (o :: us).IsChain Fits := by
  refine hus.cons fun y hy => ?_
  rw [ha] at hy
  rw [← Option.some.inj hy]
  exact hfits

namespace Phrase

theorem number (n : Numeral) : Phrase [.number n.chars] where
  starts := ⟨_, rfl, .inr rfl⟩
  ends := ⟨_, rfl, rfl⟩
  fits := .singleton _
  balanced _ := rfl
  known := List.forall_mem_singleton.2 ⟨n, rfl⟩

variable {ts us : List Token}

/-- Two expressions joined by an operator. -/
theorem join {o : Token} (ho : o.Divides) (hknown : o.Known) (hts : Phrase ts) (hus : Phrase us) :
    Phrase (ts ++ o :: us) := by
  obtain ⟨a, hhead, ha⟩ := hts.starts
  obtain ⟨z, hlast, hz⟩ := hts.ends
  obtain ⟨b, hhead', hb⟩ := hus.starts
  obtain ⟨y, hlast', hy⟩ := hus.ends
  obtain ⟨hcloses, hnames, hparens⟩ := ho.eq_false
  constructor
  · exact ⟨a, by rw [List.head?_append, hhead]; rfl, ha⟩
  · exact ⟨y, by rw [List.getLast?_append, List.getLast?_cons, hlast']; rfl, hy⟩
  · exact isChain_append_cons hts.fits
      (isChain_cons_of_head? hus.fits hhead' (hb.fits hcloses hnames)) hlast (ho.fits hz)
  · intro depth
    rw [List.foldlM_append, hts.balanced]
    show (o.nest depth >>= fun d => us.foldlM Token.nest d) = _
    rw [Token.nest_of_ne hparens]
    exact hus.balanced depth
  · rw [List.forall_mem_append, List.forall_mem_cons]
    exact ⟨hts.known, hknown, hus.known⟩

/-- A negated expression. -/
theorem neg (hts : Phrase ts) : Phrase (.sign '-' :: ts) := by
  obtain ⟨a, hhead, ha⟩ := hts.starts
  obtain ⟨z, hlast, hz⟩ := hts.ends
  constructor
  · exact ⟨_, rfl, .inl rfl⟩
  · exact ⟨z, by rw [List.getLast?_cons, hlast]; rfl, hz⟩
  · exact isChain_cons_of_head? hts.fits hhead (ha.fits rfl rfl)
  · exact fun depth => hts.balanced depth
  · exact List.forall_mem_cons.2 ⟨Token.known_sign (by decide), hts.known⟩

/-- An expression in parentheses. -/
theorem group (hts : Phrase ts) : Phrase (.sign '(' :: ts ++ [.sign ')']) := by
  obtain ⟨a, hhead, ha⟩ := hts.starts
  obtain ⟨z, hlast, hz⟩ := hts.ends
  constructor
  · exact ⟨_, rfl, .inr rfl⟩
  · exact ⟨_, List.getLast?_concat, rfl⟩
  · have hopen := isChain_cons_of_head? hts.fits hhead (ha.fits (a := .sign '(') rfl rfl)
    refine isChain_append_cons hopen (.singleton _) (a := z) ?_ ?_
    · rw [List.getLast?_cons, hlast]
      rfl
    · rw [Fits, if_pos hz]
      exact .inl rfl
  · intro depth
    show (ts ++ [Token.sign ')']).foldlM Token.nest (depth + 1) = _
    rw [List.foldlM_append, hts.balanced]
    rfl
  · rw [List.forall_mem_append, List.forall_mem_cons, List.forall_mem_singleton]
    exact ⟨⟨Token.known_sign (by decide), hts.known⟩, Token.known_sign (by decide)⟩

/-- A call is a name and a group. -/
theorem call (name : Name) (hts : Phrase ts) :
    Phrase (.name name.chars :: .sign '(' :: ts ++ [.sign ')']) := by
  have hgroup := hts.group
  obtain ⟨z, hlast, hz⟩ := hgroup.ends
  constructor
  · exact ⟨_, rfl, .inr rfl⟩
  · exact ⟨_, List.getLast?_concat, rfl⟩
  · exact isChain_cons_of_head? hgroup.fits rfl rfl
  · exact fun depth => hgroup.balanced depth
  · exact List.forall_mem_cons.2 ⟨⟨name, rfl⟩, hgroup.known⟩

end Phrase

namespace Grammar

theorem PowerSign.divides (sign : PowerSign) : sign.token.Divides ∧ sign.token.Known := by
  cases sign with
  | caret => exact ⟨.inr (by decide), Token.known_sign (by decide)⟩
  | stars => exact ⟨.inr rfl, trivial⟩

theorem divides_operator (o : Operator) :
    (Token.sign o.char).Divides ∧ (Token.sign o.char).Known := by
  cases o with
  | sub => exact ⟨.inl rfl, Token.known_sign (by decide)⟩
  | add | mul | div | mod => exact ⟨.inr (by decide), Token.known_sign (by decide)⟩

mutual

theorem Expression.phrase : ∀ e : Expression, Phrase e.tokens
  | .term t => t.phrase
  | .join e _ o t => .join (divides_operator o.1).1 (divides_operator o.1).2 e.phrase t.phrase

theorem Term.phrase : ∀ t : Term, Phrase t.tokens
  | .factor f => f.phrase
  | .join t _ o f => .join (divides_operator o.1).1 (divides_operator o.1).2 t.phrase f.phrase

theorem Factor.phrase : ∀ f : Factor, Phrase f.tokens
  | .neg _ f => f.phrase.neg
  | .primary _ p => p.phrase
  | .power _ base _ sign exponent =>
    .join sign.divides.1 sign.divides.2 base.phrase exponent.phrase

theorem Primary.phrase : ∀ p : Primary, Phrase p.tokens
  | .number n => .number n
  | .group e _ => e.phrase.group
  | .call name _ argument _ => .call name argument.phrase

end

end Grammar

/-! ## What a sentence never holds -/

/-- Tokens without any of the things that the grammar does not have. -/
structure Orderly (ts : List Token) : Prop where
  /-- Operands are not side by side: no number stands before a number or a name, as in
      `1.2.3` or `1e5`, and nothing but an operator after a group. -/
  apart : ∀ a b, [a, b] <:+: ts → a.closes = true → b.opens = false
  /-- Operators stand after an operand: there is no unary plus, and no operator after a
      star, so two stars with blanks between them are no power. -/
  joined : ∀ b, b.joins = true →
    ts.head? ≠ some b ∧ ∀ a, [a, b] <:+: ts → a.closes = true
  /-- The last token ends an operand. -/
  ended : ∃ a, ts.getLast? = some a ∧ a.closes = true
  /-- Parentheses are balanced. -/
  balanced : ts.foldlM Token.nest 0 = some 0

/-- An exponent is not part of a number. -/
example : tokens ['1', 'e', '5'] = [.number ['1'], .name ['e', '5']] := by decide +kernel

/-- What opens an operand does not divide operands. -/
theorem Token.Divides.opens {t : Token} (h : t.Divides) : t.opens = false := by
  cases t with
  | number w => exact absurd h (by simp [Divides, joins])
  | name w => exact absurd h (by simp [Divides, joins])
  | stars => rfl
  | sign c => exact decide_eq_false fun hc => h.eq_false.2.2.1 (congrArg sign hc)

theorem Token.Starts.joins {t : Token} (h : t.Starts) : t.joins = false := by
  rcases h with rfl | h
  · decide
  · cases t with
    | number w | name w => rfl
    | stars => exact absurd h Bool.false_ne_true
    | sign c =>
      obtain rfl : c = '(' := by simpa [opens] using h
      decide

theorem Phrase.orderly {ts : List Token} (h : Phrase ts) : Orderly ts := by
  have hfits {a b : Token} (hab : [a, b] <:+: ts) : Fits a b := by
    -- Neighbours in the phrase are a chain of two.
    have hpair := List.IsChain.infix h.fits hab
    exact List.isChain_pair.1 hpair
  constructor
  · intro a b hab ha
    have := hfits hab
    rw [Fits, if_pos ha] at this
    rcases this with rfl | hb
    · decide
    · exact hb.opens
  · refine fun b hb => ⟨fun hhead => ?_, fun a hab => ?_⟩
    · obtain ⟨a, ha, hstarts⟩ := h.starts
      rw [hhead] at ha
      obtain rfl := Option.some.inj ha
      rw [hstarts.joins] at hb
      exact Bool.false_ne_true hb
    · have := hfits hab
      rw [Fits] at this
      cases ha : a.closes with
      | true => rfl
      | false =>
        rw [ha, if_neg Bool.false_ne_true] at this
        split at this
        · rw [this] at hb
          exact absurd hb (by decide)
        · rw [this.joins] at hb
          exact hb
  · exact h.ends
  · exact h.balanced 0

/-- The characters of the grammar's tokens are letters, digits and a few signs, all of
    them ASCII. -/
theorem Token.Known.ascii {t : Token} (h : t.Known) {a : Char} (ha : a ∈ t.chars) :
    a.isAlphanum = true ∨ a ∈ ['.', '+', '-', '*', '/', '%', '^', '(', ')'] := by
  cases t with
  | number w =>
    obtain ⟨n, rfl⟩ := h
    cases n with
    | whole ds hd => exact .inl (Text.isAlphanum_of_isDigit (ds.2 a ha))
    | pointed ds fs hd =>
      rcases List.mem_append.1 ha with ha | ha
      · exact .inl (Text.isAlphanum_of_isDigit (ds.2 a ha))
      · rcases List.mem_cons.1 ha with rfl | ha
        · exact .inr List.mem_cons_self
        · exact .inl (Text.isAlphanum_of_isDigit (fs.2 a ha))
  | name w =>
    obtain ⟨n, rfl⟩ := h
    exact .inl (n.isAlphanum_of_mem_chars a ha)
  | stars =>
    obtain rfl : a = '*' := by simpa [chars] using ha
    exact .inr (by decide)
  | sign c =>
    obtain rfl : a = c := by simpa [chars] using ha
    exact .inr (List.mem_cons_of_mem _ h)

end Calculator
