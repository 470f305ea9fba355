import Calculator.Grammar.Denotation
import Calculator.Proofs.Results

/-!
# The nodes of a tree, in the order of their work

A denotation says what a tree is worth, or which fault it has; this file says whose
fault that is. The nodes of a tree are listed with what they consist of before them:
operands before their operator, the argument of a call before its function, and from
left to right. Each node has a token, an operator, a number or a name, and a position,
at which this token stands in the text of the tree (`Expression.standsAt`); and it has a
fault if all its operands have values, but not the node.

The fault of a denotation is that of the first node that has one, at its position
(`Expression.findSome?_nodes`).
-/

namespace Calculator.Grammar

/-- A node of a tree: its token, the offset of the token, and its fault. -/
structure Node where
  token : List Char
  position : Nat
  /-- None if the node has a value, or if one of its operands has none. -/
  fault? : Option Fault
  deriving DecidableEq, Repr

/-- The fault of a node, at its position. -/
def Node.located? (n : Node) : Option Located := n.fault?.map (⟨·, n.position⟩)

variable {α β : Type}

/-- The fault of a computation on an operand; none if there is no operand. -/
def faultOn? (operand : Except Located α) (f : α → Except Fault β) : Option Fault :=
  match operand with
  | .ok a => faultOf? (f a)
  | .error _ => none

/-- The values of two operands, the left one first. -/
def both (x y : Except Located Binary64) : Except Located (Binary64 × Binary64) := do
  return (← x, ← y)

variable (m : Elementary)

mutual

/-- The nodes of an expression whose text starts at an offset. -/
def Expression.nodes (offset : Nat) : Expression → List Node
  | .term t => t.nodes offset
  | .join e before o t =>
    let position := offset + e.chars.length + before.1.length
    e.nodes offset ++ t.nodes (position + 1) ++
      [⟨[o.1.char], position, faultOn? (both (e.denote m offset) (t.denote m (position + 1)))
        fun p => o.1.apply p.1 p.2⟩]

/-- The nodes of a term whose text starts at an offset. -/
def Term.nodes (offset : Nat) : Term → List Node
  | .factor f => f.nodes offset
  | .join t before o f =>
    let position := offset + t.chars.length + before.1.length
    t.nodes offset ++ f.nodes (position + 1) ++
      [⟨[o.1.char], position, faultOn? (both (t.denote m offset) (f.denote m (position + 1)))
        fun p => o.1.apply p.1 p.2⟩]

/-- The nodes of a factor whose text starts at an offset. -/
def Factor.nodes (offset : Nat) : Factor → List Node
  | .neg before f =>
    f.nodes (offset + before.1.length + 1) ++ [⟨['-'], offset + before.1.length, none⟩]
  | .primary before p => p.nodes (offset + before.1.length)
  | .power before base between sign exponent =>
    let position := offset + before.1.length + base.chars.length + between.1.length
    base.nodes (offset + before.1.length) ++ exponent.nodes (position + sign.chars.length) ++
      [⟨sign.chars, position,
        faultOn? (both (base.denote m (offset + before.1.length))
          (exponent.denote m (position + sign.chars.length))) fun p => power m p.1 p.2⟩]

/-- The nodes of a primary whose text starts at an offset. -/
def Primary.nodes (offset : Nat) : Primary → List Node
  | .number n => [⟨n.chars, offset, faultOf? n.value⟩]
  | .group e _ => e.nodes (offset + 1)
  | .call name between argument _ =>
    let start := offset + name.chars.length + between.1.length + 1
    argument.nodes start ++
      [⟨name.chars, offset, faultOn? (argument.denote m start)
        (applyNamed m (String.ofList name.chars))⟩]

end

/-- The nodes of a sentence. -/
def Sentence.nodes (s : Sentence) : List Node := s.expression.nodes m 0

/-! ## The first fault -/

theorem faultOf?_locate (position : Nat) (r : Except Fault α) :
    faultOf? (locate position r) = (faultOf? r).map (⟨·, position⟩) := by
  cases r <;> rfl

/-- The fault of an operation on two operands is that of the left one, or else of the
    right one, or else its own. -/
theorem faultOf?_operation (x y : Except Located Binary64) (token : List Char) (position : Nat)
    (f : Binary64 → Binary64 → Except Fault Binary64) :
    faultOf? (do let a ← x; let b ← y; locate position (f a b)) =
      ((faultOf? x).or (faultOf? y)).or
        (Node.located? ⟨token, position, faultOn? (both x y) fun p => f p.1 p.2⟩) := by
  cases x with
  | error e => rfl
  | ok a =>
    cases y with
    | error e => rfl
    | ok b => exact faultOf?_locate position (f a b)

/-- The first fault of the nodes of two operands and of their operator. -/
theorem findSome?_operation (ms ns : List Node) (n : Node) :
    (ms ++ ns ++ [n]).findSome? Node.located? =
      ((ms.findSome? Node.located?).or (ns.findSome? Node.located?)).or n.located? := by
  rw [List.findSome?_append, List.findSome?_append, List.findSome?_singleton]

mutual

/-- The fault of an expression is that of the first of its nodes that has one. -/
theorem Expression.findSome?_nodes (e : Expression) (offset : Nat) :
    (e.nodes m offset).findSome? Node.located? = faultOf? (e.denote m offset) := by
  cases e with
  | term t => exact t.findSome?_nodes offset
  | join e before o t =>
    rw [Expression.nodes, Expression.denote, findSome?_operation, e.findSome?_nodes,
      t.findSome?_nodes, faultOf?_operation]

/-- The fault of a term is that of the first of its nodes that has one. -/
theorem Term.findSome?_nodes (t : Term) (offset : Nat) :
    (t.nodes m offset).findSome? Node.located? = faultOf? (t.denote m offset) := by
  cases t with
  | factor f => exact f.findSome?_nodes offset
  | join t before o f =>
    rw [Term.nodes, Term.denote, findSome?_operation, t.findSome?_nodes,
      f.findSome?_nodes, faultOf?_operation]

/-- The fault of a factor is that of the first of its nodes that has one. -/
theorem Factor.findSome?_nodes (f : Factor) (offset : Nat) :
    (f.nodes m offset).findSome? Node.located? = faultOf? (f.denote m offset) := by
  cases f with
  | neg before f =>
    rw [Factor.nodes, Factor.denote, List.findSome?_append, f.findSome?_nodes]
    cases f.denote m (offset + before.1.length + 1) <;> rfl
  | primary before p => exact p.findSome?_nodes _
  | power before base between sign exponent =>
    rw [Factor.nodes, Factor.denote, findSome?_operation, base.findSome?_nodes,
      exponent.findSome?_nodes, faultOf?_operation]

/-- The fault of a primary is that of the first of its nodes that has one. -/
theorem Primary.findSome?_nodes (p : Primary) (offset : Nat) :
    (p.nodes m offset).findSome? Node.located? = faultOf? (p.denote m offset) := by
  cases p with
  | number n =>
    rw [Primary.nodes, Primary.denote, faultOf?_locate]
    cases faultOf? n.value <;> rfl
  | group e before => exact e.findSome?_nodes _
  | call name between e before =>
    rw [Primary.nodes, Primary.denote, List.findSome?_append, e.findSome?_nodes]
    cases e.denote m (offset + name.chars.length + between.1.length + 1) with
    | error e => rfl
    | ok x =>
      refine Eq.trans ?_ (faultOf?_locate offset (applyNamed m _ x)).symm
      rw [faultOn?]
      cases faultOf? (applyNamed m (String.ofList name.chars) x) <;> rfl

end

/-! ## The tokens of nodes -/

/-- The token of a node stands at its position in a text that starts at an offset. -/
def Node.StandsIn (n : Node) (offset : Nat) (text : List Char) : Prop :=
  ∃ before after, text = before ++ n.token ++ after ∧ n.position = offset + before.length

/-- What stands in a part of a text stands in the text. -/
theorem Node.StandsIn.within {n : Node} {offset start : Nat} {part text : List Char}
    (h : n.StandsIn start part) (before after : List Char) (ht : text = before ++ part ++ after)
    (hs : start = offset + before.length) : n.StandsIn offset text := by
  obtain ⟨u, v, rfl, hp⟩ := h
  refine ⟨before ++ u, v ++ after, ?_, ?_⟩
  · rw [ht]
    simp only [List.append_assoc]
  · rw [hp, hs, List.length_append, Nat.add_assoc]

mutual

theorem Expression.standsIn (e : Expression) (offset : Nat) :
    ∀ n ∈ e.nodes m offset, n.StandsIn offset e.chars := by
  intro n hn
  cases e with
  | term t => exact t.standsIn offset n hn
  | join e before o t =>
    rw [Expression.nodes, List.mem_append, List.mem_append, List.mem_singleton] at hn
    rcases hn with (hn | hn) | rfl
    · refine (e.standsIn offset n hn).within [] (before.1 ++ o.1.char :: t.chars) ?_ rfl
      simp [Expression.chars]
    · refine (t.standsIn _ n hn).within (e.chars ++ before.1 ++ [o.1.char]) [] ?_ ?_
      · simp [Expression.chars]
      · simp [Nat.add_assoc]
    · refine ⟨e.chars ++ before.1, t.chars, ?_, ?_⟩
      · simp [Expression.chars]
      · simp [Nat.add_assoc]

theorem Term.standsIn (t : Term) (offset : Nat) :
    ∀ n ∈ t.nodes m offset, n.StandsIn offset t.chars := by
  intro n hn
  cases t with
  | factor f => exact f.standsIn offset n hn
  | join t before o f =>
    rw [Term.nodes, List.mem_append, List.mem_append, List.mem_singleton] at hn
    rcases hn with (hn | hn) | rfl
    · refine (t.standsIn offset n hn).within [] (before.1 ++ o.1.char :: f.chars) ?_ rfl
      simp [Term.chars]
    · refine (f.standsIn _ n hn).within (t.chars ++ before.1 ++ [o.1.char]) [] ?_ ?_
      · simp [Term.chars]
      · simp [Nat.add_assoc]
    · refine ⟨t.chars ++ before.1, f.chars, ?_, ?_⟩
      · simp [Term.chars]
      · simp [Nat.add_assoc]

theorem Factor.standsIn (f : Factor) (offset : Nat) :
    ∀ n ∈ f.nodes m offset, n.StandsIn offset f.chars := by
  intro n hn
  cases f with
  | neg before f =>
    rw [Factor.nodes, List.mem_append, List.mem_singleton] at hn
    rcases hn with hn | rfl
    · refine (f.standsIn _ n hn).within (before.1 ++ ['-']) [] ?_ ?_
      · simp [Factor.chars]
      · simp [Nat.add_assoc]
    · exact ⟨before.1, f.chars, by simp [Factor.chars], rfl⟩
  | primary before p =>
    exact (p.standsIn _ n hn).within before.1 [] (by simp [Factor.chars]) rfl
  | power before base between sign exponent =>
    rw [Factor.nodes, List.mem_append, List.mem_append, List.mem_singleton] at hn
    rcases hn with (hn | hn) | rfl
    · refine (base.standsIn _ n hn).within before.1
        (between.1 ++ sign.chars ++ exponent.chars) ?_ rfl
      simp [Factor.chars]
    · refine (exponent.standsIn _ n hn).within
        (before.1 ++ base.chars ++ between.1 ++ sign.chars) [] ?_ ?_
      · simp [Factor.chars]
      · simp [Nat.add_assoc]
    · refine ⟨before.1 ++ base.chars ++ between.1, exponent.chars, ?_, ?_⟩
      · simp [Factor.chars]
      · simp [Nat.add_assoc]

theorem Primary.standsIn (p : Primary) (offset : Nat) :
    ∀ n ∈ p.nodes m offset, n.StandsIn offset p.chars := by
  intro n hn
  cases p with
  | number d =>
    rw [Primary.nodes, List.mem_singleton] at hn
    exact ⟨[], [], by simp [hn, Primary.chars], by simp [hn]⟩
  | group e before =>
    refine (e.standsIn _ n hn).within ['('] (before.1 ++ [')']) ?_ rfl
    simp [Primary.chars]
  | call name between e before =>
    rw [Primary.nodes, List.mem_append, List.mem_singleton] at hn
    rcases hn with hn | rfl
    · refine (e.standsIn _ n hn).within (name.chars ++ between.1 ++ ['('])
        (before.1 ++ [')']) ?_ ?_
      · simp [Primary.chars]
      · simp [Nat.add_assoc]
    · refine ⟨[], between.1 ++ '(' :: e.chars ++ before.1 ++ [')'], ?_, rfl⟩
      simp [Primary.chars]

end

end Calculator.Grammar
