/-!
# Results

What may fail has a result in `Except`: a value, or what went wrong. This file has the general
facts on results. Computations in a row succeed only if all of them do (`exists_of_bind_eq_ok`,
`exists_of_foldlM_cons`), and fail only in the ways in which one of them does (`foldlM_ne_error`).
A result is known from its value or its fault (`eq_ok_of_toOption_eq_some`,
`faultOf?_eq_some_iff`), which can be compared where results cannot.
-/

namespace Calculator

variable {ε α β : Type}

/-! ## Computations in a row -/

/-- What succeeds in the end has succeeded before. -/
theorem exists_of_bind_eq_ok {x : Except ε α} {f : α → Except ε β} {b : β}
    (h : x >>= f = .ok b) : ∃ a, x = .ok a ∧ f a = .ok b := by
  cases x with
  | ok a => exact ⟨a, rfl, h⟩
  | error e => exact absurd h nofun

section Steps
variable {f : β → α → Except ε β}

/-- A run of steps that succeeds does so from the first on. -/
theorem exists_of_foldlM_cons {a : α} {as : List α} {b b' : β}
    (h : (a :: as).foldlM f b = .ok b') : ∃ b₁, f b a = .ok b₁ ∧ as.foldlM f b₁ = .ok b' :=
  exists_of_bind_eq_ok (List.foldlM_cons.symm.trans h)

/-- Steps of which none fails in a way do not fail in this way together. -/
theorem foldlM_ne_error {e : ε} (h : ∀ b a, f b a ≠ .error e) (as : List α) (b : β) :
    as.foldlM f b ≠ .error e := by
  induction as generalizing b with
  | nil => exact nofun
  | cons a as ih =>
    rw [List.foldlM_cons]
    cases ha : f b a with
    | ok b' => exact ih b'
    | error e' => exact fun he => h b a (ha.trans (congrArg Except.error (Except.error.inj he)))

end Steps

/-! ## Values and faults -/

theorem eq_ok_of_toOption_eq_some {x : Except ε α} {a : α} (h : x.toOption = some a) :
    x = .ok a := by
  cases x with
  | ok b => exact congrArg _ (Option.some.inj h)
  | error e => exact absurd h nofun

/-- The fault of a result. -/
def faultOf? : Except ε α → Option ε
  | .ok _ => none
  | .error e => some e

theorem faultOf?_eq_some_iff {x : Except ε α} {e : ε} : faultOf? x = some e ↔ x = .error e := by
  cases x with
  | ok a => exact ⟨nofun, nofun⟩
  | error e' => exact ⟨fun h => congrArg _ (Option.some.inj h), fun h =>
      congrArg _ (Except.error.inj h)⟩

end Calculator
