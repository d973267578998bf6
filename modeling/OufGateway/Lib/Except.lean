/-!
# Reading back a fallible computation

A chain of fallible steps that answered `ok` answered `ok` at every step.
`bind_eq_ok` peels one step off; the two conditionals do the same for the
early raises a guard makes. `andThen` is the same chain over a state that stays
as it is left when a step raises.
-/

namespace OufGateway.Lib

variable {ε σ α β : Type _}

theorem bind_eq_ok {x : Except ε α} {k : α → Except ε β} {b : β} :
    (x >>= k) = .ok b ↔ ∃ a, x = .ok a ∧ k a = .ok b := by
  cases x with
  | error e => constructor <;> (intro h; simp [bind, Except.bind] at h)
  | ok a => simp [bind, Except.bind]

theorem bind_eq_error {x : Except ε α} {k : α → Except ε β} {e : ε} :
    (x >>= k) = .error e ↔ x = .error e ∨ ∃ a, x = .ok a ∧ k a = .error e := by
  cases x with
  | error e' => simp [bind, Except.bind]
  | ok a => simp [bind, Except.bind]

theorem guard_eq_ok {p : Prop} [Decidable p] {e : ε} {x : Except ε α} {a : α} :
    (if p then .error e else x) = .ok a ↔ ¬ p ∧ x = .ok a := by
  split <;> simp_all

/-- Go on with the answer, in the state it came with. -/
def andThen (r : Except ε α × σ) (k : α → σ → Except ε β × σ) : Except ε β × σ :=
  match r with
  | (.error e, s) => (.error e, s)
  | (.ok a, s) => k a s

@[simp] theorem andThen_ok (a : α) (s : σ) (k : α → σ → Except ε β × σ) :
    andThen (.ok a, s) k = k a s := rfl

@[simp] theorem andThen_error (e : ε) (s : σ) (k : α → σ → Except ε β × σ) :
    andThen (.error e, s) k = (.error e, s) := rfl

theorem andThen_keeps {P : σ → Prop} {r : Except ε α × σ} {k : α → σ → Except ε β × σ}
    (hr : P r.2) (hk : ∀ a s, P s → P (k a s).2) : P (andThen r k).2 := by
  rcases r with ⟨_ | a, s⟩
  · exact hr
  · exact hk a s hr

theorem andThen_eq_ok {r : Except ε α × σ} {k : α → σ → Except ε β × σ} {b : β} :
    (andThen r k).1 = .ok b ↔ ∃ a, r.1 = .ok a ∧ (k a r.2).1 = .ok b := by
  rcases r with ⟨_ | a, s⟩ <;> simp

end OufGateway.Lib
