import Mathlib
import OufGateway.Lib.Program

/-!
# A request that nobody interrupts

A run of a program from a state that only the program changes. `Ends` is its rule: what
the program ends in, whatever it meets from outside, is stated over the last state, the
events and the answer, so that it says of one request what `Good` says of many. What is
known of a program among others, or of one that finds whatever it finds, is true of it by
itself (`Good.ends`, `Keeps.ends`, `Meets.ends`).
-/

namespace OufGateway.Lib

namespace Program

variable {σ ι ε ρ α β : Type} {p : Program σ ι ε ρ α} {f : α → Program σ ι ε ρ β} {s : σ}
  {tr : List ε} {q q' : σ → List ε → Except ρ α → Prop}

/-- A run from a state that only the program changes. -/
def alone : Program σ ι ε ρ α → σ → (Nat → ι) → σ × List ε × Except ρ α
  | done a, s, _ => (s, [], .ok a)
  | fail e, s, _ => (s, [], .error e)
  | atomic act emit next, s, input =>
    let (s', es, x) := (next s (input 0)).alone (act s (input 0)) fun n => input (n + 1)
    (s', emit s (input 0) ++ es, x)

/-- Whatever inputs it meets, the program ends in a state, after events and with an answer
for which `q` holds. -/
def Ends (q : σ → List ε → Except ρ α → Prop) : Program σ ι ε ρ α → σ → List ε → Prop
  | done a, s, tr => q s tr (.ok a)
  | fail e, s, tr => q s tr (.error e)
  | atomic act emit next, s, tr => ∀ i, Ends q (next s i) (act s i) (tr ++ emit s i)

theorem Ends.alone (h : Ends q p s tr) (input : Nat → ι) :
    q (p.alone s input).1 (tr ++ (p.alone s input).2.1) (p.alone s input).2.2 := by
  induction p generalizing s tr input with
  | done a => rw [Program.alone, List.append_nil]; exact h
  | fail e => rw [Program.alone, List.append_nil]; exact h
  | atomic act emit next ih =>
      have hnext := ih s (input 0) (h (input 0)) fun n => input (n + 1)
      rw [List.append_assoc] at hnext
      exact hnext

theorem Ends.mono (h : Ends q p s tr) (hq : ∀ s tr x, q s tr x → q' s tr x) : Ends q' p s tr := by
  induction p generalizing s tr with
  | done a => exact hq _ _ _ h
  | fail e => exact hq _ _ _ h
  | atomic act emit next ih => exact fun i => ih s i (h i)

theorem Ends.and (h : Ends q p s tr) (h' : Ends q' p s tr) :
    Ends (fun s tr x => q s tr x ∧ q' s tr x) p s tr := by
  induction p generalizing s tr with
  | done a => exact ⟨h, h'⟩
  | fail e => exact ⟨h, h'⟩
  | atomic act emit next ih => exact fun i => ih s i (h i) (h' i)

theorem Ends.bind {r : σ → List ε → Except ρ β → Prop} (h : Ends q p s tr)
    (hok : ∀ s tr a, q s tr (.ok a) → Ends r (f a) s tr)
    (herror : ∀ s tr e, q s tr (.error e) → r s tr (.error e)) : Ends r (p.bind f) s tr := by
  induction p generalizing s tr with
  | done a => exact hok s tr a h
  | fail e => exact herror s tr e h
  | atomic act emit next ih => exact fun i => ih s i (h i)

theorem Ends.handle {g : ρ → Program σ ι ε ρ α} (h : Ends q p s tr)
    (hok : ∀ s tr a, q s tr (.ok a) → q' s tr (.ok a))
    (herror : ∀ s tr e, q s tr (.error e) → Ends q' (g e) s tr) : Ends q' (p.handle g) s tr := by
  induction p generalizing s tr with
  | done a => exact hok s tr a h
  | fail e => exact herror s tr e h
  | atomic act emit next ih => exact fun i => ih s i (h i)

theorem ends_ofExcept {x : Except ρ α} (h : q s tr x) : Ends q (ofExcept x : Program σ ι ε ρ α) s tr := by
  cases x with
  | error e => exact h
  | ok a => exact h

theorem ends_transaction {g : σ → ι → Except ρ (σ × List ε × α)}
    (hok : ∀ i s' es a, g s i = .ok (s', es, a) → q s' (tr ++ es) (.ok a))
    (herror : ∀ i e, g s i = .error e → q s tr (.error e)) :
    Ends q (transaction g : Program σ ι ε ρ α) s tr := by
  intro i
  simp only []
  split
  · next s' es a hg => exact hok i s' es a hg
  · next e hg =>
    rw [List.append_nil]
    exact herror i e hg

theorem ends_read {g : σ → ι → Except ρ α} (h : ∀ i x, g s i = x → q s tr x) :
    Ends q (read g : Program σ ι ε ρ α) s tr := by
  refine ends_transaction (fun i s' es a hg => ?_) fun i e hg => ?_
  · cases hgi : g s i with
    | error e =>
        rw [hgi] at hg
        cases hg
    | ok b =>
        rw [hgi] at hg
        cases hg
        rw [List.append_nil]
        exact h i _ hgi
  · cases hgi : g s i with
    | error e' =>
        rw [hgi] at hg
        cases hg
        exact h i _ hgi
    | ok b =>
        rw [hgi] at hg
        cases hg

/-- What holds whatever the program finds holds in a run by itself. -/
theorem Meets.ends {r : List ε → Except ρ α → Prop} (h : Meets r p tr) : Ends (fun _ => r) p s tr := by
  induction p generalizing s tr with
  | done a => exact h
  | fail e => exact h
  | atomic act emit next ih => exact fun i => ih s i (h s i)

theorem Keeps.ends {P : σ → Prop} (h : Keeps P p) (hs : P s) : Ends (fun s _ _ => P s) p s tr := by
  induction p generalizing s tr with
  | done a => exact hs
  | fail e => exact hs
  | atomic act emit next ih => exact fun i => ih s i (h s i).2 ((h s i).1 hs)

/-- A program that keeps its discipline among others keeps it by itself. -/
theorem Good.ends {d : Discipline σ ε} {g : σ → List ε → α → Prop} (h : Good d g p s tr) (hinv : d.inv s tr) :
    Ends (fun s tr x => d.inv s tr ∧ ∀ a, x = .ok a → g s tr a) p s tr := by
  induction p generalizing s tr with
  | done a => exact ⟨hinv, fun b hb => Except.ok.inj hb ▸ h⟩
  | fail e => exact ⟨hinv, fun b hb => by cases hb⟩
  | atomic act emit next ih =>
      intro i
      obtain ⟨hkeeps, hnext⟩ := h s tr (d.refl s tr) hinv i
      exact ih s i hnext hkeeps.inv

end Program

end OufGateway.Lib
