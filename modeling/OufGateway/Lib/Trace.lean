import Mathlib

/-!
# Machines with visible events, and what a trace says about them

A `Machine` is a deterministic step on a state and an input, with the list
of events that step makes visible. Everything a program leaves open — which
worker moves next, what a clock reads, what a remote party answers — is part
of the input, so a statement about every list of inputs is a statement about
every interleaving.

Two rules carry the developments built on this file. `Machine.invariant`
says a relation between the state and the trace so far that every step keeps
holds of every run. `Separated` says that between two `A` events there is
always one that answers the first; it is kept by a step as long as an `A` only
ever happens in a trace that is `Ready` for it, with nothing left unanswered.
-/

namespace OufGateway.Lib

variable {σ ι ε : Type*}

/-- A deterministic step and the events it shows. -/
structure Machine (σ ι ε : Type*) where
  step : σ → ι → σ
  emit : σ → ι → List ε

namespace Machine

variable (m : Machine σ ι ε)

/-- The state after a list of inputs. -/
def run (s : σ) (is : List ι) : σ := is.foldl m.step s

/-- The events of a run, in order. -/
def trace : σ → List ι → List ε
  | _, [] => []
  | s, i :: is => m.emit s i ++ trace (m.step s i) is

@[simp] theorem run_nil (s : σ) : m.run s [] = s := rfl

@[simp] theorem run_cons (s : σ) (i : ι) (is : List ι) :
    m.run s (i :: is) = m.run (m.step s i) is := rfl

@[simp] theorem trace_nil (s : σ) : m.trace s [] = [] := rfl

@[simp] theorem trace_cons (s : σ) (i : ι) (is : List ι) :
    m.trace s (i :: is) = m.emit s i ++ m.trace (m.step s i) is := rfl

theorem run_append (s : σ) (is js : List ι) :
    m.run s (is ++ js) = m.run (m.run s is) js := List.foldl_append

theorem trace_append (s : σ) (is js : List ι) :
    m.trace s (is ++ js) = m.trace s is ++ m.trace (m.run s is) js := by
  induction is generalizing s with
  | nil => rfl
  | cons i is ih => simp [ih]

theorem run_snoc (s : σ) (is : List ι) (i : ι) :
    m.run s (is ++ [i]) = m.step (m.run s is) i := by simp [run_append]

theorem trace_snoc (s : σ) (is : List ι) (i : ι) :
    m.trace s (is ++ [i]) = m.trace s is ++ m.emit (m.run s is) i := by
  simp [trace_append]

/-- An event of a run is shown by one of its steps. -/
theorem mem_trace {s : σ} {is : List ι} {e : ε} (h : e ∈ m.trace s is) :
    ∃ pre i post, is = pre ++ i :: post ∧ e ∈ m.emit (m.run s pre) i := by
  induction is generalizing s with
  | nil => cases h
  | cons i is ih =>
      rcases List.mem_append.mp h with h | h
      · exact ⟨[], i, is, rfl, h⟩
      · obtain ⟨pre, j, post, rfl, hj⟩ := ih h
        exact ⟨i :: pre, j, post, rfl, hj⟩

/-- The rule for runs: what holds of the empty run and is kept by every
step that passes the guard holds of every run whose steps all pass it. -/
theorem invariant_of {P : σ → List ε → Prop} {g : σ → ι → Prop} {s : σ}
    (h0 : P s [])
    (hstep : ∀ t tr i, g t i → P t tr → P (m.step t i) (tr ++ m.emit t i))
    (is : List ι)
    (hok : ∀ pre i post, is = pre ++ i :: post → g (m.run s pre) i) :
    P (m.run s is) (m.trace s is) := by
  induction is using List.reverseRecOn with
  | nil => exact h0
  | append_singleton is i ih =>
      rw [run_snoc, trace_snoc]
      refine hstep _ _ _ (hok is i [] rfl) (ih fun pre j post h => ?_)
      exact hok pre j (post ++ [i]) (by simp [h])

/-- The same rule with no guard on the steps. -/
theorem invariant {P : σ → List ε → Prop} {s : σ} (h0 : P s [])
    (hstep : ∀ t tr i, P t tr → P (m.step t i) (tr ++ m.emit t i))
    (is : List ι) : P (m.run s is) (m.trace s is) :=
  m.invariant_of (g := fun _ _ => True) h0 (fun t tr i _ => hstep t tr i) is
    fun _ _ _ _ => trivial

/-- The rule for what a run leaves behind: a relation that every step from a
good state keeps, and that composes, relates the two ends of a run. -/
theorem run_rel {G : σ → Prop} {R : σ → σ → Prop}
    (hgood : ∀ t i, G t → G (m.step t i))
    (hrefl : ∀ t, R t t) (htrans : ∀ {a b c}, R a b → R b c → R a c)
    (hstep : ∀ t i, G t → R t (m.step t i)) {s : σ} (hs : G s)
    (is : List ι) : R s (m.run s is) := by
  induction is generalizing s with
  | nil => exact hrefl s
  | cons i is ih => exact htrans (hstep s i hs) (ih (hgood s i hs))

end Machine

/-! ## Alternation -/

variable (A : ε → Prop) (B : ε → ε → Prop)

/-- Between any two `A` events there is one that answers the earlier. -/
def Separated (tr : List ε) : Prop :=
  ∀ pre a mid a' post, tr = pre ++ a :: mid ++ a' :: post → A a → A a' →
    ∃ b ∈ mid, B a b

/-- Every `A` event so far has been answered. -/
def Ready (tr : List ε) : Prop :=
  ∀ pre a mid, tr = pre ++ a :: mid → A a → ∃ b ∈ mid, B a b

variable {A B}

theorem separated_nil : Separated A B ([] : List ε) := by
  intro pre a mid a' post h
  simp at h

theorem ready_nil : Ready A B ([] : List ε) := by
  intro pre a mid h
  simp at h

/-- Where a split of a trace with one more event can fall: at the new
event, or inside the old trace. -/
theorem snoc_eq_split {tr pre post : List ε} {e a : ε}
    (h : tr ++ [e] = pre ++ a :: post) :
    (tr = pre ∧ e = a ∧ post = []) ∨
      ∃ post', post = post' ++ [e] ∧ tr = pre ++ a :: post' := by
  rcases List.eq_nil_or_concat post with rfl | ⟨post', z, rfl⟩
  · obtain ⟨h1, h2⟩ := List.append_inj' h rfl
    exact Or.inl ⟨h1, List.singleton_inj.1 h2, rfl⟩
  · have h' : tr ++ [e] = (pre ++ a :: post') ++ [z] := by
      rw [h]; simp
    obtain ⟨h1, h2⟩ := List.append_inj' h' rfl
    obtain rfl := List.singleton_inj.1 h2
    exact Or.inr ⟨post', by simp, h1⟩

theorem ready_snoc {tr : List ε} {e : ε} (h : Ready A B tr) (he : ¬ A e) :
    Ready A B (tr ++ [e]) := by
  intro pre a mid heq ha
  rcases snoc_eq_split heq with ⟨-, rfl, -⟩ | ⟨mid', rfl, hpre⟩
  · exact absurd ha he
  · obtain ⟨b, hb, hB⟩ := h pre a mid' hpre ha
    exact ⟨b, by simp [hb], hB⟩

/-- An answer to the last `A` event makes a separated trace ready: the
earlier ones were answered before it. -/
theorem ready_of_snoc {tr : List ε} {e : ε} (hsep : Separated A B tr) (he : ¬ A e)
    (hB : ∀ pre a mid, tr = pre ++ a :: mid → A a → (∀ x ∈ mid, ¬ A x) → B a e) :
    Ready A B (tr ++ [e]) := by
  intro pre a mid heq ha
  rcases snoc_eq_split heq with ⟨-, rfl, -⟩ | ⟨mid', rfl, hpre⟩
  · exact absurd ha he
  · by_cases hlast : ∀ x ∈ mid', ¬ A x
    · exact ⟨e, by simp, hB pre a mid' hpre ha hlast⟩
    · push Not at hlast
      obtain ⟨x, hx, hAx⟩ := hlast
      obtain ⟨m1, m2, rfl⟩ := List.append_of_mem hx
      obtain ⟨b, hb, hb'⟩ := hsep pre a m1 x m2 (by rw [hpre]; simp) ha hAx
      exact ⟨b, by simp [hb], hb'⟩

/-- A step of the trace keeps `Separated` when an `A` only happens in a
trace that is ready for it. -/
theorem separated_snoc {tr : List ε} {e : ε} (h : Separated A B tr)
    (he : A e → Ready A B tr) : Separated A B (tr ++ [e]) := by
  intro pre a mid a' post heq ha ha'
  rcases snoc_eq_split heq with ⟨hpre, rfl, -⟩ | ⟨post', rfl, hpre⟩
  · exact he ha' pre a mid hpre ha
  · exact h pre a mid a' post' hpre ha ha'

end OufGateway.Lib
