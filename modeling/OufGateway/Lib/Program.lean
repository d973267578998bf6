import Mathlib
import OufGateway.Lib.Trace

/-!
# Requests that interleave

A `Program` is a request on a state it shares with others: it is done, has failed,
or takes one more atomic step, which looks at the state and at what that step meets
from outside, writes the state, shows events, and goes on from there. Between two
steps anything may happen, so a program that wants to know something of the state
it left has to have reasons; `Good` is the bookkeeping of these reasons. A
`Discipline` fixes what holds at all times, what any step of anyone may do to the
state, and what an event must be worth when it is shown; a good program keeps all
three whatever happens between its steps, as long as that too is allowed.

A `Pool` runs any number of programs side by side over one state. Its rule,
`Pool.disciplined`, gives the invariant at the end of every run and the worth of
every event of it, out of `Good` for each request alone. `Lives` adds what a program
comes to after so many steps, when each of them meets a state and an input that are
good enough. `Meets` is the other reading of a program, as the answers and events it
can come to when nothing at all is known of the states it finds.
-/

namespace OufGateway.Lib

inductive Program (σ ι ε ρ α : Type)
  | done (a : α)
  | fail (e : ρ)
  | atomic (act : σ → ι → σ) (emit : σ → ι → List ε) (next : σ → ι → Program σ ι ε ρ α)

namespace Program

variable {σ ι ε ρ α β : Type}

def bind : Program σ ι ε ρ α → (α → Program σ ι ε ρ β) → Program σ ι ε ρ β
  | done a, f => f a
  | fail e, _ => fail e
  | atomic act emit next, f => atomic act emit fun s i => (next s i).bind f

instance : Monad (Program σ ι ε ρ) where
  pure := done
  bind := bind

/-- The handler goes on from the state the failed step left. -/
def handle : Program σ ι ε ρ α → (ρ → Program σ ι ε ρ α) → Program σ ι ε ρ α
  | done a, _ => done a
  | fail e, h => h e
  | atomic act emit next, h => atomic act emit fun s i => (next s i).handle h

/-- One step that commits, or fails and leaves the state. -/
def transaction (f : σ → ι → Except ρ (σ × List ε × α)) : Program σ ι ε ρ α :=
  atomic
    (fun s i => match f s i with
      | .ok (s', _, _) => s'
      | .error _ => s)
    (fun s i => match f s i with
      | .ok (_, es, _) => es
      | .error _ => [])
    (fun s i => match f s i with
      | .ok (_, _, a) => done a
      | .error e => fail e)

/-- One step that only reads. -/
def read (f : σ → ι → Except ρ α) : Program σ ι ε ρ α :=
  transaction fun s i => (f s i).map fun a => (s, [], a)

def ofExcept : Except ρ α → Program σ ι ε ρ α
  | .ok a => done a
  | .error e => fail e

/-- A step that only shows an event. -/
def announce (e : ε) : Program σ ι ε ρ Unit :=
  atomic (fun s _ => s) (fun _ _ => [e]) fun _ _ => done ()

/-- The state after the next step, and what the program is then. -/
def advance : Program σ ι ε ρ α → σ → ι → σ × Program σ ι ε ρ α
  | atomic act _ next, s, i => (act s i, next s i)
  | p, s, _ => (s, p)

/-- `[a for a in items if p(a)]`, one call after the other. -/
def filter (p : α → Program σ ι ε ρ Bool) : List α → Program σ ι ε ρ (List α)
  | [] => done []
  | a :: rest => (p a).bind fun keep => (filter p rest).bind fun kept =>
      done (if keep then a :: kept else kept)

end Program

/-- A block that fails leaves the state. -/
theorem Program.advance_failed {σ ι ε ρ α : Type} {f : σ → ι → Except ρ (σ × List ε × α)}
    {s : σ} {i : ι} {e : ρ} (h : ((Program.transaction f).advance s i).2 = .fail e) :
    ((Program.transaction f).advance s i).1 = s := by
  unfold Program.transaction Program.advance at h ⊢
  simp only [] at h ⊢
  split at h
  · cases h
  · rfl

/-! ## Disciplines -/

/-- What holds at all times, what a step may do, and what an event is worth. The
list is the events shown so far. -/
structure Discipline (σ ε : Type) where
  inv : σ → List ε → Prop
  rel : σ → List ε → σ → List ε → Prop
  worth : σ → List ε → σ → ε → Prop
  refl : ∀ s tr, rel s tr s tr
  trans : ∀ {s₁ tr₁ s₂ tr₂ s₃ tr₃}, rel s₁ tr₁ s₂ tr₂ → rel s₂ tr₂ s₃ tr₃ → rel s₁ tr₁ s₃ tr₃

/-- A step from `s` to `s'` that shows `es` keeps the discipline. -/
structure Discipline.Keeps {σ ε : Type} (d : Discipline σ ε) (s : σ) (tr : List ε) (s' : σ)
    (es : List ε) : Prop where
  inv : d.inv s' (tr ++ es)
  rel : d.rel s tr s' (tr ++ es)
  worth : ∀ e ∈ es, d.worth s tr s' e

namespace Program

variable {σ ι ε ρ α β : Type} {d : Discipline σ ε} {p : Program σ ι ε ρ α}
  {f : α → Program σ ι ε ρ β} {s s' : σ} {tr tr' : List ε}

/-- The program keeps the discipline from here, and where it is done `q` holds. -/
def Good (d : Discipline σ ε) (q : σ → List ε → α → Prop) :
    Program σ ι ε ρ α → σ → List ε → Prop
  | done a, s, tr => q s tr a
  | fail _, _, _ => True
  | atomic act emit next, s, tr => ∀ s' tr', d.rel s tr s' tr' → d.inv s' tr' → ∀ i,
      d.Keeps s' tr' (act s' i) (emit s' i) ∧
        Good d q (next s' i) (act s' i) (tr' ++ emit s' i)

variable {q q' : σ → List ε → α → Prop} {r : σ → List ε → β → Prop}

theorem Good.mono (h : Good d q p s tr) (hq : ∀ s tr a, q s tr a → q' s tr a) :
    Good d q' p s tr := by
  induction p generalizing s tr with
  | done a => exact hq s tr a h
  | fail e => trivial
  | atomic act emit next ih =>
      intro s' tr' hrel hinv i
      obtain ⟨hkeeps, hnext⟩ := h s' tr' hrel hinv i
      exact ⟨hkeeps, ih s' i hnext⟩

/-- What others do before the next step changes nothing, if it does not change `q`. -/
theorem Good.stable (h : Good d q p s tr) (hrel : d.rel s tr s' tr')
    (hq : ∀ {s tr s' tr' a}, d.rel s tr s' tr' → q s tr a → q s' tr' a) : Good d q p s' tr' := by
  cases p with
  | done a => exact hq hrel h
  | fail e => trivial
  | atomic act emit next => exact fun s'' tr'' hrel' => h s'' tr'' (d.trans hrel hrel')

/-- The second program starts where the first left the state, or later. -/
theorem Good.bind (h : Good d q p s tr)
    (hf : ∀ s' tr' a, d.rel s tr s' tr' → q s' tr' a → Good d r (f a) s' tr') :
    Good d r (p.bind f) s tr := by
  induction p generalizing s tr with
  | done a => exact hf s tr a (d.refl s tr) h
  | fail e => trivial
  | atomic act emit next ih =>
      intro s' tr' hrel hinv i
      obtain ⟨hkeeps, hnext⟩ := h s' tr' hrel hinv i
      refine ⟨hkeeps, ih s' i hnext fun s'' tr'' a hrel' ha => ?_⟩
      exact hf s'' tr'' a (d.trans hrel (d.trans hkeeps.rel hrel')) ha

/-- Where the program is done the invariant still holds. -/
theorem Good.keep (h : Good d q p s tr) (hinv : d.inv s tr) :
    Good d (fun s' tr' a => d.inv s' tr' ∧ q s' tr' a) p s tr := by
  induction p generalizing s tr with
  | done a => exact ⟨hinv, h⟩
  | fail e => trivial
  | atomic act emit next ih =>
      intro s' tr' hrel hinv' i
      obtain ⟨hkeeps, hnext⟩ := h s' tr' hrel hinv' i
      exact ⟨hkeeps, ih s' i hnext hkeeps.inv⟩

theorem Good.handle {g : ρ → Program σ ι ε ρ α} (h : Good d q p s tr)
    (hg : ∀ s' tr' e, Good d q (g e) s' tr') : Good d q (p.handle g) s tr := by
  induction p generalizing s tr with
  | done a => exact h
  | fail e => exact hg s tr e
  | atomic act emit next ih =>
      intro s' tr' hrel hinv i
      obtain ⟨hkeeps, hnext⟩ := h s' tr' hrel hinv i
      exact ⟨hkeeps, ih s' i hnext⟩

theorem good_filter {p : α → Program σ ι ε ρ Bool} {items : List α}
    (hp : ∀ a s' tr', Good d (fun _ _ _ => True) (p a) s' tr') :
    Good d (fun _ _ kept => kept.Sublist items) (filter p items) s tr := by
  induction items generalizing s tr with
  | nil => exact List.Sublist.refl []
  | cons a items ih =>
      refine Good.bind (hp a s tr) fun s' tr' keep _ _ => ?_
      refine Good.bind ih fun s'' tr'' kept _ hkept => ?_
      show (if keep = true then a :: kept else kept).Sublist (a :: items)
      split
      · exact hkept.cons_cons a
      · exact hkept.cons a

theorem good_announce {e : ε} {q : σ → List ε → Unit → Prop}
    (h : ∀ s' tr', d.rel s tr s' tr' → d.inv s' tr' →
      d.Keeps s' tr' s' [e] ∧ q s' (tr' ++ [e]) ()) :
    Good d q (announce e : Program σ ι ε ρ Unit) s tr :=
  fun s' tr' hrel hinv _ => h s' tr' hrel hinv

theorem good_transaction {g : σ → ι → Except ρ (σ × List ε × α)}
    (h : ∀ s' tr', d.rel s tr s' tr' → d.inv s' tr' → ∀ i s'' es a, g s' i = .ok (s'', es, a) →
      d.Keeps s' tr' s'' es ∧ q s'' (tr' ++ es) a) : Good d q (transaction g) s tr := by
  intro s' tr' hrel hinv i
  simp only []
  split
  · next s'' es a hok => exact h s' tr' hrel hinv i s'' es a hok
  · next e he =>
    refine ⟨⟨?_, ?_, fun e he => by cases he⟩, trivial⟩
    · rw [List.append_nil]
      exact hinv
    · rw [List.append_nil]
      exact d.refl _ _

theorem good_read {g : σ → ι → Except ρ α}
    (h : ∀ s' tr', d.rel s tr s' tr' → d.inv s' tr' → ∀ i a, g s' i = .ok a → q s' tr' a) :
    Good d q (read g) s tr := by
  refine good_transaction fun s' tr' hrel hinv i s'' es a hok => ?_
  cases hg : g s' i with
  | error e =>
      rw [hg] at hok
      cases hok
  | ok b =>
      rw [hg] at hok
      cases hok
      refine ⟨⟨?_, ?_, fun e he => by cases he⟩, ?_⟩
      · rw [List.append_nil]
        exact hinv
      · rw [List.append_nil]
        exact d.refl _ _
      · rw [List.append_nil]
        exact h s' tr' hrel hinv i _ hg

theorem good_ofExcept {x : Except ρ α} (h : ∀ a, x = .ok a → q s tr a) :
    Good d q (ofExcept x : Program σ ι ε ρ α) s tr := by
  cases x with
  | error e => trivial
  | ok a => exact h a rfl

end Program

/-! ## Pools -/

structure Pool (σ ι ε ρ : Type) where
  shared : σ
  workers : Nat → Program σ ι ε ρ Unit

/-- A request arrives, a worker takes its next step or stops for good, or somebody
else writes the state. -/
inductive Move (κ ι ξ : Type)
  | start (worker : Nat) (k : κ)
  | step (worker : Nat) (i : ι)
  | crash (worker : Nat)
  | outside (x : ξ)

namespace Pool

variable {σ ι ε ρ κ ξ : Type} (request : κ → Program σ ι ε ρ Unit) (write : σ → ξ → σ)

/-- A worker in a request takes no other. -/
def next (w : Pool σ ι ε ρ) : Move κ ι ξ → Pool σ ι ε ρ × List ε
  | .start n k =>
    match w.workers n with
    | .atomic _ _ _ => (w, [])
    | _ => ({ w with workers := Function.update w.workers n (request k) }, [])
  | .step n i =>
    match w.workers n with
    | .atomic act emit next =>
      (⟨act w.shared i, Function.update w.workers n (next w.shared i)⟩, emit w.shared i)
    | _ => (w, [])
  | .crash n => ({ w with workers := Function.update w.workers n (.done ()) }, [])
  | .outside x => ({ w with shared := write w.shared x }, [])

def system : Machine (Pool σ ι ε ρ) (Move κ ι ξ) ε where
  step w m := (w.next request write m).1
  emit w m := (w.next request write m).2

def initial (s : σ) : Pool σ ι ε ρ := ⟨s, fun _ => .done ()⟩

variable {request write} {d : Discipline σ ε} {w : Pool σ ι ε ρ} {tr : List ε}

/-- The discipline holds, and every worker keeps it from here. -/
structure Disciplined (d : Discipline σ ε) (w : Pool σ ι ε ρ) (tr : List ε) : Prop where
  inv : d.inv w.shared tr
  good : ∀ n, (w.workers n).Good d (fun _ _ _ => True) w.shared tr

theorem Disciplined.replace (h : Disciplined d w tr) {s : σ} {tr' : List ε} (n : Nat)
    {p : Program σ ι ε ρ Unit} (hinv : d.inv s tr') (hrel : d.rel w.shared tr s tr')
    (hp : p.Good d (fun _ _ _ => True) s tr') :
    Disciplined d ⟨s, Function.update w.workers n p⟩ tr' := by
  refine ⟨hinv, fun m => ?_⟩
  by_cases hm : m = n
  · rw [hm]
    show Program.Good d _ (Function.update w.workers n p n) s tr'
    rw [Function.update_self]
    exact hp
  · show Program.Good d _ (Function.update w.workers n p m) s tr'
    rw [Function.update_of_ne hm]
    exact (h.good m).stable hrel fun _ _ => trivial

/-- One move keeps the discipline, and what it shows is worth something. -/
theorem disciplined_next (hrequest : ∀ k s tr, d.inv s tr →
      (request k).Good d (fun _ _ _ => True) s tr)
    (hwrite : ∀ s tr x, d.inv s tr → d.inv (write s x) tr ∧ d.rel s tr (write s x) tr)
    (h : Disciplined d w tr) (m : Move κ ι ξ) :
    Disciplined d (w.next request write m).1 (tr ++ (w.next request write m).2) ∧
      d.rel w.shared tr (w.next request write m).1.shared (tr ++ (w.next request write m).2) ∧
      ∀ e ∈ (w.next request write m).2,
        d.worth w.shared tr (w.next request write m).1.shared e := by
  have hstay : Disciplined d w (tr ++ []) ∧ d.rel w.shared tr w.shared (tr ++ []) ∧
      ∀ e ∈ ([] : List ε), d.worth w.shared tr w.shared e := by
    rw [List.append_nil]
    exact ⟨h, d.refl _ _, fun e he => by cases he⟩
  have hset : ∀ n p, Program.Good d (fun _ _ _ => True) p w.shared tr →
      Disciplined d ⟨w.shared, Function.update w.workers n p⟩ (tr ++ []) ∧
        d.rel w.shared tr w.shared (tr ++ []) ∧
        ∀ e ∈ ([] : List ε), d.worth w.shared tr w.shared e := by
    intro n p hp
    refine ⟨?_, hstay.2⟩
    rw [List.append_nil]
    exact h.replace n h.inv (d.refl _ _) hp
  cases m with
  | start n k =>
      simp only [next]
      split
      · exact hstay
      · exact hset n (request k) (hrequest k _ _ h.inv)
  | step n i =>
      have hgood := h.good n
      simp only [next]
      split
      · next act emit cont heq =>
        rw [heq] at hgood
        obtain ⟨hkeeps, hnext⟩ := hgood _ _ (d.refl _ _) h.inv i
        exact ⟨h.replace n hkeeps.inv hkeeps.rel hnext, hkeeps.rel, hkeeps.worth⟩
      · exact hstay
  | crash n => exact hset n (.done ()) trivial
  | outside x =>
      obtain ⟨hinv, hrel⟩ := hwrite _ _ x h.inv
      simp only [next, List.append_nil]
      exact ⟨⟨hinv, fun m => (h.good m).stable hrel fun _ _ => trivial⟩, hrel,
        fun e he => by cases he⟩

/-- The rule for pools: good requests over a state that satisfies the invariant keep
the discipline in every run. -/
theorem disciplined {s : σ} (h0 : d.inv s []) (hrequest : ∀ k s tr, d.inv s tr →
      (request k).Good d (fun _ _ _ => True) s tr)
    (hwrite : ∀ s tr x, d.inv s tr → d.inv (write s x) tr ∧ d.rel s tr (write s x) tr)
    (ms : List (Move κ ι ξ)) :
    Disciplined d ((system request write).run (initial s) ms)
      ((system request write).trace (initial s) ms) :=
  have hinit : Disciplined d (initial s) [] := ⟨h0, fun _ => trivial⟩
  (system request write).invariant (P := Disciplined d) hinit
    (fun _ _ m h => (disciplined_next hrequest hwrite h m).1) ms

end Pool

/-! ## What the state keeps by itself -/

namespace Program

variable {σ ι ε ρ α β : Type} {P : σ → Prop} {p : Program σ ι ε ρ α} {f : α → Program σ ι ε ρ β}

/-- No step of the program breaks `P`, from whatever state it starts. -/
def Keeps (P : σ → Prop) : Program σ ι ε ρ α → Prop
  | done _ => True
  | fail _ => True
  | atomic act _ next => ∀ s i, (P s → P (act s i)) ∧ Keeps P (next s i)

theorem Keeps.bind (h : Keeps P p) (hf : ∀ a, Keeps P (f a)) : Keeps P (p.bind f) := by
  induction p with
  | done a => exact hf a
  | fail e => trivial
  | atomic act emit next ih => exact fun s i => ⟨(h s i).1, ih s i (h s i).2⟩

theorem Keeps.handle {g : ρ → Program σ ι ε ρ α} (h : Keeps P p) (hg : ∀ e, Keeps P (g e)) :
    Keeps P (p.handle g) := by
  induction p with
  | done a => trivial
  | fail e => exact hg e
  | atomic act emit next ih => exact fun s i => ⟨(h s i).1, ih s i (h s i).2⟩

theorem keeps_transaction {g : σ → ι → Except ρ (σ × List ε × α)}
    (h : ∀ s i s' es a, P s → g s i = .ok (s', es, a) → P s') :
    Keeps P (transaction g) := by
  intro s i
  simp only []
  split
  · next s' es a hg => exact ⟨fun hs => h s i s' es a hs hg, trivial⟩
  · exact ⟨id, trivial⟩

theorem keeps_read (g : σ → ι → Except ρ α) : Keeps P (read g : Program σ ι ε ρ α) := by
  refine keeps_transaction fun s i s' es a hs hg => ?_
  cases hgi : g s i with
  | error e =>
      rw [hgi] at hg
      cases hg
  | ok b =>
      rw [hgi] at hg
      cases hg
      exact hs

theorem keeps_ofExcept (x : Except ρ α) : Keeps P (ofExcept x : Program σ ι ε ρ α) := by
  cases x <;> trivial

theorem keeps_announce (e : ε) : Keeps P (announce e : Program σ ι ε ρ Unit) :=
  fun _ _ => ⟨id, trivial⟩

theorem keeps_filter {p : α → Program σ ι ε ρ Bool} {items : List α}
    (hp : ∀ a, Keeps P (p a)) : Keeps P (filter p items) := by
  induction items with
  | nil => trivial
  | cons a items ih => exact (hp a).bind fun _ => ih.bind fun _ => trivial

end Program

namespace Pool

variable {σ ι ε ρ κ ξ : Type} {request : κ → Program σ ι ε ρ Unit} {write : σ → ξ → σ}
  {P : σ → Prop}

theorem keeps_next (hrequest : ∀ k, (request k).Keeps P) {m : Move κ ι ξ}
    (hwrite : ∀ s x, m = .outside x → P s → P (write s x))
    {w : Pool σ ι ε ρ} (h : P w.shared ∧ ∀ n, (w.workers n).Keeps P) :
    P (w.next request write m).1.shared ∧
      ∀ n, ((w.next request write m).1.workers n).Keeps P := by
  have hset : ∀ (n : Nat) (p : Program σ ι ε ρ Unit), p.Keeps P →
      ∀ k, (Function.update w.workers n p k).Keeps P := by
    intro n p hp k
    by_cases hk : k = n
    · rw [hk, Function.update_self]
      exact hp
    · rw [Function.update_of_ne hk]
      exact h.2 k
  cases m with
  | start n k =>
      simp only [next]
      split
      · exact h
      · exact ⟨h.1, hset n _ (hrequest k)⟩
  | step n i =>
      have hn := h.2 n
      simp only [next]
      split
      · next act emit cont heq =>
        rw [heq] at hn
        exact ⟨(hn _ i).1 h.1, hset n _ (hn _ i).2⟩
      · exact h
  | crash n => exact ⟨h.1, hset n (.done ()) trivial⟩
  | outside x => exact ⟨hwrite _ x rfl h.1, h.2⟩

/-- The rule for what no request breaks, in a run whose writes do not break it either. -/
theorem keeps_run_of {s : σ} (h0 : P s) (hrequest : ∀ k, (request k).Keeps P)
    (ms : List (Move κ ι ξ)) (hwrite : ∀ x, .outside x ∈ ms → ∀ s, P s → P (write s x)) :
    P ((system request write).run (initial s) ms).shared := by
  have hinit : ∀ n, ((initial s : Pool σ ι ε ρ).workers n).Keeps P := fun _ => trivial
  exact ((system request write).invariant_of
    (P := fun w _ => P w.shared ∧ ∀ n, (w.workers n).Keeps P)
    (g := fun _ m => ∀ s x, m = .outside x → P s → P (write s x)) ⟨h0, hinit⟩
    (fun _ _ _ hm h => keeps_next hrequest hm h) ms fun pre m post hms s x hm =>
      hwrite x (by simp [hms, hm]) s).1

/-- The rule for what no step of anyone breaks. -/
theorem keeps_run {s : σ} (h0 : P s) (hrequest : ∀ k, (request k).Keeps P)
    (hwrite : ∀ s x, P s → P (write s x)) (ms : List (Move κ ι ξ)) :
    P ((system request write).run (initial s) ms).shared :=
  keeps_run_of h0 hrequest ms fun x _ s => hwrite s x

end Pool

/-! ## Coming to an end -/

namespace Program

variable {σ ι ε ρ α β : Type} {d : Discipline σ ε} {ok : σ → ι → Prop}
  {p : Program σ ι ε ρ α} {f : α → Program σ ι ε ρ β} {s : σ} {tr es : List ε} {n m : Nat}

/-- The program is over after `n` more steps, when each meets a state and an input that
are `ok`; `q` then holds of the events it has shown, after `es`, and of its answer. -/
def Lives (d : Discipline σ ε) (ok : σ → ι → Prop) (q : List ε → Except ρ α → Prop) :
    Program σ ι ε ρ α → Nat → σ → List ε → List ε → Prop
  | done a, _, _, _, es => q es (.ok a)
  | fail e, _, _, _, es => q es (.error e)
  | atomic _ _ _, 0, _, _, _ => False
  | atomic act emit next, n + 1, s, tr, es => ∀ s' tr', d.rel s tr s' tr' → d.inv s' tr' →
      ∀ i, ok s' i → Lives d ok q (next s' i) n (act s' i) (tr' ++ emit s' i) (es ++ emit s' i)

variable {q q' : List ε → Except ρ α → Prop} {r : List ε → Except ρ β → Prop}

theorem Lives.ended (h : Lives d ok q p 0 s tr es) : ∃ x, q es x := by
  cases p with
  | done a => exact ⟨.ok a, h⟩
  | fail e => exact ⟨.error e, h⟩
  | atomic act emit next => exact h.elim

theorem Lives.more (h : Lives d ok q p n s tr es) (hle : n ≤ m) : Lives d ok q p m s tr es := by
  induction p generalizing n m s tr es with
  | done a => exact h
  | fail e => exact h
  | atomic act emit next ih =>
      cases n with
      | zero => exact h.elim
      | succ n =>
          obtain ⟨m, rfl⟩ := Nat.exists_eq_succ_of_ne_zero (by omega : m ≠ 0)
          exact fun s' tr' hrel hinv i hi =>
            ih s' i (h s' tr' hrel hinv i hi) (Nat.le_of_succ_le_succ hle)

theorem Lives.stable {s' : σ} {tr' : List ε} (h : Lives d ok q p n s tr es)
    (hrel : d.rel s tr s' tr') : Lives d ok q p n s' tr' es := by
  cases p with
  | done a => exact h
  | fail e => exact h
  | atomic act emit next =>
      cases n with
      | zero => exact h.elim
      | succ n => exact fun s'' tr'' hrel' => h s'' tr'' (d.trans hrel hrel')

/-- What is known of the first answer comes from both readings of the first program. -/
theorem Lives.bind {g : σ → List ε → α → Prop} (hgood : Good d g p s tr)
    (h : Lives d ok q p n s tr es)
    (hf : ∀ s' tr' es' a, d.rel s tr s' tr' → g s' tr' a → q es' (.ok a) →
      Lives d ok r (f a) m s' tr' es')
    (herror : ∀ es' e, q es' (.error e) → r es' (.error e)) :
    Lives d ok r (p.bind f) (n + m) s tr es := by
  induction p generalizing n s tr es with
  | done a => exact (hf s tr es a (d.refl s tr) hgood h).more (Nat.le_add_left m n)
  | fail e => exact herror es e h
  | atomic act emit next ih =>
      cases n with
      | zero => exact h.elim
      | succ n =>
          rw [Nat.succ_add]
          intro s' tr' hrel hinv i hi
          obtain ⟨hkeeps, hnext⟩ := hgood s' tr' hrel hinv i
          refine ih s' i hnext (h s' tr' hrel hinv i hi) fun s'' tr'' es' a hrel' ha hq => ?_
          exact hf s'' tr'' es' a (d.trans hrel (d.trans hkeeps.rel hrel')) ha hq

theorem Lives.handle {g : ρ → Program σ ι ε ρ α} (h : Lives d ok q p n s tr es)
    (hok : ∀ es' a, q es' (.ok a) → q' es' (.ok a))
    (herror : ∀ s' tr' es' e, q es' (.error e) → Lives d ok q' (g e) m s' tr' es') :
    Lives d ok q' (p.handle g) (n + m) s tr es := by
  induction p generalizing n s tr es with
  | done a => exact hok es a h
  | fail e => exact (herror s tr es e h).more (Nat.le_add_left m n)
  | atomic act emit next ih =>
      cases n with
      | zero => exact h.elim
      | succ n =>
          rw [Nat.succ_add]
          exact fun s' tr' hrel hinv i hi => ih s' i (h s' tr' hrel hinv i hi)

theorem lives_transaction {g : σ → ι → Except ρ (σ × List ε × α)}
    (hok : ∀ s' tr' i s'' shown a, d.rel s tr s' tr' → d.inv s' tr' → ok s' i →
      g s' i = .ok (s'', shown, a) → q (es ++ shown) (.ok a))
    (herror : ∀ s' tr' i e, d.rel s tr s' tr' → d.inv s' tr' → ok s' i →
      g s' i = .error e → q es (.error e)) : Lives d ok q (transaction g) 1 s tr es := by
  intro s' tr' hrel hinv i hi
  simp only []
  split
  · next s'' shown a hg => exact hok s' tr' i s'' shown a hrel hinv hi hg
  · next e hg =>
    rw [List.append_nil es]
    exact herror s' tr' i e hrel hinv hi hg

theorem lives_read {g : σ → ι → Except ρ α}
    (h : ∀ s' tr' i, d.rel s tr s' tr' → d.inv s' tr' → ok s' i → q es (g s' i)) :
    Lives d ok q (read g) 1 s tr es := by
  refine lives_transaction (fun s' tr' i s'' shown a hrel hinv hi hg => ?_)
    fun s' tr' i e hrel hinv hi hg => ?_
  · have hread := h s' tr' i hrel hinv hi
    cases hgi : g s' i with
    | error e =>
        rw [hgi] at hg
        cases hg
    | ok b =>
        rw [hgi] at hg hread
        cases hg
        rw [List.append_nil]
        exact hread
  · have hread := h s' tr' i hrel hinv hi
    cases hgi : g s' i with
    | error e' =>
        rw [hgi] at hg hread
        cases hg
        exact hread
    | ok b =>
        rw [hgi] at hg
        cases hg

theorem lives_ofExcept {x : Except ρ α} (h : q es x) :
    Lives d ok q (ofExcept x : Program σ ι ε ρ α) 0 s tr es := by
  cases x with
  | error e => exact h
  | ok a => exact h

theorem lives_announce {e : ε} {q : List ε → Except ρ Unit → Prop} (h : q (es ++ [e]) (.ok ())) :
    Lives d ok q (announce e : Program σ ι ε ρ Unit) 1 s tr es :=
  fun _ _ _ _ _ _ => h

theorem lives_filter {p : α → Program σ ι ε ρ Bool} {items : List α}
    (hgood : ∀ a s' tr', Good d (fun _ _ _ => True) (p a) s' tr')
    (hp : ∀ a s' tr' es', Lives d ok (fun _ x => x = .ok true) (p a) n s' tr' es') :
    Lives d ok (fun _ x => x = .ok items) (filter p items) (items.length * n) s tr es := by
  induction items generalizing s tr es with
  | nil => exact rfl
  | cons a items ih =>
      rw [List.length_cons, Nat.succ_mul, Nat.add_comm]
      refine Lives.bind (hgood a s tr) (hp a s tr es) (fun s' tr' es' keep _ _ hkeep => ?_)
        fun es' e he => by cases he
      cases hkeep
      refine Lives.bind (m := 0) (good_filter hgood) ih (fun s'' tr'' es'' kept _ _ hkept => ?_)
        fun es' e he => by cases he
      cases hkept
      exact rfl

end Program

namespace Pool

variable {σ ι ε ρ κ ξ : Type} {request : κ → Program σ ι ε ρ Unit} {write : σ → ξ → σ}
  {d : Discipline σ ε} {ok : σ → ι → Prop} {q : List ε → Except ρ Unit → Prop}

/-- A step of the worker `n`. -/
def Move.own (n : Nat) : Move κ ι ξ → Bool
  | .step k _ => k = n
  | _ => false

/-- A worker that is in no request. -/
def idle (w : Pool σ ι ε ρ) (n : Nat) : Bool :=
  match w.workers n with
  | .atomic _ _ _ => false
  | _ => true

/-- The events one worker shows in a run. -/
def shown (request : κ → Program σ ι ε ρ Unit) (write : σ → ξ → σ) (n : Nat) :
    Pool σ ι ε ρ → List (Move κ ι ξ) → List ε
  | _, [] => []
  | w, m :: ms => (if Move.own n m then (w.next request write m).2 else []) ++
      shown request write n (w.next request write m).1 ms

variable {w : Pool σ ι ε ρ} {tr es : List ε} {n k : Nat}

theorem next_step_of_atomic {i : ι} {act : σ → ι → σ} {emit : σ → ι → List ε}
    {next : σ → ι → Program σ ι ε ρ Unit} (h : w.workers n = .atomic act emit next) :
    w.next request write (.step n i) = (⟨act w.shared i,
      Function.update w.workers n (next w.shared i)⟩, emit w.shared i) := by
  simp only [Pool.next, h]

theorem next_start_of_idle {j : κ} (h : w.idle n = true) :
    w.next request write (.start n j) =
      ({ w with workers := Function.update w.workers n (request j) }, ([] : List ε)) := by
  unfold idle at h
  simp only [Pool.next]
  split
  · next heq =>
    rw [heq] at h
    cases h
  · rfl

/-- One move of somebody else leaves the worker where it is. -/
theorem workers_next_other {m : Move κ ι ξ} (hown : Move.own n m = false)
    (hstart : ∀ k, m ≠ .start n k) (hcrash : m ≠ .crash n) :
    (w.next request write m).1.workers n = w.workers n := by
  cases m with
  | start j k =>
      have hne : n ≠ j := fun heq => hstart k (by rw [heq])
      simp only [Pool.next]
      split
      · rfl
      · exact Function.update_of_ne hne _ _
  | step j i =>
      have hne : n ≠ j := fun heq => of_decide_eq_false hown heq.symm
      simp only [Pool.next]
      split
      · exact Function.update_of_ne hne _ _
      · rfl
  | crash j =>
      have hne : n ≠ j := fun heq => hcrash (by rw [heq])
      exact Function.update_of_ne hne _ _
  | outside x => rfl

/-- The rule for one worker among the others: its steps count down what it has left. -/
theorem lives_run (hrequest : ∀ k s tr, d.inv s tr →
      (request k).Good d (fun _ _ _ => True) s tr)
    (hwrite : ∀ s tr x, d.inv s tr → d.inv (write s x) tr ∧ d.rel s tr (write s x) tr)
    (ms : List (Move κ ι ξ)) (hd : Disciplined d w tr)
    (h : (w.workers n).Lives d ok q k w.shared tr es)
    (hstart : ∀ j, Move.start n j ∉ ms) (hcrash : Move.crash n ∉ ms)
    (hok : ∀ pre i post, ms = pre ++ .step n i :: post →
      ok ((system request write).run w pre).shared i) :
    (((system request write).run w ms).workers n).Lives d ok q (k - ms.countP (Move.own n))
      ((system request write).run w ms).shared (tr ++ (system request write).trace w ms)
      (es ++ shown request write n w ms) := by
  induction ms generalizing w tr es k with
  | nil =>
      rw [Machine.trace_nil, shown, List.append_nil, List.append_nil]
      exact h
  | cons m ms ih =>
      obtain ⟨hd', hrel, -⟩ := disciplined_next hrequest hwrite hd m
      have hrest := fun es' k' (h' : Program.Lives d ok q
          ((w.next request write m).1.workers n) k' _ _ es') => ih hd' h'
        (fun j hj => hstart j (List.mem_cons_of_mem _ hj))
        (fun hj => hcrash (List.mem_cons_of_mem _ hj))
        (fun pre i post heq => hok (m :: pre) i post (by rw [heq, List.cons_append]))
      rw [Machine.trace_cons, ← List.append_assoc, shown, ← List.append_assoc]
      by_cases hown : Move.own n m = true
      · rw [if_pos hown, List.countP_cons_of_pos hown, Nat.add_comm, ← Nat.sub_sub]
        obtain ⟨i, rfl⟩ : ∃ i, m = .step n i := by
          cases m with
          | step j i => exact ⟨i, by rw [of_decide_eq_true hown]⟩
          | _ => cases hown
        refine hrest _ (k - 1) ?_
        cases hw : w.workers n with
        | done a =>
            rw [hw] at h
            simp only [Pool.next, hw, List.append_nil]
            exact h
        | fail e =>
            rw [hw] at h
            simp only [Pool.next, hw, List.append_nil]
            exact h
        | atomic act emit next =>
            rw [hw] at h
            cases k with
            | zero => exact h.elim
            | succ k =>
                rw [next_step_of_atomic hw]
                show Program.Lives d ok q (Function.update w.workers n _ n) _ _ _ _
                rw [Function.update_self]
                exact h _ _ (d.refl _ _) hd.inv i (hok [] i ms rfl)
      · rw [if_neg hown, List.countP_cons_of_neg hown, List.append_nil]
        refine hrest es k ?_
        rw [workers_next_other (Bool.not_eq_true _ ▸ hown) (fun j hj => hstart j (by rw [hj]; simp))
          fun hj => hcrash (by rw [hj]; simp)]
        exact h.stable hrel

end Pool

/-! ## What a program can come to -/

namespace Program

variable {σ ι ε ρ α β : Type} {p : Program σ ι ε ρ α} {f : α → Program σ ι ε ρ β}
  {q q' : List ε → Except ρ α → Prop} {es : List ε}

/-- A run by itself: each step finds the state and meets the input the stream has next. -/
def play : Program σ ι ε ρ α → (Nat → σ × ι) → List ε × Except ρ α
  | done a, _ => ([], .ok a)
  | fail e, _ => ([], .error e)
  | atomic _ emit next, found =>
    let (s, i) := found 0
    let (es, x) := (next s i).play fun n => found (n + 1)
    (emit s i ++ es, x)

/-- Whatever the program finds, the events it has shown, after `es`, and its answer
satisfy `q`. -/
def Meets (q : List ε → Except ρ α → Prop) : Program σ ι ε ρ α → List ε → Prop
  | done a, es => q es (.ok a)
  | fail e, es => q es (.error e)
  | atomic _ emit next, es => ∀ s i, Meets q (next s i) (es ++ emit s i)

theorem Meets.play (h : Meets q p es) (found : Nat → σ × ι) :
    q (es ++ (p.play found).1) (p.play found).2 := by
  induction p generalizing es found with
  | done a => rw [Program.play, List.append_nil]; exact h
  | fail e => rw [Program.play, List.append_nil]; exact h
  | atomic act emit next ih =>
      have hnext := ih (found 0).1 (found 0).2 (h (found 0).1 (found 0).2) fun n => found (n + 1)
      rw [List.append_assoc] at hnext
      exact hnext

theorem Meets.mono (h : Meets q p es) (hq : ∀ es x, q es x → q' es x) : Meets q' p es := by
  induction p generalizing es with
  | done a => exact hq _ _ h
  | fail e => exact hq _ _ h
  | atomic act emit next ih => exact fun s i => ih s i (h s i)

theorem Meets.bind {r : List ε → Except ρ β → Prop} (h : Meets q p es)
    (hok : ∀ es a, q es (.ok a) → Meets r (f a) es) (herror : ∀ es e, q es (.error e) → r es (.error e)) :
    Meets r (p.bind f) es := by
  induction p generalizing es with
  | done a => exact hok es a h
  | fail e => exact herror es e h
  | atomic act emit next ih => exact fun s i => ih s i (h s i)

theorem Meets.handle {g : ρ → Program σ ι ε ρ α} (h : Meets q p es)
    (hok : ∀ es a, q es (.ok a) → q' es (.ok a)) (herror : ∀ es e, q es (.error e) → Meets q' (g e) es) :
    Meets q' (p.handle g) es := by
  induction p generalizing es with
  | done a => exact hok es a h
  | fail e => exact herror es e h
  | atomic act emit next ih => exact fun s i => ih s i (h s i)

theorem meets_any (p : Program σ ι ε ρ α) (es : List ε) : Meets (fun _ _ => True) p es := by
  induction p generalizing es with
  | done a => trivial
  | fail e => trivial
  | atomic act emit next ih => exact fun s i => ih s i _

/-- A program only adds to the events. -/
theorem Meets.grow (h : Meets q p es) : Meets (fun es' x => es <+: es' ∧ q es' x) p es := by
  induction p generalizing es with
  | done a => exact ⟨List.prefix_rfl, h⟩
  | fail e => exact ⟨List.prefix_rfl, h⟩
  | atomic act emit next ih =>
      exact fun s i => (ih s i (h s i)).mono fun _ _ hx =>
        ⟨(List.prefix_append es _).trans hx.1, hx.2⟩

/-- What comes before does not matter to a program that is right after any events. -/
theorem Meets.after {r : List ε → Except ρ β → Prop} (p : Program σ ι ε ρ α)
    (hf : ∀ es' a, es <+: es' → Meets r (f a) es') (herror : ∀ es' e, r es' (.error e)) :
    Meets r (p.bind f) es :=
  (meets_any p es).grow.bind (fun es' a h => hf es' a h.1) fun es' e _ => herror es' e

theorem meets_ofExcept {x : Except ρ α} (h : q es x) :
    Meets q (ofExcept x : Program σ ι ε ρ α) es := by
  cases x with
  | error e => exact h
  | ok a => exact h

/-- Each item that is kept has what the decision on it shows. -/
theorem meets_filter {p : α → Program σ ι ε ρ Bool} {seen : List ε → α → Prop}
    (hmono : ∀ es es' a, es <+: es' → seen es a → seen es' a)
    (hp : ∀ a es, Meets (fun es' x => x = .ok true → seen es' a) (p a) es) (items : List α)
    (es : List ε) : Meets (fun es' x => ∀ kept, x = .ok kept → ∀ a ∈ kept, seen es' a)
      (filter p items) es := by
  induction items generalizing es with
  | nil =>
      intro kept hkept a ha
      cases hkept
      cases ha
  | cons a items ih =>
      refine (hp a es).bind (fun es₁ keep hkeep => ?_) fun es₁ e _ kept hkept => by cases hkept
      refine (ih es₁).grow.bind (fun es₂ kept hkept => ?_) fun es₂ e _ kept hkept => by cases hkept
      intro kept' hkept' b hb
      cases hkept'
      split at hb
      · next htrue =>
        rcases List.mem_cons.mp hb with rfl | hb
        · exact hmono es₁ es₂ b hkept.1 (hkeep (htrue ▸ rfl))
        · exact hkept.2 kept rfl b hb
      · exact hkept.2 kept rfl b hb

/-- A filter shows a part of its items, in their order. -/
theorem meets_sublist (p : α → Program σ ι ε ρ Bool) (items : List α) (es : List ε) :
    Meets (fun _ x => ∀ kept, x = .ok kept → kept.Sublist items) (filter p items) es := by
  induction items generalizing es with
  | nil =>
      intro kept hkept
      cases hkept
      exact List.Sublist.refl []
  | cons a items ih =>
      refine (meets_any (p a) es).bind (fun es₁ keep _ => ?_) fun es₁ e _ kept hkept => by cases hkept
      refine (ih es₁).bind (fun es₂ kept hkept => ?_) fun es₂ e _ kept hkept => by cases hkept
      intro kept' hkept'
      cases hkept'
      split
      · exact (hkept kept rfl).cons_cons a
      · exact (hkept kept rfl).cons a

/-- `Meets` along one stream: the next step finds what is at the place `n`. -/
def Follows (found : Nat → σ × ι) (q : Nat → List ε → Except ρ α → Prop) :
    Program σ ι ε ρ α → Nat → List ε → Prop
  | done a, n, es => q n es (.ok a)
  | fail e, n, es => q n es (.error e)
  | atomic _ emit next, n, es =>
    Follows found q (next (found n).1 (found n).2) (n + 1) (es ++ emit (found n).1 (found n).2)

section

variable {found : Nat → σ × ι} {q q' : Nat → List ε → Except ρ α → Prop} {n : Nat}

theorem Follows.play (h : Follows found q p n es) :
    ∃ m, q m (es ++ (p.play fun k => found (k + n)).1) (p.play fun k => found (k + n)).2 := by
  induction p generalizing n es with
  | done a =>
      rw [Program.play, List.append_nil]
      exact ⟨n, h⟩
  | fail e =>
      rw [Program.play, List.append_nil]
      exact ⟨n, h⟩
  | atomic act emit next ih =>
      obtain ⟨m, hm⟩ := ih (found n).1 (found n).2 h
      simp only [Nat.add_comm n 1, ← Nat.add_assoc] at hm
      refine ⟨m, ?_⟩
      simp only [Program.play, Nat.zero_add, ← List.append_assoc]
      exact hm

theorem Follows.mono (h : Follows found q p n es) (hq : ∀ n es x, q n es x → q' n es x) :
    Follows found q' p n es := by
  induction p generalizing n es with
  | done a => exact hq _ _ _ h
  | fail e => exact hq _ _ _ h
  | atomic act emit next ih => exact ih _ _ h

theorem Follows.and (h : Follows found q p n es) (h' : Follows found q' p n es) :
    Follows found (fun n es x => q n es x ∧ q' n es x) p n es := by
  induction p generalizing n es with
  | done a => exact ⟨h, h'⟩
  | fail e => exact ⟨h, h'⟩
  | atomic act emit next ih => exact ih _ _ h h'

theorem Follows.bind {r : Nat → List ε → Except ρ β → Prop} (h : Follows found q p n es)
    (hok : ∀ n es a, q n es (.ok a) → Follows found r (f a) n es)
    (herror : ∀ n es e, q n es (.error e) → r n es (.error e)) :
    Follows found r (p.bind f) n es := by
  induction p generalizing n es with
  | done a => exact hok n es a h
  | fail e => exact herror n es e h
  | atomic act emit next ih => exact ih _ _ h

theorem Follows.handle {g : ρ → Program σ ι ε ρ α} (h : Follows found q p n es)
    (hok : ∀ n es a, q n es (.ok a) → q' n es (.ok a))
    (herror : ∀ n es e, q n es (.error e) → Follows found q' (g e) n es) :
    Follows found q' (p.handle g) n es := by
  induction p generalizing n es with
  | done a => exact hok n es a h
  | fail e => exact herror n es e h
  | atomic act emit next ih => exact ih _ _ h

/-- What holds whatever the program finds holds along the stream. -/
theorem Meets.follows {r : List ε → Except ρ α → Prop} (h : Meets r p es) :
    Follows found (fun _ => r) p n es := by
  induction p generalizing n es with
  | done a => exact h
  | fail e => exact h
  | atomic act emit next ih => exact ih _ _ (h _ _)

theorem follows_read {g : σ → ι → Except ρ α} (h : q (n + 1) es (g (found n).1 (found n).2)) :
    Follows found q (read g) n es := by
  unfold read transaction Follows
  simp only []
  cases hg : g (found n).1 (found n).2 with
  | error e =>
      rw [hg] at h
      simp only [Except.map, List.append_nil]
      exact h
  | ok a =>
      rw [hg] at h
      simp only [Except.map, List.append_nil]
      exact h

end

end Program

end OufGateway.Lib
