import Mathlib

/-!
# Scripts

A `Script` sends requests to a party outside, one after the other. A request is
answered or fails, and either way it may have taken effect there or not: a
`Reply` says both. The replies of a run are a list, and where the list ends the
process has died, so that the runs over all lists are the runs with every pattern
of answers that stop anywhere.

What is proved of a script is proved of its logs. `Runs` relates a script to a log
and what it comes to, with one inversion for each way to put scripts together;
`Sends` is a property of all requests it can send. The party is a `Party`: what an
event does to its state, and which events an honest one can give in a state. Where
the state on the way matters, `Party.Keeps` follows the script with it: an invariant
that holds after every event, so that the script may stop anywhere, and what holds
where it ends.
-/

namespace OufGateway.Lib

inductive Script (q a ρ α : Type)
  | done (x : α)
  | raise (e : ρ)
  | ask (request : q) (next : Except ρ a → Script q a ρ α)

namespace Script

variable {q a ρ α β : Type}

structure Reply (a ρ : Type) where
  result : Except ρ a
  took : Bool

structure Event (q a ρ : Type) where
  request : q
  reply : Reply a ρ

def ofExcept : Except ρ α → Script q a ρ α
  | .ok x => done x
  | .error e => raise e

/-- A request whose failure is raised. -/
def send (request : q) : Script q a ρ a := ask request ofExcept

def bind : Script q a ρ α → (α → Script q a ρ β) → Script q a ρ β
  | done x, f => f x
  | raise e, _ => raise e
  | ask request next, f => ask request fun r => (next r).bind f

instance : Monad (Script q a ρ) where
  pure := done
  bind := bind

/-- `try`: what is raised is a value. -/
def attempt : Script q a ρ α → Script q a ρ (Except ρ α)
  | done x => done (.ok x)
  | raise e => done (.error e)
  | ask request next => ask request fun r => (next r).attempt

/-- `try` with its `except`. -/
def handle (p : Script q a ρ α) (h : ρ → Script q a ρ α) : Script q a ρ α :=
  p.attempt.bind fun
    | .ok x => done x
    | .error e => h e

/-- The log with these replies, and what it comes to before they end. -/
def run : Script q a ρ α → List (Reply a ρ) → List (Event q a ρ) × Option (Except ρ α)
  | done x, _ => ([], some (.ok x))
  | raise e, _ => ([], some (.error e))
  | ask _ _, [] => ([], none)
  | ask request next, reply :: replies =>
    let rest := (next reply.result).run replies
    (⟨request, reply⟩ :: rest.1, rest.2)

/-- To raise an error as another one asks for nothing. -/
theorem run_handle_raise (f : ρ → ρ) (p : Script q a ρ α) (replies : List (Reply a ρ)) :
    (p.handle fun e => raise (f e)).run replies =
      ((p.run replies).1, (p.run replies).2.map fun r => r.mapError f) := by
  induction p generalizing replies with
  | done x => rfl
  | raise e => rfl
  | ask request next ih =>
      cases replies with
      | nil => rfl
      | cons reply replies =>
          have hnext := ih reply.result replies
          simp only [handle, attempt, bind, run] at hnext ⊢
          rw [hnext]

/-! ## Logs of a script -/

inductive Runs : Script q a ρ α → List (Event q a ρ) → Option (Except ρ α) → Prop
  | died (p : Script q a ρ α) : Runs p [] none
  | done (x : α) : Runs (.done x) [] (some (.ok x))
  | raise (e : ρ) : Runs (.raise e) [] (some (.error e))
  | ask {request : q} {next : Except ρ a → Script q a ρ α} {reply : Reply a ρ}
      {log : List (Event q a ρ)} {r : Option (Except ρ α)} (h : Runs (next reply.result) log r) :
      Runs (.ask request next) (⟨request, reply⟩ :: log) r

variable {p : Script q a ρ α} {f : α → Script q a ρ β} {log : List (Event q a ρ)} {request : q}

theorem runs_run (p : Script q a ρ α) (replies : List (Reply a ρ)) :
    Runs p (p.run replies).1 (p.run replies).2 := by
  induction p generalizing replies with
  | done x => exact .done x
  | raise e => exact .raise e
  | ask request next ih =>
      cases replies with
      | nil => exact .died _
      | cons reply replies => exact .ask (ih reply.result replies)

theorem runs_done {x : α} {r : Option (Except ρ α)} (h : Runs (done x : Script q a ρ α) log r) :
    log = [] ∧ (r = none ∨ r = some (.ok x)) := by
  cases h with
  | died => exact ⟨rfl, Or.inl rfl⟩
  | done => exact ⟨rfl, Or.inr rfl⟩

theorem runs_raise {e : ρ} {r : Option (Except ρ α)} (h : Runs (raise e : Script q a ρ α) log r) :
    log = [] ∧ (r = none ∨ r = some (.error e)) := by
  cases h with
  | died => exact ⟨rfl, Or.inl rfl⟩
  | raise => exact ⟨rfl, Or.inr rfl⟩

theorem runs_ask {next : Except ρ a → Script q a ρ α} {r : Option (Except ρ α)}
    (h : Runs (ask request next) log r) : (log = [] ∧ r = none) ∨
      ∃ reply rest, log = ⟨request, reply⟩ :: rest ∧ Runs (next reply.result) rest r := by
  cases h with
  | died => exact Or.inl ⟨rfl, rfl⟩
  | ask h => exact Or.inr ⟨_, _, rfl, h⟩

/-- Either the first script is not done, or the second goes on. -/
theorem runs_bind {r : Option (Except ρ β)} (h : Runs (p.bind f) log r) :
    (Runs p log none ∧ r = none) ∨ (∃ e, Runs p log (some (.error e)) ∧ r = some (.error e)) ∨
      ∃ x first second, log = first ++ second ∧ Runs p first (some (.ok x)) ∧ Runs (f x) second r := by
  induction p generalizing log with
  | done x => exact Or.inr (Or.inr ⟨x, [], log, rfl, .done x, h⟩)
  | raise e =>
      obtain ⟨rfl, rfl | rfl⟩ := runs_raise h
      · exact Or.inl ⟨.died _, rfl⟩
      · exact Or.inr (Or.inl ⟨e, .raise e, rfl⟩)
  | ask request next ih =>
      rcases runs_ask h with ⟨rfl, rfl⟩ | ⟨reply, rest, rfl, hrest⟩
      · exact Or.inl ⟨.died _, rfl⟩
      · rcases ih reply.result hrest with ⟨hp, rfl⟩ | ⟨e, hp, rfl⟩ | ⟨x, first, second, rfl, hp, hf⟩
        · exact Or.inl ⟨.ask hp, rfl⟩
        · exact Or.inr (Or.inl ⟨e, .ask hp, rfl⟩)
        · exact Or.inr (Or.inr ⟨x, _ :: first, second, rfl, .ask hp, hf⟩)

theorem runs_attempt {r : Option (Except ρ (Except ρ α))} (h : Runs p.attempt log r) :
    (Runs p log none ∧ r = none) ∨ ∃ x, Runs p log (some x) ∧ r = some (.ok x) := by
  induction p generalizing log with
  | done x =>
      obtain ⟨rfl, rfl | rfl⟩ := runs_done h
      · exact Or.inl ⟨.died _, rfl⟩
      · exact Or.inr ⟨_, .done x, rfl⟩
  | raise e =>
      obtain ⟨rfl, rfl | rfl⟩ := runs_done h
      · exact Or.inl ⟨.died _, rfl⟩
      · exact Or.inr ⟨_, .raise e, rfl⟩
  | ask request next ih =>
      rcases runs_ask h with ⟨rfl, rfl⟩ | ⟨reply, rest, rfl, hrest⟩
      · exact Or.inl ⟨.died _, rfl⟩
      · rcases ih reply.result hrest with ⟨hp, rfl⟩ | ⟨x, hp, rfl⟩
        · exact Or.inl ⟨.ask hp, rfl⟩
        · exact Or.inr ⟨x, .ask hp, rfl⟩

theorem runs_attempt_bind {f : Except ρ α → Script q a ρ β} {r : Option (Except ρ β)}
    (h : Runs (p.attempt.bind f) log r) : (Runs p log none ∧ r = none) ∨
      ∃ x first second, log = first ++ second ∧ Runs p first (some x) ∧ Runs (f x) second r := by
  rcases runs_bind h with ⟨hp, rfl⟩ | ⟨e, hp, rfl⟩ | ⟨x, first, second, rfl, hp, hnext⟩
  · rcases runs_attempt hp with ⟨hp, -⟩ | ⟨x, -, hx⟩
    · exact Or.inl ⟨hp, rfl⟩
    · cases hx
  · rcases runs_attempt hp with ⟨-, hx⟩ | ⟨x, -, hx⟩
    · cases hx
    · cases hx
  · rcases runs_attempt hp with ⟨-, hx⟩ | ⟨y, hp, hx⟩
    · cases hx
    · obtain rfl := Except.ok.inj (Option.some.inj hx)
      exact Or.inr ⟨x, first, second, rfl, hp, hnext⟩

theorem runs_handle {h : ρ → Script q a ρ α} {r : Option (Except ρ α)}
    (hr : Runs (p.handle h) log r) :
    (Runs p log none ∧ r = none) ∨ (∃ x, Runs p log (some (.ok x)) ∧ (r = none ∨ r = some (.ok x))) ∨
      ∃ e first second, log = first ++ second ∧ Runs p first (some (.error e)) ∧ Runs (h e) second r := by
  rcases runs_attempt_bind hr with hdied | ⟨x, first, second, rfl, hp, hnext⟩
  · exact Or.inl hdied
  · cases x with
    | ok x =>
        obtain ⟨rfl, hend⟩ := runs_done hnext
        exact Or.inr (Or.inl ⟨x, by simpa using hp, hend⟩)
    | error e => exact Or.inr (Or.inr ⟨e, first, second, rfl, hp, hnext⟩)

theorem runs_ofExcept {x : Except ρ α} {r : Option (Except ρ α)}
    (h : Runs (ofExcept x : Script q a ρ α) log r) : log = [] ∧ (r = none ∨ r = some x) := by
  cases x with
  | ok x => exact runs_done h
  | error e => exact runs_raise h

theorem runs_send {r : Option (Except ρ a)} (h : Runs (send request : Script q a ρ a) log r) :
    (log = [] ∧ r = none) ∨ ∃ reply, log = [⟨request, reply⟩] ∧ (r = none ∨ r = some reply.result) := by
  rcases runs_ask h with hdied | ⟨reply, rest, rfl, hrest⟩
  · exact Or.inl hdied
  · obtain ⟨rfl, hend⟩ := runs_ofExcept hrest
    exact Or.inr ⟨reply, rfl, hend⟩

theorem bind_assoc {γ : Type} (p : Script q a ρ α) (f : α → Script q a ρ β)
    (g : β → Script q a ρ γ) : (p.bind f).bind g = p.bind fun x => (f x).bind g := by
  induction p with
  | done x => rfl
  | raise e => rfl
  | ask request next ih => exact congrArg _ (funext ih)

/-! ## Scripts that are done -/

theorem runs_bind_ok {y : β} (h : Runs (p.bind f) log (some (.ok y))) :
    ∃ x first second, log = first ++ second ∧ Runs p first (some (.ok x)) ∧
      Runs (f x) second (some (.ok y)) := by
  rcases runs_bind h with ⟨-, hr⟩ | ⟨e, -, hr⟩ | h
  · cases hr
  · cases hr
  · exact h

theorem runs_done_ok {x y : α} (h : Runs (done x : Script q a ρ α) log (some (.ok y))) :
    log = [] ∧ x = y := by
  cases h
  exact ⟨rfl, rfl⟩

theorem runs_ofExcept_ok {x : Except ρ α} {y : α}
    (h : Runs (ofExcept x : Script q a ρ α) log (some (.ok y))) : log = [] ∧ x = .ok y := by
  obtain ⟨rfl, hr | hr⟩ := runs_ofExcept h
  · cases hr
  · exact ⟨rfl, (Option.some.inj hr).symm⟩

theorem runs_ofExcept_bind {x : Except ρ α} {r : Option (Except ρ β)}
    (h : Runs ((ofExcept x : Script q a ρ α).bind f) log r) :
    (∃ y, x = .ok y ∧ Runs (f y) log r) ∨
      ∃ e, x = .error e ∧ log = [] ∧ (r = none ∨ r = some (.error e)) := by
  cases x with
  | ok y => exact Or.inl ⟨y, rfl, h⟩
  | error e => exact Or.inr ⟨e, rfl, runs_raise h⟩

theorem runs_ofExcept_bind_ok {x : Except ρ α} {y : β}
    (h : Runs ((ofExcept x : Script q a ρ α).bind f) log (some (.ok y))) :
    ∃ v, x = .ok v ∧ Runs (f v) log (some (.ok y)) := by
  rcases runs_ofExcept_bind h with h | ⟨e, -, -, hr | hr⟩
  · exact h
  · cases hr
  · cases hr

theorem runs_attempt_ok {x : Except ρ α} (h : Runs p.attempt log (some (.ok x))) :
    Runs p log (some x) := by
  rcases runs_attempt h with ⟨-, hr⟩ | ⟨y, h, hr⟩
  · cases hr
  · obtain rfl := Except.ok.inj (Option.some.inj hr)
    exact h

theorem runs_send_end {x : Except ρ a} (h : Runs (send request : Script q a ρ a) log (some x)) :
    ∃ took, log = [⟨request, x, took⟩] := by
  rcases runs_send h with ⟨-, hr⟩ | ⟨reply, rfl, hr | hr⟩
  · cases hr
  · cases hr
  · obtain rfl := Option.some.inj hr
    exact ⟨reply.took, rfl⟩

/-! ## What a script can send -/

inductive Sends (P : q → Prop) : Script q a ρ α → Prop
  | done (x : α) : Sends P (.done x)
  | raise (e : ρ) : Sends P (.raise e)
  | ask {request : q} {next : Except ρ a → Script q a ρ α} (h : P request)
      (hnext : ∀ r, Sends P (next r)) : Sends P (.ask request next)

variable {P : q → Prop}

theorem Sends.ofExcept (x : Except ρ α) : Sends P (ofExcept x : Script q a ρ α) := by
  cases x with
  | ok x => exact .done x
  | error e => exact .raise e

theorem Sends.send (h : P request) : Sends P (send request : Script q a ρ a) := .ask h .ofExcept

theorem Sends.bind (h : Sends P p) (hf : ∀ x, Sends P (f x)) : Sends P (p.bind f) := by
  induction h with
  | done x => exact hf x
  | raise e => exact .raise e
  | ask h _ ih => exact .ask h ih

theorem Sends.ofExcept_bind {x : Except ρ α} (h : ∀ y, x = .ok y → Sends P (f y)) :
    Sends P ((Script.ofExcept x : Script q a ρ α).bind f) := by
  cases x with
  | ok y => exact h y rfl
  | error e => exact .raise e

theorem Sends.attempt (h : Sends P p) : Sends P p.attempt := by
  induction h with
  | done x => exact .done _
  | raise e => exact .done _
  | ask h _ ih => exact .ask h ih

theorem Sends.handle {h : ρ → Script q a ρ α} (hp : Sends P p) (hh : ∀ e, Sends P (h e)) :
    Sends P (p.handle h) := by
  refine hp.attempt.bind fun x => ?_
  cases x with
  | ok x => exact .done x
  | error e => exact hh e

theorem Sends.mono {Q : q → Prop} (h : Sends P p) (hPQ : ∀ r, P r → Q r) : Sends Q p := by
  induction h with
  | done x => exact .done x
  | raise e => exact .raise e
  | ask h _ ih => exact .ask (hPQ _ h) ih

theorem Runs.sent {r : Option (Except ρ α)} (h : Runs p log r) (hp : Sends P p) :
    ∀ e ∈ log, P e.request := by
  induction h with
  | died => exact fun e he => absurd he List.not_mem_nil
  | done => exact fun e he => absurd he List.not_mem_nil
  | raise => exact fun e he => absurd he List.not_mem_nil
  | ask h ih =>
      cases hp with
      | ask hrequest hnext => exact List.forall_mem_cons.mpr ⟨hrequest, ih (hnext _)⟩

end Script

/-! ## The party outside -/

/-- What an event does to the state, and which events an honest party gives in a state. -/
structure Party (σ q a ρ : Type) where
  effect : σ → Script.Event q a ρ → σ
  honest : σ → Script.Event q a ρ → Prop

namespace Party

open Script

variable {σ q a ρ : Type} (party : Party σ q a ρ)

def after (s : σ) (log : List (Event q a ρ)) : σ := log.foldl party.effect s

/-- Each event is allowed in the state it meets. -/
def Along (allowed : σ → Event q a ρ → Prop) : σ → List (Event q a ρ) → Prop
  | _, [] => True
  | s, e :: log => allowed s e ∧ Along allowed (party.effect s e) log

def Honest (s : σ) (log : List (Event q a ρ)) : Prop := party.Along party.honest s log

variable {party} {s : σ} {log more : List (Event q a ρ)} {allowed : σ → Event q a ρ → Prop}

theorem after_append : party.after s (log ++ more) = party.after (party.after s log) more :=
  List.foldl_append

theorem along_append : party.Along allowed s (log ++ more) ↔
    party.Along allowed s log ∧ party.Along allowed (party.after s log) more := by
  induction log generalizing s with
  | nil => exact (true_and _).symm.to_iff
  | cons e log ih =>
      rw [List.cons_append, Along, Along, ih, and_assoc]
      rfl

theorem honest_append : party.Honest s (log ++ more) ↔
    party.Honest s log ∧ party.Honest (party.after s log) more := along_append

theorem Along.mono {allowed' : σ → Event q a ρ → Prop} (h : party.Along allowed s log)
    (hle : ∀ s e, allowed s e → allowed' s e) : party.Along allowed' s log := by
  induction log generalizing s with
  | nil => trivial
  | cons e log ih => exact ⟨hle s e h.1, ih h.2⟩

/-- More may be asked of events that all have it. -/
theorem Along.and {P : Event q a ρ → Prop} (h : party.Along allowed s log) (hP : ∀ e ∈ log, P e) :
    party.Along (fun s e => allowed s e ∧ P e) s log := by
  induction log generalizing s with
  | nil => trivial
  | cons e log ih =>
      exact ⟨⟨h.1, hP e List.mem_cons_self⟩, ih h.2 fun e he => hP e (List.mem_cons_of_mem _ he)⟩

/-- What every event of the log keeps. -/
theorem after_keeps {I : σ → Prop} (hs : I s) (h : ∀ s, I s → ∀ e ∈ log, I (party.effect s e)) :
    I (party.after s log) := by
  induction log generalizing s with
  | nil => exact hs
  | cons e log ih =>
      exact ih (h s hs e List.mem_cons_self) fun s hs e he => h s hs e (List.mem_cons_of_mem _ he)

/-! ## What a script keeps -/

variable (party) in
/-- From here the invariant holds after every allowed event, and `Q` where the script ends. -/
def Keeps {α : Type} (allowed : σ → Event q a ρ → Prop) (I : σ → Prop) (Q : σ → Except ρ α → Prop) :
    Script q a ρ α → σ → Prop
  | .done x, s => I s ∧ Q s (.ok x)
  | .raise e, s => I s ∧ Q s (.error e)
  | .ask request next, s => I s ∧ ∀ reply, allowed s ⟨request, reply⟩ →
      Keeps allowed I Q (next reply.result) (party.effect s ⟨request, reply⟩)

section

variable {α β : Type} {I : σ → Prop} {Q Q' : σ → Except ρ α → Prop} {R : σ → Except ρ β → Prop}
  {p : Script q a ρ α} {f : α → Script q a ρ β} {request : q}

theorem Keeps.inv (h : party.Keeps allowed I Q p s) : I s := by
  cases p <;> exact h.1

theorem Keeps.sound {r : Option (Except ρ α)} (h : party.Keeps allowed I Q p s) (hruns : Runs p log r)
    (hlog : party.Along allowed s log) :
    I (party.after s log) ∧ ∀ x, r = some x → Q (party.after s log) x := by
  induction hruns generalizing s with
  | died p => exact ⟨h.inv, fun x hx => by cases hx⟩
  | done x => exact ⟨h.1, fun y hy => Option.some.inj hy ▸ h.2⟩
  | raise e => exact ⟨h.1, fun y hy => Option.some.inj hy ▸ h.2⟩
  | ask _ ih => exact ih (h.2 _ hlog.1) hlog.2

theorem Keeps.bind (h : party.Keeps allowed I Q p s)
    (hok : ∀ s x, I s → Q s (.ok x) → party.Keeps allowed I R (f x) s)
    (herror : ∀ s e, Q s (.error e) → R s (.error e)) : party.Keeps allowed I R (p.bind f) s := by
  induction p generalizing s with
  | done x => exact hok s x h.1 h.2
  | raise e => exact ⟨h.1, herror s e h.2⟩
  | ask request next ih => exact ⟨h.1, fun reply hreply => ih _ (h.2 reply hreply)⟩

theorem Keeps.attempt_bind {f : Except ρ α → Script q a ρ β} (h : party.Keeps allowed I Q p s)
    (hf : ∀ s x, I s → Q s x → party.Keeps allowed I R (f x) s) :
    party.Keeps allowed I R (p.attempt.bind f) s := by
  induction p generalizing s with
  | done x => exact hf s _ h.1 h.2
  | raise e => exact hf s _ h.1 h.2
  | ask request next ih => exact ⟨h.1, fun reply hreply => ih _ (h.2 reply hreply)⟩

theorem Keeps.handle {h : ρ → Script q a ρ α} (hp : party.Keeps allowed I Q p s)
    (hok : ∀ s x, Q s (.ok x) → Q' s (.ok x))
    (hh : ∀ s e, I s → Q s (.error e) → party.Keeps allowed I Q' (h e) s) :
    party.Keeps allowed I Q' (p.handle h) s := by
  refine hp.attempt_bind fun s x hs hx => ?_
  cases x with
  | ok x => exact ⟨hs, hok s x hx⟩
  | error e => exact hh s e hs hx

theorem keeps_send {Q : σ → Except ρ a → Prop} (hs : I s)
    (h : ∀ reply, allowed s ⟨request, reply⟩ → I (party.effect s ⟨request, reply⟩) ∧
      Q (party.effect s ⟨request, reply⟩) reply.result) :
    party.Keeps allowed I Q (send request) s := by
  refine ⟨hs, fun reply hreply => ?_⟩
  obtain ⟨hI, hQ⟩ := h reply hreply
  unfold Script.ofExcept
  split
  · next x hx => exact ⟨hI, hx ▸ hQ⟩
  · next e he => exact ⟨hI, he ▸ hQ⟩

theorem keeps_ofExcept {x : Except ρ α} (hs : I s) (h : Q s x) :
    party.Keeps allowed I Q (Script.ofExcept x) s := by
  cases x with
  | ok x => exact ⟨hs, h⟩
  | error e => exact ⟨hs, h⟩

theorem Keeps.mono {J : σ → Prop} (h : party.Keeps allowed I Q p s) (hI : ∀ s, I s → J s)
    (hQ : ∀ s x, I s → Q s x → Q' s x) : party.Keeps allowed J Q' p s := by
  induction p generalizing s with
  | done x => exact ⟨hI s h.1, hQ s _ h.1 h.2⟩
  | raise e => exact ⟨hI s h.1, hQ s _ h.1 h.2⟩
  | ask request next ih => exact ⟨hI s h.1, fun reply hreply => ih _ (h.2 reply hreply)⟩

/-- Requests that change nothing leave the state as it is. -/
theorem keeps_still {P : q → Prop} (hp : Sends P p)
    (hstill : ∀ request reply, P request → party.effect s ⟨request, reply⟩ = s) (hs : I s) :
    party.Keeps allowed I (fun s' _ => s' = s) p s := by
  induction hp with
  | done x => exact ⟨hs, rfl⟩
  | raise e => exact ⟨hs, rfl⟩
  | ask h _ ih =>
      refine ⟨hs, fun reply _ => ?_⟩
      rw [hstill _ reply h]
      exact ih reply.result

theorem keeps_true (p : Script q a ρ α) :
    party.Keeps allowed (fun _ => True) (fun _ _ => True) p s := by
  induction p generalizing s with
  | done x => exact ⟨trivial, trivial⟩
  | raise e => exact ⟨trivial, trivial⟩
  | ask request next ih => exact ⟨trivial, fun reply _ => ih reply.result⟩

/-! ## What a script is held to -/

variable (party) in
/-- In each log of the script every event is met in a state where `G` allows it. -/
def Guards {α : Type} (allowed G : σ → Event q a ρ → Prop) (p : Script q a ρ α) (s : σ) : Prop :=
  ∀ log r, Runs p log r → party.Along allowed s log → party.Along G s log

variable {G : σ → Event q a ρ → Prop}

theorem along_of_forall (h : ∀ e ∈ log, ∀ s, G s e) : party.Along G s log := by
  induction log generalizing s with
  | nil => trivial
  | cons e log ih =>
      exact ⟨h e List.mem_cons_self s, ih fun e he => h e (List.mem_cons_of_mem _ he)⟩

theorem guards_of_sends {P : q → Prop} (hp : Sends P p) (h : ∀ s e, P e.request → G s e) :
    party.Guards allowed G p s := by
  intro log r hruns _
  exact along_of_forall fun e he s => h s e (hruns.sent hp e he)

/-- Where an invariant is enough for every event. -/
theorem Keeps.guards (h : party.Keeps allowed I Q p s) (hI : ∀ s e, I s → G s e) :
    party.Guards allowed G p s := by
  intro log r hruns
  induction hruns generalizing s with
  | died => exact fun _ => trivial
  | done => exact fun _ => trivial
  | raise => exact fun _ => trivial
  | ask _ ih => exact fun hlog => ⟨hI s _ h.1, ih (h.2 _ hlog.1) hlog.2⟩

theorem Guards.bind (hp : party.Guards allowed G p s) (hk : party.Keeps allowed I Q p s)
    (hf : ∀ s x, Q s (.ok x) → party.Guards allowed G (f x) s) :
    party.Guards allowed G (p.bind f) s := by
  intro log r hruns hlog
  rcases runs_bind hruns with ⟨hp', -⟩ | ⟨e, hp', -⟩ | ⟨x, first, second, rfl, hp', hf'⟩
  · exact hp log _ hp' hlog
  · exact hp log _ hp' hlog
  · obtain ⟨hfirst, hsecond⟩ := along_append.mp hlog
    have hx := (hk.sound hp' hfirst).2 _ rfl
    exact along_append.mpr ⟨hp first _ hp' hfirst, hf _ x hx second r hf' hsecond⟩

theorem Guards.handle {h : ρ → Script q a ρ α} (hp : party.Guards allowed G p s)
    (hk : party.Keeps allowed I Q p s) (hh : ∀ s e, Q s (.error e) → party.Guards allowed G (h e) s) :
    party.Guards allowed G (p.handle h) s := by
  intro log r hruns hlog
  rcases runs_handle hruns with ⟨hp', -⟩ | ⟨x, hp', -⟩ | ⟨e, first, second, rfl, hp', hh'⟩
  · exact hp log _ hp' hlog
  · exact hp log _ hp' hlog
  · obtain ⟨hfirst, hsecond⟩ := along_append.mp hlog
    have he := (hk.sound hp' hfirst).2 _ rfl
    exact along_append.mpr ⟨hp first _ hp' hfirst, hh _ e he second r hh' hsecond⟩

end

end Party

end OufGateway.Lib
