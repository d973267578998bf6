import Mathlib
import OufGateway.Lib.Trace

/-!
# The pressure controller

`PersistentPressureController` keeps one row per registered scope and moves
it on every accepted observation. The model follows `_validate`,
`register_scope`, `observe` and `decision` branch for branch. Timestamps and
the capacity fraction are exact rationals; an observation reaches the
controller as the untyped record it is in the source and `validate` turns it
into a `Sample`, which carries the ranges that were checked.

The digest of an observation is only ever compared with the last one
accepted, so it is a parameter here.
-/

namespace OufGateway.Pressure

def profile : String := "ouf.operational-pressure.reference.v1"

def maxScopes : Nat := 1024
def freshSeconds : ℚ := 30
def controlSlots : Nat := 2
def businessSlots : Nat := 8

/-- What the two exception classes of the module carry, and the `TypeError`
of arithmetic on a null timer. -/
inductive PressureError
  | value (code : String)
  | conflict (code : String)
  | typeError
deriving DecidableEq, Repr

/-- A Python value as `_validate` tells them apart. -/
inductive Scalar
  | int (n : Int)
  | float (q : ℚ)
  | nonfinite
  | other
deriving DecidableEq

/-- `observedAt` is `none` when it is not a timezone-aware datetime. -/
structure PressureObservation where
  observedAt : Option ℚ
  windowSeconds : Scalar
  attempts : Scalar
  failures : Scalar
  dependencyUnavailableSeconds : Scalar
  capacityFraction : Scalar
  oldestBacklogSeconds : Scalar
deriving DecidableEq

/-- An observation that passed `_validate`. -/
structure Sample where
  observed : ℚ
  attempts : Nat
  failures : Nat
  dependencyUnavailableSeconds : Nat
  capacityFraction : ℚ
  oldestBacklogSeconds : Nat
  failures_le : failures ≤ attempts
  capacity_nonneg : 0 ≤ capacityFraction
  capacity_le_one : capacityFraction ≤ 1
deriving DecidableEq

inductive Mode
  | normal | cautious | paused | probe | recovering
deriving DecidableEq, Repr

/-- A row of `gateway_pressure_scope`. -/
structure Frame where
  scopeRef : String
  profile : String
  version : Nat
  mode : Mode
  slots : Nat
  lastObservedAt : Option ℚ
  lastDigest : Option String
  highSince : Option ℚ
  lowSince : Option ℚ
  stageSince : Option ℚ
deriving DecidableEq

/-! ## Validation -/

def observationInvalid : PressureError := .value "PRESSURE_OBSERVATION_INVALID"

/-- `value != 300` on any Python value. -/
def Scalar.isNumber (q : ℚ) : Scalar → Bool
  | .int n => decide ((n : ℚ) = q)
  | .float p => decide (p = q)
  | _ => false

/-- `type(value) is int` and `0 <= value <= 1_000_000_000`. -/
def Scalar.count : Scalar → Except PressureError Nat
  | .int n => if 0 ≤ n ∧ n ≤ 1000000000 then .ok n.toNat else .error observationInvalid
  | _ => .error observationInvalid

/-- `type(value) in (float, int)` and `math.isfinite(value)`. -/
def Scalar.finite : Scalar → Except PressureError ℚ
  | .int n => .ok n
  | .float q => .ok q
  | _ => .error observationInvalid

/-- `_validate`; `none` is a sample that is not a `PressureObservation`. -/
def validate (sample : Option PressureObservation) (now : ℚ) :
    Except PressureError Sample :=
  match sample with
  | none => .error observationInvalid
  | some o =>
    match o.observedAt with
    | none => .error observationInvalid
    | some observed =>
      if ¬ (-5 ≤ now - observed ∧ now - observed ≤ 30) ∨
          o.windowSeconds.isNumber 300 = false then
        .error (.value "PRESSURE_OBSERVATION_STALE_OR_WINDOW_INVALID")
      else do
        let _ ← o.windowSeconds.count
        let attempts ← o.attempts.count
        let failures ← o.failures.count
        let dependency ← o.dependencyUnavailableSeconds.count
        let backlog ← o.oldestBacklogSeconds.count
        let capacity ← o.capacityFraction.finite
        if h : failures ≤ attempts ∧ 0 ≤ capacity ∧ capacity ≤ 1 then
          .ok ⟨observed, attempts, failures, dependency, capacity, backlog,
            h.1, h.2.1, h.2.2⟩
        else .error observationInvalid

/-! ## The decision on one accepted sample -/

namespace Sample

variable (s : Sample)

def rate : ℚ := if s.attempts = 0 then 0 else s.failures / s.attempts

def rateHigh : Prop := 20 ≤ s.attempts ∧ 1 / 2 ≤ s.rate

def hard : Prop :=
  9 / 10 ≤ s.capacityFraction ∨ 300 ≤ s.dependencyUnavailableSeconds ∨
    (900 ≤ s.oldestBacklogSeconds ∧ 7 / 10 ≤ s.capacityFraction)

def high : Prop := s.hard ∨ s.rateHigh

def low : Prop :=
  s.capacityFraction ≤ 7 / 10 ∧ s.oldestBacklogSeconds < 300 ∧
    s.dependencyUnavailableSeconds = 0 ∧ s.rate ≤ 1 / 10

instance : Decidable s.rateHigh := inferInstanceAs (Decidable (_ ∧ _))
instance : Decidable s.hard := inferInstanceAs (Decidable (_ ∨ _ ∨ _))
instance : Decidable s.high := inferInstanceAs (Decidable (_ ∨ _))
instance : Decidable s.low := inferInstanceAs (Decidable (_ ∧ _ ∧ _ ∧ _))

end Sample

namespace Frame

variable (f : Frame) (s : Sample)

/-- No sample within the last `FRESH_SECONDS`. -/
def gap : Prop := ∀ last ∈ f.lastObservedAt, freshSeconds < s.observed - last

instance : Decidable (f.gap s) :=
  match h : f.lastObservedAt with
  | none => isTrue (by simp [gap, h])
  | some last =>
    decidable_of_iff (freshSeconds < s.observed - last) (by simp [gap, h])

def nextHighSince : Option ℚ :=
  if ¬ s.high then none
  else if f.gap s ∨ f.highSince = none then some s.observed else f.highSince

def nextLowSince : Option ℚ :=
  if ¬ s.low then none
  else if f.gap s ∨ f.lowSince = none then some s.observed else f.lowSince

/-- `high and high_since is not None and observed-high_since >= 90`. -/
def sustained : Prop :=
  s.high ∧ ∃ since ∈ f.nextHighSince s, 90 ≤ s.observed - since

instance : Decidable (f.sustained s) :=
  match h : f.nextHighSince s with
  | none => isFalse (by simp [sustained, h])
  | some since =>
    decidable_of_iff (s.high ∧ 90 ≤ s.observed - since) (by simp [sustained, h])

end Frame

/-- `observed - since`, a `TypeError` on a null timer. -/
def elapsed (observed : ℚ) : Option ℚ → Except PressureError ℚ
  | some since => .ok (observed - since)
  | none => .error .typeError

/-- The three columns an observation moves together. -/
structure Stage where
  mode : Mode
  slots : Nat
  since : Option ℚ
deriving DecidableEq

def Frame.stage (f : Frame) : Stage := ⟨f.mode, f.slots, f.stageSince⟩

/-- The mode branches of `observe`, in their order. -/
def nextStage (f : Frame) (s : Sample) : Except PressureError Stage :=
  let observed := s.observed
  if s.hard ∨ f.sustained s then .ok ⟨.paused, 0, none⟩
  else if s.high then
    if f.mode ≠ .paused ∧ f.mode ≠ .probe then .ok ⟨.cautious, 2, none⟩
    else .ok f.stage
  else match f.mode with
    | .paused =>
      if s.low then do
        let held ← elapsed observed (f.nextLowSince s)
        if 120 ≤ held then .ok ⟨.probe, 1, some observed⟩ else .ok f.stage
      else .ok f.stage
    | .probe =>
      if ¬ s.low then .ok ⟨.paused, 0, none⟩
      else if ¬ f.gap s then do
        let held ← elapsed observed f.stageSince
        if 30 ≤ held ∧ 0 < s.attempts ∧ s.failures = 0 then
          .ok ⟨.recovering, 2, some observed⟩
        else .ok f.stage
      else .ok f.stage
    | .recovering =>
      if ¬ s.low then .ok ⟨.cautious, 2, none⟩
      else if f.gap s then .ok ⟨f.mode, f.slots, some observed⟩
      else do
        let held ← elapsed observed f.stageSince
        if 30 ≤ held ∧ 0 < s.attempts ∧ s.failures = 0 then
          let slots := min businessSlots (f.slots * 2)
          .ok ⟨if slots = businessSlots then .normal else f.mode, slots, some observed⟩
        else .ok f.stage
    | .cautious =>
      if s.low then do
        let held ← elapsed observed (f.nextLowSince s)
        if 120 ≤ held then .ok ⟨.recovering, 2, some observed⟩ else .ok f.stage
      else .ok f.stage
    | .normal => .ok f.stage

/-- The row the `update` of `observe` writes. -/
def advance (f : Frame) (s : Sample) (fingerprint : String) :
    Except PressureError Frame := do
  let stage ← nextStage f s
  .ok { f with
    version := f.version + 1, mode := stage.mode, slots := stage.slots
    lastObservedAt := some s.observed, lastDigest := some fingerprint
    highSince := f.nextHighSince s, lowSince := f.nextLowSince s
    stageSince := stage.since }

/-! ## The table -/

/-- The row a new scope gets. -/
def Frame.registered (scopeRef : String) : Frame :=
  ⟨scopeRef, Pressure.profile, 0, .normal, 8, none, none, none, none, none⟩

def lookup (t : List Frame) (scopeRef : String) : Option Frame :=
  t.find? (·.scopeRef = scopeRef)

def registerScope (t : List Frame) (scopeRef : String) :
    Except PressureError (List Frame) :=
  if ¬ (1 ≤ scopeRef.length ∧ scopeRef.length ≤ 200) ∨
      ¬ "://".toList <:+: scopeRef.toList then
    .error (.value "PRESSURE_SCOPE_INVALID")
  else match lookup t scopeRef with
    | some existing =>
      if existing.profile ≠ profile then .error (.conflict "PRESSURE_PROFILE_CHANGED")
      else .ok t
    | none =>
      if maxScopes ≤ t.length then .error (.conflict "PRESSURE_SCOPE_CAPACITY")
      else .ok (t ++ [Frame.registered scopeRef])

/-- `where scope_ref=? and version=?`. -/
def store (t : List Frame) (expectedVersion : Int) (row : Frame) : List Frame :=
  t.map fun f =>
    if f.scopeRef = row.scopeRef ∧ (f.version : Int) = expectedVersion then row else f

/-- What one call of `observe` did to its row. -/
inductive Observed
  | duplicate
  | accepted (before : Frame) (sample : Sample) (after : Frame)
deriving DecidableEq

variable (digest : PressureObservation → String)

/-- `observe` up to its commit; the decision it returns is `decision` below. -/
def observe (t : List Frame) (scopeRef : String)
    (observation : Option PressureObservation) (expectedVersion : Int) (now : ℚ) :
    Except PressureError (Observed × List Frame) :=
  if expectedVersion < 0 then .error (.conflict "PRESSURE_VERSION_INVALID")
  else do
    let s ← validate observation now
    let fingerprint := (observation.map digest).getD ""
    match lookup t scopeRef with
    | none => .error (.conflict "PRESSURE_SCOPE_UNREGISTERED")
    | some frame =>
      if frame.profile ≠ profile then .error (.conflict "PRESSURE_PROFILE_CHANGED")
      else if frame.lastObservedAt = some s.observed ∧
          frame.lastDigest = some fingerprint then .ok (.duplicate, t)
      else if (frame.version : Int) ≠ expectedVersion ∨
          ∃ last ∈ frame.lastObservedAt, s.observed ≤ last then
        .error (.conflict "PRESSURE_OBSERVATION_CONFLICT")
      else do
        let row ← advance frame s fingerprint
        .ok (.accepted frame s row, store t expectedVersion row)

structure Decision where
  scopeRef : String
  profile : String
  version : Nat
  mode : Option Mode
  businessSlots : Nat
  reservedControlSlots : Nat
  evidenceFresh : Bool
  executionAuthorized : Bool
  retryBudgetRenewed : Bool
deriving DecidableEq

/-- `decision`; the mode `UNKNOWN` of stale evidence is `none`. -/
def decision (t : List Frame) (scopeRef : String) (now : ℚ) :
    Except PressureError Decision :=
  match lookup t scopeRef with
  | none => .error (.conflict "PRESSURE_SCOPE_UNREGISTERED")
  | some frame =>
    let fresh := decide (frame.profile = profile ∧
      ∃ last ∈ frame.lastObservedAt, -5 ≤ now - last ∧ now - last ≤ freshSeconds)
    .ok ⟨scopeRef, profile, frame.version, if fresh then some frame.mode else none,
      if fresh then frame.slots else 0, controlSlots, fresh, false, false⟩

/-! ## Runs -/

/-- One call of the controller, with the clock reading it makes. -/
inductive Call
  | register (scopeRef : String)
  | observe (scopeRef : String) (observation : Option PressureObservation)
      (expectedVersion : Int) (now : ℚ)

/-- The accepted observations a call makes visible. -/
structure Accepted where
  before : Frame
  sample : Sample
  after : Frame
deriving DecidableEq

/-- A call that raises leaves the table as it was. -/
def controller : Lib.Machine (List Frame) Call Accepted where
  step t
    | .register scopeRef => (registerScope t scopeRef).toOption.getD t
    | .observe scopeRef o v now =>
      match observe digest t scopeRef o v now with
      | .ok (_, t') => t'
      | .error _ => t
  emit t
    | .register _ => []
    | .observe scopeRef o v now =>
      match observe digest t scopeRef o v now with
      | .ok (.accepted f s f', _) => [⟨f, s, f'⟩]
      | _ => []

end OufGateway.Pressure
