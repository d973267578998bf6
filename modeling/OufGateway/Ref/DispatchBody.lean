import OufGateway.Lib.PyJson
import OufGateway.Ref.Dispatch

/-!
# The body of a dispatch

`dispatch` from the bytes on. `json.loads` has other errors than the two that are
caught: an integer of more than 4300 digits is a `ValueError`, and brackets that open
too deep are a `RecursionError`. The validator recurses over the value too, in
Python, and may run out of stack where the parser did not; when it does is up to the
validator. What is left of a body then is what the rest of the dispatcher sees of
the value.
-/

namespace OufGateway.Dispatch

open Lib CompileConfig

/-- The parser and the validator. -/
structure Reading (F : Type) where
  floats : PyJson.Floats F
  /-- How deep brackets may open. -/
  limit : Nat
  json : PyJson.Value F → Json
  isUuid : String → Bool
  message : Json → String
  /-- The validator runs out of stack. -/
  exhausts : Json → Bool

namespace Reading

variable {F : Type} (p : Reading F)

def loads (rawBody : List UInt8) : Except PyJson.Fault Json :=
  (PyJson.loads p.floats p.limit rawBody).map p.json

/-- What a dispatcher is given of the parser and the validator. -/
def outside : Outside where
  loads rawBody := (p.loads rawBody).toOption
  isUuid := p.isUuid
  message := p.message

/-- `dispatch`, of a dispatcher that was given `p.outside`. -/
def dispatch {σ : Type} (d : Dispatcher) (execute : Upstream σ) (s : σ) (rawBody : List UInt8)
    (requestHeaders : List (String × String)) (i : TrustedIdentity) : Outcome σ :=
  match p.loads rawBody with
  | .error .tooManyDigits => ⟨.error .raised, s, []⟩
  | .error .tooDeep => ⟨.error .raised, s, []⟩
  | .error .notJson => Dispatch.dispatch d execute s rawBody requestHeaders i
  | .ok v =>
    if p.exhausts v then ⟨.error .raised, s, []⟩
    else Dispatch.dispatch d execute s rawBody requestHeaders i

end Reading

/-- An upstream that returns a response. -/
def returning {σ : Type} (execute : UpstreamCall → σ → BackendResponse × σ) : Upstream σ :=
  fun call s => (.ok (execute call s).1, (execute call s).2)

end OufGateway.Dispatch
