import OufGateway.Lib.PyDict
import OufGateway.Ref.Publication

/-!
# A batch of changes

`coalesce` of `publication.py`: the dictionary `latest` holds a change for each
object and the batch is refused if there are more of them than its maximum.
-/

namespace OufGateway.Publication

open OufGateway.Lib

variable {P : Type}

structure Change (P : Type) where
  objectRef : String
  sequence : Int
  payload : P

/-- The turn of the loop for one change. -/
def latestWith (latest : List (String × Change P)) (change : Change P) : List (String × Change P) :=
  match PyDict.get? latest change.objectRef with
  | none => PyDict.set latest change.objectRef change
  | some current =>
    if change.sequence > current.sequence then PyDict.set latest change.objectRef change else latest

def latest (changes : List (Change P)) : List (String × Change P) := changes.foldl latestWith []

def coalesce (changes : List (Change P)) (maximum : Int) : Except Exn (List (Change P)) :=
  if maximum < 1 then .error (.publication "maximum batch size must be positive")
  else if (latest changes).length > maximum then
    .error (.publication "publication batch exceeds bounded capacity")
  else
    .ok (((latest changes).map (·.2)).mergeSort fun a b => decide (a.objectRef ≤ b.objectRef))

end OufGateway.Publication
