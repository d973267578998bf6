import OufGateway.Lib.Except
import OufGateway.Lib.Script

/-!
# The authorization retrofit of UDP

`rollout_authorization_retrofit.py` as a script of docker commands and of the file
`rollout.json`. `--apply` renames the original container and creates another in its
place; its handler and `--rollback` give the name back. A request says whether it
is one of these recovery commands.

Docker has one container for a name. A command that failed may have taken effect,
and one that took effect could; a container that is created gets an id of its own.
-/

namespace OufGateway.Retrofit

open Lib

inductive Raised
  /-- `subprocess.CalledProcessError`. -/
  | called
  /-- Any other `Exception`. -/
  | other
  /-- A `BaseException` that is no `Exception`. -/
  | interrupt
  | exit (text : String)

/-- What the script looks at of a container, and its restart policy. -/
structure Container where
  id : String
  image : String
  running : Bool
  restart : String

/-- `rollout.json`. -/
structure Rollout where
  oldId : String
  backup : String
deriving DecidableEq

inductive Command
  | inspect (name : String)
  | update (restart name : String)
  | stop (name : String)
  | rename (name new : String)
  | create (args : List String)
  | start (name : String)
  | rm (name : String)
  /-- `exec name wget ..` of the readiness endpoint. -/
  | probe (name : String)
  | stateExists
  | readState
  | openState
  | writeState (content : Rollout)
deriving DecidableEq

structure Request where
  command : Command
  recovering : Bool

inductive Answer
  | done
  | live (container : Container)
  | flag (b : Bool)
  | rollout (content : Rollout)

abbrev Work := Script Request Answer Raised

def docker (recovering : Bool) (command : Command) : Work Unit :=
  (Script.send ⟨command, recovering⟩).bind fun _ => .done ()

def inspect (recovering : Bool) (name : String) : Work Container :=
  (Script.send ⟨.inspect name, recovering⟩).bind fun answer =>
    match answer with
    | .live container => .done container
    | _ => .raise .other

def udp : String := "ouf-udp"

/-- The turns of the loop that are left. -/
def waitReady (recovering : Bool) (name : String) : Nat → Work Unit
  | 0 => .raise .other
  | turns + 1 =>
    (Script.attempt (Script.send ⟨.probe name, recovering⟩)).bind fun
      | .ok _ => .done ()
      | .error .called => waitReady recovering name turns
      | .error e => .raise e

/-! ## The candidate -/

structure Mount where
  destination : String
  source : String
  rw : Bool

/-- What is read of `udp.inspect.json`; no memory limit is `0`. -/
structure Inspected where
  id : String
  env : List String
  user : String
  networkMode : String
  restartPolicy : String
  shmSize : Int
  memory : Int
  memorySwap : Int
  networks : List (String × List String)
  mounts : List Mount

/-- `meta.json`. -/
structure Meta where
  oldId : String
  imageId : String
  searchKeySource : String

/-- The candidate directory: its owner and mode, and its files. -/
structure Candidate where
  path : String
  owner : Nat
  mode : Nat
  old : Inspected
  prepared : Meta
  env : List String

def backupName (c : Candidate) : String :=
  "ouf-udp-preauth-" ++ String.ofList (c.prepared.oldId.toList.take 12)

abbrev Env := List (String × String)

def envValue (env : Env) (key : String) : Option String := (env.find? (·.1 = key)).map (·.2)

/-- `item.partition("=")`. -/
def partition (item : String) : String × Bool × String :=
  let front := item.toList.takeWhile (· ≠ '=')
  match item.toList.drop front.length with
  | [] => (item, false, "")
  | _ :: value => (String.ofList front, true, String.ofList value)

def envMap : List String → Env → Except Raised Env
  | [], out => .ok out
  | item :: rest, out =>
    let parts := partition item
    if parts.2.1 = false ∨ (envValue out parts.1).isSome then .error .other
    else envMap rest (out ++ [(parts.1, parts.2.2)])

def authKeys : List String :=
  ["OUF_AUTHORIZATION_REGISTRY_URL", "OUF_AUTHORIZATION_REGISTRY_TOKEN_FILE",
    "OUF_AUTHORIZATION_REFRESH_SECONDS", "OUF_AUTHORIZATION_MAX_STALENESS_SECONDS"]

/-- `a == b` of two environments. -/
def sameEnv (a b : Env) : Bool :=
  a.length = b.length && a.all fun m => envValue b m.1 = some m.2

/-- `set(a) == set(b)`. -/
def sameKeys (a b : List String) : Bool := a.all (· ∈ b) && b.all (· ∈ a)

def check (c : Bool) : Except Raised Unit := if c then .ok () else .error .other

/-- `validate` before it looks at the live container. -/
def validateFiles (c : Candidate) : Except Raised Unit := do
  check (c.owner = 0 && c.mode = 0o700)
  let env ← envMap c.env []
  let previous ← envMap c.old.env []
  check (sameKeys ((env.map (·.1)).filter fun k => previous.all fun m => m.1 ≠ k) authKeys &&
    sameEnv (env.filter fun m => m.1 ∉ authKeys) previous)
  check (envValue env "OUF_AUTHORIZATION_REGISTRY_TOKEN_FILE" = some "/run/ouf-udp-auth/token")
  check (envValue env "OUF_AUTHORIZATION_REFRESH_SECONDS" = some "30" &&
    envValue env "OUF_AUTHORIZATION_MAX_STALENESS_SECONDS" = some "300")

def keyMounts (c : Candidate) : List Mount :=
  c.old.mounts.filter fun m => m.destination = "/run/secrets/udp-search-owner.key"

/-- What `validate` asks of the live container and of the files after that. -/
def validateLive (c : Candidate) (live : Container) : Except Raised Unit := do
  check (live.id = c.prepared.oldId && live.id = c.old.id && live.running)
  check (sameKeys (c.old.networks.map (·.1)) ["ouf-backend"] && c.old.user = "10004:10004")
  check (c.old.networkMode = "ouf-backend" && c.old.restartPolicy = "unless-stopped")
  match keyMounts c with
  | [key] => check (!key.rw && key.source = c.prepared.searchKeySource)
  | _ => .error .other

def validate (c : Candidate) : Work Unit :=
  (Script.ofExcept (validateFiles c)).bind fun _ =>
    (inspect false udp).bind fun live => Script.ofExcept (validateLive c live)

def aliases (c : Candidate) : List String :=
  ((((c.old.networks.find? (·.1 = "ouf-backend")).map (·.2)).getD []).filter fun name =>
    name ≠ "ouf-udp" ∧ name ≠ String.ofList (c.old.id.toList.take 12)).dedup.insertionSort (· ≤ ·)

def createArgs (c : Candidate) : List String :=
  ["create", "--name", udp, "--pull", "never", "--user", c.old.user, "--restart", "unless-stopped",
    "--network", c.old.networkMode, "--shm-size", toString c.old.shmSize, "--log-driver", "json-file",
    "--env-file", c.path ++ "/udp.env"] ++
  (if c.old.memory ≠ 0 then ["--memory", toString c.old.memory] else []) ++
  (if c.old.memorySwap ≠ 0 then ["--memory-swap", toString c.old.memorySwap] else []) ++
  ["--mount", "type=bind,src=" ++ c.prepared.searchKeySource ++
    ",dst=/run/secrets/udp-search-owner.key,readonly",
    "--mount", "type=bind,src=/run/ouf-udp-auth,dst=/run/ouf-udp-auth,readonly"] ++
  (aliases c).flatMap (fun name => ["--network-alias", name]) ++ [c.prepared.imageId]

/-! ## The two runs -/

/-- Out of the way: the container that has the name is stopped and removed. -/
def remove (recovering : Bool) (live : Container) : Work Unit :=
  (docker recovering (.update "no" udp)).bind fun _ =>
    (if live.running then docker recovering (.stop udp) else .done ()).bind fun _ =>
      docker recovering (.rm udp)

/-- The backup has the name again and is started. -/
def giveBack (backup : String) : Work Unit :=
  (docker true (.rename backup udp)).bind fun _ =>
    (docker true (.update "unless-stopped" udp)).bind fun _ =>
      (docker true (.start udp)).bind fun _ => waitReady true udp 20

def rollback : Work Unit :=
  (Script.send ⟨.readState, true⟩).bind fun answer =>
    match answer with
    | .rollout s =>
      (inspect true udp).bind fun live =>
        if live.id = s.oldId then .done ()
        else (remove true live).bind fun _ =>
          (inspect true s.backup).bind fun backup =>
            if backup.id ≠ s.oldId then
              .raise (.exit "UDP_AUTH_RETROFIT_ROLLBACK_BLOCKED=identity mismatch")
            else giveBack s.backup
    | _ => .raise .other

/-- `except Exception`. -/
def Raised.isException : Raised → Bool
  | .called => true
  | .other => true
  | _ => false

/-- The handler of `--apply`, before it raises again. -/
def recover (backup : String) : Work Unit :=
  (((inspect true udp).bind (remove true)).handle fun e =>
    if e.isException then .done () else .raise e).bind fun _ => giveBack backup

/-- The commands under `try`. -/
def replace (c : Candidate) : Work Unit :=
  (docker false (.update "no" udp)).bind fun _ =>
    (docker false (.stop udp)).bind fun _ =>
      (docker false (.rename udp (backupName c))).bind fun _ =>
        (docker false (.create (createArgs c))).bind fun _ =>
          (docker false (.start udp)).bind fun _ =>
            (waitReady false udp 20).bind fun _ =>
              (inspect false udp).bind fun live =>
                if live.image ≠ c.prepared.imageId ∨ live.running = false then .raise .other
                else .done ()

/-- The blocks before the first change. -/
def prepare (c : Candidate) : Work Unit :=
  (Script.send ⟨.stateExists, false⟩).bind fun answer =>
    match answer with
    | .flag false =>
      (Script.attempt (inspect false (backupName c))).bind fun
        | .ok _ => .raise (.exit "UDP_AUTH_RETROFIT_BLOCKED=backup name exists")
        | .error .called =>
          (docker false .openState).bind fun _ =>
            docker false (.writeState ⟨c.prepared.oldId, backupName c⟩)
        | .error e => .raise e
    | .flag true => .raise (.exit "UDP_AUTH_RETROFIT_BLOCKED=rollout state exists")
    | _ => .raise .other

def apply (c : Candidate) : Work Unit :=
  (validate c).bind fun _ =>
    (prepare c).bind fun _ =>
      (replace c).handle fun e =>
        if e.isException then (recover (backupName c)).bind fun _ => .raise e else .raise e

inductive Mode
  | dryRun | apply | rollback
deriving DecidableEq

def main (c : Candidate) (euid : Nat) (mode : Mode) : Work Unit :=
  if euid ≠ 0 then .raise (.exit "run as root")
  else match mode with
    | .rollback => rollback
    | .apply => apply c
    | .dryRun => validate c

/-! ## Docker -/

structure World where
  containers : String → Option Container
  /-- How many containers were created. -/
  created : Nat
  /-- `rollout.json`, and what it holds if it can be read. -/
  file : Option (Option Rollout)

def World.set (w : World) (name : String) (c : Option Container) : World :=
  { w with containers := fun n => if n = name then c else w.containers n }

/-- `--name` and the image. -/
def nameOf : List String → String
  | "--name" :: name :: _ => name
  | _ :: rest => nameOf rest
  | [] => ""

/-- What a command that takes effect needs. -/
def possible (w : World) : Command → Prop
  | .update _ name => (w.containers name).isSome
  | .stop name => (w.containers name).isSome
  | .start name => (w.containers name).isSome
  | .rename name new => (w.containers name).isSome ∧ w.containers new = none
  | .create args => w.containers (nameOf args) = none
  | .rm name => ∃ c, w.containers name = some c ∧ c.running = false
  | .openState => w.file = none
  | _ => True

/-- What it leaves. -/
def performed (ids : Nat → String) (w : World) : Command → World
  | .update restart name => w.set name ((w.containers name).map fun c => { c with restart })
  | .stop name => w.set name ((w.containers name).map fun c => { c with running := false })
  | .start name => w.set name ((w.containers name).map fun c => { c with running := true })
  | .rename name new => (w.set new (w.containers name)).set name none
  | .create args =>
    { w.set (nameOf args) (some ⟨ids w.created, args.getLast?.getD "", false, "unless-stopped"⟩) with
      created := w.created + 1 }
  | .rm name => w.set name none
  | .openState => { w with file := some none }
  | .writeState content => { w with file := some (some content) }
  | _ => w

/-- What an answer says. -/
def tells (w : World) (took : Bool) (answer : Answer) : Command → Prop
  | .inspect name => ∃ c, answer = .live c ∧ w.containers name = some c
  | .probe name => (w.containers name).isSome
  | .stateExists => answer = .flag w.file.isSome
  | .readState => ∃ s, answer = .rollout s ∧ w.file = some (some s)
  | _ => took = true

/-- Docker and the file, where a command that is answered has done what it says. -/
def engine (ids : Nat → String) : Party World Request Answer Raised where
  effect w e := if e.reply.took then performed ids w e.request.command else w
  honest w e := (e.reply.took = true → possible w e.request.command) ∧
    ∀ answer, e.reply.result = .ok answer → tells w e.reply.took answer e.request.command

end OufGateway.Retrofit
