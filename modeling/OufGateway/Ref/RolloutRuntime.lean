import OufGateway.Lib.Script
import OufGateway.Ref.RolloutFiles

/-!
# Staging R4a and taking it back

`rollout_r4a_runtime.py` as a script of docker commands and of the files
`rollout-udp.json` and `rollout-apisix.json`. `--apply` gives the original container
the backup name and creates the candidate in its place; `rollback` gives the name
back, in the handler of `--apply` and in `--rollback`. A request says for which
service `rollback` sent it, if it did.

Docker has one container for a name. A command that failed may have taken effect,
and one that took effect could; a container that is created gets an id that no
other has. The world remembers which containers were created and which removed.
-/

namespace OufGateway.RolloutRuntime

open Lib PyAccess
open PrepareRuntime (isStr)
open RolloutFiles (Service snapshotAndCandidate checkPrivate)

inductive Raised
  | py (e : PyError)
  /-- The one `OSError` that `main` looks for. -/
  | fileNotFound
  /-- A `BaseException` that is no `Exception`, or an `Exception` that `main` lets through. -/
  | interrupt
  | exit (text : String)
deriving DecidableEq

abbrev blocked (text : String) : Raised := .py (.valueError text)

/-- What the script looks at of a container, and its restart policy. -/
structure Container where
  id : String
  image : String
  running : Bool
  restart : String

/-- `rollout-<service>.json`. -/
structure State where
  service : Service
  oldId : String
  backup : String
deriving DecidableEq

inductive Command
  | inspect (name : String)
  | imageInspect (image : String)
  | update (restart name : String)
  | stop (name : String)
  | rename (name new : String)
  | create (args : List String)
  | connect (network name : String)
  | start (name : String)
  | rm (name : String)
  /-- `exec name wget ..` of the readiness endpoint. -/
  | probe (name : String)
  | stateExists (service : Service)
  | readState (service : Service)
  | openState (service : Service)
  | writeState (service : Service) (content : State)
deriving DecidableEq

structure Request where
  command : Command
  undo : Option Service

inductive Answer
  | done
  | live (container : Container)
  | image (id : String) (config : Json)
  | flag (b : Bool)
  | state (content : State)

abbrev Work := Script Request Answer Raised

def docker (undo : Option Service) (command : Command) : Work Unit :=
  (Script.send ⟨command, undo⟩).bind fun _ => .done ()

def inspect (undo : Option Service) (name : String) : Work Container :=
  (Script.send ⟨.inspect name, undo⟩).bind fun answer =>
    match answer with
    | .live container => .done container
    | _ => .raise (.py .typeError)

/-- What is computed without docker and the files that change. -/
def compute {α : Type} (x : Run α) : Work α := Script.ofExcept (x.mapError .py)

def nameOf : Service → String
  | .udp => "ouf-udp"
  | .apisix => "ouf-apisix"

def backupOf (s : Service) : String := nameOf s ++ "-r4a-original"

/-- `IMAGES`: the image that is run, and its id. -/
def images : Service → String × String
  | .udp => ("ouf-udp:r4a-3980fe2",
      "sha256:96a0327f22ab07c34eaa3255b644b55e27d955519eefb4b218d83f3143f933be")
  | .apisix => ("sha256:84e6b5e787e9f889ebff88161cb9a16599bafcffa236c6b54c7f779a0655940d",
      "sha256:84e6b5e787e9f889ebff88161cb9a16599bafcffa236c6b54c7f779a0655940d")

/-! ## `validate` -/

/-- What a run is given: the files as they are, the two paths, and `str` of a value. -/
structure Site where
  loads : List Char → Option Json
  host : Host
  snapshot : Path
  candidate : Path
  str : Json → String

/-- `value.get(key, default)`. -/
def getOr (value : Json) (key : String) (default : Json) : Run Json :=
  match value with
  | .obj members => .ok ((Json.ofLookup members key).getD default)
  | _ => .error .typeError

def get (value : Json) (key : String) : Run Json := getOr value key .null

/-- `set(value) == set(keys)` of a dictionary with texts as keys. -/
def hasKeys (value : Json) (keys : List String) : Run Bool := do
  let items ← iterate value
  return (items.all fun k => keys.any fun key => isStr k key) &&
    keys.all fun key => items.any fun k => isStr k key

/-- `any(value.get(key) for key in keys)`. -/
def anySet (value : Json) : List String → Run Bool
  | [] => .ok false
  | key :: keys => do if (← get value key).truthy then .ok true else anySet value keys

def lengthOf (value : Json) : Run Nat := do return (← iterate value).length

def isInt (value : Json) (n : Int) : Bool := value.eqv (.int n)

/-- The comparisons of one `if`, from left to right. -/
def reviewService (service : Service) (original host networks : Json) : Run Unit :=
  match service with
  | .udp => do
    let differs := "UDP launch differs from reviewed baseline"
    blockIf (!(← hasKeys networks ["ouf-backend"])) differs
    blockIf (!isStr (← item (← item original "Config") "User") "10004:10004") differs
    blockIf (!isInt (← item host "Memory") 2147483648) differs
    blockIf (!isInt (← item host "MemorySwap") 4294967296) differs
    blockIf (← item original "Mounts").truthy differs
  | .apisix => do
    let differs := "APISIX launch differs from reviewed baseline"
    blockIf (!(← hasKeys networks ["ouf-backend", "ouf-gateway-control"])) differs
    blockIf (!isStr (← item host "NetworkMode") "ouf-gateway-control") differs
    blockIf (!isStr (← item (← item original "Config") "User") "apisix") differs
    blockIf (!isInt (← item host "Memory") 0) differs
    blockIf (!isInt (← item host "MemorySwap") 0) differs
    blockIf ((← lengthOf (← item original "Mounts")) ≠ 1) differs

/-- The options that must not be set, from `Privileged` to `CpuPeriod`. -/
def unsupported : List String :=
  ["Privileged", "ReadonlyRootfs", "AutoRemove", "PortBindings", "PublishAllPorts", "Tmpfs", "CapAdd",
    "CapDrop", "SecurityOpt", "Devices", "DeviceRequests", "Dns", "ExtraHosts", "Ulimits", "Sysctls",
    "GroupAdd", "VolumesFrom", "Links", "PidMode", "UsernsMode", "NanoCpus", "CpuShares", "CpuQuota",
    "CpuPeriod"]

def reviewOptions (host networks : Json) : Run Unit := do
  let problem := "unsupported Docker launch option; review required"
  let mode ← item host "NetworkMode"
  blockIf (!(← iterate networks).any (mode.eqv ·)) problem
  blockIf (!isStr (← item (← item host "RestartPolicy") "Name") "unless-stopped") problem
  blockIf (← anySet host unsupported) problem
  let pids ← get host "PidsLimit"
  blockIf (!(pids.eqv .null || isInt pids 0)) problem
  blockIf (← anySet host ["OomKillDisable", "Init"]) problem
  blockIf (!isStr (← get (← getOr host "LogConfig" (.obj [])) "Type") "json-file") problem
  blockIf (← get (← getOr host "LogConfig" (.obj [])) "Config").truthy problem
  blockIf (!isStr (← get host "IpcMode") "private") problem

/-- `value or None`. -/
def orNone (value : Json) : Json := if value.truthy then value else .null

def sameKey (config imageConfig : Json) : List String → Run Unit
  | [] => .ok ()
  | key :: keys => do
    blockIf (!(orNone (← get config key)).eqv (orNone (← get imageConfig key)))
      "candidate image default launch differs from original"
    sameKey config imageConfig keys

def reviewImage (service : Service) (original : Json) (id : String) (imageConfig : Json) : Run Unit := do
  blockIf (id ≠ (images service).2) "candidate image ID changed"
  let config ← item original "Config"
  sameKey config imageConfig ["Entrypoint", "Cmd", "WorkingDir", "User"]
  blockIf (← get imageConfig "Volumes").truthy "candidate image mount or healthcheck differs"
  blockIf (!(← get imageConfig "Healthcheck").eqv (← get config "Healthcheck"))
    "candidate image mount or healthcheck differs"

def textsOf : List Json → Run (List String)
  | [] => .ok []
  | x :: xs => do return (← text x) :: (← textsOf xs)

/-- `sorted(set(..) - {name, original['Id'][:12]})`. -/
def aliasesOf (service : Service) (id : String) (network : Json) : Run (List String) := do
  let given ← get network "Aliases"
  let names ← textsOf (← iterate (if given.truthy then given else .arr []))
  return (names.filter fun n => n ≠ nameOf service ∧ n ≠ String.ofList (id.toList.take 12)).dedup.insertionSort
    (· ≤ ·)

def mount (source target : String) : List String :=
  ["--mount", "type=bind,src=" ++ source ++ ",dst=" ++ target ++ ",readonly"]

def createArgs (site : Site) (service : Service) (original : Json) : Run (List String) := do
  let host ← item original "HostConfig"
  let user ← text (← item (← item original "Config") "User")
  let mode ← text (← item host "NetworkMode")
  let shm ← item host "ShmSize"
  let memory ← item host "Memory"
  let swap ← item host "MemorySwap"
  let id ← text (← item original "Id")
  let names ← aliasesOf service id
    (← item (← item (← item original "NetworkSettings") "Networks") mode)
  let file (name : String) : String := (site.candidate.child name).text
  return ["create", "--name", nameOf service, "--pull", "never", "--user", user, "--restart",
      "unless-stopped", "--network", mode, "--shm-size", site.str shm, "--log-driver", "json-file",
      "--env-file", file (service.text ++ ".env")] ++
    (match service with
      | .udp => ["--memory", site.str memory, "--memory-swap", site.str swap] ++
          mount (file "udp-search-owner.key") "/run/secrets/udp-search-owner.key" ++
          mount "/run/ouf-udp-auth" "/run/ouf-udp-auth"
      | .apisix => mount (file "apisix-config.yaml") "/usr/local/apisix/conf/config.yaml") ++
    names.flatMap (fun n => ["--network-alias", n]) ++ [(images service).1]

/-- What the live container is checked for. -/
def checkLive (original : Json) (current : Container) : Run Unit := do
  blockIf (!isStr (← item original "Id") current.id || !current.running)
    "original service is no longer running at snapshot ID"

/-- The checks on the launch of the original, as far as they need no docker. -/
def reviewLaunch (service : Service) (original : Json) : Run Unit := do
  let host ← item original "HostConfig"
  let networks ← item (← item original "NetworkSettings") "Networks"
  reviewService service original host networks
  reviewOptions host networks

/-- APISIX is staged only on the candidate of UDP. -/
def checkUdp (udp : Container) : Run Unit :=
  blockIf (udp.image ≠ (images .udp).2 || !udp.running) "candidate UDP must run before APISIX"

def inspectImage (image : String) : Work (String × Json) :=
  (Script.send ⟨.imageInspect image, none⟩).bind fun answer =>
    match answer with
    | .image id config => .done (id, config)
    | _ => .raise (.py .typeError)

def validate (site : Site) (service : Service) (original : Json) (apply : Bool) :
    Work (List String × String) :=
  (inspect none (nameOf service)).bind fun current =>
    (compute (checkLive original current)).bind fun _ =>
      (if service = .apisix ∧ apply then
        (inspect none (nameOf .udp)).bind fun udp => compute (checkUdp udp)
      else .done ()).bind fun _ =>
        (compute (reviewLaunch service original)).bind fun _ =>
          (inspectImage (images service).1).bind fun image =>
            (compute (reviewImage service original image.1 image.2)).bind fun _ =>
              (compute (createArgs site service original)).bind fun args =>
                .done (args, (images service).2)

/-! ## `rollback` -/

/-- The attempts that are left. -/
def waitUdpReady (undo : Option Service) (name : String) : Nat → Work Unit
  | 0 => .done ()
  | attempts + 1 =>
    (Script.attempt (Script.send ⟨.probe name, undo⟩)).bind fun
      | .ok _ => .done ()
      | .error (.py .calledProcessError) =>
        if attempts = 0 then .raise (blocked "UDP readiness did not become healthy")
        else waitUdpReady undo name attempts
      | .error e => .raise e

/-- `inspect` with its `except CalledProcessError`. -/
def find (undo : Option Service) (name : String) : Work (Option Container) :=
  (Script.attempt (inspect undo name)).bind fun
    | .ok container => .done (some container)
    | .error (.py .calledProcessError) => .done none
    | .error e => .raise e

/-- What has the name and is not the original goes. -/
def clear (s : Service) (oldId : String) (current : Option Container) : Work Unit :=
  match current with
  | none => .done ()
  | some live =>
    if live.id = oldId then .done ()
    else (docker (some s) (.update "no" (nameOf s))).bind fun _ =>
      (if live.running then docker (some s) (.stop (nameOf s)) else .done ()).bind fun _ =>
        docker (some s) (.rm (nameOf s))

/-- What has the backup name gets the name. -/
def giveBack (s : Service) (state : State) (original : Option Container) : Work Unit :=
  match original with
  | none => .done ()
  | some kept =>
    if kept.id ≠ state.oldId then .raise (blocked "rollback container identity mismatch")
    else docker (some s) (.rename state.backup (nameOf s))

/-- The container that has the name now is the original, and runs. -/
def restart (s : Service) (oldId : String) : Work Unit :=
  (inspect (some s) (nameOf s)).bind fun restored =>
    if restored.id ≠ oldId then .raise (blocked "cannot restore original container")
    else (if restored.running then .done () else docker (some s) (.start (nameOf s))).bind fun _ =>
      (docker (some s) (.update "unless-stopped" (nameOf s))).bind fun _ =>
        (inspect (some s) (nameOf s)).bind fun live =>
          if live.running then
            if s = .udp then waitUdpReady (some s) (nameOf s) 20 else .done ()
          else .raise (blocked "original container did not restart")

def rollback (s : Service) (state : State) : Work Unit :=
  (find (some s) (nameOf s)).bind fun current =>
    (clear s state.oldId current).bind fun _ =>
      (find (some s) state.backup).bind fun original =>
        (giveBack s state original).bind fun _ => restart s state.oldId

/-! ## `main` -/

def readState (s : Service) : Work State :=
  (Script.send ⟨.readState s, none⟩).bind fun answer =>
    match answer with
    | .state content => .done content
    | _ => .raise (.py .typeError)

/-- UDP goes back after APISIX, where there is a record of APISIX. -/
def apisixFirst : Work Unit :=
  ((readState .apisix).bind fun api =>
    (inspect none (nameOf .apisix)).bind fun live =>
      if live.id ≠ api.oldId then .raise (blocked "rollback APISIX before UDP") else .done ()).handle
    fun e => if e = .fileNotFound then .done () else .raise e

def takeBack (site : Site) (s : Service) : Work Unit :=
  (compute (checkPrivate site.host site.candidate 0o700 0 0)).bind fun _ =>
    (readState s).bind fun state =>
      if state.service ≠ s then .raise (blocked "rollback state differs from service")
      else (if s = .udp then apisixFirst else .done ()).bind fun _ => rollback s state

/-- The commands under `try`. -/
def replace (s : Service) (args : List String) (digest : String) : Work Unit :=
  (docker none (.update "no" (nameOf s))).bind fun _ =>
    (docker none (.stop (nameOf s))).bind fun _ =>
      (docker none (.rename (nameOf s) (backupOf s))).bind fun _ =>
        (docker none (.create args)).bind fun _ =>
          (if s = .apisix then docker none (.connect "ouf-backend" (nameOf s)) else .done ()).bind fun _ =>
            (docker none (.start (nameOf s))).bind fun _ =>
              (inspect none (nameOf s)).bind fun current =>
                if current.image ≠ digest ∨ current.running = false then
                  .raise (blocked "candidate exited or has wrong image")
                else if s = .udp then waitUdpReady none (nameOf s) 20 else .done ()

/-- `except (subprocess.CalledProcessError, ValueError)`. -/
def Raised.rolledBack : Raised → Bool
  | .py .calledProcessError => true
  | .py (.valueError _) => true
  | _ => false

/-- The backup name is free, as far as docker says. -/
def checkBackup (s : Service) : Work Unit :=
  (find none (backupOf s)).bind fun
    | none => .done ()
    | some _ => .raise (blocked "rollback name already exists")

def saveState (s : Service) (state : State) : Work Unit :=
  (docker none (.openState s)).bind fun _ => docker none (.writeState s state)

/-- The original container of a service in the snapshot. -/
def originalOf (site : Site) (s : Service) : Run Json := do
  lookup (← snapshotAndCandidate site.loads site.host site.snapshot site.candidate) (nameOf s)

def stage (s : Service) (state : State) (args : List String) (digest : String) : Work Unit :=
  (replace s args digest).handle fun e =>
    if e.rolledBack then
      (rollback s state).bind fun _ => .raise (blocked "candidate failed; original restored")
    else .raise e

/-- `--apply`, and without it the dry run. -/
def apply (site : Site) (s : Service) (changes : Bool) : Work Unit :=
  (compute (originalOf site s)).bind fun original =>
    (validate site s original changes).bind fun launch =>
      (Script.send ⟨.stateExists s, none⟩).bind fun answer =>
        match answer with
        | .flag false =>
          if changes then
            (checkBackup s).bind fun _ =>
              (compute (do text (← item original "Id"))).bind fun oldId =>
                (saveState s ⟨s, oldId, backupOf s⟩).bind fun _ =>
                  stage s ⟨s, oldId, backupOf s⟩ launch.1 launch.2
          else .done ()
        | .flag true => .raise (blocked "service already staged; inspect state or rollback")
        | _ => .raise (.py .typeError)

/-- The two `except` of `main`. -/
def Raised.reported : Raised → Raised
  | .py (.valueError text) => .exit ("R4A_ROLLOUT_BLOCKED: " ++ text)
  | .py .osError => .exit "R4A_ROLLOUT_BLOCKED: OSError"
  | .py .keyError => .exit "R4A_ROLLOUT_BLOCKED: KeyError"
  | .py .typeError => .exit "R4A_ROLLOUT_BLOCKED: TypeError"
  | .py .calledProcessError => .exit "R4A_ROLLOUT_BLOCKED: CalledProcessError"
  | .fileNotFound => .exit "R4A_ROLLOUT_BLOCKED: FileNotFoundError"
  | e => e

inductive Mode
  | dryRun | apply | rollback
deriving DecidableEq

def main (site : Site) (euid : Nat) (s : Service) (mode : Mode) : Work Unit :=
  if euid ≠ 0 then .raise (.exit "run as root")
  else (match mode with
    | .rollback => takeBack site s
    | .apply => apply site s true
    | .dryRun => apply site s false).handle fun e => .raise e.reported

/-! ## Docker -/

structure World where
  containers : String → Option Container
  /-- What is in `rollout-<service>.json`, if it can be read. -/
  files : Service → Option (Option State)
  /-- The ids of the containers that were created. -/
  created : List String
  /-- The containers that were removed: the names they had, and their ids. -/
  removed : List (String × String)

namespace World

def set (w : World) (name : String) (c : Option Container) : World :=
  { w with containers := fun n => if n = name then c else w.containers n }

def setFile (w : World) (s : Service) (content : Option State) : World :=
  { w with files := fun t => if t = s then some content else w.files t }

end World

/-- `--name`. -/
def nameIn : List String → String
  | "--name" :: name :: _ => name
  | _ :: rest => nameIn rest
  | [] => ""

/-- How docker names and finds what it creates. -/
structure Docker where
  newId : World → String
  imageId : String → String

/-- What a command that takes effect needs. -/
def possible (d : Docker) (w : World) : Command → Prop
  | .update _ name => (w.containers name).isSome
  | .stop name => (w.containers name).isSome
  | .start name => (w.containers name).isSome
  | .connect _ name => (w.containers name).isSome
  | .rename name new => (w.containers name).isSome ∧ w.containers new = none
  | .create args => w.containers (nameIn args) = none ∧
      ∀ n k, w.containers n = some k → k.id ≠ d.newId w
  | .rm name => ∃ c, w.containers name = some c ∧ c.running = false
  | .openState s => w.files s = none
  | _ => True

/-- What it leaves. -/
def performed (d : Docker) (w : World) : Command → World
  | .update restart name => w.set name ((w.containers name).map fun c => { c with restart })
  | .stop name => w.set name ((w.containers name).map fun c => { c with running := false })
  | .start name => w.set name ((w.containers name).map fun c => { c with running := true })
  | .rename name new => (w.set new (w.containers name)).set name none
  | .create args =>
    { w.set (nameIn args)
        (some ⟨d.newId w, d.imageId (args.getLast?.getD ""), false, "unless-stopped"⟩) with
      created := d.newId w :: w.created }
  | .rm name =>
    { w.set name none with
      removed := ((w.containers name).map fun c => (name, c.id)).toList ++ w.removed }
  | .openState s => w.setFile s none
  | .writeState s content => w.setFile s (some content)
  | _ => w

/-- What an answer says. -/
def tells (w : World) (took : Bool) (answer : Answer) : Command → Prop
  | .inspect name => ∃ c, answer = .live c ∧ w.containers name = some c
  | .imageInspect _ => ∃ id config, answer = .image id config
  | .probe name => (w.containers name).isSome
  | .stateExists s => answer = .flag (w.files s).isSome
  | .readState s => ∃ content, answer = .state content ∧ w.files s = some (some content)
  | _ => took = true

/-- Docker and the files, where a command that is answered has done what it says, and a file is
not found only where there is none. -/
def engine (d : Docker) : Party World Request Answer Raised where
  effect w e := if e.reply.took then performed d w e.request.command else w
  honest w e := (e.reply.took = true → possible d w e.request.command) ∧
    (∀ answer, e.reply.result = .ok answer → tells w e.reply.took answer e.request.command) ∧
    ∀ s, e.request.command = .readState s → e.reply.result = .error .fileNotFound → w.files s = none

end OufGateway.RolloutRuntime
