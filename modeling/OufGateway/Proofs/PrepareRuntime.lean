import OufGateway.Ref.RolloutFiles

/-!
# Preparation never hands a candidate over

What the rollout accepts, `prepare` would have to return first. Among the arguments
of `udp_env.update` stands `registry_url`, which nothing binds: no parameter, no
assignment and no global of the module. So whatever has passed every check ends
there, with a `NameError` that `main` does not catch, before the directory exists.
-/

namespace OufGateway.PrepareRuntime

open Lib PyAccess
open RolloutFiles (Service envOfFile isKey checkToken snapshotAndCandidate)

variable {loads : List Char → Option Json} {h h' : Host} {i : Input} {r : Reviewed} {target : Path}

/-- The environment file of a service, as the rollout reads it. -/
def envFile (h : Host) (target : Path) (service : Service) : Run Env := do
  envOfFile (← readText h (target.child (service.text ++ ".env")))

/-- The rollout takes the candidate, which adds what was reviewed and nothing else. -/
structure Agrees (loads : List Char → Option Json) (h : Host) (i : Input) (r : Reviewed)
    (target : Path) (h' : Host) : Prop where
  accepted : ∃ old, snapshotAndCandidate loads h' i.snapshot target = .ok old
  udp : ∃ more, envFile h' target .udp = .ok (r.udpEnv ++ more) ∧
    more.map (·.1) = RolloutFiles.additions .udp
  apisix : ∃ key, isKey key = true ∧
    envFile h' target .apisix = .ok (r.apisixEnv ++ [(searchKey, key)]) ∧
    readText h' (target.child "udp-search-owner.key") = .ok (key.toList ++ ['\n'])
  config : ∃ original, readText h r.config = .ok original ∧
    readText h' (target.child "apisix-config.yaml") =
      .ok (Text.replaceFirst marker (marker ++ added) original)

/-- Preparation returns a candidate, and the rollout agrees with it. -/
def HandsOver (loads : List Char → Option Json) (h : Host) (i : Input) (r : Reviewed) : Prop :=
  ∃ target h', prepare loads h i = .ok (target, h') ∧
    (checkToken h' = .ok () → Agrees loads h i r target h')

theorem additions_unbound {globals : Env} {keyFile : String}
    (hkey : PyDict.get? globals "UDP_KEY_FILE" = some keyFile)
    (hurl : PyDict.get? globals "registry_url" = none) :
    additions globals i r = .error (.nameError "registry_url") := by
  have hkeyFile : name globals "UDP_KEY_FILE" = .ok keyFile := by rw [name, hkey, orElse]
  have hregistry : name globals "registry_url" = .error (.nameError "registry_url") := by
    rw [name, hurl, orElse]
  rw [additions, hkeyFile]
  exact bind_eq_error.mpr (Or.inr ⟨keyFile, rfl, bind_eq_error.mpr (Or.inl hregistry)⟩)

theorem prepare_nameError (hr : review loads h i = .ok r) :
    prepare loads h i = .error (.nameError "registry_url") := by
  have hkey : PyDict.get? globals "UDP_KEY_FILE" = some "/run/secrets/udp-search-owner.key" := by decide
  have hmore : additions globals i r = .error (.nameError "registry_url") :=
    additions_unbound hkey (by decide)
  rw [prepare, prepareIn, bind_eq_error]
  exact Or.inr ⟨r, hr, bind_eq_error.mpr (Or.inl hmore)⟩

/-- Whether or not the checks pass, there is no candidate. -/
theorem prepare_ne_ok (result : Path × Host) : prepare loads h i ≠ .ok result := by
  intro hok
  have hsteps := hok
  rw [prepare, prepareIn, bind_eq_ok] at hsteps
  obtain ⟨r, hr, -⟩ := hsteps
  rw [prepare_nameError hr] at hok
  cases hok

theorem not_handsOver : ¬ HandsOver loads h i r := by
  intro hhands
  obtain ⟨target, h', hok, -⟩ := hhands
  exact prepare_ne_ok (target, h') hok

theorem prepare_hands_nothing_over (hr : review loads h i = .ok r) :
    prepare loads h i = .error (.nameError "registry_url") ∧
      caught (.nameError "registry_url") = false ∧ ¬ HandsOver loads h i r := by
  exact ⟨prepare_nameError hr, rfl, not_handsOver⟩

/-! ## A host on which every check passes -/

def containersText : List Char :=
  ["[\x7b\"Name\":\"/ouf-udp\",\"Id\":\"a1\",", "\"State\":\x7b\"Running\":true\x7d,",
    "\"Config\":\x7b\"User\":\"10004:10004\",", "\"Env\":[\"PORT=8080\"]\x7d,\"Mounts\":[]\x7d,",
    "\x7b\"Name\":\"/ouf-apisix\",\"Id\":\"b2\",", "\"State\":\x7b\"Running\":true\x7d,",
    "\"Config\":\x7b\"User\":\"apisix\",", "\"Env\":[\"LANG=C\"]\x7d,",
    "\"Mounts\":[\x7b\"Source\":\"/opt/config.yaml\",",
    "\"Destination\":", "\"/usr/local/apisix/conf/config.yaml\",", "\"RW\":false\x7d]\x7d]"].flatMap
    String.toList

def containersJson : Json :=
  .arr [
    .obj [("Name", .str "/ouf-udp"), ("Id", .str "a1"), ("State", .obj [("Running", .bool true)]),
      ("Config", .obj [("User", .str "10004:10004"), ("Env", .arr [.str "PORT=8080"])]),
      ("Mounts", .arr [])],
    .obj [("Name", .str "/ouf-apisix"), ("Id", .str "b2"), ("State", .obj [("Running", .bool true)]),
      ("Config", .obj [("User", .str "apisix"), ("Env", .arr [.str "LANG=C"])]),
      ("Mounts", .arr [.obj [("Source", .str "/opt/config.yaml"),
        ("Destination", .str "/usr/local/apisix/conf/config.yaml"), ("RW", .bool false)]])]]

def projectionText : List Char :=
  ["\x7b\"gateway\":\x7b\"issuerUrl\":\"https://id\",", "\"requiredAudience\":\"ouf\"\x7d,",
    "\"iam\":\x7b\"workloadClients\":", "\x7b\"mcpServer\":\"mcp\"\x7d\x7d\x7d"].flatMap String.toList

def projectionJson : Json :=
  .obj [("gateway", .obj [("issuerUrl", .str "https://id"), ("requiredAudience", .str "ouf")]),
    ("iam", .obj [("workloadClients", .obj [("mcpServer", .str "mcp")])])]

/-- `json.loads` on the two documents of this host: an array and an object. -/
def loadsHost : List Char → Option Json
  | '[' :: _ => some containersJson
  | _ => some projectionJson

def configText : List Char := "nginx_config:\n  envs:\n".toList ++ marker

def text (uid gid mode : Nat) (s : List Char) : Node := ⟨uid, gid, mode, s.length, .file (some s)⟩

def reviewedHost : Host :=
  ⟨[(["opt"], ⟨0, 0, 0o755, 4096, .directory⟩),
    (["opt", "r4a"], ⟨0, 0, 0o700, 4096, .directory⟩),
    (["opt", "r4a", "snapshot.json"], text 0 0 0o600 containersText),
    (["opt", "config.yaml"], text 0 0 0o644 configText),
    (["opt", "projection.json"], text 0 0 0o644 projectionText),
    (["run"], ⟨0, 0, 0o755, 4096, .directory⟩),
    (["run", "ouf-udp-auth"], ⟨0, 10004, 0o750, 4096, .directory⟩),
    (["run", "ouf-udp-auth", "token"], text 0 10004 0o440 "token".toList)]⟩

def reviewedInput : Input :=
  ⟨["opt", "r4a", "snapshot.json"], ["opt", "config.yaml"], ["opt", "projection.json"], "acme",
    some containersText, String.ofList (List.replicate 64 'a'), "x1"⟩

def reviewed : Reviewed :=
  ⟨["opt", "r4a", "snapshot.json"], ["opt", "config.yaml"], [("LANG", "C")], [("PORT", "8080")],
    "https://id", "ouf", "mcp", configText ++ added⟩

theorem review_reviewedHost : review loadsHost reviewedHost reviewedInput = .ok reviewed := by
  decide +kernel

theorem reviewedHost_hands_nothing_over :
    prepare loadsHost reviewedHost reviewedInput = .error (.nameError "registry_url") ∧
      caught (.nameError "registry_url") = false ∧
      ¬ HandsOver loadsHost reviewedHost reviewedInput reviewed :=
  prepare_hands_nothing_over review_reviewedHost

/-- The checks pass, and no candidate comes back. -/
theorem reviewedHost_raises : ∃ loads h i r, review loads h i = .ok r ∧ ¬ HandsOver loads h i r := by
  exact ⟨loadsHost, reviewedHost, reviewedInput, reviewed, review_reviewedHost, not_handsOver⟩

end OufGateway.PrepareRuntime
