import ShareFrame.Auth.FrameIdentity
import ShareFrame.Display.StoredSettings
import ShareFrame.Lib.Paths

/-!
# The configuration

`ConfigLoader::load` reads the file of the board, lays the file of the profile over it,
adds the secrets, and takes relative paths from the base directory before it checks the
whole. How TOML is read stays open. A process that starts has a configuration that
passes each check, whatever its files say (`bootstrap_checked`); where it does not start
for a check, all that failed are listed (`load_reports`). Paths are resolved to places
below the base directory as far as they say so (`resolvePaths_resolved`).
-/

namespace ShareFrame.ConfigLoader

open Paths (Absolute Marks)

/-! ## Profiles -/

inductive Profile where
  | dev
  | prod
  | prodLocal
  deriving DecidableEq, Repr

def profileName : Profile → String
  | .dev => "dev"
  | .prod => "prod"
  | .prodLocal => "prod.local"

def parseProfile (s : String) : Except String Profile :=
  if s = "dev" then .ok .dev
  else if s = "prod" then .ok .prod
  else if s = "prod.local" then .ok .prodLocal
  else .error ("Unknown profile '" ++ s ++ "'. Valid values: dev, prod, prod.local")

theorem parseProfile_profileName (p : Profile) : parseProfile (profileName p) = .ok p := by
  cases p <;> rfl

/-! ## The fields

Those that the loader reads or writes. -/

structure SecretsConfig where
  ed25519PrivateKey : String := ""
  dashboardInitialPassword : String := ""
  deriving DecidableEq, Repr

structure LogConfig where
  logPath : String := "logs"
  deriving DecidableEq, Repr

structure DatabaseConfig where
  databasePath : String := "db"
  databaseName : String := "shareframe.db"
  migrationsPath : String := "migrations"
  deriving DecidableEq, Repr

structure WebsocketConfig where
  wsPath : String := "ws/frames/"
  deriving DecidableEq, Repr

structure ImageConfig where
  imageSavePath : String := "images"
  deriving DecidableEq, Repr

structure DisplayConfig where
  intervalSecs : Int := 900
  minRefreshSecs : Int := 120
  loadingImagePath : String := "assets/image/loading"
  defaultImagesPath : String := "assets/image/default"
  clearTargetHour : Int := 2
  nightModeEnabled : Bool := true
  nightStartHour : Int := 1
  nightEndHour : Int := 6
  nightIntervalSecs : Int := 3600
  nightStyle : String := "hold"
  wifiModePath : String := "/run/shareframe/wifi-mode.json"
  apSetupBootWindowSecs : Int := 600
  setupFontPath : String := "assets/font/DejaVuSans.ttf"
  boldFontPath : String := "assets/font/DejaVuSans-Bold.ttf"
  deriving DecidableEq, Repr

structure DashboardApplicationConfig where
  port : Int := 8080
  deriving DecidableEq, Repr

structure IpcConfig where
  wsRep : String := "ipc:///tmp/shareframe-ws.rep.sock"
  wsPub : String := "ipc:///tmp/shareframe-ws.pub.sock"
  displayRep : String := "ipc:///tmp/shareframe-display.rep.sock"
  dashboardRep : String := "ipc:///tmp/shareframe-dashboard.rep.sock"
  heartbeatRep : String := "ipc:///tmp/shareframe-heartbeat.rep.sock"
  updateRep : String := "ipc:///tmp/shareframe-update.rep.sock"
  deriving DecidableEq, Repr

structure HeartbeatConfig where
  intervalSecs : Int := 60
  eventCursorPath : String := "event-cursor"
  backendOkPath : String := "/run/shareframe/backend-ok"
  deriving DecidableEq, Repr

structure DiagnosticsConfig where
  pendingPath : String := "pre-reboot-diag.gz"
  deriving DecidableEq, Repr

structure ExpiryCleanupConfig where
  intervalSecs : Int := 900
  deriving DecidableEq, Repr

structure AppConfig where
  baseDir : String := ""
  version : String := ""
  baseUrl : String := ""
  frameId : String := ""
  secrets : SecretsConfig := {}
  log : LogConfig := {}
  database : DatabaseConfig := {}
  websocket : WebsocketConfig := {}
  image : ImageConfig := {}
  display : DisplayConfig := {}
  dashboardApplication : DashboardApplicationConfig := {}
  heartbeat : HeartbeatConfig := {}
  diagnostics : DiagnosticsConfig := {}
  expiryCleanup : ExpiryCleanupConfig := {}
  ipc : IpcConfig := {}
  deriving DecidableEq, Repr

/-! ## Paths -/

def marks : Marks Char := ⟨'/', '.', by decide⟩

def resolveField (field : String) (base : List Char) : String :=
  if ¬Absolute marks field.toList then
    .ofList (Paths.lexicallyNormal marks (Paths.slash marks base field.toList))
  else field

/-- The base directory in its normal form. -/
def AppConfig.base (cfg : AppConfig) : List Char := Paths.lexicallyNormal marks cfg.baseDir.toList

def resolvePaths (cfg : AppConfig) : AppConfig :=
  { cfg with
    log := { cfg.log with logPath := resolveField cfg.log.logPath cfg.base }
    database := { cfg.database with
      databasePath := resolveField cfg.database.databasePath cfg.base
      migrationsPath := resolveField cfg.database.migrationsPath cfg.base }
    image := { cfg.image with imageSavePath := resolveField cfg.image.imageSavePath cfg.base }
    display := { cfg.display with
      loadingImagePath := resolveField cfg.display.loadingImagePath cfg.base
      defaultImagesPath := resolveField cfg.display.defaultImagesPath cfg.base
      wifiModePath := resolveField cfg.display.wifiModePath cfg.base
      setupFontPath := resolveField cfg.display.setupFontPath cfg.base
      boldFontPath := resolveField cfg.display.boldFontPath cfg.base }
    heartbeat := { cfg.heartbeat with
      eventCursorPath := resolveField cfg.heartbeat.eventCursorPath cfg.base
      backendOkPath := resolveField cfg.heartbeat.backendOkPath cfg.base }
    diagnostics := { cfg.diagnostics with pendingPath := resolveField cfg.diagnostics.pendingPath cfg.base } }

/-! ## The checks -/

/-- What `req` is called with, in order. -/
def checks (cfg : AppConfig) : List (Bool × String) := [
  (cfg.baseUrl ≠ "", "base_url is empty (set it in the profile config)"),
  (cfg.database.databasePath ≠ "", "database.database_path is empty"),
  (cfg.database.databaseName ≠ "", "database.database_name is empty"),
  (cfg.log.logPath ≠ "", "log.log_path is empty"),
  (cfg.image.imageSavePath ≠ "", "image.image_save_path is empty"),
  (cfg.websocket.wsPath ≠ "", "websocket.ws_path is empty"),
  (cfg.heartbeat.intervalSecs > 0, "heartbeat.interval_secs must be > 0"),
  (cfg.expiryCleanup.intervalSecs > 0, "expiry_cleanup.interval_secs must be > 0"),
  (cfg.display.intervalSecs > 0, "display.interval_secs must be > 0"),
  (cfg.display.minRefreshSecs > 0, "display.min_refresh_secs must be > 0"),
  (cfg.display.clearTargetHour ≥ 0 ∧ cfg.display.clearTargetHour ≤ 23,
    "display.clear_target_hour must be in 0..23"),
  (cfg.display.nightStartHour ≥ 0 ∧ cfg.display.nightStartHour ≤ 23,
    "display.night_start_hour must be in 0..23"),
  (cfg.display.nightEndHour ≥ 0 ∧ cfg.display.nightEndHour ≤ 23,
    "display.night_end_hour must be in 0..23"),
  (cfg.display.nightStartHour ≠ cfg.display.nightEndHour,
    "display.night_start_hour and display.night_end_hour must differ"),
  (cfg.display.nightIntervalSecs > 0, "display.night_interval_secs must be > 0"),
  ((nightStyleFromString cfg.display.nightStyle).isSome,
    "display.night_style must be one of slower, hold, pause"),
  (cfg.display.apSetupBootWindowSecs ≥ 0, "display.ap_setup_boot_window_secs must be >= 0"),
  (cfg.dashboardApplication.port > 0 ∧ cfg.dashboardApplication.port ≤ 65535,
    "dashboard_application.port must be in 1..65535"),
  (cfg.ipc.wsRep ≠ "", "ipc.ws_rep is empty"),
  (cfg.ipc.wsPub ≠ "", "ipc.ws_pub is empty"),
  (cfg.ipc.displayRep ≠ "", "ipc.display_rep is empty"),
  (cfg.ipc.dashboardRep ≠ "", "ipc.dashboard_rep is empty"),
  (cfg.ipc.heartbeatRep ≠ "", "ipc.heartbeat_rep is empty")]

def errs (cfg : AppConfig) : List String := ((checks cfg).filter (!·.1)).map (·.2)

/-- The text of the exception. -/
def joined (errs : List String) : String :=
  errs.foldl (fun joined e => joined ++ ("\n  - " ++ e)) "Invalid configuration:"

def validate (cfg : AppConfig) : Except String Unit :=
  if errs cfg ≠ [] then .error (joined (errs cfg)) else .ok ()

/-! ## Loading -/

/-- What can be read from a path, and what is there. -/
structure Files where
  content : String → Option String
  exists_ : String → Bool

section Loading

variable {Key : Type} (files : Files) (crypto : FrameIdentity.Crypto Key)

-- what glaze makes of a text over the value at hand, or the text of its error
variable (readConfig : AppConfig → String → Except String AppConfig)
  (readSecrets : SecretsConfig → String → Except String SecretsConfig)

/-- `readTomlFile`, and what becomes of its error. -/
def readTomlFile {α : Type} (read : α → String → Except String α) (what : String) (val : α)
    (path : String) : Except String α :=
  match files.content path with
  | none => .error ("Cannot open config file: " ++ path)
  | some buf => (read val buf).mapError fun error => "Failed to load " ++ what ++ " '" ++ path ++ "': " ++ error

def resolveFile (env : String → Option String) (envVar first : String) (candidates : List String) : String :=
  match env envVar with
  | some override => if override ≠ "" then override else candidate
  | none => candidate
where
  candidate : String := ((first :: candidates).find? files.exists_).getD first

def readVersion (releaseFilePath : String) : String :=
  match files.content releaseFilePath with
  | none => "dev"
  | some content =>
    match (content.toList.splitOn '\n').find? fun line => "VERSION=".toList <+: line ∧ line.length > 8 with
    | some line => .ofList (line.drop 8)
    | none => "dev"

def profileFile (profile : Profile) (configFilePath : String) : String :=
  let basePath := configFilePath.toList
  .ofList (Paths.slash marks (Paths.parentPath marks basePath)
    (Paths.stem marks basePath ++ ("." ++ profileName profile ++ ".toml").toList))

/-- The file of the profile over the one of the board. -/
def overlay (profileFile : String) (cfg : AppConfig) : Except String AppConfig :=
  if files.exists_ profileFile then readTomlFile files readConfig "profile config" cfg profileFile else .ok cfg

def frameIdOf (secrets : SecretsConfig) (frameId : String) : Except String String :=
  if secrets.ed25519PrivateKey ≠ "" then
    (FrameIdentity.fingerprint crypto secrets.ed25519PrivateKey).map String.ofList
  else .ok frameId

/-- The files together, before the paths are resolved. -/
def merged (profile : Profile) (configFilePath secretsFilePath releaseFilePath : String) :
    Except String AppConfig := do
  let cfg ← readTomlFile files readConfig "config" {} configFilePath
  let cfg ← overlay files readConfig (profileFile profile configFilePath) cfg
  let secrets ← readTomlFile files readSecrets "secrets" {} secretsFilePath
  let frameId ← frameIdOf crypto secrets cfg.frameId
  pure { cfg with secrets, frameId, version := readVersion files releaseFilePath }

def load (profile : Profile) (configFilePath secretsFilePath releaseFilePath : String) :
    Except String AppConfig := do
  let cfg ← merged files crypto readConfig readSecrets profile configFilePath secretsFilePath releaseFilePath
  validate (resolvePaths cfg)
  pure (resolvePaths cfg)

/-- `load` of a profile alone. -/
def loadProfile (env : String → Option String) (profile : Profile) : Except String AppConfig :=
  load files crypto readConfig readSecrets profile
    (resolveFile files env "SHAREFRAME_CONFIG_FILE" "/etc/shareframe/config.toml" ["config.toml"])
    (resolveFile files env "SHAREFRAME_SECRETS_FILE" "/data/shareframe/.env.secrets.toml"
      ["/etc/shareframe/.env.secrets.toml", ".env.secrets.toml"])
    (resolveFile files env "SHAREFRAME_RELEASE_FILE" "/etc/shareframe-release" [])

/-- The value behind the first `--profile` among these arguments. -/
def profileArg : List String → Option String
  | arg :: value :: args => if arg = "--profile" then some value else profileArg (value :: args)
  | _ => none

/-- `bootstrap`, where an error ends the process. -/
def bootstrap (env : String → Option String) (argv : List String) : Except String (AppConfig × Profile) := do
  let profileStr := (profileArg (argv.drop 1)).getD ((env "SHAREFRAME_PROFILE").getD "dev")
  let profile ← parseProfile profileStr
  let cfg ← loadProfile files crypto readConfig readSecrets env profile
  pure (cfg, profile)

end Loading

/-! ## What a checked configuration is -/

structure Valid (cfg : AppConfig) : Prop where
  baseUrl : cfg.baseUrl ≠ ""
  databasePath : cfg.database.databasePath ≠ ""
  databaseName : cfg.database.databaseName ≠ ""
  logPath : cfg.log.logPath ≠ ""
  imageSavePath : cfg.image.imageSavePath ≠ ""
  wsPath : cfg.websocket.wsPath ≠ ""
  heartbeatSecs : 0 < cfg.heartbeat.intervalSecs
  expiryCleanupSecs : 0 < cfg.expiryCleanup.intervalSecs
  displaySecs : 0 < cfg.display.intervalSecs
  minRefreshSecs : 0 < cfg.display.minRefreshSecs
  clearTargetHour : Night.HourOk cfg.display.clearTargetHour
  nightStartHour : Night.HourOk cfg.display.nightStartHour
  nightEndHour : Night.HourOk cfg.display.nightEndHour
  hoursDiffer : cfg.display.nightStartHour ≠ cfg.display.nightEndHour
  nightIntervalSecs : 0 < cfg.display.nightIntervalSecs
  nightStyle : (nightStyleFromString cfg.display.nightStyle).isSome
  apSetupBootWindowSecs : 0 ≤ cfg.display.apSetupBootWindowSecs
  port : 0 < cfg.dashboardApplication.port ∧ cfg.dashboardApplication.port ≤ 65535
  wsRep : cfg.ipc.wsRep ≠ ""
  wsPub : cfg.ipc.wsPub ≠ ""
  displayRep : cfg.ipc.displayRep ≠ ""
  dashboardRep : cfg.ipc.dashboardRep ≠ ""
  heartbeatRep : cfg.ipc.heartbeatRep ≠ ""

variable {cfg : AppConfig}

theorem errs_eq_nil : errs cfg = [] ↔ ∀ check ∈ checks cfg, check.1 = true := by
  rw [errs, List.map_eq_nil_iff, List.filter_eq_nil_iff]
  exact forall₂_congr fun check _ => by simp

theorem valid_iff : Valid cfg ↔ errs cfg = [] := by
  rw [errs_eq_nil]
  simp only [checks, List.forall_mem_cons, decide_eq_true_eq]
  constructor
  · intro h
    exact ⟨h.baseUrl, h.databasePath, h.databaseName, h.logPath, h.imageSavePath, h.wsPath, h.heartbeatSecs,
      h.expiryCleanupSecs, h.displaySecs, h.minRefreshSecs, h.clearTargetHour, h.nightStartHour, h.nightEndHour,
      h.hoursDiffer, h.nightIntervalSecs, h.nightStyle, h.apSetupBootWindowSecs, h.port, h.wsRep, h.wsPub,
      h.displayRep, h.dashboardRep, h.heartbeatRep, List.forall_mem_nil _⟩
  · rintro ⟨h₁, h₂, h₃, h₄, h₅, h₆, h₇, h₈, h₉, h₁₀, h₁₁, h₁₂, h₁₃, h₁₄, h₁₅, h₁₆, h₁₇, h₁₈, h₁₉, h₂₀, h₂₁, h₂₂,
      h₂₃, -⟩
    exact ⟨h₁, h₂, h₃, h₄, h₅, h₆, h₇, h₈, h₉, h₁₀, h₁₁, h₁₂, h₁₃, h₁₄, h₁₅, h₁₆, h₁₇, h₁₈, h₁₉, h₂₀, h₂₁, h₂₂, h₂₃⟩

theorem validate_ok : validate cfg = .ok () ↔ Valid cfg := by
  rw [valid_iff, validate]
  split
  · rename_i h
    exact iff_of_false nofun h
  · rename_i h
    exact iff_of_true rfl (not_not.mp h)

/-- Each check has a text of its own. -/
theorem checks_nodup : ((checks cfg).map (·.2)).Nodup := by
  have hnodup : ((checks {}).map (·.2)).Nodup := by decide +kernel
  exact hnodup

/-- The text of a check is listed if and only if the check failed. -/
theorem mem_errs {check : Bool × String} (h : check ∈ checks cfg) : check.2 ∈ errs cfg ↔ check.1 = false := by
  constructor
  · intro hmem
    obtain ⟨check', hmem', htext⟩ := List.mem_map.mp hmem
    obtain ⟨hin, hfailed⟩ := List.mem_filter.mp hmem'
    have hsame : check' = check := List.inj_on_of_nodup_map checks_nodup hin h htext
    rw [← hsame]
    simpa using hfailed
  · intro hfailed
    exact List.mem_map_of_mem (List.mem_filter.mpr ⟨h, by rw [hfailed]; rfl⟩)

/-! ## Resolved paths -/

/-- The path fields. -/
def paths (cfg : AppConfig) : List String := [
  cfg.log.logPath, cfg.database.databasePath, cfg.database.migrationsPath, cfg.image.imageSavePath,
  cfg.display.loadingImagePath, cfg.display.defaultImagesPath, cfg.display.wifiModePath,
  cfg.display.setupFontPath, cfg.display.boldFontPath, cfg.heartbeat.eventCursorPath,
  cfg.heartbeat.backendOkPath, cfg.diagnostics.pendingPath]

theorem paths_resolvePaths : paths (resolvePaths cfg) = (paths cfg).map (resolveField · cfg.base) := rfl

theorem toList_resolveField (field : String) (base : List Char) :
    (resolveField field base).toList = Paths.resolve marks base field.toList := by
  unfold resolveField Paths.resolve
  by_cases h : Absolute marks field.toList
  · rw [if_neg (not_not.mpr h), if_pos h]
  · rw [if_pos h, if_neg h, String.toList_ofList]

theorem resolveField_eq_empty {field : String} {base : List Char} :
    resolveField field base = "" ↔ base = [] ∧ field = "" := by
  rw [← String.toList_inj, toList_resolveField]
  exact Paths.resolve_eq_nil.trans (and_congr_right fun _ => String.toList_eq_nil_iff)

theorem absolute_base : Absolute marks cfg.base ↔ Absolute marks cfg.baseDir.toList := Paths.absolute_normal

/-- What becomes of a path field. -/
structure Resolved (base : List Char) (field field' : String) : Prop where
  absolute : Absolute marks field'.toList
  kept : Absolute marks field.toList → field' = field
  names : ¬Absolute marks field.toList → ∀ name ∈ Paths.components marks field'.toList, Paths.Name marks name
  below : ¬Absolute marks field.toList → marks.up ∉ Paths.place marks field.toList →
    Paths.components marks field'.toList =
      (Paths.place marks base).reverse ++ (Paths.place marks field.toList).reverse

theorem resolved_resolveField {field : String} {base : List Char} (h : Absolute marks base) :
    Resolved base field (resolveField field base) where
  absolute := by
    rw [toList_resolveField]
    exact Paths.absolute_resolve h
  kept habs := by
    rw [resolveField, if_neg (not_not.mpr habs)]
  names habs := by
    rw [toList_resolveField]
    exact Paths.names_resolve habs h
  below habs hup := by
    rw [toList_resolveField]
    exact Paths.resolve_below habs h hup

theorem resolved_paths (h : Absolute marks cfg.baseDir.toList) :
    List.Forall₂ (Resolved cfg.base) (paths cfg) (paths (resolvePaths cfg)) := by
  rw [paths_resolvePaths, List.forall₂_map_right_iff, List.forall₂_same]
  exact fun field _ => resolved_resolveField (absolute_base.mpr h)

/-- The path fields, each mapped. -/
def mapPaths (f : String → String) (cfg : AppConfig) : AppConfig :=
  { cfg with
    log := { cfg.log with logPath := f cfg.log.logPath }
    database := { cfg.database with
      databasePath := f cfg.database.databasePath
      migrationsPath := f cfg.database.migrationsPath }
    image := { cfg.image with imageSavePath := f cfg.image.imageSavePath }
    display := { cfg.display with
      loadingImagePath := f cfg.display.loadingImagePath
      defaultImagesPath := f cfg.display.defaultImagesPath
      wifiModePath := f cfg.display.wifiModePath
      setupFontPath := f cfg.display.setupFontPath
      boldFontPath := f cfg.display.boldFontPath }
    heartbeat := { cfg.heartbeat with
      eventCursorPath := f cfg.heartbeat.eventCursorPath
      backendOkPath := f cfg.heartbeat.backendOkPath }
    diagnostics := { cfg.diagnostics with pendingPath := f cfg.diagnostics.pendingPath } }

theorem resolvePaths_idem (h : Absolute marks cfg.baseDir.toList) :
    resolvePaths (resolvePaths cfg) = resolvePaths cfg := by
  have hfix : (fun field => resolveField (resolveField field cfg.base) cfg.base) =
      (resolveField · cfg.base) := funext fun field => by
    rw [← String.toList_inj, toList_resolveField, toList_resolveField]
    exact Paths.resolve_resolve (absolute_base.mpr h) cfg.base
  exact congrArg (mapPaths · cfg) hfix

/-- From a base directory each path is resolved: absolute ones are kept, the others lead, by names
alone, to a place below the directory, unless they go back behind it; once more changes nothing. -/
theorem resolvePaths_resolved (cfg : AppConfig) (h : Absolute marks cfg.baseDir.toList) :
    List.Forall₂ (Resolved cfg.base) (paths cfg) (paths (resolvePaths cfg)) ∧
      Paths.place marks cfg.base = Paths.place marks cfg.baseDir.toList ∧
      resolvePaths (resolvePaths cfg) = resolvePaths cfg :=
  ⟨resolved_paths h, Paths.place_normal, resolvePaths_idem h⟩

theorem resolvePaths_resolved_base :
    let cfg : AppConfig := { baseDir := "/base", log := ⟨"./x/../logs"⟩ }
    (resolvePaths cfg).log.logPath = "/base/logs" ∧ resolvePaths (resolvePaths cfg) = resolvePaths cfg :=
  ⟨by decide +kernel, (resolvePaths_resolved { baseDir := "/base", log := ⟨"./x/../logs"⟩ } (by decide)).2.2⟩

/-! ## Every default passes -/

theorem Valid.resolvePaths (h : Valid cfg) : Valid (resolvePaths cfg) :=
  have hfield : ∀ {field : String} {base : List Char}, field ≠ "" → resolveField field base ≠ "" :=
    fun hfield hempty => hfield (resolveField_eq_empty.mp hempty).2
  { h with
    databasePath := hfield h.databasePath
    logPath := hfield h.logPath
    imageSavePath := hfield h.imageSavePath }

/-- It takes a server, and nothing else. -/
theorem valid_default {baseDir baseUrl : String} (h : baseUrl ≠ "") : Valid { baseDir, baseUrl } := by
  have hrest : ∀ check ∈ (checks {}).drop 1, check.1 = true := by decide +kernel
  rw [valid_iff, errs_eq_nil]
  exact List.forall_mem_cons.mpr ⟨decide_eq_true h, hrest⟩

/-! ## What is loaded -/

section Loaded

variable {Key : Type} {files : Files} {crypto : FrameIdentity.Crypto Key}
  {readConfig : AppConfig → String → Except String AppConfig}
  {readSecrets : SecretsConfig → String → Except String SecretsConfig} {profile : Profile}
  {configFilePath secretsFilePath releaseFilePath : String}

theorem bind_eq_ok {α β : Type} {x : Except String α} {f : α → Except String β} {b : β} :
    x >>= f = .ok b ↔ ∃ a, x = .ok a ∧ f a = .ok b := by
  cases x with
  | error e => exact iff_of_false nofun fun ⟨_, h, _⟩ => nomatch h
  | ok a => exact ⟨fun h => ⟨a, rfl, h⟩, fun ⟨_, h, hf⟩ => Except.ok.inj h ▸ hf⟩

theorem load_eq {cfg₀ : AppConfig} (h : merged files crypto readConfig readSecrets profile configFilePath
    secretsFilePath releaseFilePath = .ok cfg₀) :
    load files crypto readConfig readSecrets profile configFilePath secretsFilePath releaseFilePath =
      (validate (resolvePaths cfg₀)).map fun _ => resolvePaths cfg₀ := by
  rw [load, h]
  show (validate (resolvePaths cfg₀) >>= fun _ => pure (resolvePaths cfg₀)) = _
  cases validate (resolvePaths cfg₀) <;> rfl

/-- Where the files can be read, the configuration is loaded if it passes the checks, and else all
that failed are listed; that a directory is missing is found only where there is no base directory
either. -/
theorem load_reports {cfg₀ : AppConfig} (h : merged files crypto readConfig readSecrets profile configFilePath
    secretsFilePath releaseFilePath = .ok cfg₀) :
    (Valid (resolvePaths cfg₀) → load files crypto readConfig readSecrets profile configFilePath secretsFilePath
      releaseFilePath = .ok (resolvePaths cfg₀)) ∧
    (¬Valid (resolvePaths cfg₀) → ∃ errs ≠ [], load files crypto readConfig readSecrets profile configFilePath
        secretsFilePath releaseFilePath = .error (joined errs) ∧
      errs.Sublist ((checks (resolvePaths cfg₀)).map (·.2)) ∧
      ∀ check ∈ checks (resolvePaths cfg₀), check.2 ∈ errs ↔ check.1 = false) ∧
    ∀ field ∈ paths cfg₀, resolveField field cfg₀.base = "" ↔ cfg₀.baseDir = "" ∧ field = "" := by
  rw [load_eq h]
  refine ⟨fun hvalid => ?_, fun hnot => ?_, fun field _ => ?_⟩
  · rw [validate_ok.mpr hvalid]
    rfl
  · have hne : errs (resolvePaths cfg₀) ≠ [] := fun hnil => hnot (valid_iff.mpr hnil)
    refine ⟨errs (resolvePaths cfg₀), hne, ?_, List.Sublist.map _ List.filter_sublist, fun check => mem_errs⟩
    rw [validate, if_pos hne]
    rfl
  · rw [resolveField_eq_empty]
    refine and_congr_left fun _ => ?_
    rw [AppConfig.base, Paths.lexicallyNormal_eq_nil]
    exact String.toList_eq_nil_iff

/-- The fields that `RuntimeSettings` takes. -/
def DisplayConfig.settings (display : DisplayConfig) : StoredSettings.Config where
  intervalSecs := display.intervalSecs
  nightModeEnabled := display.nightModeEnabled
  nightStartHour := display.nightStartHour
  nightEndHour := display.nightEndHour
  nightIntervalSecs := display.nightIntervalSecs
  nightStyle := display.nightStyle

/-- The settings that a service starts with are in range, whatever rows the database holds. -/
def StartsWell (cfg : AppConfig) : Prop :=
  ∀ (parse : String → Option Json) (rows : StoredSettings.Rows),
    let settings := StoredSettings.restore cfg.display.settings parse rows
    (0 < (settings .displayInterval : Int) ∧ 0 < (settings .nightInterval : Int)) ∧
      Night.HourOk (settings .nightStartHour) ∧ Night.HourOk (settings .nightEndHour)

theorem Valid.startsWell (h : Valid cfg) : StartsWell cfg := by
  intro parse rows
  have hok := @StoredSettings.restore_ok cfg.display.settings parse rows
  exact ⟨⟨hok.1 h.displaySecs, hok.2.1 h.nightIntervalSecs⟩, hok.2.2.1 h.nightStartHour, hok.2.2.2 h.nightEndHour⟩

theorem readVersion_ne_empty : readVersion files releaseFilePath ≠ "" := by
  unfold readVersion
  split
  · decide
  split
  · rename_i line hline
    have hlong : line.length > 8 := by
      have hboth := List.find?_some hline
      exact (of_decide_eq_true hboth).2
    rw [← String.toList_inj.ne, String.toList_ofList]
    exact fun hnil => absurd (List.drop_eq_nil_iff.mp hnil) (Nat.not_le.mpr hlong)
  · decide

/-- What `merged` adds to the files. -/
theorem merged_ok {cfg₀ : AppConfig} (h : merged files crypto readConfig readSecrets profile configFilePath
    secretsFilePath releaseFilePath = .ok cfg₀) :
    cfg₀.version = readVersion files releaseFilePath ∧ (cfg₀.secrets.ed25519PrivateKey ≠ "" →
      ∃ id, FrameIdentity.fingerprint crypto cfg₀.secrets.ed25519PrivateKey = .ok id ∧
        cfg₀.frameId = String.ofList id) := by
  obtain ⟨base, -, h⟩ := bind_eq_ok.mp h
  obtain ⟨overlaid, -, h⟩ := bind_eq_ok.mp h
  obtain ⟨secrets, -, h⟩ := bind_eq_ok.mp h
  obtain ⟨frameId, hid, h⟩ := bind_eq_ok.mp h
  obtain rfl := Except.ok.inj h
  refine ⟨rfl, fun hkey => ?_⟩
  rw [frameIdOf, if_pos hkey] at hid
  cases hprint : FrameIdentity.fingerprint crypto secrets.ed25519PrivateKey with
  | error e => rw [hprint] at hid; cases hid
  | ok id =>
    rw [hprint] at hid
    exact ⟨id, rfl, (Except.ok.inj hid).symm⟩

theorem load_ok {cfg : AppConfig} (h : load files crypto readConfig readSecrets profile configFilePath
    secretsFilePath releaseFilePath = .ok cfg) :
    ∃ cfg₀, merged files crypto readConfig readSecrets profile configFilePath secretsFilePath releaseFilePath =
      .ok cfg₀ ∧ cfg = resolvePaths cfg₀ ∧ Valid cfg := by
  obtain ⟨cfg₀, hmerged, h⟩ := bind_eq_ok.mp h
  obtain ⟨_, hvalid, h⟩ := bind_eq_ok.mp h
  obtain rfl := Except.ok.inj h
  exact ⟨cfg₀, hmerged, rfl, validate_ok.mp hvalid⟩

/-- Whatever the files say, a process that starts has a configuration that passes each check, a
version, the identity of its key and, under a base directory, paths from the root; and its settings are in
range, whatever the database holds. -/
theorem bootstrap_checked {env : String → Option String} {argv : List String} {cfg : AppConfig}
    (h : bootstrap files crypto readConfig readSecrets env argv = .ok (cfg, profile)) :
    Valid cfg ∧ StartsWell cfg ∧ cfg.version ≠ "" ∧
    (cfg.secrets.ed25519PrivateKey ≠ "" → ∃ id,
      FrameIdentity.fingerprint crypto cfg.secrets.ed25519PrivateKey = .ok id ∧ cfg.frameId = String.ofList id) ∧
    (Absolute marks cfg.baseDir.toList → resolvePaths cfg = cfg ∧ ∀ field ∈ paths cfg, Absolute marks field.toList) := by
  have hload : ∃ p, loadProfile files crypto readConfig readSecrets env p = .ok cfg := by
    obtain ⟨p, -, h⟩ := bind_eq_ok.mp h
    obtain ⟨cfg', hload, h⟩ := bind_eq_ok.mp h
    cases h
    exact ⟨profile, hload⟩
  obtain ⟨p, hload⟩ := hload
  obtain ⟨cfg₀, hmerged, rfl, hvalid⟩ := load_ok hload
  obtain ⟨hversion, hid⟩ := merged_ok hmerged
  refine ⟨hvalid, hvalid.startsWell, ?_, hid, fun habs => ?_⟩
  · show cfg₀.version ≠ ""
    rw [hversion]
    exact readVersion_ne_empty
  · refine ⟨resolvePaths_idem habs, fun field hfield => ?_⟩
    rw [paths_resolvePaths] at hfield
    obtain ⟨field, -, rfl⟩ := List.mem_map.mp hfield
    exact (resolved_resolveField (absolute_base.mpr habs)).absolute

/-! ## A board -/

/-- A text names the server and the night. -/
def readBoard (cfg : AppConfig) (text : String) : Except String AppConfig :=
  if text = "server" then .ok { cfg with baseDir := "/base", baseUrl := "example.org" }
  else if text = "no night" then .ok { cfg with display := { cfg.display with nightStartHour := 4, nightEndHour := 4 } }
  else .error "expected a key"

def boardFiles (profileText : String) : Files where
  content path :=
    if path = "config.toml" then some "server"
    else if path = "config.prod.toml" then some profileText
    else if path = ".env.secrets.toml" then some ""
    else if path = "/etc/shareframe-release" then some "OS_SHA=abc1234\nVERSION=1.4.2\n"
    else none
  exists_ path := path ∈ ["config.toml", "config.prod.toml", ".env.secrets.toml", "/etc/shareframe-release"]

def noCrypto : FrameIdentity.Crypto Unit where
  decode _ := .error "no key"
  newRawPrivateKey _ := none
  getRawPublicKey _ := none
  newContext := false
  digest _ := none

def boot (profileText : String) (argv : List String) : Except String (AppConfig × Profile) :=
  bootstrap (boardFiles profileText) noCrypto readBoard (fun secrets _ => .ok secrets) (fun _ => none) argv

theorem bootstrap_checked_board : ∃ cfg p, boot "server" ["shareframe", "--profile", "prod"] = .ok (cfg, p) ∧
    Valid cfg ∧ StartsWell cfg := by
  have hok : (boot "server" ["shareframe", "--profile", "prod"]).isOk = true := by decide +kernel
  cases hboot : boot "server" ["shareframe", "--profile", "prod"] with
  | error e => rw [hboot] at hok; cases hok
  | ok started =>
    have hchecked := bootstrap_checked hboot
    exact ⟨started.1, started.2, rfl, hchecked.1, hchecked.2.1⟩

/-- The hours of this profile do not differ. -/
def noNight : AppConfig where
  baseDir := "/base"
  version := "1.4.2"
  baseUrl := "example.org"
  display := { nightStartHour := 4, nightEndHour := 4 }

theorem load_reports_board : ∃ errs ≠ [], load (boardFiles "no night") noCrypto readBoard
      (fun secrets _ => .ok secrets) .prod "config.toml" ".env.secrets.toml" "/etc/shareframe-release" =
        .error (joined errs) ∧
    "display.night_start_hour and display.night_end_hour must differ" ∈ errs := by
  have hmerged : merged (boardFiles "no night") noCrypto readBoard (fun secrets _ => .ok secrets) .prod
      "config.toml" ".env.secrets.toml" "/etc/shareframe-release" = .ok noNight := by decide +kernel
  obtain ⟨errs, hne, hload, -, hlisted⟩ := (load_reports hmerged).2.1 fun hvalid => hvalid.hoursDiffer rfl
  refine ⟨errs, hne, hload, (hlisted (false, _) ?_).mpr rfl⟩
  decide +kernel

end Loaded

end ShareFrame.ConfigLoader
