import OpenLambda.Foundation.Paths

namespace OpenLambda.Common
open Foundation.Paths

-- int has 64 bits; its operators wrap around.
structure LimitsConfig where
  procs : Int64
  memMb : Int64
  cpuPercent : Int64
  swappiness : Int64
  runtimeSec : Int64
  deriving DecidableEq, Repr

def LimitsConfig.zero : LimitsConfig := ⟨0,0,0,0,0⟩

def orDefault [DecidableEq ι] [OfNat ι 0] (value default : ι) : ι := if value = 0 then default else value

def withDefaults (lc default : Option LimitsConfig) : LimitsConfig :=
  let out := lc.getD .zero
  match default with
  | none => out
  | some d => ⟨orDefault out.procs d.procs,orDefault out.memMb d.memMb,orDefault out.cpuPercent d.cpuPercent,
      orDefault out.swappiness d.swappiness,orDefault out.runtimeSec d.runtimeSec⟩

structure KafkaConfig where
  cacheEnabled : Bool
  cacheSize : Int64
  deriving DecidableEq, Repr

inductive TreeSetting where
  | omitted
  | text (path : String)
  | tree (json : String)
  deriving DecidableEq, Repr

structure Config where
  workerDir : String
  sandbox : String
  pkgsDir : String
  memPoolMb : Int64
  importCacheTree : TreeSetting
  sockBasePath : String
  limits : LimitsConfig
  installerLimits : LimitsConfig
  importCache : String
  kafka : KafkaConfig
  deriving DecidableEq, Repr

def filepathJoin (dir name : String) : String := String.ofList (below dir.toList name.toList)

def filepathDir (path : String) : String := String.ofList (above path.toList)

def isAbs (path : String) : Bool := rooted path.toList

def maxInt (x y : Int64) : Int64 := if x > y then x else y

-- What is not in the repository: the file system, the JSON decoder, which leaves
-- the fields that a file omits at their zero values, and Totalram and Unit of
-- sysinfo.
structure Host (β : Type) where
  readFile : String → Except String β
  unmarshal : β → Except String Config
  getwd : Except String String
  stat : String → Bool
  sysinfo : Except String (UInt64 × UInt64)

def readInConfig (host : Host β) (path : String) : Except String Config :=
  match host.readFile path with
  | .error err => .error ("could not open config (" ++ path ++ "): " ++ err)
  | .ok configRaw => match host.unmarshal configRaw with
      | .error err => .error ("could not parse config (" ++ path ++ "): " ++ err)
      | .ok config => .ok config

def checkConf (cfg : Config) : Option String :=
  if !isAbs cfg.workerDir then some "Worker_dir cannot be relative"
  else if cfg.sandbox = "sock" then
    let minMem := 2 * maxInt cfg.installerLimits.memMb cfg.limits.memMb
    if cfg.sockBasePath = "" then some "must specify sock_base_path"
    else if !isAbs cfg.sockBasePath then some "sock_base_path cannot be relative"
    else if minMem > cfg.memPoolMb then
      some ("memPoolMb must be at least " ++ toString minMem ++ " (current=" ++ toString cfg.memPoolMb ++
        ", user_mem_mb=" ++ toString cfg.limits.memMb ++ ", installer_mem_mb=" ++ toString cfg.installerLimits.memMb ++ ")")
    else none
  else if cfg.sandbox = "docker" then
    if cfg.pkgsDir = "" then some "must specify packages directory"
    else if !isAbs cfg.pkgsDir then some "Pkgs_dir cannot be relative"
    else if cfg.importCache ≠ "" then some "features.import_cache must be disabled for docker Sandbox"
    else none
  else some ("Unknown Sandbox type '" ++ cfg.sandbox ++ "'")

def accept (cfg : Config) : Except String Config :=
  match checkConf cfg with
  | some err => .error err
  | none => .ok cfg

def loadGlobalConfig (host : Host β) (path : String) : Except String Config :=
  match readInConfig host path with
  | .error err => .error err
  | .ok cfg => accept cfg

def userLimits : LimitsConfig := ⟨10,50,100,0,30⟩

def installerLimits : LimitsConfig := ⟨0,250,0,0,300⟩

def inOl (olPath name : String) : String := if olPath ≠ "" then filepathJoin olPath name else ""

def defaultMemPoolMb (totalram unit : UInt64) : Int64 := maxInt (totalram * unit / 1024 / 1024 - 500).toInt64 500

def getDefaultConfigForPatching (host : Host β) (olPath : String) : Except String Config :=
  match host.sysinfo with
  | .error err => .error err
  | .ok (totalram,unit) => .ok {
      workerDir := inOl olPath "worker"
      sandbox := "sock"
      pkgsDir := if olPath ≠ "" then filepathJoin (inOl olPath "lambda") "packages" else ""
      memPoolMb := defaultMemPoolMb totalram unit
      importCacheTree := .text (inOl olPath "default-zygotes-40.json")
      sockBasePath := inOl olPath "lambda"
      limits := userLimits
      installerLimits := installerLimits
      importCache := "tree"
      kafka := ⟨true,1024⟩}

def templateConfig (host : Host β) : Option Config :=
  match host.getwd with
  | .error _ => none
  | .ok currPath =>
      let here := filepathJoin currPath "template.json"
      let templatePath := if host.stat here then here else filepathJoin (filepathDir currPath) "template.json"
      if host.stat templatePath then (readInConfig host templatePath).toOption else none

-- Limits are inherited only by a template that has none of them.
def patch (cfg defaultCfg : Config) : Config :=
  {cfg with
    workerDir := if cfg.workerDir = "" then defaultCfg.workerDir else cfg.workerDir
    pkgsDir := if cfg.pkgsDir = "" then defaultCfg.pkgsDir else cfg.pkgsDir
    sockBasePath := if cfg.sockBasePath = "" then defaultCfg.sockBasePath else cfg.sockBasePath
    importCacheTree := if cfg.importCacheTree = .text "" then defaultCfg.importCacheTree else cfg.importCacheTree
    memPoolMb := if cfg.memPoolMb = 0 then defaultCfg.memPoolMb else cfg.memPoolMb
    limits := if cfg.limits = .zero then defaultCfg.limits else cfg.limits
    installerLimits := if cfg.installerLimits = .zero then defaultCfg.installerLimits else cfg.installerLimits}

def getDefaultWorkerConfig (host : Host β) (olPath : String) : Except String Config :=
  match templateConfig host with
  | none => getDefaultConfigForPatching host olPath
  | some cfg => match getDefaultConfigForPatching host olPath with
      | .error err => .error ("failed to get defaults for patching: " ++ err)
      | .ok defaultCfg => .ok (patch cfg defaultCfg)

def loadDefaults (host : Host β) (olPath : String) : Except String Config :=
  match getDefaultWorkerConfig host olPath with
  | .error err => .error err
  | .ok cfg => accept cfg

inductive Loaded (host : Host β) : Config → Prop where
  | file : loadGlobalConfig host path = .ok cfg → Loaded host cfg
  | defaults : loadDefaults host olPath = .ok cfg → Loaded host cfg

theorem accept_parts (accepted : accept cfg = .ok result) : result = cfg ∧ checkConf cfg = none := by
  unfold accept at accepted
  cases checked : checkConf cfg with
  | none =>
      rw [checked] at accepted
      cases accepted
      exact ⟨rfl,rfl⟩
  | some err =>
      rw [checked] at accepted
      cases accepted

theorem loaded_checked {host : Host β} (loaded : Loaded host cfg) : checkConf cfg = none := by
  cases loaded with
  | file read =>
      unfold loadGlobalConfig at read
      split at read
      · cases read
      · obtain ⟨rfl,checked⟩ := accept_parts read
        exact checked
  | defaults made =>
      unfold loadDefaults at made
      split at made
      · cases made
      · obtain ⟨rfl,checked⟩ := accept_parts made
        exact checked

theorem checkConf_sock (checked : checkConf cfg = none) (sock : cfg.sandbox = "sock") :
    2 * maxInt cfg.installerLimits.memMb cfg.limits.memMb ≤ cfg.memPoolMb := by
  unfold checkConf at checked
  rw [if_pos sock] at checked
  dsimp only at checked
  split at checked
  · cases checked
  · split at checked
    · cases checked
    · split at checked
      · cases checked
      · split at checked
        · cases checked
        · rename_i enough
          exact Int64.not_lt.mp enough

def plainHost : Host Config where
  readFile := fun _ => .error "no such file"
  unmarshal := .ok
  getwd := .ok "/ol"
  stat := fun _ => false
  sysinfo := .ok (2147483648,1)

def plainConfig : Config where
  workerDir := "/ol/worker"
  sandbox := "sock"
  pkgsDir := "/ol/lambda/packages"
  memPoolMb := 1548
  importCacheTree := .text "/ol/default-zygotes-40.json"
  sockBasePath := "/ol/lambda"
  limits := userLimits
  installerLimits := installerLimits
  importCache := "tree"
  kafka := ⟨true,1024⟩

def fileHost (cfg : Config) : Host Config := {plainHost with readFile := fun _ => .ok cfg}

end OpenLambda.Common
