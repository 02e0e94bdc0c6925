import Mathlib.Data.List.Basic

namespace OpenLambda.Common

def lambdaConfigFilename : String := "ol.yaml"

def lambdaFileExtension : String := ".tar.gz"

structure HTTPTrigger where
  method : String
  deriving DecidableEq, Repr

structure CronTrigger where
  schedule : String
  deriving DecidableEq, Repr

structure KafkaTrigger where
  bootstrapServers : List String
  topics : List String
  groupId : String
  autoOffsetReset : String
  deriving DecidableEq, Repr

structure Triggers where
  http : List HTTPTrigger
  cron : List CronTrigger
  kafka : List KafkaTrigger
  deriving DecidableEq, Repr

-- `environment` is in the order in which a range over the map produces it.
structure LambdaConfig where
  triggers : Triggers
  environment : List (String × String)
  reuseSandbox : Bool
  deriving DecidableEq, Repr

def loadDefaultLambdaConfig : LambdaConfig := ⟨⟨[⟨"*"⟩],[],[]⟩,[],true⟩

def checkHTTP (trigger : HTTPTrigger) : Option String :=
  if trigger.method = "" then some "HTTP trigger method cannot be empty" else none

def checkCron (trigger : CronTrigger) : Option String :=
  if trigger.schedule = "" then some "Cron trigger schedule cannot be empty" else none

def checkKafka (trigger : KafkaTrigger) : Option String :=
  if trigger.topics = [] then some "Kafka trigger must have at least one topic"
  else if trigger.bootstrapServers = [] then some "Kafka trigger must specify at least one bootstrap server"
  else none

def checkEnvironment (pair : String × String) : Option String :=
  if pair.1 = "" then some "Environment variable key cannot be empty"
  else if '=' ∈ pair.1.toList then some ("Environment variable key '" ++ pair.1 ++ "' cannot contain '='")
  else none

def checkLambdaConfig (config : LambdaConfig) : Option String :=
  (config.triggers.http.findSome? checkHTTP).or ((config.triggers.cron.findSome? checkCron).or
    ((config.triggers.kafka.findSome? checkKafka).or (config.environment.findSome? checkEnvironment)))

-- The content of an uploaded file: what gzip says to it, the files of the archive
-- under their cleaned names with what the YAML decoder makes of them, and the
-- error that ends the archive instead of EOF.
structure TarEntry where
  name : String
  config : Except String LambdaConfig
  deriving DecidableEq

structure Tarball where
  gzip : Option String
  entries : List TarEntry
  broken : Option String
  deriving DecidableEq

def extractConfigFromTarGz (tar : Tarball) : Except String LambdaConfig :=
  match tar.gzip with
  | some err => .error ("invalid .gz file: " ++ err)
  | none =>
      match tar.entries.find? fun entry => entry.name = lambdaConfigFilename with
      | some entry =>
          match entry.config with
          | .error err => .error ("failed to parse " ++ lambdaConfigFilename ++ ": " ++ err)
          | .ok config =>
              match checkLambdaConfig config with
              | some err => .error err
              | none => .ok config
      | none =>
          match tar.broken with
          | some err => .error ("invalid tar: " ++ err)
          | none => .ok loadDefaultLambdaConfig

-- What is accepted has passed the check; the defaults do.
theorem extracted_checked (extracted : extractConfigFromTarGz tar = .ok config) : checkLambdaConfig config = none := by
  unfold extractConfigFromTarGz at extracted
  split at extracted
  · cases extracted
  · split at extracted
    · split at extracted
      · cases extracted
      · split at extracted
        · cases extracted
        · rename_i passed
          cases extracted
          exact passed
    · split at extracted
      · cases extracted
      · cases extracted
        decide

theorem extracted_kafka (extracted : extractConfigFromTarGz tar = .ok config) (member : trigger ∈ config.triggers.kafka) :
    trigger.topics ≠ [] ∧ trigger.bootstrapServers ≠ [] := by
  have passed := extracted_checked extracted
  simp only [checkLambdaConfig,Option.or_eq_none_iff,List.findSome?_eq_none_iff] at passed
  have kafka := passed.2.2.1 trigger member
  unfold checkKafka at kafka
  split at kafka
  · cases kafka
  · split at kafka
    · cases kafka
    · rename_i topics servers
      exact ⟨topics,servers⟩

def LambdaConfig.isHTTPMethodAllowed (config : LambdaConfig) (method : String) : Bool :=
  config.triggers.http.any fun trigger => trigger.method == "*" || trigger.method == method

def LambdaConfig.allowedHTTPMethods (config : LambdaConfig) : List String := config.triggers.http.map (·.method)

def handlerNameRegex : String := "^[A-Za-z0-9\\.\\-\\_]+$"

def matchesHandlerName (name : String) : Bool :=
  name ≠ "" && name.toList.all fun c => c.isAlphanum || c == '.' || c == '-' || c == '_'

-- `quote` is how fmt prints %q.
def validateFunctionName (quote : String → String) (name : String) : Option String :=
  if matchesHandlerName name then none
  else some ("invalid function name " ++ quote name ++ "; must match " ++ handlerNameRegex)

end OpenLambda.Common
