import OpenLambda.Boss.Triggers
import Mathlib.Logic.Function.Basic

namespace OpenLambda.Boss
open OpenLambda.Common Foundation.Maps

-- `lambdas` has the number of the LambdaEntry of a name, `config` the Config of an
-- entry, and `entries` counts them. `deletions` are the keys that the goroutines
-- started by removeFromRegistry have still to delete.
structure LambdaStore where
  bucket : AList fun _ : String => Tarball
  eventManager : Option Manager
  lambdas : AList fun _ : String => Nat
  config : Nat → Option LambdaConfig
  entries : Nat
  deletions : List String

structure LoadFaults where
  notFound : String
  newReader : Option String
  createTemp : Option String
  download : Option String
  openTemp : Option String

-- Those of the calls of an upload. A Close after a copy to the writer that failed
-- commits what was written, if anything.
structure UploadFaults where
  createTemp : Option String
  copyTemp : Option String
  closeTemp : Option String
  openTemp : Option String
  reopen : Option String
  newWriter : Option String
  copyBlob : Option (String × Option Tarball)
  closeWriter : Option String

structure StoreEnv where
  load : LoadFaults
  upload : UploadFaults
  triggers : TriggerEnv
  quote : String → String

def keyOf (funcName : String) : String := funcName ++ lambdaFileExtension

def failing (text : String) : Option String → Except String Unit
  | some err => .error (text ++ err)
  | none => .ok ()

def extract (text : String) (openTemp : Option String) (tar : Tarball) : Except String LambdaConfig :=
  match failing "failed to open lambda tarball: " openTemp with
  | .error err => .error (text ++ err)
  | .ok _ => match extractConfigFromTarGz tar with
      | .error err => .error (text ++ err)
      | .ok cfg => .ok cfg

def LambdaStore.getOrCreateEntry (s : LambdaStore) (funcName : String) : Nat × LambdaStore :=
  match s.lambdas.lookup funcName with
  | some entry => (entry,s)
  | none => (s.entries,{s with
      lambdas := s.lambdas.insert funcName s.entries
      config := Function.update s.config s.entries none
      entries := s.entries + 1})

def LambdaStore.setConfig (s : LambdaStore) (entry : Nat) (cfg : LambdaConfig) : LambdaStore :=
  {s with config := Function.update s.config entry (some cfg)}

def LambdaStore.registerTriggers (s : LambdaStore) (env : StoreEnv) (funcName : String) (cfg : LambdaConfig) :
    Option String × LambdaStore :=
  match s.eventManager with
  | none => (none,s)
  | some m =>
      let registered := m.register env.triggers funcName cfg.triggers
      (registered.1,{s with eventManager := some registered.2})

def LambdaStore.readConfig (s : LambdaStore) (env : StoreEnv) (funcName : String) : Except String LambdaConfig :=
  match s.bucket.lookup (keyOf funcName) with
  | none => .error ("failed to open blob reader: " ++ env.load.notFound)
  | some tar => do
      failing "failed to open blob reader: " env.load.newReader
      failing "failed to create temp file: " env.load.createTemp
      failing "failed to download blob: " env.load.download
      extract "failed to extract config.json: " env.load.openTemp tar

def LambdaStore.loadConfigAndRegister (s : LambdaStore) (env : StoreEnv) (funcName : String) : Option String × LambdaStore :=
  match s.readConfig env funcName with
  | .error err => (some err,s)
  | .ok cfg =>
      let created := s.getOrCreateEntry funcName
      (created.2.setConfig created.1 cfg).registerTriggers env funcName cfg

def UploadFaults.validate (f : UploadFaults) (body : Tarball) : Except String LambdaConfig := do
  failing "failed to create temp tarball: " f.createTemp
  failing "failed to write to temp tarball: " f.copyTemp
  failing "failed to close temp tarball: " f.closeTemp
  extract "failed to extract config from temp tarball: " f.openTemp body

def UploadFaults.openWriter (f : UploadFaults) : Except String Unit := do
  failing "failed to reopen temp file: " f.reopen
  failing "failed to create blob writer: " f.newWriter

def UploadFaults.write (f : UploadFaults) (body : Tarball) : Option String × Option Tarball :=
  match f.openWriter with
  | .error err => (some err,none)
  | .ok _ => match f.copyBlob with
      | some (err,written) => (some ("failed to upload to blob storage: " ++ err),written)
      | none => match f.closeWriter with
          | some err => (some ("failed to finalize blob upload: " ++ err),none)
          | none => (none,some body)

def LambdaStore.putBlob (s : LambdaStore) (funcName : String) : Option Tarball → LambdaStore
  | none => s
  | some tar => {s with bucket := s.bucket.insert (keyOf funcName) tar}

def LambdaStore.addToRegistry (s : LambdaStore) (env : StoreEnv) (funcName : String) (body : Tarball) :
    Option String × LambdaStore :=
  let created := s.getOrCreateEntry funcName
  match env.upload.validate body with
  | .error err => (some err,created.2)
  | .ok cfg =>
      let written := created.2.putBlob funcName (env.upload.write body).2
      match (env.upload.write body).1 with
      | some err => (some err,written)
      | none => (written.setConfig created.1 cfg).registerTriggers env funcName cfg

-- A failed Unregister is only logged.
def LambdaStore.removeEntry (s : LambdaStore) (env : StoreEnv) (funcName : String) : LambdaStore :=
  {s with
    eventManager := s.eventManager.map fun m => (m.unregister env.triggers funcName).2
    lambdas := s.lambdas.erase funcName
    deletions := s.deletions ++ [keyOf funcName]}

def LambdaStore.removeFromRegistry (s : LambdaStore) (env : StoreEnv) (funcName : String) : Option String × LambdaStore :=
  match s.lambdas.lookup funcName with
  | none => (some ("lambda " ++ funcName ++ " not found"),s)
  | some _ => (none,s.removeEntry env funcName)

def LambdaStore.deleteBlob (s : LambdaStore) (key : String) (failed : Bool) : LambdaStore :=
  {s with
    bucket := if failed then s.bucket else s.bucket.erase key
    deletions := s.deletions.erase key}

-- A config that is not cached and can be loaded is never returned: GetConfig holds
-- the lock of the entry that loadConfigAndRegister then locks.
def LambdaStore.getConfig (s : LambdaStore) (env : StoreEnv) (funcName : String) :
    Option (Except String (Option LambdaConfig) × LambdaStore) :=
  let created := s.getOrCreateEntry funcName
  match created.2.config created.1 with
  | some cfg => some (.ok (some cfg),created.2)
  | none => match created.2.readConfig env funcName with
      | .error err => some (.error ("failed to load lambda " ++ env.quote funcName ++ ": " ++ err),created.2)
      | .ok _ => none

def LambdaStore.listEntries (s : LambdaStore) : List String := s.lambdas.keys

def hasSuffix (text ending : String) : Bool := ending.toList.isSuffixOf text.toList

def trimSuffix (text ending : String) : String :=
  if hasSuffix text ending then String.ofList (text.toList.take (text.toList.length - ending.toList.length)) else text

def emptyStore (bucket : AList fun _ : String => Tarball) (pool : Bool) : LambdaStore :=
  ⟨bucket,if pool then some newManager else none,∅,fun _ => none,0,[]⟩

-- The loop over the objects of the bucket; a lambda that cannot be loaded is only
-- logged. `env` is what the load of a name finds.
def LambdaStore.loadAll (s : LambdaStore) (env : String → StoreEnv) : List String → LambdaStore
  | [] => s
  | key :: rest =>
      if hasSuffix key lambdaFileExtension then
        let funcName := trimSuffix key lambdaFileExtension
        (s.loadConfigAndRegister (env funcName) funcName).2.loadAll env rest
      else s.loadAll env rest

-- `pool` says whether there is a worker pool, and `listing` is an error of the iterator.
def newLambdaStore (env : String → StoreEnv) (bucket : AList fun _ : String => Tarball) (pool : Bool)
    (listing : Option String) : Except String LambdaStore :=
  match listing with
  | some err => .error ("failed to list bucket objects: " ++ err)
  | none => .ok ((emptyStore bucket pool).loadAll env bucket.keys)

structure Response where
  status : Nat
  body : String
  deriving DecidableEq, Repr

def LambdaStore.uploadLambda (s : LambdaStore) (env : StoreEnv) (funcName : String) (body : Tarball) :
    Response × LambdaStore :=
  match validateFunctionName env.quote funcName with
  | some err => (⟨400,err⟩,s)
  | none => match s.addToRegistry env funcName body with
      | (some err,s) => (⟨500,"Failed to add lambda: " ++ err⟩,s)
      | (none,s) => (⟨201,"Lambda " ++ funcName ++ " uploaded successfully"⟩,s)

def LambdaStore.deleteLambda (s : LambdaStore) (env : StoreEnv) (funcName : String) : Response × LambdaStore :=
  match validateFunctionName env.quote funcName with
  | some err => (⟨400,err⟩,s)
  | none => match s.removeFromRegistry env funcName with
      | (some err,s) => (⟨500,err⟩,s)
      | (none,s) => (⟨200,"Lambda " ++ funcName ++ " deleted successfully"⟩,s)

def LambdaStore.retrieveLambdaConfig (s : LambdaStore) (env : StoreEnv) (funcName : String) :
    Option (Except Response (Option LambdaConfig) × LambdaStore) :=
  match validateFunctionName env.quote funcName with
  | some err => some (.error ⟨400,err⟩,s)
  | none => match s.getConfig env funcName with
      | none => none
      | some (.error err,s) => some (.error ⟨404,err⟩,s)
      | some (.ok cfg,s) => some (.ok cfg,s)

theorem getOrCreate_lookup (s : LambdaStore) (funcName : String) :
    (s.getOrCreateEntry funcName).2.lambdas.lookup funcName = some (s.getOrCreateEntry funcName).1 := by
  unfold LambdaStore.getOrCreateEntry
  split
  · rename_i found
    exact found
  · exact AList.lookup_insert _

theorem getOrCreate_keys (s : LambdaStore) (funcName name : String) :
    name ∈ (s.getOrCreateEntry funcName).2.listEntries ↔ name = funcName ∨ name ∈ s.listEntries := by
  unfold LambdaStore.getOrCreateEntry LambdaStore.listEntries
  split
  · rename_i entry found
    constructor
    · exact .inr
    · rintro (rfl | present)
      · exact (mem_keys_lookup _ _).mpr ⟨entry,found⟩
      · exact present
  · rw [← AList.mem_keys,← AList.mem_keys]
    exact AList.mem_insert _

theorem getOrCreate_frame (s : LambdaStore) (funcName : String) :
    (s.getOrCreateEntry funcName).2.bucket = s.bucket ∧
    (s.getOrCreateEntry funcName).2.eventManager = s.eventManager ∧
    (s.getOrCreateEntry funcName).2.deletions = s.deletions := by
  unfold LambdaStore.getOrCreateEntry
  split
  · exact ⟨rfl,rfl,rfl⟩
  · exact ⟨rfl,rfl,rfl⟩

def LambdaStore.cached (s : LambdaStore) (funcName : String) : Option LambdaConfig :=
  (s.lambdas.lookup funcName).bind s.config

theorem registerTriggers_frame (s : LambdaStore) (env : StoreEnv) (funcName : String) (cfg : LambdaConfig) :
    (s.registerTriggers env funcName cfg).2.bucket = s.bucket ∧
    (s.registerTriggers env funcName cfg).2.lambdas = s.lambdas ∧
    (s.registerTriggers env funcName cfg).2.config = s.config ∧
    (s.registerTriggers env funcName cfg).2.entries = s.entries ∧
    (s.registerTriggers env funcName cfg).2.deletions = s.deletions := by
  unfold LambdaStore.registerTriggers
  split
  · exact ⟨rfl,rfl,rfl,rfl,rfl⟩
  · exact ⟨rfl,rfl,rfl,rfl,rfl⟩

theorem putBlob_frame (s : LambdaStore) (funcName : String) (written : Option Tarball) :
    (s.putBlob funcName written).eventManager = s.eventManager ∧
    (s.putBlob funcName written).lambdas = s.lambdas ∧
    (s.putBlob funcName written).config = s.config ∧
    (s.putBlob funcName written).entries = s.entries ∧
    (s.putBlob funcName written).deletions = s.deletions := by
  cases written with
  | none => exact ⟨rfl,rfl,rfl,rfl,rfl⟩
  | some tar => exact ⟨rfl,rfl,rfl,rfl,rfl⟩

theorem addToRegistry_keys (s : LambdaStore) (env : StoreEnv) (funcName : String) (body : Tarball) (name : String) :
    name ∈ (s.addToRegistry env funcName body).2.listEntries ↔ name = funcName ∨ name ∈ s.listEntries := by
  rw [← getOrCreate_keys]
  unfold LambdaStore.addToRegistry LambdaStore.listEntries
  dsimp only
  split
  · rfl
  · split
    · rw [(putBlob_frame _ _ _).2.1]
    · rw [(registerTriggers_frame _ _ _ _).2.1]
      change name ∈ (LambdaStore.putBlob _ _ _).lambdas.keys ↔ _
      rw [(putBlob_frame _ _ _).2.1]

theorem getConfig_parts {s next : LambdaStore} (answered : s.getConfig env funcName = some (answer,next)) :
    next = (s.getOrCreateEntry funcName).2 := by
  unfold LambdaStore.getConfig at answered
  dsimp only at answered
  split at answered
  · cases answered
    rfl
  · split at answered
    · cases answered
      rfl
    · cases answered

theorem loadConfig_keys {s : LambdaStore} (listed : name ∈ (s.loadConfigAndRegister env funcName).2.listEntries) :
    name = funcName ∨ name ∈ s.listEntries := by
  rw [← getOrCreate_keys]
  unfold LambdaStore.loadConfigAndRegister at listed
  split at listed
  · exact (getOrCreate_keys s funcName name).mpr (.inr listed)
  · unfold LambdaStore.listEntries at listed
    rw [(registerTriggers_frame _ _ _ _).2.1] at listed
    exact listed

end OpenLambda.Boss
