import OpenLambda.Boss.LambdaStore

namespace OpenLambda.Boss
open OpenLambda.Common Foundation.Maps

def LambdaStore.Scheduled (s : LambdaStore) : Prop := ∀ m, s.eventManager = some m → Boss.Scheduled m.cronScheduler

theorem registerTriggers_scheduled {s : LambdaStore} (scheduled : s.Scheduled) (env : StoreEnv) (funcName : String)
    (cfg : LambdaConfig) : (s.registerTriggers env funcName cfg).2.Scheduled := by
  unfold LambdaStore.registerTriggers
  split
  · exact scheduled
  · rename_i m present
    intro next same
    cases same
    exact register_manager_scheduled (scheduled m present) env.triggers funcName cfg.triggers

theorem created_scheduled {s : LambdaStore} (scheduled : s.Scheduled) (funcName : String) :
    (s.getOrCreateEntry funcName).2.Scheduled := by
  unfold LambdaStore.Scheduled
  rw [(getOrCreate_frame s funcName).2.1]
  exact scheduled

theorem addToRegistry_scheduled {s : LambdaStore} (scheduled : s.Scheduled) (env : StoreEnv) (funcName : String)
    (body : Tarball) : (s.addToRegistry env funcName body).2.Scheduled := by
  have created := created_scheduled scheduled funcName
  have written : ((s.getOrCreateEntry funcName).2.putBlob funcName (env.upload.write body).2).Scheduled := by
    unfold LambdaStore.Scheduled
    rw [(putBlob_frame _ _ _).1]
    exact created
  unfold LambdaStore.addToRegistry
  dsimp only
  split
  · exact created
  · split
    · exact written
    · exact registerTriggers_scheduled (s := LambdaStore.setConfig _ _ _) written env funcName _

theorem removeEntry_scheduled {s : LambdaStore} (scheduled : s.Scheduled) (env : StoreEnv) (funcName : String) :
    (s.removeEntry env funcName).Scheduled := by
  intro next same
  obtain ⟨m,present,rfl⟩ := Option.map_eq_some_iff.mp same
  exact unregister_manager_scheduled (scheduled m present) env.triggers funcName

theorem loadConfig_scheduled {s : LambdaStore} (scheduled : s.Scheduled) (env : StoreEnv) (funcName : String) :
    (s.loadConfigAndRegister env funcName).2.Scheduled := by
  unfold LambdaStore.loadConfigAndRegister
  split
  · exact scheduled
  · exact registerTriggers_scheduled (s := LambdaStore.setConfig _ _ _) (created_scheduled scheduled funcName) env funcName _

theorem loadAll_scheduled (env : String → StoreEnv) (keys : List String) {s : LambdaStore} (scheduled : s.Scheduled) :
    (s.loadAll env keys).Scheduled := by
  induction keys generalizing s with
  | nil => exact scheduled
  | cons key rest ih =>
      unfold LambdaStore.loadAll
      split
      · exact ih (loadConfig_scheduled scheduled _ _)
      · exact ih scheduled

theorem newLambdaStore_scheduled (started : newLambdaStore env bucket pool listing = .ok s) : s.Scheduled := by
  unfold newLambdaStore at started
  split at started
  · cases started
  · cases started
    apply loadAll_scheduled
    intro m present
    unfold emptyStore at present
    cases pool with
    | false => cases present
    | true => cases present; exact new_scheduled

-- When an upload that fails changes nothing: its tarball is refused; or it writes
-- nothing but what is there, and if it comes to the triggers, its config is the
-- cached one and their registration leaves them as they were.
def LambdaStore.harmless (s : LambdaStore) (env : StoreEnv) (funcName : String) (body : Tarball) : Prop :=
  match env.upload.validate body with
  | .error _ => True
  | .ok cfg =>
      (∀ written, (env.upload.write body).2 = some written → s.bucket.lookup (keyOf funcName) = some written) ∧
      ((env.upload.write body).1 = none → s.cached funcName = some cfg ∧
        ∀ m, s.eventManager = some m → m.harmless env.triggers funcName cfg.triggers)

def plainEnv : StoreEnv where
  load := ⟨"not found",none,none,none,none⟩
  upload := ⟨none,none,none,none,none,none,none,none⟩
  triggers := {
    parse := fun schedule =>
      if schedule = "61 * * * *" then some "end of range (61) above maximum (59): 61" else none
    getWorker := .error "no worker available"
    host := fun _ => "localhost"
    port := fun _ => "5000"
    marshal := none
    init := fun _ => .ok
    stop := .ok}
  quote := fun name => "\"" ++ name ++ "\""

def cronTarball (schedules : List String) : Tarball :=
  ⟨none,[⟨lambdaConfigFilename,.ok ⟨⟨[],schedules.map CronTrigger.mk,[]⟩,[],true⟩⟩],none⟩

end OpenLambda.Boss
