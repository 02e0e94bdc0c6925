import OpenLambda.Common.LambdaConfig
import OpenLambda.Foundation.Maps

namespace OpenLambda.Boss
open OpenLambda.Common Foundation.Maps

structure CronEntry where
  id : Nat
  schedule : String
  function : String
  deriving DecidableEq, Repr

structure CronScheduler where
  cron : List CronEntry
  nextID : Nat
  jobs : AList fun _ : String => List Nat

def newCronScheduler : CronScheduler := ⟨[],0,∅⟩

inductive Reply where
  | unmade (err : String)
  | unsent (err : String)
  | refused (status body : String)
  | ok
  deriving DecidableEq, Repr

-- What the calls find outside: the schedule parser's error, the worker that
-- GetWorker returns, the host and port of a worker, the answers to the i-th
-- kafka-init request and to the kafka-stop request.
structure TriggerEnv where
  parse : String → Option String
  getWorker : Except String Nat
  host : Nat → String
  port : Nat → String
  marshal : Option String
  init : Nat → Reply
  stop : Reply

def CronScheduler.addFunc (c : CronScheduler) (functionName schedule : String) : CronScheduler where
  cron := c.cron ++ [⟨c.nextID + 1,schedule,functionName⟩]
  nextID := c.nextID + 1
  jobs := c.jobs.insert functionName ((c.jobs.lookup functionName).getD [] ++ [c.nextID + 1])

-- The jobs added before a schedule that does not parse stay.
def CronScheduler.addJobs (env : TriggerEnv) (functionName : String) (c : CronScheduler) :
    List CronTrigger → Option String × CronScheduler
  | [] => (none,c)
  | trigger :: rest =>
      match env.parse trigger.schedule with
      | some err => (some ("[CronScheduler] Failed to add cron job for " ++ functionName ++ ": " ++ err),c)
      | none => (c.addFunc functionName trigger.schedule).addJobs env functionName rest

def CronScheduler.register (env : TriggerEnv) (c : CronScheduler) (functionName : String) (triggers : List CronTrigger) :
    Option String × CronScheduler :=
  if triggers = [] then (none,c) else c.addJobs env functionName triggers

def CronScheduler.unregister (c : CronScheduler) (functionName : String) : CronScheduler :=
  match c.jobs.lookup functionName with
  | none => c
  | some ids => {c with cron := c.cron.filter fun entry => entry.id ∉ ids,jobs := c.jobs.erase functionName}

structure KafkaFunctionEntry where
  triggers : List KafkaTrigger
  worker : Nat
  deriving DecidableEq, Repr

structure Setup where
  worker : Nat
  function : String
  trigger : KafkaTrigger
  deriving DecidableEq, Repr

-- `setups` are the kafka-init requests that a worker answered with 200 and that no
-- kafka-stop request answered with 200 has taken back.
structure KafkaManager where
  functions : AList fun _ : String => KafkaFunctionEntry
  setups : List Setup

def newKafkaManager : KafkaManager := ⟨∅,[]⟩

def getWorkerAddress (env : TriggerEnv) : Option Nat → Except String String
  | none => .error "worker is nil"
  | some worker =>
      if env.host worker = "" ∨ env.port worker = "" then .error "worker address is incomplete"
      else .ok (env.host worker ++ ":" ++ env.port worker)

def KafkaManager.addSetup (k : KafkaManager) (setup : Setup) : KafkaManager := {k with setups := k.setups ++ [setup]}

def KafkaManager.setUp (env : TriggerEnv) (functionName : String) (worker : Nat) (k : KafkaManager) (i : Nat) :
    List KafkaTrigger → Option String × KafkaManager
  | [] => (none,k)
  | trigger :: rest =>
      if trigger.topics = [] ∨ trigger.bootstrapServers = [] then
        (some ("invalid Kafka trigger for " ++ functionName ++
          ": must include at least one topic and one bootstrap server"),k)
      else match env.marshal with
        | some err => (some ("failed to marshal Kafka trigger for " ++ functionName ++ ": " ++ err),k)
        | none => match env.init i with
            | .unmade err => (some ("failed to create request for " ++ functionName ++ ": " ++ err),k)
            | .unsent err => (some ("failed to send Kafka setup for " ++ functionName ++ ": " ++ err),k)
            | .refused status body =>
                (some ("worker returned error on setup for " ++ functionName ++ ": " ++ status ++ " - " ++ body),k)
            | .ok => (k.addSetup ⟨worker,functionName,trigger⟩).setUp env functionName worker (i + 1) rest

def KafkaManager.register (env : TriggerEnv) (k : KafkaManager) (functionName : String) (triggers : List KafkaTrigger) :
    Option String × KafkaManager :=
  if triggers = [] then (none,k)
  else match env.getWorker with
    | .error err => (some ("failed to get the worker to setup kafka consumer: " ++ err),k)
    | .ok worker => match getWorkerAddress env (some worker) with
        | .error err => (some ("[KafkaManager] Failed to get worker address: " ++ err),k)
        | .ok _ => match k.setUp env functionName worker 0 triggers with
            | (some err,k) => (some err,k)
            | (none,k) => (none,{k with functions := k.functions.insert functionName ⟨triggers,worker⟩})

def KafkaManager.unregister (env : TriggerEnv) (k : KafkaManager) (functionName : String) : Option String × KafkaManager :=
  match k.functions.lookup functionName with
  | none => (none,k)
  | some entry => match getWorkerAddress env (some entry.worker) with
      | .error err => (some ("get worker address failed: " ++ err),k)
      | .ok _ => match env.stop with
          | .unmade err => (some ("failed to create request: " ++ err),k)
          | .unsent err => (some ("failed to send request: " ++ err),k)
          | .refused status _ => (some ("unsetup failed with status: " ++ status),k)
          | .ok => (none,{
              functions := k.functions.erase functionName
              setups := k.setups.filter fun setup => ¬ (setup.worker = entry.worker ∧ setup.function = functionName)})

structure Manager where
  cronScheduler : CronScheduler
  kafkaManager : KafkaManager

def newManager : Manager := ⟨newCronScheduler,newKafkaManager⟩

def Manager.unregister (env : TriggerEnv) (m : Manager) (functionName : String) : Option String × Manager :=
  let m := {m with cronScheduler := m.cronScheduler.unregister functionName}
  match m.kafkaManager.unregister env functionName with
  | (some err,k) =>
      (some ("failed to unregister kafka trigger for " ++ functionName ++ ": " ++ err),{m with kafkaManager := k})
  | (none,k) => (none,{m with kafkaManager := k})

def Manager.register (env : TriggerEnv) (m : Manager) (functionName : String) (triggers : Triggers) :
    Option String × Manager :=
  match m.unregister env functionName with
  | (some err,m) => (some ("failed to unregister existing triggers for " ++ functionName ++ ": " ++ err),m)
  | (none,m) => match m.cronScheduler.register env functionName triggers.cron with
      | (some err,c) => (some ("failed to register cron triggers: " ++ err),{m with cronScheduler := c})
      | (none,c) => match m.kafkaManager.register env functionName triggers.kafka with
          | (some err,k) => (some ("failed to register Kafka triggers: " ++ err),⟨c,k⟩)
          | (none,k) => (none,⟨c,k⟩)

def CronScheduler.active (c : CronScheduler) (functionName : String) : List String :=
  (c.cron.filter fun entry => entry.function = functionName).map (·.schedule)

structure Scheduled (c : CronScheduler) : Prop where
  listed : ∀ entry ∈ c.cron, ∃ ids, c.jobs.lookup entry.function = some ids ∧ entry.id ∈ ids
  owned : ∀ name ids, c.jobs.lookup name = some ids → ∀ entry ∈ c.cron, entry.id ∈ ids → entry.function = name
  known : ∀ name ids, c.jobs.lookup name = some ids → ∀ id ∈ ids, id ≤ c.nextID
  given : ∀ entry ∈ c.cron, entry.id ≤ c.nextID

theorem new_scheduled : Scheduled newCronScheduler := ⟨nofun,nofun,nofun,nofun⟩

theorem unregister_scheduled (scheduled : Scheduled c) (functionName : String) : Scheduled (c.unregister functionName) := by
  unfold CronScheduler.unregister
  split
  · exact scheduled
  · rename_i ids found
    have still : ∀ name others, (c.jobs.erase functionName).lookup name = some others →
        name ≠ functionName ∧ c.jobs.lookup name = some others := by
      intro name others later
      rw [erase_lookup] at later
      split at later
      · cases later
      · rename_i different
        exact ⟨different,later⟩
    constructor
    · intro entry member
      obtain ⟨present,kept⟩ := List.mem_filter.mp member
      obtain ⟨others,listed,mine⟩ := scheduled.listed entry present
      refine ⟨others,?_,mine⟩
      change (c.jobs.erase functionName).lookup entry.function = some others
      rw [erase_lookup,if_neg]
      · exact listed
      · intro same
        rw [same] at listed
        cases found.symm.trans listed
        exact of_decide_eq_true kept mine
    · intro name others later entry member
      exact scheduled.owned name others (still name others later).2 entry (List.mem_filter.mp member).1
    · exact fun name others later => scheduled.known name others (still name others later).2
    · exact fun entry member => scheduled.given entry (List.mem_filter.mp member).1

theorem addFunc_scheduled (scheduled : Scheduled c) (functionName schedule : String) :
    Scheduled (c.addFunc functionName schedule) := by
  have ids : ∀ name others, (c.addFunc functionName schedule).jobs.lookup name = some others → ∀ id ∈ others,
      (∃ before, c.jobs.lookup name = some before ∧ id ∈ before) ∨ name = functionName ∧ id = c.nextID + 1 := by
    intro name others found id member
    change (c.jobs.insert functionName _).lookup name = some others at found
    rw [insert_lookup] at found
    split at found
    · rename_i same
      cases found
      rcases List.mem_append.mp member with old | new
      · cases before : c.jobs.lookup functionName with
        | none => simp [before] at old
        | some ids => exact .inl ⟨ids,by rw [same]; exact before,by simpa [before] using old⟩
      · exact .inr ⟨same,List.mem_singleton.mp new⟩
    · exact .inl ⟨others,found,member⟩
  constructor
  · intro entry member
    change ∃ ids, (c.jobs.insert functionName _).lookup entry.function = some ids ∧ entry.id ∈ ids
    rw [insert_lookup]
    rcases List.mem_append.mp member with old | new
    · obtain ⟨before,listed,mine⟩ := scheduled.listed entry old
      split
      · rename_i same
        rw [same] at listed
        exact ⟨_,rfl,List.mem_append_left _ (by simpa [listed] using mine)⟩
      · exact ⟨before,listed,mine⟩
    · cases List.mem_singleton.mp new
      exact ⟨_,if_pos rfl,by simp⟩
  · intro name others found entry member mine
    rcases ids name others found entry.id mine with ⟨before,listed,old⟩ | ⟨same,fresh⟩
    · rcases List.mem_append.mp member with present | new
      · exact scheduled.owned name before listed entry present old
      · cases List.mem_singleton.mp new
        exact absurd (scheduled.known name before listed _ old) (Nat.not_succ_le_self _)
    · rcases List.mem_append.mp member with present | new
      · have bound := scheduled.given entry present
        rw [fresh] at bound
        exact absurd bound (Nat.not_succ_le_self _)
      · cases List.mem_singleton.mp new
        exact same.symm
  · intro name others found id member
    rcases ids name others found id member with ⟨before,listed,old⟩ | ⟨_,fresh⟩
    · exact Nat.le_succ_of_le (scheduled.known name before listed id old)
    · exact Nat.le_of_eq fresh
  · intro entry member
    rcases List.mem_append.mp member with old | new
    · exact Nat.le_succ_of_le (scheduled.given entry old)
    · cases List.mem_singleton.mp new
      exact Nat.le_refl _

theorem addFunc_active (c : CronScheduler) (functionName schedule name : String) :
    (c.addFunc functionName schedule).active name =
      if name = functionName then c.active name ++ [schedule] else c.active name := by
  unfold CronScheduler.active CronScheduler.addFunc
  rw [List.filter_append,List.map_append]
  split
  · rename_i same
    simp [same]
  · rename_i other
    simp [Ne.symm other]

def installed (env : TriggerEnv) (triggers : List CronTrigger) : List String :=
  (triggers.map (·.schedule)).takeWhile fun schedule => (env.parse schedule).isNone

theorem addJobs_spec (env : TriggerEnv) (functionName : String) (triggers : List CronTrigger) (scheduled : Scheduled c) :
    Scheduled (c.addJobs env functionName triggers).2 ∧
    (∀ name, (c.addJobs env functionName triggers).2.active name =
      if name = functionName then c.active name ++ installed env triggers else c.active name) ∧
    ((c.addJobs env functionName triggers).1 = none ↔ ∀ trigger ∈ triggers, env.parse trigger.schedule = none) := by
  induction triggers generalizing c with
  | nil => exact ⟨scheduled,fun name => by simp [CronScheduler.addJobs,installed],by simp [CronScheduler.addJobs]⟩
  | cons trigger rest ih =>
      unfold CronScheduler.addJobs
      cases parsed : env.parse trigger.schedule with
      | some err => exact ⟨scheduled,fun name => by simp [installed,parsed],by simp [parsed]⟩
      | none =>
          obtain ⟨fine,active,error⟩ := ih (addFunc_scheduled scheduled functionName trigger.schedule)
          refine ⟨fine,?_,error.trans (by simp [parsed])⟩
          intro name
          rw [active name,addFunc_active]
          split
          · simp [installed,parsed]
          · rfl

theorem cronRegister_spec (env : TriggerEnv) (functionName : String) (triggers : List CronTrigger) (scheduled : Scheduled c) :
    Scheduled (c.register env functionName triggers).2 ∧
    (∀ name, (c.register env functionName triggers).2.active name =
      if name = functionName then c.active name ++ installed env triggers else c.active name) ∧
    ((c.register env functionName triggers).1 = none ↔ ∀ trigger ∈ triggers, env.parse trigger.schedule = none) := by
  unfold CronScheduler.register
  split
  · rename_i none
    subst none
    exact addJobs_spec env functionName [] scheduled
  · exact addJobs_spec env functionName triggers scheduled

def settable (env : TriggerEnv) (i : Nat) (trigger : KafkaTrigger) : Bool :=
  decide (trigger.topics ≠ [] ∧ trigger.bootstrapServers ≠ [] ∧ env.marshal = none ∧ env.init i = .ok)

def kafkaStarts (env : TriggerEnv) : List KafkaTrigger → Bool
  | [] => false
  | trigger :: _ => match env.getWorker with
      | .error _ => false
      | .ok worker => decide (env.host worker ≠ "" ∧ env.port worker ≠ "") && settable env 0 trigger

-- When a registration that fails leaves the triggers as they were: it could not
-- unregister and there were no cron jobs; or there was no Kafka registration, the
-- cron jobs that it added are those that it had removed, and it did not come to
-- set up a Kafka trigger.
def Manager.harmless (env : TriggerEnv) (m : Manager) (functionName : String) (triggers : Triggers) : Prop :=
  match (m.kafkaManager.unregister env functionName).1 with
  | some _ => m.cronScheduler.active functionName = []
  | none => m.kafkaManager.functions.lookup functionName = none ∧
      (installed env triggers.cron).Perm (m.cronScheduler.active functionName) ∧
      ((∀ trigger ∈ triggers.cron, env.parse trigger.schedule = none) → kafkaStarts env triggers.kafka = false)

theorem managerUnregister_parts (env : TriggerEnv) (m : Manager) (functionName : String) :
    (m.unregister env functionName).2 =
      ⟨m.cronScheduler.unregister functionName,(m.kafkaManager.unregister env functionName).2⟩ ∧
    ((m.unregister env functionName).1 = none ↔ (m.kafkaManager.unregister env functionName).1 = none) := by
  unfold Manager.unregister
  dsimp only
  split
  · rename_i err k result
    simp [result]
  · rename_i k result
    simp [result]

theorem unregister_manager_scheduled {m : Manager} (scheduled : Scheduled m.cronScheduler) (env : TriggerEnv)
    (functionName : String) : Scheduled (m.unregister env functionName).2.cronScheduler := by
  rw [(managerUnregister_parts env m functionName).1]
  exact unregister_scheduled scheduled functionName

theorem register_manager_scheduled {m : Manager} (scheduled : Scheduled m.cronScheduler) (env : TriggerEnv)
    (functionName : String) (triggers : Triggers) : Scheduled (m.register env functionName triggers).2.cronScheduler := by
  have unregistered := unregister_manager_scheduled scheduled env functionName
  unfold Manager.register
  split
  · rename_i err next result
    rw [result] at unregistered
    exact unregistered
  · rename_i next result
    rw [result] at unregistered
    have registered := (cronRegister_spec env functionName triggers.cron unregistered).1
    split
    · rename_i err c added
      rw [added] at registered
      exact registered
    · rename_i c added
      rw [added] at registered
      split
      · exact registered
      · exact registered

end OpenLambda.Boss
