import OpenLambda.Boss.LambdaStore
import OpenLambda.Foundation.Runs

namespace OpenLambda.Boss.Requests
open OpenLambda.Common Foundation.Maps Foundation.Runs

inductive Answer where
  | added (err : Option String)
  | removed (err : Option String)
  | config (result : Except String (Option LambdaConfig))
  | names (funcNames : List String)
  deriving DecidableEq

-- Where a request is: `adding` to `registering` are addToRegistry, `removing` to
-- `unregistering` removeFromRegistry, `getting` to `looking` GetConfig, and from
-- `reentering` on it is in loadConfigAndRegister, called with the lock of `entry`
-- held. `other` is the entry that loadConfigAndRegister gets.
inductive Pc where
  | idle
  | adding (funcName : String) (body : Tarball)
  | addLocking (funcName : String) (body : Tarball) (entry : Nat)
  | validating (funcName : String) (body : Tarball) (entry : Nat)
  | writing (funcName : String) (body : Tarball) (entry : Nat) (cfg : LambdaConfig)
  | registering (funcName : String) (entry : Nat) (cfg : LambdaConfig)
  | removing (funcName : String)
  | removeLocking (funcName : String) (entry : Nat)
  | unregistering (funcName : String) (entry : Nat)
  | getting (funcName : String)
  | getLocking (funcName : String) (entry : Nat)
  | looking (funcName : String) (entry : Nat)
  | reentering (funcName : String) (entry : Nat) (cfg : LambdaConfig)
  | relocking (funcName : String) (entry : Nat) (cfg : LambdaConfig) (other : Nat)
  | reloading (funcName : String) (entry : Nat) (cfg : LambdaConfig) (other : Nat)
  | listing
  | answered (answer : Answer)
  deriving DecidableEq

-- The entries whose locks a request has at a place, and whether it has mapLock
-- there; the critical sections of getOrCreateEntry and ListEntries are one step.
def Pc.holds : Pc → List Nat
  | .validating _ _ entry | .writing _ _ entry _ | .registering _ entry _ | .unregistering _ entry
  | .looking _ entry | .reentering _ entry _ | .relocking _ entry _ _ => [entry]
  | .reloading _ entry _ other => [entry,other]
  | _ => []

def Pc.holdsMap : Pc → Bool
  | .removeLocking _ _ | .unregistering _ _ => true
  | _ => false

def Pc.wants : Pc → Option Nat
  | .addLocking _ _ entry | .removeLocking _ entry | .getLocking _ entry | .relocking _ _ _ entry => some entry
  | _ => none

def Pc.wantsMap : Pc → Bool
  | .adding _ _ | .removing _ | .getting _ | .reentering _ _ _ | .listing => true
  | _ => false

structure System where
  store : LambdaStore
  mapLock : Option Nat
  entryLock : Nat → Option Nat
  pc : Nat → Pc
  next : Nat

def start (store : LambdaStore) : System := ⟨store,none,fun _ => none,fun _ => .idle,0⟩

def System.at (s : System) (i : Nat) (pc : Pc) : System := {s with pc := Function.update s.pc i pc}

def System.spawn (s : System) (pc : Pc) : System :=
  {s with pc := Function.update s.pc s.next pc,next := s.next + 1}

def System.lock (s : System) (i entry : Nat) : System :=
  {s with entryLock := Function.update s.entryLock entry (some i)}

def System.answer (s : System) (i : Nat) (answer : Answer) : System where
  store := s.store
  mapLock := if (s.pc i).holdsMap then none else s.mapLock
  entryLock := fun entry => if entry ∈ (s.pc i).holds then none else s.entryLock entry
  pc := Function.update s.pc i (.answered answer)
  next := s.next

theorem at_pc (s : System) (i : Nat) (pc : Pc) : (s.at i pc).pc i = pc := Function.update_self _ _ _

theorem answer_pc (s : System) (i : Nat) (answer : Answer) : (s.answer i answer).pc i = .answered answer :=
  Function.update_self _ _ _

def failedToLoad (env : StoreEnv) (funcName err : String) : Answer :=
  .config (.error ("failed to load lambda " ++ env.quote funcName ++ ": " ++ err))

def System.advance (s : System) (i : Nat) (env : StoreEnv) : Option System :=
  match s.pc i with
  | .adding funcName body =>
      let created := s.store.getOrCreateEntry funcName
      some ({s with store := created.2}.at i (.addLocking funcName body created.1))
  | .addLocking funcName body entry => some ((s.lock i entry).at i (.validating funcName body entry))
  | .validating funcName body entry => match env.upload.validate body with
      | .error err => some (s.answer i (.added (some err)))
      | .ok cfg => some (s.at i (.writing funcName body entry cfg))
  | .writing funcName body entry cfg =>
      let written := {s with store := s.store.putBlob funcName (env.upload.write body).2}
      match (env.upload.write body).1 with
      | some err => some (written.answer i (.added (some err)))
      | none => some (written.at i (.registering funcName entry cfg))
  | .registering funcName entry cfg =>
      let registered := (s.store.setConfig entry cfg).registerTriggers env funcName cfg
      some ({s with store := registered.2}.answer i (.added registered.1))
  | .removing funcName => match s.store.lambdas.lookup funcName with
      | none => some (s.answer i (.removed (some ("lambda " ++ funcName ++ " not found"))))
      | some entry => some ({s with mapLock := some i}.at i (.removeLocking funcName entry))
  | .removeLocking funcName entry => some ((s.lock i entry).at i (.unregistering funcName entry))
  | .unregistering funcName _ =>
      some ({s with store := s.store.removeEntry env funcName}.answer i (.removed none))
  | .getting funcName =>
      let created := s.store.getOrCreateEntry funcName
      some ({s with store := created.2}.at i (.getLocking funcName created.1))
  | .getLocking funcName entry => some ((s.lock i entry).at i (.looking funcName entry))
  | .looking funcName entry => match s.store.config entry with
      | some cfg => some (s.answer i (.config (.ok (some cfg))))
      | none => match s.store.readConfig env funcName with
          | .error err => some (s.answer i (failedToLoad env funcName err))
          | .ok cfg => some (s.at i (.reentering funcName entry cfg))
  | .reentering funcName entry cfg =>
      let created := s.store.getOrCreateEntry funcName
      some ({s with store := created.2}.at i (.relocking funcName entry cfg created.1))
  | .relocking funcName entry cfg other => some ((s.lock i other).at i (.reloading funcName entry cfg other))
  | .reloading funcName entry cfg other =>
      let registered := (s.store.setConfig other cfg).registerTriggers env funcName cfg
      some ({s with store := registered.2}.answer i (match registered.1 with
        | some err => failedToLoad env funcName err
        | none => .config (.ok (registered.2.config entry))))
  | .listing => some (s.answer i (.names s.store.listEntries))
  | .idle | .answered _ => none

-- The requests that arrive, a step of one of them with what its calls find outside,
-- the end of a background deletion, and what another process does to the bucket.
inductive Action where
  | upload (funcName : String) (body : Tarball)
  | delete (funcName : String)
  | config (funcName : String)
  | list
  | go (i : Nat) (env : StoreEnv)
  | deleted (key : String) (failed : Bool)
  | foreign (key : String) (content : Option Tarball)

def System.free (s : System) (pc : Pc) : Prop :=
  (pc.wantsMap = true → s.mapLock = none) ∧ ∀ entry, pc.wants = some entry → s.entryLock entry = none

instance (s : System) (pc : Pc) : Decidable (s.free pc) :=
  decidable_of_iff ((pc.wantsMap = true → s.mapLock = none) ∧ (pc.wants.bind s.entryLock) = none)
    (and_congr_right fun _ => Option.bind_eq_none_iff)

def step (s : System) : Action → Option System
  | .upload funcName body => some (s.spawn (.adding funcName body))
  | .delete funcName => some (s.spawn (.removing funcName))
  | .config funcName => some (s.spawn (.getting funcName))
  | .list => some (s.spawn .listing)
  | .go i env => if s.free (s.pc i) then s.advance i env else none
  | .deleted key failed =>
      if key ∈ s.store.deletions then some {s with store := s.store.deleteBlob key failed} else none
  | .foreign key content => some {s with store := {s.store with
      bucket := match content with
        | none => s.store.bucket.erase key
        | some tar => s.store.bucket.insert key tar}}

inductive Move (s : System) (i : Nat) (env : StoreEnv) : System → Prop where
  | added : s.pc i = .adding funcName body → s.mapLock = none →
      Move s i env ({s with store := (s.store.getOrCreateEntry funcName).2}.at i
        (.addLocking funcName body (s.store.getOrCreateEntry funcName).1))
  | addLocked : s.pc i = .addLocking funcName body entry → s.entryLock entry = none →
      Move s i env ((s.lock i entry).at i (.validating funcName body entry))
  | invalid : s.pc i = .validating funcName body entry → env.upload.validate body = .error err →
      Move s i env (s.answer i (.added (some err)))
  | valid : s.pc i = .validating funcName body entry → env.upload.validate body = .ok cfg →
      Move s i env (s.at i (.writing funcName body entry cfg))
  | unwritten : s.pc i = .writing funcName body entry cfg → (env.upload.write body).1 = some err →
      Move s i env ({s with store := s.store.putBlob funcName (env.upload.write body).2}.answer i (.added (some err)))
  | wrote : s.pc i = .writing funcName body entry cfg → (env.upload.write body).1 = none →
      Move s i env ({s with store := s.store.putBlob funcName (env.upload.write body).2}.at i
        (.registering funcName entry cfg))
  | registered : s.pc i = .registering funcName entry cfg →
      Move s i env ({s with store := ((s.store.setConfig entry cfg).registerTriggers env funcName cfg).2}.answer i
        (.added ((s.store.setConfig entry cfg).registerTriggers env funcName cfg).1))
  | unknown : s.pc i = .removing funcName → s.mapLock = none → s.store.lambdas.lookup funcName = none →
      Move s i env (s.answer i (.removed (some ("lambda " ++ funcName ++ " not found"))))
  | found : s.pc i = .removing funcName → s.mapLock = none → s.store.lambdas.lookup funcName = some entry →
      Move s i env ({s with mapLock := some i}.at i (.removeLocking funcName entry))
  | removeLocked : s.pc i = .removeLocking funcName entry → s.entryLock entry = none →
      Move s i env ((s.lock i entry).at i (.unregistering funcName entry))
  | removed : s.pc i = .unregistering funcName entry →
      Move s i env ({s with store := s.store.removeEntry env funcName}.answer i (.removed none))
  | got : s.pc i = .getting funcName → s.mapLock = none →
      Move s i env ({s with store := (s.store.getOrCreateEntry funcName).2}.at i
        (.getLocking funcName (s.store.getOrCreateEntry funcName).1))
  | getLocked : s.pc i = .getLocking funcName entry → s.entryLock entry = none →
      Move s i env ((s.lock i entry).at i (.looking funcName entry))
  | cached : s.pc i = .looking funcName entry → s.store.config entry = some cfg →
      Move s i env (s.answer i (.config (.ok (some cfg))))
  | unread : s.pc i = .looking funcName entry → s.store.config entry = none →
      s.store.readConfig env funcName = .error err → Move s i env (s.answer i (failedToLoad env funcName err))
  | read : s.pc i = .looking funcName entry → s.store.config entry = none → s.store.readConfig env funcName = .ok cfg →
      Move s i env (s.at i (.reentering funcName entry cfg))
  | reentered : s.pc i = .reentering funcName entry cfg → s.mapLock = none →
      Move s i env ({s with store := (s.store.getOrCreateEntry funcName).2}.at i
        (.relocking funcName entry cfg (s.store.getOrCreateEntry funcName).1))
  | relocked : s.pc i = .relocking funcName entry cfg other → s.entryLock other = none →
      Move s i env ((s.lock i other).at i (.reloading funcName entry cfg other))
  | reloaded (answer : Answer) : s.pc i = .reloading funcName entry cfg other →
      Move s i env ({s with store := ((s.store.setConfig other cfg).registerTriggers env funcName cfg).2}.answer i answer)
  | listed : s.pc i = .listing → s.mapLock = none → Move s i env (s.answer i (.names s.store.listEntries))

theorem advance_move (free : s.free (s.pc i)) (moved : s.advance i env = some t) : Move s i env t := by
  obtain ⟨map,entry⟩ := free
  unfold System.advance at moved
  split at moved
  all_goals rename_i here
  all_goals rw [here] at map entry
  · cases moved; exact .added here (map rfl)
  · cases moved; exact .addLocked here (entry _ rfl)
  · split at moved
    · rename_i checked
      cases moved
      exact .invalid here checked
    · rename_i checked
      cases moved
      exact .valid here checked
  · dsimp only at moved
    split at moved
    · rename_i failed
      cases moved
      exact .unwritten here failed
    · rename_i done
      cases moved
      exact .wrote here done
  · cases moved; exact .registered here
  · split at moved
    · rename_i absent
      cases moved
      exact .unknown here (map rfl) absent
    · rename_i present
      cases moved
      exact .found here (map rfl) present
  · cases moved; exact .removeLocked here (entry _ rfl)
  · cases moved; exact .removed here
  · cases moved; exact .got here (map rfl)
  · cases moved; exact .getLocked here (entry _ rfl)
  · split at moved
    · rename_i cached
      cases moved
      exact .cached here cached
    · rename_i missing
      split at moved
      · rename_i result
        cases moved
        exact .unread here missing result
      · rename_i result
        cases moved
        exact .read here missing result
  · cases moved; exact .reentered here (map rfl)
  · cases moved; exact .relocked here (entry _ rfl)
  · cases moved; exact .reloaded _ here
  · cases moved; exact .listed here (map rfl)
  · cases moved
  · cases moved

theorem go_parts (moved : step s (.go i env) = some t) : s.advance i env = some t ∧ Move s i env t := by
  unfold step at moved
  dsimp only at moved
  split at moved
  · rename_i free
    exact ⟨moved,advance_move free moved⟩
  · cases moved

inductive Turn (s : System) : Action → System → Prop where
  | upload : Turn s (.upload funcName body) (s.spawn (.adding funcName body))
  | delete : Turn s (.delete funcName) (s.spawn (.removing funcName))
  | config : Turn s (.config funcName) (s.spawn (.getting funcName))
  | list : Turn s .list (s.spawn .listing)
  | moved : Move s i env t → Turn s (.go i env) t
  | deleted : key ∈ s.store.deletions → Turn s (.deleted key failed) {s with store := s.store.deleteBlob key failed}
  | foreign (bucket : AList fun _ : String => Tarball) :
      Turn s (.foreign key content) {s with store := {s.store with bucket := bucket}}

theorem step_turn (moved : step s action = some t) : Turn s action t := by
  cases action with
  | upload funcName body => cases moved; exact .upload
  | delete funcName => cases moved; exact .delete
  | config funcName => cases moved; exact .config
  | list => cases moved; exact .list
  | go i env => exact .moved (go_parts moved).2
  | deleted key failed =>
      unfold step at moved
      dsimp only at moved
      split at moved
      · rename_i pending
        cases moved
        exact .deleted pending
      · cases moved
  | foreign key content => cases moved; exact .foreign _

def Alone (s : System) (i : Nat) (env : StoreEnv) (t : System) : Prop :=
  ∃ n, run step s (List.replicate n (.go i env)) = some t

def Returns (s : System) (i : Nat) (env : StoreEnv) (answer : Answer) (store : LambdaStore) : Prop :=
  ∃ t, Alone s i env t ∧ t.pc i = .answered answer ∧ t.store = store

theorem alone_step (here : s.pc i = pc) (free : s.free pc) (moved : s.advance i env = some middle)
    (rest : Alone middle i env t) : Alone s i env t := by
  obtain ⟨n,ran⟩ := rest
  exact ⟨n + 1,by simpa [run,step,here,free,moved,List.replicate_succ] using ran⟩

theorem free_of_wants {pc : Pc} (map : pc.wantsMap = false) (entry : pc.wants = none) (s : System) : s.free pc := by
  constructor
  · intro wants
    cases map.symm.trans wants
  · intro other wants
    cases entry.symm.trans wants

theorem returns_answer {s : System} (u : System) (here : s.pc i = pc) (free : s.free pc)
    (moved : s.advance i env = some (u.answer i answer)) : Returns s i env answer u.store :=
  ⟨u.answer i answer,alone_step here free moved ⟨0,rfl⟩,answer_pc u i answer,rfl⟩

theorem returns_step (here : s.pc i = pc) (free : s.free pc) (moved : s.advance i env = some middle)
    (rest : Returns middle i env answer store) : Returns s i env answer store := by
  obtain ⟨t,alone,parts⟩ := rest
  exact ⟨t,alone_step here free moved alone,parts⟩

theorem registering_returns (here : s.pc i = .registering funcName entry cfg) (env : StoreEnv) :
    Returns s i env (.added ((s.store.setConfig entry cfg).registerTriggers env funcName cfg).1)
      ((s.store.setConfig entry cfg).registerTriggers env funcName cfg).2 := by
  refine returns_answer {s with store := ((s.store.setConfig entry cfg).registerTriggers env funcName cfg).2} here
    (free_of_wants rfl rfl s) ?_
  simp only [System.advance,here]

theorem unwritten_returns (here : s.pc i = .writing funcName body entry cfg) (failed : (env.upload.write body).1 = some err) :
    Returns s i env (.added (some err)) (s.store.putBlob funcName (env.upload.write body).2) := by
  refine returns_answer {s with store := s.store.putBlob funcName (env.upload.write body).2} here
    (free_of_wants rfl rfl s) ?_
  simp only [System.advance,here,failed]

theorem wrote_returns (here : s.pc i = .writing funcName body entry cfg) (done : (env.upload.write body).1 = none) :
    Returns s i env
      (.added (((s.store.putBlob funcName (env.upload.write body).2).setConfig entry cfg).registerTriggers env funcName cfg).1)
      (((s.store.putBlob funcName (env.upload.write body).2).setConfig entry cfg).registerTriggers env funcName cfg).2 := by
  have wrote : s.advance i env = some ({s with store := s.store.putBlob funcName (env.upload.write body).2}.at i
      (.registering funcName entry cfg)) := by
    simp only [System.advance,here,done]
  exact returns_step here (free_of_wants rfl rfl s) wrote (registering_returns (at_pc _ i _) env)

theorem validating_returns {store : LambdaStore} (here : s.pc i = .validating funcName body entry) (env : StoreEnv)
    (created : store.getOrCreateEntry funcName = (entry,s.store)) :
    Returns s i env (.added (store.addToRegistry env funcName body).1) (store.addToRegistry env funcName body).2 := by
  unfold LambdaStore.addToRegistry
  rw [created]
  cases checked : env.upload.validate body with
  | error err =>
      refine returns_answer s here (free_of_wants rfl rfl s) ?_
      simp only [System.advance,here,checked]
  | ok cfg =>
      have valid : s.advance i env = some (s.at i (.writing funcName body entry cfg)) := by
        simp only [System.advance,here,checked]
      refine returns_step here (free_of_wants rfl rfl s) valid ?_
      dsimp only
      cases wrote : (env.upload.write body).1 with
      | some err => exact unwritten_returns (at_pc s i _) wrote
      | none => exact wrote_returns (at_pc s i _) wrote

theorem addLocking_returns {store : LambdaStore} (here : s.pc i = .addLocking funcName body entry) (env : StoreEnv)
    (free : s.entryLock entry = none) (created : store.getOrCreateEntry funcName = (entry,s.store)) :
    Returns s i env (.added (store.addToRegistry env funcName body).1) (store.addToRegistry env funcName body).2 := by
  have locked : s.advance i env = some ((s.lock i entry).at i (.validating funcName body entry)) := by
    simp only [System.advance,here]
  refine returns_step here ⟨nofun,?_⟩ locked (validating_returns (at_pc _ i _) env created)
  intro wanted same
  cases same
  exact free

-- Alone, the requests do what the functions of the store say.
theorem adding_returns (here : s.pc i = .adding funcName body) (env : StoreEnv) (unlocked : s.mapLock = none)
    (free : s.entryLock (s.store.getOrCreateEntry funcName).1 = none) :
    Returns s i env (.added (s.store.addToRegistry env funcName body).1) (s.store.addToRegistry env funcName body).2 := by
  have looked : s.advance i env = some ({s with store := (s.store.getOrCreateEntry funcName).2}.at i
      (.addLocking funcName body (s.store.getOrCreateEntry funcName).1)) := by
    simp only [System.advance,here]
  exact returns_step here ⟨fun _ => unlocked,nofun⟩ looked (addLocking_returns (at_pc _ i _) env free rfl)

theorem unregistering_returns (here : s.pc i = .unregistering funcName entry) (env : StoreEnv) :
    Returns s i env (.removed none) (s.store.removeEntry env funcName) := by
  refine returns_answer {s with store := s.store.removeEntry env funcName} here (free_of_wants rfl rfl s) ?_
  simp only [System.advance,here]

theorem removeLocking_returns (here : s.pc i = .removeLocking funcName entry) (env : StoreEnv)
    (free : s.entryLock entry = none) : Returns s i env (.removed none) (s.store.removeEntry env funcName) := by
  have locked : s.advance i env = some ((s.lock i entry).at i (.unregistering funcName entry)) := by
    simp only [System.advance,here]
  refine returns_step here ⟨nofun,?_⟩ locked (unregistering_returns (at_pc _ i _) env)
  intro wanted same
  cases same
  exact free

theorem removing_returns (here : s.pc i = .removing funcName) (env : StoreEnv) (unlocked : s.mapLock = none)
    (free : ∀ entry, s.store.lambdas.lookup funcName = some entry → s.entryLock entry = none) :
    Returns s i env (.removed (s.store.removeFromRegistry env funcName).1) (s.store.removeFromRegistry env funcName).2 := by
  unfold LambdaStore.removeFromRegistry
  cases present : s.store.lambdas.lookup funcName with
  | none =>
      refine returns_answer s here ⟨fun _ => unlocked,nofun⟩ ?_
      simp only [System.advance,here,present]
  | some entry =>
      have found : s.advance i env = some ({s with mapLock := some i}.at i (.removeLocking funcName entry)) := by
        simp only [System.advance,here,present]
      exact returns_step here ⟨fun _ => unlocked,nofun⟩ found (removeLocking_returns (at_pc _ i _) env (free entry present))

theorem looking_returns {store : LambdaStore} (here : s.pc i = .looking funcName entry)
    (created : store.getOrCreateEntry funcName = (entry,s.store))
    (answered : store.getConfig env funcName = some (answer,next)) : Returns s i env (.config answer) next := by
  unfold LambdaStore.getConfig at answered
  rw [created] at answered
  dsimp only at answered
  split at answered
  · rename_i cfg cached
    cases answered
    refine returns_answer s here (free_of_wants rfl rfl s) ?_
    simp only [System.advance,here,cached]
  · rename_i missing
    split at answered
    · rename_i err unread
      cases answered
      refine returns_answer s here (free_of_wants rfl rfl s) ?_
      simp only [System.advance,here,missing,unread]
      rfl
    · cases answered

theorem getting_looks (here : s.pc i = .getting funcName) (env : StoreEnv) (unlocked : s.mapLock = none)
    (free : s.entryLock (s.store.getOrCreateEntry funcName).1 = none) :
    ∃ u entry, u.pc i = .looking funcName entry ∧ s.store.getOrCreateEntry funcName = (entry,u.store) ∧
      u.mapLock = none ∧ u.entryLock entry = some i ∧ ∀ t, Alone u i env t → Alone s i env t := by
  have looked : s.advance i env = some ({s with store := (s.store.getOrCreateEntry funcName).2}.at i
      (.getLocking funcName (s.store.getOrCreateEntry funcName).1)) := by
    simp only [System.advance,here]
  have there := at_pc {s with store := (s.store.getOrCreateEntry funcName).2} i
    (.getLocking funcName (s.store.getOrCreateEntry funcName).1)
  refine ⟨(({s with store := (s.store.getOrCreateEntry funcName).2}.at i
      (.getLocking funcName (s.store.getOrCreateEntry funcName).1)).lock i (s.store.getOrCreateEntry funcName).1).at i
      (.looking funcName (s.store.getOrCreateEntry funcName).1),
    (s.store.getOrCreateEntry funcName).1,at_pc _ i _,rfl,unlocked,Function.update_self _ _ _,?_⟩
  intro t alone
  refine alone_step here ⟨fun _ => unlocked,nofun⟩ looked (alone_step there ⟨nofun,?_⟩ ?_ alone)
  · intro wanted same
    cases same
    exact free
  · simp only [System.advance,there]

theorem getting_returns (here : s.pc i = .getting funcName) (unlocked : s.mapLock = none)
    (free : s.entryLock (s.store.getOrCreateEntry funcName).1 = none)
    (answered : s.store.getConfig env funcName = some (answer,next)) : Returns s i env (.config answer) next := by
  obtain ⟨u,entry,looking,created,_,_,earlier⟩ := getting_looks here env unlocked free
  obtain ⟨t,alone,parts⟩ := looking_returns looking created answered
  exact ⟨t,earlier t alone,parts⟩

theorem getting_hangs (here : s.pc i = .getting funcName) (unlocked : s.mapLock = none)
    (free : s.entryLock (s.store.getOrCreateEntry funcName).1 = none)
    (hangs : s.store.getConfig env funcName = none) :
    ∃ t entry cfg, Alone s i env t ∧ t.pc i = .relocking funcName entry cfg entry ∧ t.entryLock entry = some i ∧
      t.store = (s.store.getOrCreateEntry funcName).2 := by
  obtain ⟨u,entry,looking,created,map,lock,earlier⟩ := getting_looks here env unlocked free
  have present := getOrCreate_lookup s.store funcName
  unfold LambdaStore.getConfig at hangs
  rw [created] at hangs present ⊢
  dsimp only at hangs present ⊢
  split at hangs
  · cases hangs
  · rename_i missing
    split at hangs
    · cases hangs
    · rename_i cfg read
      have again : u.store.getOrCreateEntry funcName = (entry,u.store) := by
        simp only [LambdaStore.getOrCreateEntry,present]
      have there := at_pc u i (.reentering funcName entry cfg)
      refine ⟨(u.at i (.reentering funcName entry cfg)).at i (.relocking funcName entry cfg entry),entry,cfg,?_,
        at_pc _ i _,lock,rfl⟩
      apply earlier
      refine alone_step looking (free_of_wants rfl rfl u) ?_ (alone_step there ⟨fun _ => map,nofun⟩ ?_ ⟨0,rfl⟩)
      · simp only [System.advance,looking,missing,read]
      · simp only [System.advance,there]
        rw [show (u.at i (.reentering funcName entry cfg)).store.getOrCreateEntry funcName = (entry,u.store) from again]
        rfl

end OpenLambda.Boss.Requests
