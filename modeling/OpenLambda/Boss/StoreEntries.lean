import OpenLambda.Boss.StoreRequests

namespace OpenLambda.Boss.Requests
open OpenLambda.Common Foundation.Maps

structure Locked (s : System) : Prop where
  entry : ∀ entry j, s.entryLock entry = some j ↔ entry ∈ (s.pc j).holds
  map : ∀ j, s.mapLock = some j ↔ (s.pc j).holdsMap = true
  fresh : ∀ j, s.next ≤ j → s.pc j = .idle

theorem start_locked (store : LambdaStore) : Locked (start store) where
  entry := fun _ _ => ⟨nofun,fun held => absurd held List.not_mem_nil⟩
  map := fun _ => ⟨nofun,nofun⟩
  fresh := fun _ _ => rfl

theorem known_of_place (locked : Locked s) (here : s.pc i = pc) (busy : pc ≠ .idle) : i < s.next := by
  apply Nat.lt_of_not_le
  intro beyond
  exact busy (here.symm.trans (locked.fresh i beyond))

theorem place_locked (locked : Locked s) (known : i < s.next) (store : LambdaStore) (pc : Pc)
    (entry : ∀ entry j, entryLock entry = some j ↔ if j = i then entry ∈ pc.holds else entry ∈ (s.pc j).holds)
    (map : ∀ j, mapLock = some j ↔ if j = i then pc.holdsMap = true else (s.pc j).holdsMap = true) :
    Locked ⟨store,mapLock,entryLock,Function.update s.pc i pc,s.next⟩ := by
  constructor
  · intro e j
    refine (entry e j).trans ?_
    dsimp only
    rw [Function.update_apply]
    split
    · rfl
    · rfl
  · intro j
    refine (map j).trans ?_
    dsimp only
    rw [Function.update_apply]
    split
    · rfl
    · rfl
  · intro j beyond
    dsimp only
    rw [Function.update_of_ne (Nat.ne_of_gt (Nat.lt_of_lt_of_le known beyond))]
    exact locked.fresh j beyond

theorem held_iff {pc : Pc} (locked : Locked s) (holds : pc.holds = (s.pc i).holds) (entry j : Nat) :
    s.entryLock entry = some j ↔ if j = i then entry ∈ pc.holds else entry ∈ (s.pc j).holds := by
  rw [locked.entry,holds]
  split
  · rename_i same
    rw [same]
  · rfl

theorem heldMap_iff {pc : Pc} (locked : Locked s) (holds : pc.holdsMap = (s.pc i).holdsMap) (j : Nat) :
    s.mapLock = some j ↔ if j = i then pc.holdsMap = true else (s.pc j).holdsMap = true := by
  rw [locked.map,holds]
  split
  · rename_i same
    rw [same]
  · rfl

theorem at_locked (locked : Locked s) (known : i < s.next) (store : LambdaStore) (pc : Pc)
    (holds : pc.holds = (s.pc i).holds) (map : pc.holdsMap = (s.pc i).holdsMap) :
    Locked ({s with store := store}.at i pc) :=
  place_locked locked known store pc (held_iff (s := s) locked holds) (heldMap_iff (s := s) locked map)

theorem lock_locked (locked : Locked s) (known : i < s.next) (pc : Pc) (free : s.entryLock entry = none)
    (holds : ∀ e, e ∈ pc.holds ↔ e = entry ∨ e ∈ (s.pc i).holds) (map : pc.holdsMap = (s.pc i).holdsMap) :
    Locked ((s.lock i entry).at i pc) := by
  refine place_locked locked known s.store pc ?_ (heldMap_iff (s := s) locked map)
  intro e j
  change Function.update s.entryLock entry (some i) e = some j ↔ _
  rw [Function.update_apply,holds]
  by_cases same : e = entry
  · -- nobody else has the lock, which was free
    subst e
    have nobody : entry ∉ (s.pc j).holds := fun held => nomatch free.symm.trans ((locked.entry entry j).mpr held)
    rw [if_pos rfl]
    split
    · rename_i mine
      simp [mine]
    · rename_i other
      simp [nobody,Ne.symm other]
  · rw [if_neg same,locked.entry]
    split
    · rename_i mine
      simp [mine,same]
    · rfl

theorem mapLock_locked (locked : Locked s) (known : i < s.next) (pc : Pc) (free : s.mapLock = none)
    (holds : pc.holds = (s.pc i).holds) (map : pc.holdsMap = true) : Locked ({s with mapLock := some i}.at i pc) := by
  refine place_locked locked known s.store pc (held_iff (s := s) locked holds) ?_
  intro j
  have nobody : (s.pc j).holdsMap ≠ true := fun held => nomatch free.symm.trans ((locked.map j).mpr held)
  split
  · rename_i mine
    simp [mine,map]
  · rename_i other
    simp [nobody,Ne.symm other]

theorem answer_locked (locked : Locked s) (known : i < s.next) (store : LambdaStore) (answer : Answer) :
    Locked ({s with store := store}.answer i answer) := by
  refine place_locked locked known store (.answered answer) ?_ ?_
  · intro e j
    change (if e ∈ (s.pc i).holds then none else s.entryLock e) = some j ↔ _
    split
    · rename_i mine
      have lock := (locked.entry e i).mpr mine
      simp only [reduceCtorEq,false_iff]
      split
      · exact List.not_mem_nil
      · rename_i other
        intro held
        exact other (Option.some.inj (((locked.entry e j).mpr held).symm.trans lock))
    · rename_i others
      rw [locked.entry]
      split
      · rename_i same
        subst j
        exact ⟨fun held => absurd held others,fun none => absurd none List.not_mem_nil⟩
      · rfl
  · intro j
    change (if (s.pc i).holdsMap = true then none else s.mapLock) = some j ↔ _
    split
    · rename_i mine
      have lock := (locked.map i).mpr mine
      simp only [reduceCtorEq,false_iff]
      split
      · nofun
      · rename_i other
        intro held
        exact other (Option.some.inj (((locked.map j).mpr held).symm.trans lock))
    · rename_i others
      rw [locked.map]
      split
      · rename_i same
        subst j
        exact ⟨fun held => absurd held others,nofun⟩
      · rfl

theorem spawn_locked (locked : Locked s) (pc : Pc) (holds : pc.holds = []) (map : pc.holdsMap = false) :
    Locked (s.spawn pc) := by
  have idle := locked.fresh s.next (Nat.le_refl _)
  have grown : Locked {s with next := s.next + 1} :=
    ⟨locked.entry,locked.map,fun j beyond => locked.fresh j (Nat.le_of_succ_le beyond)⟩
  exact at_locked grown (Nat.lt_succ_self _) s.store pc (by rw [holds]; exact (congrArg Pc.holds idle).symm)
    (by rw [map]; exact (congrArg Pc.holdsMap idle).symm)

theorem move_locked (locked : Locked s) (moved : Move s i env t) : Locked t := by
  cases moved with
  | added here | got here =>
      exact at_locked locked (known_of_place locked here nofun) _ _ (by rw [here]; rfl) (by rw [here]; rfl)
  | addLocked here free | removeLocked here free | getLocked here free =>
      exact lock_locked locked (known_of_place locked here nofun) _ free (by rw [here]; simp [Pc.holds]) (by rw [here]; rfl)
  | invalid here | unwritten here | registered here | unknown here | removed here | cached here | unread here
  | reloaded _ here | listed here => exact answer_locked locked (known_of_place locked here nofun) _ _
  | valid here | wrote here | read here | reentered here =>
      exact at_locked locked (known_of_place locked here nofun) _ _ (by rw [here]; rfl) (by rw [here]; rfl)
  | found here free =>
      exact mapLock_locked locked (known_of_place locked here nofun) _ free (by rw [here]; rfl) rfl
  | relocked here free =>
      exact lock_locked locked (known_of_place locked here nofun) _ free (by rw [here]; simp [Pc.holds,or_comm])
        (by rw [here]; rfl)

theorem turn_locked (locked : Locked s) (turn : Turn s action t) : Locked t := by
  cases turn with
  | upload | delete | config | list => exact spawn_locked locked _ rfl rfl
  | moved moved => exact move_locked locked moved
  | deleted => exact ⟨locked.entry,locked.map,locked.fresh⟩
  | foreign => exact ⟨locked.entry,locked.map,locked.fresh⟩

theorem holds_unique (locked : Locked s) (mine : entry ∈ (s.pc i).holds) (other : entry ∈ (s.pc j).holds) : i = j :=
  Option.some.inj (((locked.entry entry i).mpr mine).symm.trans ((locked.entry entry j).mpr other))

theorem holdsMap_unique (locked : Locked s) (mine : (s.pc i).holdsMap = true) (other : (s.pc j).holdsMap = true) : i = j :=
  Option.some.inj (((locked.map i).mpr mine).symm.trans ((locked.map j).mpr other))

def Pc.refs : Pc → List (String × Nat)
  | .addLocking funcName _ entry | .validating funcName _ entry | .writing funcName _ entry _
  | .registering funcName entry _ | .removeLocking funcName entry | .unregistering funcName entry
  | .getLocking funcName entry | .looking funcName entry | .reentering funcName entry _ => [(funcName,entry)]
  | .relocking funcName entry _ other | .reloading funcName entry _ other => [(funcName,entry),(funcName,other)]
  | _ => []

-- Every entry is of one name, and the entries of a name that requests have are not
-- newer than the one in the map.
structure Owned (s : System) (owner : Nat → String) : Prop where
  mapped : ∀ funcName entry, s.store.lambdas.lookup funcName = some entry →
    entry < s.store.entries ∧ owner entry = funcName
  placed : ∀ j funcName entry, (funcName,entry) ∈ (s.pc j).refs → entry < s.store.entries ∧ owner entry = funcName ∧
    ∀ later, s.store.lambdas.lookup funcName = some later → entry ≤ later

theorem store_owned (owned : Owned s owner) (lambdas : store.lambdas = s.store.lambdas)
    (entries : store.entries = s.store.entries) : Owned {s with store := store} owner := by
  constructor
  · dsimp only
    rw [lambdas,entries]
    exact owned.mapped
  · dsimp only
    rw [lambdas,entries]
    exact owned.placed

theorem at_owned (owned : Owned s owner) (i : Nat) (pc : Pc) (refs : ∀ funcName entry, (funcName,entry) ∈ pc.refs →
    (funcName,entry) ∈ (s.pc i).refs ∨ s.store.lambdas.lookup funcName = some entry) : Owned (s.at i pc) owner := by
  refine ⟨owned.mapped,?_⟩
  intro j funcName entry member
  change (funcName,entry) ∈ (Function.update s.pc i pc j).refs at member
  rw [Function.update_apply] at member
  split at member
  · rcases refs funcName entry member with before | present
    · exact owned.placed i funcName entry before
    · obtain ⟨known,mine⟩ := owned.mapped funcName entry present
      exact ⟨known,mine,fun later found => Nat.le_of_eq (Option.some.inj (present.symm.trans found))⟩
  · exact owned.placed j funcName entry member

theorem answer_owned (owned : Owned s owner) (i : Nat) (answer : Answer) : Owned (s.answer i answer) owner :=
  have here := at_owned owned i (.answered answer) fun _ _ none => absurd none List.not_mem_nil
  ⟨here.mapped,here.placed⟩

theorem created_owned (owned : Owned s owner) (funcName : String) :
    ∃ owner, Owned {s with store := (s.store.getOrCreateEntry funcName).2} owner := by
  unfold LambdaStore.getOrCreateEntry
  split
  · exact ⟨owner,owned⟩
  · rename_i absent
    -- the new entry is above all that were given out
    have old : ∀ entry, entry < s.store.entries → Function.update owner s.store.entries funcName entry = owner entry :=
      fun entry below => Function.update_of_ne (Nat.ne_of_lt below) _ _
    refine ⟨Function.update owner s.store.entries funcName,?_,?_⟩
    · intro name entry found
      dsimp only at found ⊢
      rw [insert_lookup] at found
      split at found
      · rename_i same
        cases found
        rw [same,Function.update_self]
        exact ⟨Nat.lt_succ_self _,rfl⟩
      · obtain ⟨known,mine⟩ := owned.mapped name entry found
        exact ⟨Nat.lt_succ_of_lt known,(old entry known).trans mine⟩
    · intro j name entry member
      obtain ⟨known,mine,ordered⟩ := owned.placed j name entry member
      refine ⟨Nat.lt_succ_of_lt known,(old entry known).trans mine,?_⟩
      intro later found
      dsimp only at found
      rw [insert_lookup] at found
      split at found
      · cases found
        exact Nat.le_of_lt known
      · exact ordered later found

theorem removed_owned (owned : Owned s owner) (env : StoreEnv) (funcName : String) :
    Owned {s with store := s.store.removeEntry env funcName} owner := by
  have still : ∀ name entry, (s.store.lambdas.erase funcName).lookup name = some entry →
      s.store.lambdas.lookup name = some entry := by
    intro name entry found
    rw [erase_lookup] at found
    split at found
    · cases found
    · exact found
  constructor
  · exact fun name entry found => owned.mapped name entry (still name entry found)
  · intro j name entry member
    obtain ⟨known,mine,ordered⟩ := owned.placed j name entry member
    exact ⟨known,mine,fun later found => ordered later (still name later found)⟩

theorem registered_owned (owned : Owned s owner) (env : StoreEnv) (funcName : String) (entry : Nat) (cfg : LambdaConfig) :
    Owned {s with store := ((s.store.setConfig entry cfg).registerTriggers env funcName cfg).2} owner :=
  have frame := registerTriggers_frame (s.store.setConfig entry cfg) env funcName cfg
  store_owned owned frame.2.1 frame.2.2.2.1

theorem same_owned (owned : Owned s owner) (here : s.pc i = before) (pc : Pc) (refs : pc.refs = before.refs) :
    Owned (s.at i pc) owner := by
  apply at_owned owned
  intro funcName entry member
  rw [here,← refs]
  exact .inl member

theorem lock_owned (owned : Owned s owner) (i entry : Nat) : Owned (s.lock i entry) owner := ⟨owned.mapped,owned.placed⟩

theorem spawn_owned (owned : Owned s owner) (pc : Pc) (refs : pc.refs = []) : Owned (s.spawn pc) owner := by
  have turned := at_owned owned s.next pc (by rw [refs]; exact fun _ _ none => absurd none List.not_mem_nil)
  exact ⟨turned.mapped,turned.placed⟩

theorem lookup_owned (owned : Owned s owner) (here : s.pc i = before) (pc : Pc)
    (refs : pc.refs = before.refs ++ [(funcName,(s.store.getOrCreateEntry funcName).1)]) :
    ∃ owner, Owned ({s with store := (s.store.getOrCreateEntry funcName).2}.at i pc) owner := by
  obtain ⟨owner,created⟩ := created_owned owned funcName
  refine ⟨owner,at_owned created i pc ?_⟩
  intro name entry member
  rw [refs] at member
  rcases List.mem_append.mp member with old | new
  · refine .inl ?_
    dsimp only
    rw [here]
    exact old
  · cases List.mem_singleton.mp new
    exact .inr (getOrCreate_lookup s.store funcName)

theorem move_owned (owned : Owned s owner) (moved : Move s i env t) : ∃ owner, Owned t owner := by
  cases moved with
  | added here | got here | reentered here => exact lookup_owned owned here _ rfl
  | addLocked here | removeLocked here | getLocked here | relocked here =>
      exact ⟨owner,same_owned (lock_owned owned i _) here _ rfl⟩
  | valid here | read here => exact ⟨owner,same_owned owned here _ rfl⟩
  | wrote here =>
      obtain ⟨_,lambdas,_,entries,_⟩ := putBlob_frame s.store _ _
      exact ⟨owner,same_owned (store_owned owned lambdas entries) here _ rfl⟩
  | unwritten =>
      obtain ⟨_,lambdas,_,entries,_⟩ := putBlob_frame s.store _ _
      exact ⟨owner,answer_owned (store_owned owned lambdas entries) i _⟩
  | found here free present =>
      have turned := at_owned owned i (.removeLocking _ _) fun name entry member => by
        cases List.mem_singleton.mp member
        exact .inr present
      exact ⟨owner,turned.mapped,turned.placed⟩
  | invalid | unknown | cached | unread | listed => exact ⟨owner,answer_owned owned i _⟩
  | registered | reloaded => exact ⟨owner,answer_owned (registered_owned owned env _ _ _) i _⟩
  | removed => exact ⟨owner,answer_owned (removed_owned owned env _) i _⟩

theorem turn_owned (owned : Owned s owner) (turn : Turn s action t) : ∃ owner, Owned t owner := by
  cases turn with
  | upload | delete | config | list => exact ⟨owner,spawn_owned owned _ rfl⟩
  | moved moved => exact move_owned owned moved
  | deleted | foreign => exact ⟨owner,store_owned owned rfl rfl⟩

theorem loaded_owned (owned : Owned (start store) owner) (env : StoreEnv) (funcName : String) :
    ∃ owner, Owned (start (store.loadConfigAndRegister env funcName).2) owner := by
  unfold LambdaStore.loadConfigAndRegister
  split
  · exact ⟨owner,owned⟩
  · obtain ⟨owner,created⟩ := created_owned owned funcName
    exact ⟨owner,registered_owned created env funcName _ _⟩

theorem loadAll_owned (env : String → StoreEnv) (keys : List String) (owned : Owned (start store) owner) :
    ∃ owner, Owned (start (store.loadAll env keys)) owner := by
  induction keys generalizing store owner with
  | nil => exact ⟨owner,owned⟩
  | cons key rest ih =>
      unfold LambdaStore.loadAll
      split
      · obtain ⟨_,loaded⟩ := loaded_owned owned _ _
        exact ih loaded
      · exact ih owned

theorem empty_owned (bucket : AList fun _ : String => Tarball) (pool : Bool) :
    Owned (start (emptyStore bucket pool)) fun _ => "" := by
  constructor
  · intro funcName entry found
    cases (AList.lookup_empty funcName).symm.trans found
  · exact fun _ _ _ none => absurd none List.not_mem_nil

theorem start_owned (started : newLambdaStore env bucket pool listing = .ok store) :
    ∃ owner, Owned (start store) owner := by
  unfold newLambdaStore at started
  split at started
  · cases started
  · cases started
    exact loadAll_owned env bucket.keys (empty_owned bucket pool)

inductive Change (s t : System) (funcName : String) : Prop where
  | same : t.store.lambdas.lookup funcName = s.store.lambdas.lookup funcName → Change s t funcName
  | created : s.store.lambdas.lookup funcName = none → t.store.lambdas.lookup funcName = some s.store.entries →
      Change s t funcName
  | removed (i entry : Nat) : s.pc i = .unregistering funcName entry → t.pc i = .answered (.removed none) →
      t.store.lambdas.lookup funcName = none → Change s t funcName

theorem created_change (s : System) (name funcName : String) (i : Nat) (pc : Pc) :
    Change s ({s with store := (s.store.getOrCreateEntry name).2}.at i pc) funcName := by
  cases present : s.store.lambdas.lookup name with
  | some entry =>
      refine .same ?_
      change (s.store.getOrCreateEntry name).2.lambdas.lookup funcName = _
      simp only [LambdaStore.getOrCreateEntry,present]
  | none =>
      have after : (s.store.getOrCreateEntry name).2.lambdas.lookup funcName =
          if funcName = name then some s.store.entries else s.store.lambdas.lookup funcName := by
        simp only [LambdaStore.getOrCreateEntry,present]
        exact insert_lookup _ _ _ _
      split at after
      · rename_i same
        rw [← same] at present
        exact .created present after
      · exact .same after

inductive Effect (s : System) (i : Nat) (env : StoreEnv) : LambdaStore → Prop where
  | none : Effect s i env s.store
  | looked (funcName : String) : Effect s i env (s.store.getOrCreateEntry funcName).2
  | wrote : s.pc i = .writing funcName body entry cfg →
      Effect s i env (s.store.putBlob funcName (env.upload.write body).2)
  | registered : s.pc i = .registering funcName entry cfg →
      Effect s i env ((s.store.setConfig entry cfg).registerTriggers env funcName cfg).2
  | reloaded : s.pc i = .reloading funcName entry cfg other →
      Effect s i env ((s.store.setConfig other cfg).registerTriggers env funcName cfg).2
  | removed : s.pc i = .unregistering funcName entry → Effect s i env (s.store.removeEntry env funcName)

theorem move_effect (moved : Move s i env t) : Effect s i env t.store := by
  cases moved with
  | added | got | reentered => exact .looked _
  | addLocked | invalid | valid | unknown | found | removeLocked | getLocked | cached | unread | read | relocked
  | listed => exact .none
  | unwritten here | wrote here => exact .wrote here
  | registered here => exact .registered here
  | reloaded _ here => exact .reloaded here
  | removed here => exact .removed here

theorem move_change (moved : Move s i env t) (funcName : String) : Change s t funcName := by
  cases moved with
  | added | got | reentered => exact created_change s _ funcName i _
  | addLocked | invalid | valid | unknown | found | removeLocked | getLocked | cached | unread | read | relocked
  | listed => exact .same rfl
  | unwritten | wrote => exact .same (congrArg (AList.lookup funcName) (putBlob_frame s.store _ _).2.1)
  | registered | reloaded => exact .same (congrArg (AList.lookup funcName) (registerTriggers_frame _ _ _ _).2.1)
  | @removed name entry here =>
      have after : (s.store.lambdas.erase name).lookup funcName = _ := erase_lookup s.store.lambdas name funcName
      split at after
      · rename_i same
        subst same
        exact .removed i entry here (Function.update_self _ _ _) after
      · exact .same after

theorem turn_change (turn : Turn s action t) (funcName : String) : Change s t funcName := by
  cases turn with
  | moved moved => exact move_change moved funcName
  | upload | delete | config | list | deleted | foreign => exact .same rfl

theorem move_other (moved : Move s i env t) (other : j ≠ i) : t.pc j = s.pc j := by
  cases moved <;> exact Function.update_of_ne other _ _

def Action.arrives : Action → Option Pc
  | .upload funcName body => some (.adding funcName body)
  | .delete funcName => some (.removing funcName)
  | .config funcName => some (.getting funcName)
  | .list => some .listing
  | _ => none

theorem turn_place (turn : Turn s action t) (j : Nat) : t.pc j = s.pc j ∨
    (∃ env, action = .go j env ∧ Move s j env t) ∨ action.arrives = some (t.pc j) ∧ j = s.next := by
  have spawned : ∀ pc : Pc, (s.spawn pc).pc j = s.pc j ∨ some pc = some ((s.spawn pc).pc j) ∧ j = s.next := by
    intro pc
    by_cases new : j = s.next
    · subst new
      exact .inr ⟨congrArg some (Function.update_self s.next pc s.pc).symm,rfl⟩
    · exact .inl (Function.update_of_ne new _ _)
  cases turn with
  | upload | delete | config | list => exact (spawned _).imp id .inr
  | @moved i env _ moved =>
      by_cases mine : j = i
      · subst mine
        exact .inr (.inl ⟨env,rfl,moved⟩)
      · exact .inl (move_other moved mine)
  | deleted | foreign => exact .inl rfl

def Pc.removes : Pc → Option (String × Nat)
  | .removeLocking funcName entry | .unregistering funcName entry => some (funcName,entry)
  | _ => none

def Removing (s : System) : Prop :=
  ∀ j funcName entry, (s.pc j).removes = some (funcName,entry) → s.store.lambdas.lookup funcName = some entry

theorem lookup_kept (locked : Locked s) (removing : Removing s) (turn : Turn s action t) (stays : t.pc j = s.pc j)
    (present : s.store.lambdas.lookup funcName = some entry)
    (held : entry ∈ (s.pc j).holds ∨ (s.pc j).holdsMap = true) : t.store.lambdas.lookup funcName = some entry := by
  cases turn_change turn funcName with
  | same same => exact same.trans present
  | created absent => cases absent.symm.trans present
  | removed i other here after =>
      have equal := removing i funcName other (congrArg Pc.removes here)
      cases present.symm.trans equal
      have mine : i = j := by
        rcases held with lock | map
        · exact holds_unique locked (by rw [here]; exact List.mem_singleton_self _) lock
        · exact holdsMap_unique locked (congrArg Pc.holdsMap here) map
      subst mine
      cases (after.symm.trans stays).trans here

theorem removes_holdsMap {pc : Pc} (removes : pc.removes = some (funcName,entry)) : pc.holdsMap = true := by
  cases pc with
  | removeLocking | unregistering => rfl
  | _ => cases removes

theorem move_removes (moved : Move s i env t) (here : (t.pc i).removes = some (funcName,entry)) :
    s.store.lambdas.lookup funcName = some entry ∧ t.store = s.store ∨
      (s.pc i).removes = some (funcName,entry) ∧ t.store = s.store := by
  cases moved with
  | found _ _ present =>
      rw [at_pc] at here
      cases here
      exact .inl ⟨present,rfl⟩
  | removeLocked before =>
      rw [at_pc] at here
      exact .inr ⟨(congrArg Pc.removes before).trans here,rfl⟩
  | added | addLocked | valid | wrote | got | getLocked | read | reentered | relocked =>
      rw [at_pc] at here
      cases here
  | invalid | unwritten | registered | unknown | removed | cached | unread | reloaded | listed =>
      rw [answer_pc] at here
      cases here

theorem arrives_parts {action : Action} (arriving : action.arrives = some pc) :
    pc.refs = [] ∧ pc.holds = [] ∧ pc.removes = none := by
  cases action with
  | upload | delete | config | list => cases arriving; exact ⟨rfl,rfl,rfl⟩
  | go | deleted | foreign => cases arriving

theorem turn_removing (locked : Locked s) (removing : Removing s) (turn : Turn s action t) : Removing t := by
  intro j funcName entry here
  rcases turn_place turn j with stays | ⟨env,_,moved⟩ | ⟨arriving,_⟩
  · rw [stays] at here
    exact lookup_kept locked removing turn stays (removing j funcName entry here) (.inr (removes_holdsMap here))
  · rcases move_removes moved here with ⟨present,same⟩ | ⟨before,same⟩
    · rw [same]
      exact present
    · rw [same]
      exact removing j funcName entry before
  · cases (arrives_parts arriving).2.2.symm.trans here

structure Sound (s : System) : Prop where
  locked : Locked s
  owned : ∃ owner, Owned s owner
  removing : Removing s

theorem start_sound (started : newLambdaStore env bucket pool listing = .ok store) : Sound (start store) where
  locked := start_locked store
  owned := start_owned started
  removing := fun _ _ _ => nofun

theorem turn_sound (sound : Sound s) (turn : Turn s action t) : Sound t where
  locked := turn_locked sound.locked turn
  owned := sound.owned.elim fun _ owned => turn_owned owned turn
  removing := turn_removing sound.locked sound.removing turn

end OpenLambda.Boss.Requests
