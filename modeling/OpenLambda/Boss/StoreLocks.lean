import OpenLambda.Boss.StoreEntries
import OpenLambda.Boss.UploadFailures
import OpenLambda.Foundation.Waits

namespace OpenLambda.Boss.Requests
open OpenLambda.Common Foundation.Runs Foundation.Waits

def Waits (s : System) (i j : Nat) : Prop :=
  (s.pc i).wantsMap = true ∧ s.mapLock = some j ∨ ∃ entry, (s.pc i).wants = some entry ∧ s.entryLock entry = some j

-- A GetConfig that has loaded the config has an entry that is not in the map any more.
def reloadsOther (s : System) : Action → Bool
  | .go i env => match s.pc i with
      | .looking funcName entry => match s.store.config entry,s.store.readConfig env funcName with
          | none,.ok _ => decide (s.store.lambdas.lookup funcName ≠ some entry)
          | _,_ => true
      | _ => true
  | _ => true

def Pc.keeps : Pc → Option (String × Nat)
  | .reentering funcName entry _ | .relocking funcName entry _ _ => some (funcName,entry)
  | _ => none

theorem keeps_refs {pc : Pc} (keeps : pc.keeps = some (funcName,entry)) : (funcName,entry) ∈ pc.refs := by
  cases pc with
  | reentering | relocking => cases keeps; exact List.mem_cons_self
  | _ => cases keeps

structure Ordered (s : System) : Prop where
  removed : ∀ j funcName entry, (s.pc j).keeps = some (funcName,entry) → s.store.lambdas.lookup funcName ≠ some entry
  newer : ∀ j funcName entry cfg other, s.pc j = .relocking funcName entry cfg other → entry < other

theorem start_ordered (store : LambdaStore) : Ordered (start store) := ⟨fun _ _ _ => nofun,fun _ _ _ _ _ => nofun⟩

theorem removed_kept (owned : Owned s owner) (turn : Turn s action t) (known : (funcName,entry) ∈ (s.pc j).refs)
    (gone : s.store.lambdas.lookup funcName ≠ some entry) : t.store.lambdas.lookup funcName ≠ some entry := by
  cases turn_change turn funcName with
  | same same => rw [same]; exact gone
  | created _ after =>
      rw [after]
      intro same
      have below := (owned.placed j funcName entry known).1
      rw [Option.some.inj same] at below
      exact Nat.lt_irrefl _ below
  | removed _ _ _ _ after => rw [after]; nofun

theorem move_keeps (moved : Move s i env t) (here : (t.pc i).keeps = some (funcName,entry)) :
    (s.pc i).keeps = some (funcName,entry) ∨ ∃ cfg, s.pc i = .looking funcName entry ∧ s.store.config entry = none ∧
      s.store.readConfig env funcName = .ok cfg ∧ t.store = s.store := by
  cases moved with
  | read before missing loaded =>
      rw [at_pc] at here
      cases here
      exact .inr ⟨_,before,missing,loaded,rfl⟩
  | reentered before =>
      rw [at_pc] at here
      exact .inl ((congrArg Pc.keeps before).trans here)
  | added | addLocked | valid | wrote | found | removeLocked | got | getLocked | relocked =>
      rw [at_pc] at here
      cases here
  | invalid | unwritten | registered | unknown | removed | cached | unread | reloaded | listed =>
      rw [answer_pc] at here
      cases here

theorem turn_ordered (owned : Owned s owner) (ordered : Ordered s) (met : reloadsOther s action = true)
    (after : Owned t owner') (turn : Turn s action t) : Ordered t := by
  have removed : ∀ j funcName entry, (t.pc j).keeps = some (funcName,entry) →
      t.store.lambdas.lookup funcName ≠ some entry := by
    intro j funcName entry here
    rcases turn_place turn j with stays | ⟨env,rfl,moved⟩ | ⟨arriving,_⟩
    · rw [stays] at here
      exact removed_kept owned turn (keeps_refs here) (ordered.removed j funcName entry here)
    · rcases move_keeps moved here with before | ⟨cfg,before,missing,loaded,same⟩
      · exact removed_kept owned turn (keeps_refs before) (ordered.removed j funcName entry before)
      · rw [same]
        simpa [reloadsOther,before,missing,loaded] using met
    · have known := keeps_refs here
      rw [(arrives_parts arriving).1] at known
      cases known
  refine ⟨removed,?_⟩
  intro j funcName entry cfg other here
  rcases turn_place turn j with stays | ⟨env,rfl,moved⟩ | ⟨arriving,_⟩
  · exact ordered.newer j funcName entry cfg other (stays.symm.trans here)
  · cases moved with
    | reentered before =>
        rw [at_pc] at here
        cases here
        have present := getOrCreate_lookup s.store funcName
        have notNewer := (after.placed j funcName entry (by rw [at_pc]; exact List.mem_cons_self)).2.2 _ present
        refine Nat.lt_of_le_of_ne notNewer ?_
        intro same
        refine removed j funcName entry (congrArg Pc.keeps (at_pc _ _ _)) ?_
        rw [same]
        exact present
    | read | added | addLocked | valid | wrote | found | removeLocked | got | getLocked | relocked =>
        rw [at_pc] at here
        cases here
    | invalid | unwritten | registered | unknown | removed | cached | unread | reloaded | listed =>
        rw [answer_pc] at here
        cases here
  · have none := (arrives_parts arriving).1
    rw [here] at none
    cases none

-- Requests that wait for one another, in the order of the entries that they keep;
-- the one with mapLock comes last.
def System.rank (s : System) (i : Nat) : Nat :=
  match s.pc i with
  | .reentering _ entry _ | .relocking _ entry _ _ => entry + 1
  | .removeLocking _ _ => s.store.entries + 1
  | _ => 0

theorem rank_bounded (owned : Owned s owner) (i : Nat) : s.rank i ≤ s.store.entries + 1 := by
  unfold System.rank
  split
  · rename_i funcName entry cfg here
    have below := (owned.placed i funcName entry (by rw [here]; exact List.mem_cons_self)).1
    exact Nat.succ_le_succ (Nat.le_of_lt below)
  · rename_i funcName entry cfg other here
    have below := (owned.placed i funcName entry (by rw [here]; exact List.mem_cons_self)).1
    exact Nat.succ_le_succ (Nat.le_of_lt below)
  · exact Nat.le_refl _
  · exact Nat.zero_le _

theorem waits_parts (waits : Waits s i j) : (s.pc i).wantsMap = true ∨ ∃ entry, (s.pc i).wants = some entry := by
  rcases waits with ⟨map,_⟩ | ⟨entry,wants,_⟩
  · exact .inl map
  · exact .inr ⟨entry,wants⟩

theorem holdsMap_waiting {pc : Pc} (held : pc.holdsMap = true) (waiting : pc.wantsMap = true ∨ ∃ entry, pc.wants = some entry) :
    ∃ funcName entry, pc = .removeLocking funcName entry := by
  cases pc with
  | removeLocking funcName entry => exact ⟨funcName,entry,rfl⟩
  | unregistering =>
      rcases waiting with map | ⟨_,wants⟩
      · cases map
      · cases wants
  | _ => cases held

theorem holds_waiting {pc : Pc} (held : entry ∈ pc.holds)
    (waiting : pc.wantsMap = true ∨ ∃ entry, pc.wants = some entry) : ∃ funcName, pc.keeps = some (funcName,entry) := by
  cases pc with
  | reentering funcName | relocking funcName =>
      cases List.mem_singleton.mp held
      exact ⟨funcName,rfl⟩
  | validating | writing | registering | unregistering | looking | reloading =>
      rcases waiting with map | ⟨_,wants⟩
      · cases map
      · cases wants
  | idle | adding | addLocking | removing | removeLocking | getting | getLocking | listing | answered => cases held

theorem keeps_rank {s : System} (keeps : (s.pc i).keeps = some (funcName,entry)) : s.rank i = entry + 1 := by
  unfold System.rank
  cases here : s.pc i with
  | reentering | relocking => rw [here] at keeps; cases keeps; rfl
  | _ => rw [here] at keeps; cases keeps

theorem rank_rises (locked : Locked s) (owned : Owned s owner) (removing : Removing s) (ordered : Ordered s)
    (first : Waits s i j) (second : Waits s j k) : s.rank i < s.rank j := by
  have waiting := waits_parts second
  rcases first with ⟨map,lock⟩ | ⟨entry,wants,lock⟩
  · -- mapLock is with a request that is to remove a name
    obtain ⟨funcName,entry,there⟩ := holdsMap_waiting ((locked.map j).mp lock) waiting
    have last : s.rank j = s.store.entries + 1 := by simp only [System.rank,there]
    rw [last]
    cases here : s.pc i with
    | adding | removing | getting | listing => simp only [System.rank,here]; exact Nat.succ_pos _
    | reentering name kept cfg =>
        have below := (owned.placed i name kept (by rw [here]; exact List.mem_cons_self)).1
        simp only [System.rank,here]
        exact Nat.succ_lt_succ below
    | _ => rw [here] at map; cases map
  · obtain ⟨funcName,keeps⟩ := holds_waiting ((locked.entry entry j).mp lock) waiting
    rw [keeps_rank keeps]
    cases here : s.pc i with
    | addLocking | getLocking => simp only [System.rank,here]; exact Nat.succ_pos _
    | relocking name kept cfg other =>
        rw [here] at wants
        cases wants
        have newer := ordered.newer i name kept cfg entry here
        simp only [System.rank,here]
        exact Nat.succ_lt_succ newer
    | removeLocking name other =>
        -- the entry that it is to remove is in the map
        rw [here] at wants
        cases wants
        have present := removing i name entry (congrArg Pc.removes here)
        have mine := (owned.mapped name entry present).2
        have theirs := (owned.placed j funcName entry (keeps_refs keeps)).2.1
        rw [mine.symm.trans theirs] at present
        exact absurd present (ordered.removed j funcName entry keeps)
    | _ => rw [here] at wants; cases wants

theorem requests_not_deadlocked (started : newLambdaStore env bucket pool listing = .ok store)
    (meets : Meets step (fun s action => reloadsOther s action = true) (start store) actions)
    (ran : run step (start store) actions = some t) (parties : Set Nat) : ¬ Deadlocked (Waits t) parties := by
  have reached : Sound t ∧ Ordered t := by
    refine run_preserves_guarded (fun s => Sound s ∧ Ordered s) ?_ ⟨start_sound started,start_ordered store⟩ meets ran
    rintro s action next ⟨sound,ordered⟩ met moved
    have after := turn_sound sound (step_turn moved)
    obtain ⟨_,before⟩ := sound.owned
    obtain ⟨_,later⟩ := after.owned
    exact ⟨after,turn_ordered before ordered met later (step_turn moved)⟩
  obtain ⟨sound,ordered⟩ := reached
  obtain ⟨owner,owned⟩ := sound.owned
  exact not_deadlocked t.rank (t.store.entries + 1) (rank_bounded owned)
    (fun _ _ _ first second => rank_rises sound.locked owned sound.removing ordered first second) parties

-- The tarball comes from another process; the config request has looked up its entry
-- when a delete request removes the name.
def removedWhileGetting : List Action :=
  .foreign (keyOf "f") (some (cronTarball [])) :: .config "f" :: .go 0 plainEnv :: .delete "f" ::
    List.replicate 3 (.go 1 plainEnv) ++ List.replicate 3 (.go 0 plainEnv)

theorem requests_not_deadlocked_removed : ∃ t, run step (start (emptyStore ∅ false)) removedWhileGetting = some t ∧
    t.pc 0 = .relocking "f" 0 ⟨⟨[],[],[]⟩,[],true⟩ 1 ∧ ∀ parties, ¬ Deadlocked (Waits t) parties := by
  have started : newLambdaStore (fun _ => plainEnv) ∅ false none = .ok (emptyStore ∅ false) := rfl
  have meets : Meets step (fun s action => reloadsOther s action = true) (start (emptyStore ∅ false)) removedWhileGetting := by
    decide +kernel
  obtain ⟨t,ran,here⟩ : ∃ t, run step (start (emptyStore ∅ false)) removedWhileGetting = some t ∧
      t.pc 0 = .relocking "f" 0 ⟨⟨[],[],[]⟩,[],true⟩ 1 := run_seen (by decide +kernel)
  exact ⟨t,ran,here,requests_not_deadlocked started meets ran⟩

def unloadedEnv : StoreEnv := {plainEnv with load := ⟨"not found",none,none,some "unexpected EOF",none⟩}

theorem config_request_deadlocks :
    ∃ store, newLambdaStore (fun _ => unloadedEnv) ((∅ : AList fun _ : String => Tarball).insert "f.tar.gz" (cronTarball []))
        false none = .ok store ∧
      ∃ t, run step (start store) (.config "f" :: List.replicate 4 (.go 0 plainEnv)) = some t ∧ Deadlocked (Waits t) {0} := by
  refine ⟨_,rfl,?_⟩
  obtain ⟨t,ran,here,held⟩ : ∃ t, run step (start ((emptyStore
        ((∅ : AList fun _ : String => Tarball).insert "f.tar.gz" (cronTarball [])) false).loadAll (fun _ => unloadedEnv)
        ["f.tar.gz"])) (.config "f" :: List.replicate 4 (.go 0 plainEnv)) = some t ∧
      (t.pc 0 = .relocking "f" 0 ⟨⟨[],[],[]⟩,[],true⟩ 0 ∧ t.entryLock 0 = some 0) := run_seen (by decide +kernel)
  exact ⟨t,ran,deadlocked_self (.inr ⟨0,congrArg Pc.wants here,held⟩)⟩

end OpenLambda.Boss.Requests
