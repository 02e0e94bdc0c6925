import OpenLambda.Boss.StoreEntries
import OpenLambda.Boss.UploadFailures

namespace OpenLambda.Boss.Requests
open OpenLambda.Common Foundation.Maps Foundation.Runs

def Action.ofUploads : Action → Bool
  | .config _ | .foreign _ _ => false
  | _ => true

def Pc.ofConfig : Pc → Bool
  | .getting _ | .getLocking _ _ | .looking _ _ | .reentering _ _ _ | .relocking _ _ _ _ | .reloading _ _ _ _ => true
  | _ => false

def Pc.deletes : Pc → Option String
  | .removing funcName | .removeLocking funcName _ | .unregistering funcName _ => some funcName
  | _ => none

def Pc.uploads : Pc → Option (String × Nat)
  | .validating funcName _ entry | .writing funcName _ entry _ | .registering funcName entry _ => some (funcName,entry)
  | _ => none

theorem uploads_holds {pc : Pc} (uploads : pc.uploads = some (funcName,entry)) : entry ∈ pc.holds := by
  cases pc with
  | validating | writing | registering => cases uploads; exact List.mem_singleton_self _
  | _ => cases uploads

-- An upload of the name gets the lock of an entry that is still in the map, and
-- writes when no background deletion of its blob is under way.
def settled (funcName : String) (s : System) : Action → Bool
  | .go i _ => match s.pc i with
      | .addLocking name _ entry => decide (name = funcName → s.store.lambdas.lookup funcName = some entry)
      | .writing name _ _ _ => decide (name = funcName → keyOf funcName ∉ s.store.deletions)
      | _ => true
  | _ => true

def writes (funcName : String) (s : System) : Action → Bool
  | .go i _ => match s.pc i with
      | .writing name _ _ _ => decide (name = funcName)
      | _ => false
  | _ => false

theorem keyOf_injective (same : keyOf name = keyOf other) : name = other := by
  unfold keyOf at same
  rw [← String.toList_inj,String.toList_append,String.toList_append] at same
  exact String.toList_inj.mp (List.append_cancel_right same)

theorem putBlob_other (s : LambdaStore) (written : Option Tarball) (differs : name ≠ funcName) :
    (s.putBlob name written).bucket.lookup (keyOf funcName) = s.bucket.lookup (keyOf funcName) := by
  cases written with
  | none => rfl
  | some tar => exact AList.lookup_insert_ne fun same => differs (keyOf_injective same).symm

theorem turn_blob (turn : Turn s action t) (only : action.ofUploads = true) (unwritten : writes funcName s action = false)
    (pending : keyOf funcName ∉ s.store.deletions) :
    t.store.bucket.lookup (keyOf funcName) = s.store.bucket.lookup (keyOf funcName) := by
  cases turn with
  | upload | delete | config | list => rfl
  | foreign => cases only
  | @deleted key failed under =>
      have differs : keyOf funcName ≠ key := fun same => pending (by rw [same]; exact under)
      cases failed with
      | true => rfl
      | false => exact AList.lookup_erase_ne differs
  | moved moved =>
      have effect := move_effect moved
      generalize t.store = store at effect ⊢
      cases effect with
      | none | removed => rfl
      | looked name => exact congrArg (AList.lookup _) (getOrCreate_frame s.store name).1
      | wrote here => exact putBlob_other s.store _ (by simpa [writes,here] using unwritten)
      | registered | reloaded => exact congrArg (AList.lookup _) (registerTriggers_frame _ _ _ _).1

def Quiet (funcName : String) (s : System) : Prop := ∀ j, (s.pc j).deletes ≠ some funcName

theorem move_deletes (moved : Move s i env t) (here : (t.pc i).deletes = some funcName) :
    (s.pc i).deletes = some funcName := by
  cases moved with
  | found before | removeLocked before =>
      rw [at_pc] at here
      exact (congrArg Pc.deletes before).trans here
  | added | addLocked | valid | wrote | got | getLocked | read | reentered | relocked =>
      rw [at_pc] at here
      cases here
  | invalid | unwritten | registered | unknown | removed | cached | unread | reloaded | listed =>
      rw [answer_pc] at here
      cases here

theorem turn_quiet (quiet : Quiet funcName s) (turn : Turn s action t) (undeleted : action ≠ .delete funcName) :
    Quiet funcName t := by
  intro j here
  rcases turn_place turn j with stays | ⟨env,_,moved⟩ | ⟨arriving,_⟩
  · rw [stays] at here
    exact quiet j here
  · exact quiet j (move_deletes moved here)
  · cases action with
    | delete name =>
        rw [← Option.some.inj arriving] at here
        cases here
        exact undeleted rfl
    | upload | config | list => rw [← Option.some.inj arriving] at here; cases here
    | go | deleted | foreign => cases arriving

theorem turn_deletions (quiet : Quiet funcName s) (turn : Turn s action t)
    (pending : keyOf funcName ∉ s.store.deletions) : keyOf funcName ∉ t.store.deletions := by
  cases turn with
  | upload | delete | config | list | foreign => exact pending
  | deleted => exact fun under => pending (List.mem_of_mem_erase under)
  | @moved i _ _ moved =>
      have effect := move_effect moved
      generalize t.store = store at effect ⊢
      cases effect with
      | none => exact pending
      | looked name => rw [(getOrCreate_frame s.store name).2.2]; exact pending
      | wrote => rw [(putBlob_frame _ _ _).2.2.2.2]; exact pending
      | registered | reloaded => rw [(registerTriggers_frame _ _ _ _).2.2.2.2]; exact pending
      | removed here =>
          intro under
          rcases List.mem_append.mp under with before | new
          · exact pending before
          · refine quiet i ?_
            rw [here,keyOf_injective (List.mem_singleton.mp new)]
            rfl

theorem lookup_steady (quiet : Quiet funcName s) (turn : Turn s action t)
    (present : s.store.lambdas.lookup funcName = some entry) : t.store.lambdas.lookup funcName = some entry := by
  cases turn_change turn funcName with
  | same same => exact same.trans present
  | created absent => cases absent.symm.trans present
  | removed i _ here => exact absurd (congrArg Pc.deletes here) (quiet i)

def NoConfig (s : System) : Prop := ∀ j, (s.pc j).ofConfig = false

theorem move_ofConfig (moved : Move s i env t) (before : (s.pc i).ofConfig = false) : (t.pc i).ofConfig = false := by
  cases moved with
  | got here | getLocked here | read here | reentered here | relocked here => rw [here] at before; cases before
  | added | addLocked | valid | wrote | found | removeLocked => rw [at_pc]; rfl
  | invalid | unwritten | registered | unknown | removed | cached | unread | reloaded | listed => rw [answer_pc]; rfl

theorem turn_noConfig (none : NoConfig s) (turn : Turn s action t) (only : action.ofUploads = true) : NoConfig t := by
  intro j
  rcases turn_place turn j with stays | ⟨env,_,moved⟩ | ⟨arriving,_⟩
  · rw [stays]
    exact none j
  · exact move_ofConfig moved (none j)
  · cases action with
    | upload | delete | list => rw [← Option.some.inj arriving]; rfl
    | config => cases only
    | go | deleted | foreign => cases arriving

def Holding (funcName : String) (s : System) : Prop :=
  ∀ j entry, (s.pc j).uploads = some (funcName,entry) → s.store.lambdas.lookup funcName = some entry

theorem move_uploads (moved : Move s i env t) (here : (t.pc i).uploads = some (funcName,entry)) :
    t.store.lambdas = s.store.lambdas ∧
      ((s.pc i).uploads = some (funcName,entry) ∨ ∃ body, s.pc i = .addLocking funcName body entry) := by
  cases moved with
  | addLocked before =>
      rw [at_pc] at here
      cases here
      exact ⟨rfl,.inr ⟨_,before⟩⟩
  | valid before =>
      rw [at_pc] at here
      exact ⟨rfl,.inl ((congrArg Pc.uploads before).trans here)⟩
  | wrote before =>
      rw [at_pc] at here
      exact ⟨(putBlob_frame _ _ _).2.1,.inl ((congrArg Pc.uploads before).trans here)⟩
  | added | found | removeLocked | got | getLocked | read | reentered | relocked =>
      rw [at_pc] at here
      cases here
  | invalid | unwritten | registered | unknown | removed | cached | unread | reloaded | listed =>
      rw [answer_pc] at here
      cases here

theorem turn_holding (sound : Sound s) (holding : Holding funcName s) (turn : Turn s action t)
    (met : settled funcName s action = true) : Holding funcName t := by
  intro j entry here
  rcases turn_place turn j with stays | ⟨env,rfl,moved⟩ | ⟨arriving,_⟩
  · rw [stays] at here
    exact lookup_kept sound.locked sound.removing turn stays (holding j entry here) (.inl (uploads_holds here))
  · obtain ⟨same,before | ⟨body,before⟩⟩ := move_uploads moved here
    · rw [same]
      exact holding j entry before
    · rw [same]
      simpa [settled,before] using met
  · have held := uploads_holds here
    rw [(arrives_parts arriving).2.1] at held
    cases held

structure Base (funcName : String) (s : System) : Prop where
  sound : Sound s
  noConfig : NoConfig s
  holding : Holding funcName s

theorem turn_base (base : Base funcName s) (turn : Turn s action t) (only : action.ofUploads = true)
    (met : settled funcName s action = true) : Base funcName t where
  sound := turn_sound base.sound turn
  noConfig := turn_noConfig base.noConfig turn only
  holding := turn_holding base.sound base.holding turn met

theorem extract_ok (extracted : extract text openTemp tar = .ok cfg) : extractConfigFromTarGz tar = .ok cfg := by
  unfold extract at extracted
  split at extracted
  · cases extracted
  · split at extracted
    · cases extracted
    · rename_i result
      cases extracted
      exact result

theorem validate_extract {f : UploadFaults} (valid : f.validate body = .ok cfg) : extractConfigFromTarGz body = .ok cfg := by
  unfold UploadFaults.validate at valid
  cases first : failing "failed to create temp tarball: " f.createTemp with
  | error err => rw [first] at valid; cases valid
  | ok done =>
      cases second : failing "failed to write to temp tarball: " f.copyTemp with
      | error err => rw [first,second] at valid; cases valid
      | ok done =>
          cases third : failing "failed to close temp tarball: " f.closeTemp with
          | error err => rw [first,second,third] at valid; cases valid
          | ok done =>
              rw [first,second,third] at valid
              exact extract_ok valid

theorem write_body {f : UploadFaults} (done : (f.write body).1 = none) : (f.write body).2 = some body := by
  unfold UploadFaults.write at done ⊢
  split
  · rename_i result
    rw [result] at done
    cases done
  · rename_i result
    rw [result] at done
    dsimp only at done
    split
    · rename_i copied
      rw [copied] at done
      cases done
    · rename_i copied
      rw [copied] at done
      dsimp only at done
      split
      · rename_i closed
        rw [closed] at done
        cases done
      · rfl

-- How far an upload of the name is; once it has written, its tarball is in the
-- bucket and stays there.
inductive Stage (s : System) (i : Nat) (funcName : String) (body : Tarball) : Prop where
  | adding : s.pc i = .adding funcName body → Stage s i funcName body
  | addLocking : s.pc i = .addLocking funcName body entry → Stage s i funcName body
  | validating : s.pc i = .validating funcName body entry → Stage s i funcName body
  | writing : s.pc i = .writing funcName body entry cfg → extractConfigFromTarGz body = .ok cfg → Stage s i funcName body
  | registering : s.pc i = .registering funcName entry cfg → extractConfigFromTarGz body = .ok cfg →
      s.store.bucket.lookup (keyOf funcName) = some body → keyOf funcName ∉ s.store.deletions → Stage s i funcName body
  | answered : s.pc i = .answered answer → Stage s i funcName body

theorem stage_advance (stage : Stage s i funcName body) (met : settled funcName s (.go i env) = true)
    (moved : s.advance i env = some t) : Stage t i funcName body := by
  cases stage with
  | adding here =>
      simp only [System.advance,here,Option.some.injEq] at moved
      subst moved
      exact .addLocking (at_pc _ i _)
  | addLocking here =>
      simp only [System.advance,here,Option.some.injEq] at moved
      subst moved
      exact .validating (at_pc _ i _)
  | validating here =>
      simp only [System.advance,here] at moved
      split at moved
      · cases moved
        exact .answered (answer_pc _ i _)
      · rename_i valid
        cases moved
        exact .writing (at_pc _ i _) (validate_extract valid)
  | writing here checked =>
      simp only [System.advance,here] at moved
      split at moved
      · cases moved
        exact .answered (answer_pc _ i _)
      · rename_i done
        cases moved
        refine .registering (at_pc _ i _) checked ?_ ?_
        · rw [write_body done]
          exact AList.lookup_insert _
        · change keyOf funcName ∉ (s.store.putBlob funcName _).deletions
          rw [(putBlob_frame _ _ _).2.2.2.2]
          simpa [settled,here] using met
  | registering here =>
      simp only [System.advance,here,Option.some.injEq] at moved
      subst moved
      exact .answered (answer_pc _ i _)
  | answered here =>
      simp only [System.advance,here] at moved
      cases moved

theorem alone_writing (base : Base funcName s) (mine : (s.pc i).uploads = some (funcName,entry))
    (written : ∀ body entry cfg, s.pc i ≠ .writing funcName body entry cfg) : writes funcName s action = false := by
  cases action with
  | go j env =>
      unfold writes
      dsimp only
      split
      · rename_i name body other cfg here
        apply decide_eq_false
        rintro rfl
        have uploads : (s.pc j).uploads = some (name,other) := congrArg Pc.uploads here
        have same := (base.holding i entry mine).symm.trans (base.holding j other uploads)
        cases same
        have equal := holds_unique base.sound.locked (uploads_holds mine) (uploads_holds uploads)
        subst equal
        exact written _ _ _ here
      · rfl
  | upload | delete | config | list | deleted | foreign => rfl

theorem stage_turn (base : Base funcName s) (quiet : Quiet funcName s) (stage : Stage s i funcName body)
    (moved : step s action = some t) (only : action.ofUploads = true) (met : settled funcName s action = true) :
    Stage t i funcName body := by
  have turn := step_turn moved
  rcases turn_place turn i with stays | ⟨env,rfl,_⟩ | ⟨_,rfl⟩
  · cases stage with
    | adding here => exact .adding (stays.trans here)
    | addLocking here => exact .addLocking (stays.trans here)
    | validating here => exact .validating (stays.trans here)
    | writing here checked => exact .writing (stays.trans here) checked
    | registering here checked blob pending =>
        have unwritten : writes funcName s action = false :=
          alone_writing base (congrArg Pc.uploads here) fun _ _ _ other => nomatch here.symm.trans other
        exact .registering (stays.trans here) checked ((turn_blob turn only unwritten pending).trans blob)
          (turn_deletions quiet turn pending)
    | answered here => exact .answered (stays.trans here)
  · exact stage_advance stage met (go_parts moved).1
  · -- the request is there already
    have idle := base.sound.locked.fresh s.next (Nat.le_refl _)
    cases stage with
    | adding here | addLocking here | validating here | writing here | registering here | answered here =>
        cases idle.symm.trans here

structure Durable (funcName : String) (body : Tarball) (cfg : LambdaConfig) (s : System) : Prop where
  blob : s.store.bucket.lookup (keyOf funcName) = some body
  pending : keyOf funcName ∉ s.store.deletions
  config : ∃ entry, s.store.lambdas.lookup funcName = some entry ∧ s.store.config entry = some cfg
  written : ∀ j entry other, s.pc j ≠ .registering funcName entry other

theorem success_parts (stage : Stage s i funcName body) (moved : s.advance i env = some t)
    (success : t.pc i = .answered (.added none)) :
    ∃ entry cfg, s.pc i = .registering funcName entry cfg ∧ extractConfigFromTarGz body = .ok cfg ∧
      s.store.bucket.lookup (keyOf funcName) = some body ∧ keyOf funcName ∉ s.store.deletions ∧
      t.store = ((s.store.setConfig entry cfg).registerTriggers env funcName cfg).2 := by
  cases stage with
  | registering here checked blob pending =>
      simp only [System.advance,here,Option.some.injEq] at moved
      subst moved
      exact ⟨_,_,here,checked,blob,pending,rfl⟩
  | adding here | addLocking here =>
      simp only [System.advance,here,Option.some.injEq] at moved
      subst moved
      rw [at_pc] at success
      cases success
  | validating here | writing here =>
      simp only [System.advance,here] at moved
      split at moved
      · cases moved
        rw [answer_pc] at success
        cases success
      · cases moved
        rw [at_pc] at success
        cases success
  | answered here =>
      simp only [System.advance,here] at moved
      cases moved

theorem success_durable (base : Base funcName s) (stage : Stage s i funcName body) (moved : Move s i env t)
    (advanced : s.advance i env = some t) (success : t.pc i = .answered (.added none)) :
    ∃ cfg, extractConfigFromTarGz body = .ok cfg ∧ Durable funcName body cfg t := by
  obtain ⟨entry,cfg,here,checked,blob,pending,after⟩ := success_parts stage advanced success
  obtain ⟨bucket,lambdas,config,_,deletions⟩ := registerTriggers_frame (s.store.setConfig entry cfg) env funcName cfg
  have mine : (s.pc i).uploads = some (funcName,entry) := congrArg Pc.uploads here
  refine ⟨cfg,checked,?_,?_,⟨entry,?_,?_⟩,?_⟩
  · rw [after,bucket]
    exact blob
  · rw [after,deletions]
    exact pending
  · rw [after,lambdas]
    exact base.holding i entry mine
  · rw [after,config]
    exact Function.update_self _ _ _
  · intro j entry' cfg' there
    by_cases same : j = i
    · subst same
      cases success.symm.trans there
    · rw [move_other moved same] at there
      have theirs : (s.pc j).uploads = some (funcName,entry') := congrArg Pc.uploads there
      cases (base.holding i entry mine).symm.trans (base.holding j entry' theirs)
      exact same (holds_unique base.sound.locked (uploads_holds theirs) (uploads_holds mine))

theorem getOrCreate_config (s : LambdaStore) (funcName : String) (below : entry < s.entries) :
    (s.getOrCreateEntry funcName).2.config entry = s.config entry := by
  unfold LambdaStore.getOrCreateEntry
  split
  · rfl
  · exact Function.update_of_ne (Nat.ne_of_lt below) _ _

theorem turn_config (base : Base funcName s) (turn : Turn s action t)
    (present : s.store.lambdas.lookup funcName = some entry)
    (written : ∀ j entry other, s.pc j ≠ .registering funcName entry other) :
    t.store.config entry = s.store.config entry := by
  obtain ⟨owner,owned⟩ := base.sound.owned
  obtain ⟨below,mine⟩ := owned.mapped funcName entry present
  cases turn with
  | upload | delete | config | list | deleted | foreign => rfl
  | @moved i _ _ moved =>
      have effect := move_effect moved
      generalize t.store = store at effect ⊢
      cases effect with
      | none | removed => rfl
      | looked name => exact getOrCreate_config s.store name below
      | wrote => rw [(putBlob_frame _ _ _).2.2.1]
      | @registered name other cfg here =>
          rw [(registerTriggers_frame _ _ _ _).2.2.1]
          refine Function.update_of_ne ?_ _ _
          rintro rfl
          have theirs := (owned.placed i name entry (by rw [here]; exact List.mem_singleton_self _)).2.1
          cases mine.symm.trans theirs
          exact written i entry cfg here
      | reloaded here =>
          have none := base.noConfig i
          rw [here] at none
          cases none

theorem durable_turn (base : Base funcName s) (quiet : Quiet funcName s) (durable : Durable funcName body cfg s)
    (turn : Turn s action t) (only : action.ofUploads = true) (unwritten : writes funcName s action = false) :
    Durable funcName body cfg t := by
  obtain ⟨entry,present,config⟩ := durable.config
  refine ⟨(turn_blob turn only unwritten durable.pending).trans durable.blob,turn_deletions quiet turn durable.pending,
    ⟨entry,lookup_steady quiet turn present,(turn_config base turn present durable.written).trans config⟩,?_⟩
  intro j entry' cfg' here
  rcases turn_place turn j with stays | ⟨env,rfl,moved⟩ | ⟨arriving,_⟩
  · exact durable.written j entry' cfg' (stays.symm.trans here)
  · cases moved with
    | wrote before =>
        rw [at_pc] at here
        cases here
        simp [writes,before] at unwritten
    | added | addLocked | valid | found | removeLocked | got | getLocked | read | reentered | relocked =>
        rw [at_pc] at here
        cases here
    | invalid | unwritten | registered | unknown | removed | cached | unread | reloaded | listed =>
        rw [answer_pc] at here
        cases here
  · have none := (arrives_parts arriving).1
    rw [here] at none
    cases none

theorem start_base (started : newLambdaStore env bucket pool listing = .ok store) (funcName : String) :
    Base funcName (start store) := ⟨start_sound started,fun _ => rfl,fun _ _ => nofun⟩

theorem reached_base (base : Base funcName s) (only : ∀ action ∈ actions, action.ofUploads = true)
    (meets : Meets step (fun s action => settled funcName s action = true) s actions)
    (ran : run step s actions = some t) : Base funcName t := by
  have kept : Meets step (fun _ action => action.ofUploads = true) s actions :=
    meets_of_forall (fun action member _ => only action member) s
  refine run_preserves_guarded (Base funcName) ?_ base (meets_and kept meets) ran
  rintro s action next base ⟨only,met⟩ moved
  exact turn_base base (step_turn moved) only met

theorem reached_stage (base : Base funcName s) (quiet : Quiet funcName s)
    (only : ∀ action ∈ middle, action.ofUploads = true) (undeleted : .delete funcName ∉ middle)
    (meets : Meets step (fun s action => settled funcName s action = true) s (.upload funcName body :: middle))
    (ran : run step s (.upload funcName body :: middle) = some t) :
    Base funcName t ∧ Quiet funcName t ∧ Stage t s.next funcName body := by
  obtain ⟨first,arrived,rest⟩ := run_cons_parts ran
  have turn := step_turn arrived
  have kept : Meets step (fun _ action => action.ofUploads = true ∧ action ≠ .delete funcName) first middle :=
    meets_of_forall (fun action member _ => ⟨only action member,fun same => undeleted (same ▸ member)⟩) first
  refine run_preserves_guarded (fun t => Base funcName t ∧ Quiet funcName t ∧ Stage t s.next funcName body) ?_ ?_
    (meets_and kept (meets.2 first arrived)) rest
  · rintro u action v ⟨base,quiet,stage⟩ ⟨⟨only,undeleted⟩,met⟩ moved
    exact ⟨turn_base base (step_turn moved) only met,turn_quiet quiet (step_turn moved) undeleted,
      stage_turn base quiet stage moved only met⟩
  · refine ⟨turn_base base turn rfl rfl,turn_quiet quiet turn nofun,.adding ?_⟩
    cases arrived
    exact Function.update_self _ _ _

theorem reached_durable (base : Base funcName s) (quiet : Quiet funcName s) (durable : Durable funcName body cfg s)
    (only : ∀ action ∈ actions, action.ofUploads = true) (undeleted : .delete funcName ∉ actions)
    (meets : Meets step (fun s action => settled funcName s action = true) s actions)
    (unwritten : Meets step (fun s action => writes funcName s action = false) s actions)
    (ran : run step s actions = some t) : Durable funcName body cfg t := by
  have kept : Meets step (fun _ action => action.ofUploads = true ∧ action ≠ .delete funcName) s actions :=
    meets_of_forall (fun action member _ => ⟨only action member,fun same => undeleted (same ▸ member)⟩) s
  have reached : Base funcName t ∧ Quiet funcName t ∧ Durable funcName body cfg t := by
    refine run_preserves_guarded (fun t => Base funcName t ∧ Quiet funcName t ∧ Durable funcName body cfg t) ?_
      ⟨base,quiet,durable⟩ (meets_and kept (meets_and meets unwritten)) ran
    rintro u action v ⟨base,quiet,durable⟩ ⟨⟨only,undeleted⟩,met,unwritten⟩ moved
    have turn := step_turn moved
    exact ⟨turn_base base turn only met,turn_quiet quiet turn undeleted,durable_turn base quiet durable turn only unwritten⟩
  exact reached.2.2

theorem upload_durable (started : newLambdaStore env bucket pool listing = .ok store)
    (only : ∀ action ∈ before ++ .upload funcName body :: (middle ++ .go s.next faults :: late), action.ofUploads = true)
    (meets : Meets step (fun s action => settled funcName s action = true) (start store)
      (before ++ .upload funcName body :: (middle ++ .go s.next faults :: late)))
    (arrived : run step (start store) before = some s) (answered : ∀ j, (s.pc j).deletes ≠ some funcName)
    (ran : run step s (.upload funcName body :: middle) = some u)
    (returned : step u (.go s.next faults) = some v) (success : v.pc s.next = .answered (.added none))
    (later : run step v late = some t) (undeleted : .delete funcName ∉ middle ++ late)
    (unwritten : Meets step (fun s action => writes funcName s action = false) v late) :
    t.store.bucket.lookup (keyOf funcName) = some body ∧
      ∃ entry cfg, t.store.lambdas.lookup funcName = some entry ∧ t.store.config entry = some cfg ∧
        extractConfigFromTarGz body = .ok cfg := by
  obtain ⟨first,rest⟩ := meets_append before meets arrived
  obtain ⟨second,third⟩ := meets_append (.upload funcName body :: middle) rest ran
  have base := reached_base (start_base started funcName) (fun action member => only action (by simp [member])) first arrived
  obtain ⟨reached,quiet,stage⟩ := reached_stage base answered (fun action member => only action (by simp [member]))
    (fun member => undeleted (by simp [member])) second ran
  obtain ⟨advanced,moved⟩ := go_parts returned
  obtain ⟨cfg,checked,success⟩ := success_durable reached stage moved advanced success
  have durable := reached_durable (turn_base reached (.moved moved) rfl third.1) (turn_quiet quiet (.moved moved) nofun)
    success (fun action member => only action (by simp [member])) (fun member => undeleted (by simp [member]))
    (third.2 v returned) unwritten later
  obtain ⟨entry,present,config⟩ := durable.config
  exact ⟨durable.blob,entry,cfg,present,config,checked⟩

def steps (i n : Nat) : List Action := List.replicate n (.go i plainEnv)

def uploadThenDelete : List Action :=
  .upload "f" (cronTarball []) :: (steps 0 5 ++ .delete "f" :: steps 1 3)

def deletedThenUpload : List Action := uploadThenDelete ++ [.deleted "f.tar.gz" false]

def hourly : Tarball := cronTarball ["0 * * * *"]

theorem upload_durable_again : ∃ t, run step (start (emptyStore ∅ true))
      (deletedThenUpload ++ .upload "f" hourly :: (steps 2 4 ++ [.go 2 plainEnv,.delete "g"])) = some t ∧
    t.store.bucket.lookup (keyOf "f") = some hourly := by
  have started : newLambdaStore (fun _ => plainEnv) ∅ true none = .ok (emptyStore ∅ true) := rfl
  have meets : Meets step (fun s action => settled "f" s action = true) (start (emptyStore ∅ true))
      (deletedThenUpload ++ .upload "f" hourly :: (steps 2 4 ++ [.go 2 plainEnv,.delete "g"])) := by decide +kernel
  obtain ⟨s,arrived,number,first,second,rest⟩ : ∃ s, run step (start (emptyStore ∅ true)) deletedThenUpload = some s ∧
      (s.next = 2 ∧ (s.pc 0).deletes = none ∧ (s.pc 1).deletes = none ∧
        (run step s (.upload "f" hourly :: steps 2 4)).any (fun u => (step u (.go 2 plainEnv)).any fun v =>
          (run step v [.delete "g"]).any fun t => decide (v.pc 2 = .answered (.added none) ∧
            Meets step (fun s action => writes "f" s action = false) v [.delete "g"])) = true) :=
    run_seen (by decide +kernel)
  obtain ⟨u,ran,rest⟩ := (Option.any_eq_true _ _).mp rest
  obtain ⟨v,returned,rest⟩ := (Option.any_eq_true _ _).mp rest
  obtain ⟨t,later,rest⟩ := (Option.any_eq_true _ _).mp rest
  obtain ⟨success,unwritten⟩ := of_decide_eq_true rest
  have answered : ∀ j, (s.pc j).deletes ≠ some "f" := by
    have sound : Sound s := run_preserves Sound (fun _ _ _ sound moved => turn_sound sound (step_turn moved))
      (start_sound started) arrived
    intro j
    match j with
    | 0 => rw [first]; nofun
    | 1 => rw [second]; nofun
    | j + 2 =>
        rw [sound.locked.fresh (j + 2) (by omega)]
        nofun
  refine ⟨t,run_trans arrived (run_trans ran (by simpa [run,returned] using later)),?_⟩
  rw [← number] at meets ran returned success
  refine (upload_durable started ?_ meets arrived answered ran returned success later ?_ unwritten).1
  · simp [deletedThenUpload,uploadThenDelete,steps,Action.ofUploads]
  · simp [steps]

-- The background deletion comes after the upload that followed; and an upload that
-- had looked up its entry before the deletion writes while the other has the new one.
theorem upload_lost :
    (∃ s, run step (start (emptyStore ∅ true)) uploadThenDelete = some s ∧ s.pc 1 = .answered (.removed none)) ∧
    (∃ t, run step (start (emptyStore ∅ true))
        (uploadThenDelete ++ .upload "f" hourly :: (steps 2 5 ++ [.deleted "f.tar.gz" false])) = some t ∧
      (t.pc 2 = .answered (.added none) ∧ t.store.bucket.lookup "f.tar.gz" = none ∧
        t.store.cached "f" = some ⟨⟨[],[⟨"0 * * * *"⟩],[]⟩,[],true⟩)) ∧
    ∃ t, run step (start (emptyStore ∅ true)) (.upload "f" (cronTarball []) :: .go 0 plainEnv :: .delete "f" ::
        (steps 1 3 ++ .deleted "f.tar.gz" false :: .upload "f" hourly :: (steps 2 4 ++ (steps 0 3 ++ steps 2 1)))) = some t ∧
      (t.pc 1 = .answered (.removed none) ∧ t.pc 2 = .answered (.added none) ∧
        t.store.bucket.lookup "f.tar.gz" = some (cronTarball []) ∧
        t.store.cached "f" = some ⟨⟨[],[⟨"0 * * * *"⟩],[]⟩,[],true⟩) :=
  ⟨run_seen (by decide +kernel),run_seen (by decide +kernel),run_seen (by decide +kernel)⟩

end OpenLambda.Boss.Requests
