import OpenLambda.Foundation.Tally
import OpenLambda.Lambda.CodeDirs
import OpenLambda.Lambda.SandboxUse

namespace OpenLambda.Lambda
open Foundation.Runs Foundation.Tally

def Pc.token : Pc → Option Nat
  | .killing token | .acking token => some token
  | _ => none

def LambdaInstance.tokens (l : LambdaInstance) : List Nat := l.killChan ++ l.pc.token.toList

def TaskPc.token : TaskPc → Option Nat
  | .queueKill _ _ _ token | .queueScaled token _ _ | .queueDying _ token => some token
  | _ => none

def Cleanup.token : Cleanup → Option Nat
  | .wait token => some token
  | .path _ => none

def System.awaited (s : System) : List Nat :=
  s.pc.token.toList ++ s.cleaning.toList ++ s.cleanupChan.filterMap Cleanup.token

def TaskPc.spared (instances : List Nat) : TaskPc → List Nat
  | .switching _ _ left | .queueKill _ _ left _ | .dying left | .queueDying left _ => left
  | .awaiting | .exited => []
  | _ => instances

def System.spared (s : System) : List Nat := s.pc.spared s.instances

-- Every kill that is owed is waited for, and every instance is spared or killed.
structure Accounted (s : System) : Prop where
  owed : ∀ token, (s.awaited.count token : Int) = tally s.nextInst fun i => ((s.inst i).tokens.count token : Int)
  born : ∀ i ∈ s.spared, i < s.nextInst
  killed : ∀ i, i < s.nextInst → i ∈ s.spared ∨ (s.inst i).killed = true
  drained : s.pc = .exited → s.cleaning = none ∧ s.cleanupChan = []

theorem init_accounted : Accounted init where
  owed := by simp [init,System.awaited,TaskPc.token,tally_zero]
  born := by simp [init,System.spared,TaskPc.spared]
  killed := by simp [init]
  drained := by simp [init]

def SameKills (l m : LambdaInstance) : Prop := m.tokens.Perm l.tokens

theorem kills_of_parts (killChan : m.killChan = l.killChan) (token : m.pc.token = l.pc.token) : SameKills l m := by
  simp [SameKills,LambdaInstance.tokens,killChan,token]

theorem roundTrip_kills (l : LambdaInstance) (here : l.pc = .forwarding req) (outcome : RoundTrip) :
    SameKills l (l.roundTrip sb req outcome ms).inst := by
  cases outcome with
  | failed err debug =>
      obtain ⟨_,killChan⟩ := destroySb_chan {l.call (.forward sb req.id) with
        pc := .reporting {req with execMs := if ms = 0 then 1 else ms} false} "Sandbox's HTTP client returned an error"
      obtain ⟨there,_⟩ := destroySb_keeps {l.call (.forward sb req.id) with
        pc := .reporting {req with execMs := if ms = 0 then 1 else ms} false} "Sandbox's HTTP client returned an error"
      exact kills_of_parts killChan (by simp [LambdaInstance.roundTrip,there,here,Pc.token])
  | badRequest err debug => exact kills_of_parts rfl (by rw [here]; rfl)
  | replied status body copyErr => exact kills_of_parts rfl (by rw [here]; rfl)

theorem taken_kills (waiting : l.killChan = token :: rest) (idle : l.pc.token = none) :
    SameKills l {l with killChan := rest,pc := .killing token} := by
  unfold SameKills LambdaInstance.tokens
  rw [waiting,idle]
  show (rest ++ [token]).Perm ((token :: rest) ++ [])
  rw [List.append_nil]
  exact List.perm_append_singleton token rest

theorem localStep_kills (moved : localStep zygotes fresh l action = some out) : SameKills l out.inst := by
  cases localStep_turn moved with
  | tookKill here waiting | sawKill here waiting => exact taken_kills waiting (by rw [here]; rfl)
  | tripped here present => exact roundTrip_kills l here _
  | discarded here single => exact kills_of_parts (destroySb_chan l _).2 (by rw [here]; rfl)
  | destroyed here => exact kills_of_parts (destroySb_chan l _).2 (by rw [here]; rfl)
  | pausePanicked => exact kills_of_parts rfl rfl
  | zygoteCreated here | created here => exact kills_of_parts rfl (by rw [here]; rfl)
  | unpaused here | unpauseFailed here | zygoteFailed here | createFailed here | settled here | sawNone here
  | paused here | pauseFailed here => exact kills_of_parts rfl (by rw [here]; rfl)

theorem accept_kills (here : l.pc = .waiting) (req : Invocation) : SameKills l (l.accept req) := by
  refine kills_of_parts rfl ?_
  rw [here]
  unfold LambdaInstance.accept
  dsimp only
  split <;> rfl

theorem report_kills (here : l.pc = .reporting req failed) : SameKills l (l.report req failed) :=
  kills_of_parts rfl (by rw [here]; cases failed <;> rfl)

theorem grab_kills (here : l.pc = .grabbing) (req : Invocation) : SameKills l (l.grab req) := by
  refine kills_of_parts rfl ?_
  rw [here]
  unfold LambdaInstance.grab
  dsimp only
  split <;> rfl

theorem idle_kills (here : l.pc = .grabbing) : SameKills l {l with pc := if l.sb = none then .waiting else .leaving} := by
  refine kills_of_parts rfl ?_
  rw [here]
  dsimp only
  split <;> rfl

theorem put_tokens {s : System} (born : i < s.nextInst) (l : LambdaInstance) (token : Nat) :
    tally s.nextInst (fun j => (((s.put i l).inst j).tokens.count token : Int)) =
      tally s.nextInst (fun j => ((s.inst j).tokens.count token : Int)) - (s.inst i).tokens.count token +
        l.tokens.count token :=
  tally_update born s.inst l fun _ m => (m.tokens.count token : Int)

theorem sentKill_tokens {s : System} (born : i < s.nextInst) (token : Nat) :
    tally s.nextInst (fun j => (((s.sentKill i).inst j).tokens.count token : Int)) =
      tally s.nextInst (fun j => ((s.inst j).tokens.count token : Int)) + [s.nextToken].count token := by
  have moved := put_tokens born {s.inst i with killChan := (s.inst i).killChan ++ [s.nextToken]} token
  simp only [LambdaInstance.tokens,List.count_append] at moved
  simp only [System.sentKill,LambdaInstance.tokens,List.count_append]
  omega

theorem spawned_tokens (s : System) (codeDir : String) (config : FunctionMeta) (token : Nat) :
    tally (s.nextInst + 1) (fun j =>
        (((s.put s.nextInst (newLambdaInstance codeDir config)).inst j).tokens.count token : Int)) =
      tally s.nextInst (fun j => ((s.inst j).tokens.count token : Int)) := by
  have older : ∀ j, j < s.nextInst → (s.put s.nextInst (newLambdaInstance codeDir config)).inst j = s.inst j :=
    fun j born => Function.update_of_ne (Nat.ne_of_lt born) _ _
  rw [tally_succ,tally_congr fun j born => by rw [older j born]]
  simp [System.put,newLambdaInstance,LambdaInstance.tokens,Pc.token]

structure KillsKept (s t : System) : Prop where
  awaited : t.awaited.Perm s.awaited
  nextInst : t.nextInst = s.nextInst
  inst : ∀ i, i < s.nextInst → SameKills (s.inst i) (t.inst i)

theorem kept_owed (owed : (s.awaited.count token : Int) = tally s.nextInst fun i => ((s.inst i).tokens.count token : Int))
    (kept : KillsKept s t) :
    (t.awaited.count token : Int) = tally t.nextInst fun i => ((t.inst i).tokens.count token : Int) := by
  rw [kept.awaited.count_eq,kept.nextInst,owed]
  apply tally_congr
  intro i born
  rw [(kept.inst i born).count_eq]

theorem quiet_kills {s t : System} (pc : t.pc.token = s.pc.token) (cleaning : t.cleaning = s.cleaning)
    (queue : t.cleanupChan = s.cleanupChan) (nextInst : t.nextInst = s.nextInst)
    (inst : ∀ i, i < s.nextInst → SameKills (s.inst i) (t.inst i)) : KillsKept s t := by
  refine ⟨?_,nextInst,inst⟩
  simp only [System.awaited,pc,cleaning,queue]
  exact .refl _

theorem put_kills (s : System) (i : Nat) (same : SameKills (s.inst i) l) (j : Nat) :
    SameKills (s.inst j) ((s.put i l).inst j) := by
  by_cases equal : j = i
  · subst j
    simpa [System.put] using same
  · simpa [System.put,equal] using kills_of_parts rfl rfl

theorem kills_refl (s : System) (i : Nat) : SameKills (s.inst i) (s.inst i) := .refl _

theorem message_token {pc next : TaskPc} (here : pc.message = some (msg,next)) :
    msg.token = pc.token ∧ next.token = none := by
  cases pc <;> simp [TaskPc.message] at here <;> obtain ⟨rfl,rfl⟩ := here <;> exact ⟨rfl,rfl⟩

theorem queued_awaited (token : Option Nat) (cleaning queue : List Nat) :
    (cleaning ++ (queue ++ token.toList)).Perm (token.toList ++ cleaning ++ queue) := by
  rw [← List.append_assoc,List.append_assoc token.toList]
  exact List.perm_append_comm

theorem filterMap_snoc (queue : List Cleanup) (msg : Cleanup) :
    (queue ++ [msg]).filterMap Cleanup.token = queue.filterMap Cleanup.token ++ msg.token.toList := by
  rw [List.filterMap_append]
  cases msg <;> rfl

theorem sent_owed {s t : System} (born : i < s.nextInst) (idle : s.pc.token = none) (hand : t.pc.token = some s.nextToken)
    (cleaning : t.cleaning = s.cleaning) (queue : t.cleanupChan = s.cleanupChan) (nextInst : t.nextInst = s.nextInst)
    (inst : t.inst = (s.sentKill i).inst)
    (owed : (s.awaited.count token : Int) = tally s.nextInst fun i => ((s.inst i).tokens.count token : Int)) :
    (t.awaited.count token : Int) = tally t.nextInst fun i => ((t.inst i).tokens.count token : Int) := by
  rw [nextInst,inst,sentKill_tokens born]
  simp only [System.awaited,idle,hand,cleaning,queue,Option.toList_none,Option.toList_some,List.count_append,
    List.nil_append] at owed ⊢
  omega

theorem turn_owed (accounted : Accounted s) (turn : Turn conf s action t) (token : Nat) :
    (t.awaited.count token : Int) = tally t.nextInst fun i => ((t.inst i).tokens.count token : Int) := by
  have owed := accounted.owed token
  cases turn with
  | @switchKill req oldCodeDir i left here =>
      have born : i < s.nextInst := accounted.born i (by simp [System.spared,TaskPc.spared,here])
      exact sent_owed born (by rw [here]; rfl) rfl rfl rfl rfl rfl owed
  | @dyingKill i left here =>
      have born : i < s.nextInst := accounted.born i (by simp [System.spared,TaskPc.spared,here])
      exact sent_owed born (by rw [here]; rfl) rfl rfl rfl rfl rfl owed
  | @shrunk front i here many split =>
      have born : i < s.nextInst := accounted.born i (by simp [System.spared,TaskPc.spared,here,split])
      exact sent_owed born (by rw [here]; rfl) rfl rfl rfl rfl rfl owed
  | queued here =>
      obtain ⟨taken,free⟩ := message_token here
      refine kept_owed owed ⟨?_,rfl,fun i _ => kills_refl s i⟩
      simp only [System.awaited,filterMap_snoc,taken,free,Option.toList_none,List.nil_append]
      exact queued_awaited _ _ _
  | @scaledDown wanted now desired here =>
      refine kept_owed owed ⟨?_,rfl,fun i _ => kills_refl s i⟩
      have before : s.pc.token = some wanted := by rw [here]; rfl
      have after : TaskPc.selecting.token = none := rfl
      simp only [System.awaited,System.adjusted,filterMap_snoc,before,after,Option.toList_none,List.nil_append,
        Cleanup.token]
      exact queued_awaited (some wanted) _ _
  | removed idle waiting =>
      refine kept_owed owed ⟨?_,rfl,fun i _ => kills_refl s i⟩
      simp only [System.awaited,waiting]
      exact .refl _
  | awaited idle waiting =>
      refine kept_owed owed ⟨?_,rfl,fun i _ => kills_refl s i⟩
      simp [System.awaited,idle,waiting,Cleanup.token]
  | @grown config here few fetched known =>
      have before : s.pc.token = none := by rw [here]; rfl
      have idle : TaskPc.selecting.token = none := rfl
      have same := spawned_tokens s s.codeDir config token
      simp only [System.adjusted,System.awaited,before,idle] at owed ⊢
      exact owed.trans same.symm
  | @acked i acked born here cleaning =>
      have spent := put_tokens born {s.inst i with pc := .stopped} token
      simp only [System.awaited,cleaning,LambdaInstance.tokens,here,Pc.token,List.count_append,System.put,
        Option.toList_some,Option.toList_none,List.count_nil] at owed spent ⊢
      omega
  | acted born stepped =>
      exact kept_owed owed (quiet_kills rfl rfl rfl rfl fun j _ => put_kills s _ (localStep_kills stepped) j)
  | taken born here =>
      exact kept_owed owed (quiet_kills rfl rfl rfl rfl fun j _ => put_kills s _ (accept_kills here _) j)
  | reported born here =>
      exact kept_owed owed (quiet_kills rfl rfl rfl rfl fun j _ => put_kills s _ (report_kills here) j)
  | grabbed born here =>
      exact kept_owed owed (quiet_kills rfl rfl rfl rfl fun j _ => put_kills s _ (grab_kills here _) j)
  | idled born here =>
      exact kept_owed owed (quiet_kills rfl rfl rfl rfl fun j _ => put_kills s _ (idle_kills here) j)
  | timer here =>
      refine kept_owed owed (quiet_kills ?_ rfl rfl rfl fun i _ => kills_refl s i)
      rw [here]
      dsimp only
      split <;> rfl
  | @signalled req scale here =>
      refine kept_owed owed (quiet_kills ?_ rfl rfl rfl fun i _ => kills_refl s i)
      rw [here]
      cases scale <;> rfl
  | invoked | refused | ticked | checkPanicked | askedKill =>
      exact kept_owed owed (quiet_kills rfl rfl rfl rfl fun i _ => kills_refl s i)
  | received here | pullKept here | pullFailed here | pullDirtied here | pullSwitched here | checkSwitch here
  | checkKept here | checkRefused here | switchEnd here | dyingEnd here | dispatched here | overflowed here
  | finished here | limited here | growPanicked here | balanced here | takenKill here | exited here =>
      exact kept_owed owed (quiet_kills (by rw [here]; rfl) rfl rfl rfl fun i _ => kills_refl s i)

theorem message_spared {pc next : TaskPc} (here : pc.message = some (msg,next)) (instances : List Nat) :
    next.spared instances = pc.spared instances := by
  cases pc <;> simp [TaskPc.message] at here <;> obtain ⟨_,rfl⟩ := here <;> rfl

structure Sparing (s t : System) : Prop where
  nextInst : s.nextInst ≤ t.nextInst
  older : ∀ i ∈ t.spared, i ∈ s.spared ∨ i < t.nextInst
  left : ∀ i ∈ s.spared, i ∈ t.spared ∨ (t.inst i).killed = true
  fresh : ∀ i, s.nextInst ≤ i → i < t.nextInst → i ∈ t.spared

theorem sparing_same {s t : System} (spared : t.spared = s.spared) (nextInst : t.nextInst = s.nextInst) : Sparing s t where
  nextInst := Nat.le_of_eq nextInst.symm
  older := fun _ member => .inl (spared ▸ member)
  left := fun _ member => .inl (spared ▸ member)
  fresh := fun _ above below => absurd (nextInst ▸ below) (Nat.not_lt.mpr above)

theorem sparing_sent {s t : System} (before : s.spared = front ++ i :: rest) (after : t.spared = front ++ rest)
    (nextInst : t.nextInst = s.nextInst) (inst : t.inst = (s.sentKill i).inst) : Sparing s t where
  nextInst := Nat.le_of_eq nextInst.symm
  older := by
    intro j member
    rw [after] at member
    rw [before]
    rcases List.mem_append.mp member with first | last
    · exact .inl (List.mem_append_left _ first)
    · exact .inl (List.mem_append_right _ (List.mem_cons_of_mem _ last))
  left := by
    intro j member
    rw [before] at member
    rw [after,inst]
    rcases List.mem_append.mp member with first | last
    · exact .inl (List.mem_append_left _ first)
    · rcases List.mem_cons.mp last with rfl | later
      · exact .inr (sentKill_killed s j)
      · exact .inl (List.mem_append_right _ later)
  fresh := fun _ above below => absurd (nextInst ▸ below) (Nat.not_lt.mpr above)

theorem turn_sparing (turn : Turn conf s action t) : Sparing s t := by
  cases turn with
  | @switchKill _ _ i left here | @dyingKill i left here =>
      have before : s.spared = [] ++ i :: left := by rw [System.spared,here]; rfl
      exact sparing_sent before rfl rfl rfl
  | shrunk here many split =>
      refine sparing_sent (by rw [System.spared,here]; exact split) ?_ rfl rfl
      rw [List.append_nil]
      rfl
  | queued here => exact sparing_same (message_spared here s.instances) rfl
  | grown here =>
      have before : s.spared = s.instances := by rw [System.spared,here]; rfl
      refine ⟨Nat.le_succ _,?_,?_,?_⟩
      · intro i member
        rcases List.mem_append.mp member with old | new
        · exact .inl (before ▸ old)
        · exact .inr (List.mem_singleton.mp new ▸ Nat.lt_succ_self _)
      · intro i member
        exact .inl (List.mem_append_left _ (before ▸ member))
      · intro i above below
        have last : i = s.nextInst := Nat.le_antisymm (Nat.lt_succ_iff.mp below) above
        exact List.mem_append_right _ (List.mem_singleton.mpr last)
  | timer here =>
      refine sparing_same ?_ rfl
      rw [System.spared,System.spared,here]
      dsimp only
      split <;> rfl
  | @signalled req scale here =>
      refine sparing_same ?_ rfl
      rw [System.spared,System.spared,here]
      cases scale <;> rfl
  | invoked | refused | ticked | checkPanicked | askedKill | removed | awaited | taken | acted | reported | grabbed
  | idled | acked => exact sparing_same rfl rfl
  | received here | pullKept here | pullFailed here | pullDirtied here | pullSwitched here | checkSwitch here
  | checkKept here | checkRefused here | switchEnd here | dyingEnd here | dispatched here | overflowed here | scaledDown here
  | finished here | limited here | growPanicked here | balanced here | takenKill here | exited here =>
      exact sparing_same (by rw [System.spared,System.spared,here]; rfl) rfl

theorem turn_drained (turn : Turn conf s action t) (drained : s.pc = .exited → s.cleaning = none ∧ s.cleanupChan = [])
    (gone : t.pc = .exited) : t.cleaning = none ∧ t.cleanupChan = [] := by
  cases turn with
  | exited here idle empty => exact ⟨idle,empty⟩
  | invoked | refused | ticked | checkPanicked | askedKill | taken | acted | reported | grabbed | idled => exact drained gone
  | removed idle waiting | awaited idle waiting => simp [waiting] at drained; exact absurd gone drained
  | acked born here cleaning => simp [cleaning] at drained; exact absurd gone drained
  | timer here => dsimp only at gone; split at gone <;> cases gone
  | @signalled req scale here => cases scale <;> cases gone
  | queued here =>
      rcases message_coded here with ⟨_,_,_,_,_,rfl⟩ | ⟨_,_,_,rfl⟩ | ⟨_,_,_,rfl⟩ <;> cases gone
  | _ => cases gone

theorem turn_accounted (accounted : Accounted s) (turn : Turn conf s action t) : Accounted t where
  owed := turn_owed accounted turn
  born := by
    intro i member
    have sparing := turn_sparing turn
    rcases sparing.older i member with old | new
    · exact Nat.lt_of_lt_of_le (accounted.born i old) sparing.nextInst
    · exact new
  killed := by
    intro i born
    have sparing := turn_sparing turn
    by_cases old : i < s.nextInst
    · rcases accounted.killed i old with spared | killed
      · exact sparing.left i spared
      · exact .inr ((turn_kept turn old).killed killed)
    · exact .inl (sparing.fresh i (Nat.not_lt.mp old) born)
  drained := turn_drained turn accounted.drained

theorem reached_accounted (ran : run (step conf) init actions = some s) : Accounted s :=
  run_preserves Accounted (fun _ _ _ accounted moved => turn_accounted accounted (step_turn moved).2) init_accounted ran

theorem accounted_stopped (accounted : Accounted s) (exited : s.pc = .exited) (born : i < s.nextInst) :
    (s.inst i).pc = .stopped := by
  obtain ⟨idle,empty⟩ := accounted.drained exited
  have nothing : s.awaited = [] := by simp [System.awaited,exited,idle,empty,TaskPc.token]
  have none : (s.inst i).tokens = [] := by
    apply List.eq_nil_iff_forall_not_mem.mpr
    intro token member
    have owed := accounted.owed token
    have mine : ((s.inst i).tokens.count token : Int) ≤ tally s.nextInst fun i => ((s.inst i).tokens.count token : Int) :=
      le_tally (fun _ _ => Int.natCast_nonneg _) born
    have some := List.count_pos_iff.mpr member
    rw [nothing,List.count_nil] at owed
    omega
  have killed : (s.inst i).killed = true := by
    rcases accounted.killed i born with spared | killed
    · rw [System.spared,exited] at spared
      cases spared
    · exact killed
  unfold LambdaInstance.tokens at none
  obtain ⟨empty,settled⟩ := List.append_eq_nil_iff.mp none
  unfold LambdaInstance.killed at killed
  rw [empty] at killed
  revert settled killed
  cases (s.inst i).pc <;> simp [Pc.token,Pc.dying]

inductive Outside : Action → Prop where
  | invoke (method : String) : Outside (.invoke method)
  | tick (ns : Nat) : Outside (.tick ns)
  | askKill : Outside .askKill

theorem exited_outside (accounted : Accounted s) (exited : s.pc = .exited) (turn : Turn conf s action t) : Outside action := by
  have stopped : ∀ i, i < s.nextInst → (s.inst i).pc = .stopped := fun i => accounted_stopped accounted exited
  obtain ⟨idle,empty⟩ := accounted.drained exited
  cases turn with
  | invoked method | refused method => exact .invoke method
  | ticked ns => exact .tick ns
  | askedKill => exact .askKill
  | queued here => rw [exited] at here; cases here
  | removed _ waiting | awaited _ waiting => cases empty.symm.trans waiting
  | acted born stepped => exact absurd (stopped _ born) (localStep_unfinished stepped)
  | taken born here | reported born here | grabbed born here | idled born here | acked born here =>
      cases (stopped _ born).symm.trans here
  | timer here | received here | pullKept here | pullFailed here | pullDirtied here | pullSwitched here
  | checkPanicked here | checkSwitch here | checkKept here | checkRefused here | switchKill here | switchEnd here
  | dyingKill here | dyingEnd here | dispatched here | overflowed here | finished here | signalled here | limited here
  | grown here | growPanicked here | shrunk here | balanced here | scaledDown here | takenKill here | exited here =>
      cases exited.symm.trans here

def TaskPc.ended : TaskPc → Bool
  | .dying _ | .queueDying _ _ | .awaiting | .exited => true
  | _ => false

theorem message_ended {pc next : TaskPc} (here : pc.message = some (msg,next)) (ended : pc.ended = true) : next.ended = true := by
  cases pc with
  | queueDying left token =>
      cases here
      rfl
  | dying | awaiting | exited => cases here
  | _ => cases ended

theorem turn_ended (turn : Turn conf s action t) (ended : s.pc.ended = true) : t.pc.ended = true ∧ t.signalled = s.signalled := by
  cases turn with
  | queued here => exact ⟨message_ended here ended,rfl⟩
  | dyingKill | dyingEnd | exited => exact ⟨rfl,rfl⟩
  | invoked | refused | ticked | askedKill | removed | awaited | taken | acted | reported | grabbed | idled | acked =>
      exact ⟨ended,rfl⟩
  | timer here | received here | pullKept here | pullFailed here | pullDirtied here | pullSwitched here
  | checkPanicked here | checkSwitch here | checkKept here | checkRefused here | switchKill here | switchEnd here
  | dispatched here | overflowed here | finished here | signalled here | limited here | grown here | growPanicked here
  | shrunk here | balanced here | scaledDown here | takenKill here =>
      rw [here] at ended
      cases ended

structure Ended (s t : System) : Prop where
  pc : t.pc = .exited
  inst : t.inst = s.inst
  nextInst : t.nextInst = s.nextInst
  signalled : t.signalled = s.signalled
  removed : t.removed = s.removed

theorem outside_ended (outside : Outside action) (turn : Turn conf s action t) (exited : s.pc = .exited) : Ended s t := by
  cases outside with
  | invoke method => cases turn <;> exact ⟨exited,rfl,rfl,rfl,rfl⟩
  | tick ns => cases turn with | ticked => exact ⟨exited,rfl,rfl,rfl,rfl⟩
  | askKill => cases turn with | askedKill => exact ⟨exited,rfl,rfl,rfl,rfl⟩

theorem run_ended (accounted : Accounted s) (exited : s.pc = .exited) (ran : run (step conf) s actions = some t) :
    Ended s t := by
  have preserved : ∀ u action v, Accounted u ∧ Ended s u → step conf u action = some v → Accounted v ∧ Ended s v := by
    intro u action v both moved
    obtain ⟨kept,ended⟩ := both
    have turn := (step_turn moved).2
    have next := outside_ended (exited_outside kept ended.pc turn) turn ended.pc
    exact ⟨turn_accounted kept turn,next.pc,next.inst.trans ended.inst,next.nextInst.trans ended.nextInst,
      next.signalled.trans ended.signalled,next.removed.trans ended.removed⟩
  exact (run_preserves (fun u => Accounted u ∧ Ended s u) preserved ⟨accounted,exited,rfl,rfl,rfl,rfl⟩ ran).2

-- LambdaFunc.Kill is a barrier: when Task has returned, every instance the
-- function ever had has stopped with no sandbox left, and whatever clients still
-- do, no instance starts, nothing more is removed and nobody is signalled.
theorem kill_is_barrier (ran : run (step conf) init actions = some s) (exited : s.pc = .exited) :
    (∀ i, i < s.nextInst → (s.inst i).pc = .stopped ∧ alive (s.inst i).calls = []) ∧
      ∀ more t, run (step conf) s more = some t → Ended s t := by
  have accounted := reached_accounted ran
  refine ⟨?_,fun more t later => run_ended accounted exited later⟩
  intro i born
  have stopped := accounted_stopped accounted exited born
  refine ⟨stopped,?_⟩
  rw [((reached_tidied ran).1 i).alive,stopped]
  rfl

theorem kill_is_barrier_served :
    ∃ s, run (step ⟨false,0⟩) init (servedOnce ++ [.kill,.exit]) = some s ∧ s.pc = .exited ∧ s.nextInst = 1 ∧
      (s.inst 0).pc = .stopped ∧ alive (s.inst 0).calls = [] ∧
      ∃ t, run (step ⟨false,0⟩) s [.invoke "GET",.tick 5] = some t ∧ t.accepted = [0,1] ∧ t.signalled = s.signalled := by
  have seen : (run (step ⟨false,0⟩) init (servedOnce ++ [.kill,.exit])).map
      (fun s => (s.pc,s.nextInst,(run (step ⟨false,0⟩) s [.invoke "GET",.tick 5]).map (·.accepted))) =
        some (.exited,1,some [0,1]) := by decide +kernel
  obtain ⟨s,ran,facts⟩ := Option.map_eq_some_iff.mp seen
  simp only [Prod.mk.injEq] at facts
  obtain ⟨exited,one,later⟩ := facts
  obtain ⟨t,moved,accepted⟩ := Option.map_eq_some_iff.mp later
  obtain ⟨stopped,ended⟩ := kill_is_barrier ran exited
  obtain ⟨halted,free⟩ := stopped 0 (by rw [one]; exact Nat.one_pos)
  exact ⟨s,ran,exited,one,halted,free,t,moved,accepted,(ended _ t moved).signalled⟩

end OpenLambda.Lambda
