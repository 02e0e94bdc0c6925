import OpenLambda.Foundation.Tally
import OpenLambda.Lambda.Handoffs

namespace OpenLambda.Lambda
open Foundation.Runs Foundation.Tally

-- The requests that were dispatched and not yet received back, counted where
-- they are; the ones that were dropped are never received back.
def System.backlog (s : System) : Int :=
  s.instChan.length + tally s.nextInst (fun i => ((s.inst i).hand.length : Int)) + s.doneChan.length + s.lost.length

theorem still_hands (same : Still s t) :
    tally s.nextInst (fun i => ((t.inst i).hand.length : Int)) =
      tally s.nextInst (fun i => ((s.inst i).hand.length : Int)) :=
  tally_congr fun i born => by rw [(same.inst i born).1]

theorem put_hands {s : System} (born : i < s.nextInst) (l : LambdaInstance) :
    tally s.nextInst (fun j => (((s.put i l).inst j).hand.length : Int)) =
      tally s.nextInst (fun j => ((s.inst j).hand.length : Int)) - (s.inst i).hand.length + l.hand.length :=
  tally_update born s.inst l fun _ m => (m.hand.length : Int)

theorem turn_counter (turn : Turn conf s action t) (instChan : t.instChan = s.instChan)
    (doneChan : t.doneChan = s.doneChan) : t.outstandingReqs = s.outstandingReqs := by
  cases turn with
  | dispatched =>
      have same := congrArg List.length instChan
      simp at same
  | finished here waiting =>
      rw [waiting] at doneChan
      have same := congrArg List.length doneChan
      simp at same
  | _ => rfl

theorem turn_backlog (counted : s.outstandingReqs = s.backlog) (turn : Turn conf s action t) :
    t.outstandingReqs = t.backlog := by
  unfold System.backlog at counted
  cases moves : turn_moves turn with
  | still same instances requests =>
      rw [turn_counter turn same.instChan same.doneChan,counted,System.backlog,instances,still_hands same,same.instChan,
        same.doneChan,same.lost]
  | spawned same instances born requests =>
      have idle : (t.inst s.nextInst).hand = [] := by rw [born]; rfl
      rw [turn_counter turn same.instChan same.doneChan,counted,System.backlog,instances,tally_succ,still_hands same,
        same.instChan,same.doneChan,same.lost,idle]
      simp
  | invoked method => exact counted
  | received here waiting => exact counted
  | signalled here => exact counted
  | dispatched here =>
      simp only [System.backlog,List.length_append,List.length_singleton]
      omega
  | finished here waiting =>
      rw [waiting] at counted
      simp only [System.backlog,List.length_cons] at counted ⊢
      omega
  | @taken i req rest born here waiting =>
      have idle : (s.inst i).hand = [] := hand_of here
      have moved := put_hands born ((s.inst i).accept req)
      rw [accept_hand,idle] at moved
      rw [waiting] at counted
      simp only [System.backlog,System.put,List.length_cons,List.length_nil] at counted moved ⊢
      omega
  | @reported i req failed born here =>
      have held : (s.inst i).hand = [req.id] := hand_of here
      have moved := put_hands born ((s.inst i).report req failed)
      rw [report_hand,held] at moved
      simp only [System.backlog,System.put,List.length_cons,List.length_nil,List.length_append] at moved ⊢
      omega
  | @grabbed i req rest born here waiting =>
      have idle : (s.inst i).hand = [] := hand_of here
      have moved := put_hands born ((s.inst i).grab req)
      rw [grab_hand,idle] at moved
      rw [waiting] at counted
      by_cases gone : (s.inst i).sb = none
      · simp only [System.backlog,System.put,gone,if_true,List.length_cons,List.length_nil,List.length_append]
          at counted moved ⊢
        omega
      · simp only [System.backlog,System.put,gone,if_false,List.length_cons,List.length_nil] at counted moved ⊢
        omega

def TaskPc.deaf : TaskPc → Bool
  | .switching _ _ _ | .queueKill _ _ _ _ | .queueCode _ _ | .queueScaled _ _ _ | .dying _ | .queueDying _ _
  | .awaiting => true
  | _ => false

-- Task starts to kill instances only while at most 1024 requests are outstanding.
def roomy (conf : Conf) (s : System) (action : Action) : Bool :=
  match step conf s action with
  | some t => s.pc.deaf || !t.pc.deaf || decide (s.outstandingReqs ≤ chanCap)
  | none => true

structure Bounded (s : System) : Prop where
  counted : s.outstandingReqs = s.backlog
  small : s.pc.deaf = true → s.outstandingReqs ≤ chanCap

theorem init_bounded : Bounded init := by
  constructor
  · simp [init,System.backlog,tally_zero]
  · nofun

theorem deaf_counter (turn : Turn conf s action t) (deaf : t.pc.deaf = true) :
    t.outstandingReqs = s.outstandingReqs := by
  cases turn with
  | dispatched | finished => cases deaf
  | _ => rfl

theorem step_bounded (bounded : Bounded s) (met : roomy conf s action = true) (moved : step conf s action = some t) :
    Bounded t := by
  have turn := (step_turn moved).2
  refine ⟨turn_backlog bounded.counted turn,?_⟩
  intro deaf
  rw [deaf_counter turn deaf]
  simp only [roomy,moved,deaf,Bool.not_true,Bool.or_false,Bool.or_eq_true,decide_eq_true_eq] at met
  rcases met with already | few
  · exact bounded.small already
  · exact few

-- Task cannot send on cleanupChan, or waits for the cleanup task, which waits
-- for an instance that was killed and cannot send on doneChan.
structure Deadlocked (s : System) : Prop where
  task : s.cleanupChan.length = cleanupChanCap ∧
    (s.pc.message.isSome = true ∨ ∃ token now desired, s.pc = .queueScaled token now desired) ∨ s.pc = .awaiting
  cleanup : ∃ i token req failed, i < s.nextInst ∧ s.cleaning = some token ∧ token ∈ (s.inst i).killChan ∧
    (s.inst i).pc = .reporting req failed
  full : s.doneChan.length = chanCap

theorem deadlocked_deaf (stuck : Deadlocked s) : s.pc.deaf = true := by
  rcases stuck.task with ⟨_,message | ⟨token,now,desired,here⟩⟩ | here
  · cases pc : s.pc <;> simp [pc,TaskPc.message] at message <;> rfl
  · rw [here]
    rfl
  · rw [here]
    rfl

theorem hand_le_backlog (s : System) (born : i < s.nextInst) :
    ((s.inst i).hand.length : Int) + s.doneChan.length ≤ s.backlog := by
  have least := le_tally (fun j _ => Int.natCast_nonneg (s.inst j).hand.length) born
  unfold System.backlog
  omega

theorem task_not_deadlocked (meets : Meets (step conf) (fun s action => roomy conf s action) init actions)
    (ran : run (step conf) init actions = some s) : ¬ Deadlocked s := by
  have bounded : Bounded s := run_preserves_guarded Bounded
    (fun _ _ _ bounded met moved => step_bounded bounded met moved) init_bounded meets ran
  intro stuck
  have few := bounded.small (deadlocked_deaf stuck)
  obtain ⟨i,token,req,failed,born,_,_,here⟩ := stuck.cleanup
  have held : (s.inst i).hand = [req.id] := hand_of here
  have least := hand_le_backlog s born
  rw [held,stuck.full,← bounded.counted] at least
  simp only [List.length_singleton] at least
  omega

def pullOnce : Conf := ⟨false,1⟩

def anyMethod : FunctionMeta := codeMeta .native true ["*"]

def noRoom : String := "no memory"

def oneRequest : List Action :=
  [.invoke "GET",.receive,.pull ⟨.ok "code/1001-f",.ok anyMethod,none,none⟩,.check,.dispatch,.scale,.take 0,
    .act 0 (.create (some noRoom))]

def functionKill : List Action := [.askKill,.takeKill,.kill,.queue,.kill,.cleanup]

theorem task_not_deadlocked_kill :
    ∃ s, run (step pullOnce) init (oneRequest ++ functionKill) = some s ∧ s.pc = .awaiting ∧ s.cleaning = some 0 ∧
      (s.inst 0).killChan = [0] ∧ (s.inst 0).pc = .reporting ⟨0,"GET",0⟩ true ∧ ¬ Deadlocked s := by
  have meets : Meets (step pullOnce) (fun s action => roomy pullOnce s action) init (oneRequest ++ functionKill) := by
    decide +kernel
  have seen : (run (step pullOnce) init (oneRequest ++ functionKill)).map
      (fun s => (s.pc,s.cleaning,(s.inst 0).killChan,(s.inst 0).pc)) =
        some (.awaiting,some 0,[0],.reporting ⟨0,"GET",0⟩ true) := by decide +kernel
  obtain ⟨s,ran,facts⟩ := Option.map_eq_some_iff.mp seen
  simp only [Prod.mk.injEq] at facts
  obtain ⟨here,awaited,signal,reporting⟩ := facts
  exact ⟨s,ran,here,awaited,signal,reporting,task_not_deadlocked meets ran⟩

def loaded (n : Nat) : System :=
  {init with
    lastPull := some 0
    codeDir := "code/1001-f"
    funcMeta := some anyMethod
    doneChan := (List.range n).map fun r => ⟨r,"GET",0⟩
    instances := [0]
    outstandingReqs := n
    lastScaling := some 0
    inst := Function.update init.inst 0 {newLambdaInstance "code/1001-f" anyMethod with
      received := List.range n
      forwarded := List.range n}
    nextInst := 1
    nextSb := n
    nextReq := n
    written := (List.range n).map fun r =>
      trySendError ⟨r,"GET",0⟩ 500 ("could not create Sandbox: " ++ noRoom ++ "\n") none
    accepted := List.range n}

theorem desired_idle (outstandingReqs : Int) : desiredInstances outstandingReqs 0 = 1 := by
  simp only [desiredInstances,Int.mul_zero,Int.zero_tdiv]
  omega

theorem scale_idle (conf : Conf) (s : System) (here : s.pc = .scaling) (sound : s.fault = none)
    (one : s.instances = [0]) (idle : s.execMs.avg = 0) (last : s.lastScaling = some s.now) :
    step conf s .scale = some {s with pc := .selecting} := by
  simp [step,here,sound,System.scale,one,idle,last,desired_idle]
  split <;> rfl

def holding (n : Nat) : System :=
  {loaded n with
    outstandingReqs := n + 1
    inst := Function.update init.inst 0 {newLambdaInstance "code/1001-f" anyMethod with
      pc := .reporting ⟨n,"GET",0⟩ true
      received := List.range n ++ [n]
      forwarded := List.range n}
    nextSb := n + 1
    nextReq := n + 1
    written := (loaded n).written ++
      [trySendError ⟨n,"GET",0⟩ 500 ("could not create Sandbox: " ++ noRoom ++ "\n") none]
    accepted := List.range n ++ [n]}

def underway (n : Nat) : System :=
  {loaded n with
    instChan := [⟨n,"GET",0⟩]
    outstandingReqs := n + 1
    nextReq := n + 1
    accepted := List.range n ++ [n]}

theorem init_underway : run (step pullOnce) init (oneRequest.take 6) = some (underway 0) := rfl

theorem loaded_underway (n : Nat) : run (step pullOnce) (loaded n) (oneRequest.take 6) = some (underway n) := by
  have sent : run (step pullOnce) (loaded n) (oneRequest.take 5) = some {underway n with pc := .scaling} := rfl
  exact run_trans sent (scale_idle pullOnce {underway n with pc := .scaling} rfl rfl rfl rfl rfl)

theorem underway_holding (n : Nat) :
    run (step pullOnce) (underway n) (oneRequest.drop 6) = some (holding n) := by
  simp [oneRequest,run,step,System.take,System.act,localStep,underway,loaded,holding,LambdaInstance.accept,System.put,
    newLambdaInstance,init,Function.update_idem,LambdaInstance.usesZygote,pullOnce]

theorem loaded_holding (n : Nat) : run (step pullOnce) (loaded n) oneRequest = some (holding n) :=
  run_trans (loaded_underway n) (underway_holding n)

theorem holding_loaded (room : n < chanCap) : run (step pullOnce) (holding n) [.report 0] = some (loaded (n+1)) := by
  simp [run,step,System.report,holding,loaded,System.put,LambdaInstance.report,init,Function.update_idem,
    List.range_succ,room]
  rfl

theorem loaded_reached (few : n < chanCap) : ∃ actions, run (step pullOnce) init actions = some (loaded (n + 1)) := by
  induction n with
  | zero => exact ⟨_,run_trans (run_trans init_underway (underway_holding 0)) (holding_loaded few)⟩
  | succ n ih =>
      obtain ⟨actions,ran⟩ := ih (by omega)
      exact ⟨_,run_trans (run_trans ran (loaded_holding (n + 1))) (holding_loaded few)⟩

def stuckKill (n : Nat) : System :=
  {holding n with
    closed := true
    cleaning := some 0
    nextToken := 1
    pc := .awaiting
    inst := Function.update (holding n).inst 0 {(holding n).inst 0 with killChan := [0]}}

theorem holding_killed (n : Nat) :
    run (step pullOnce) (holding n) functionKill = some (stuckKill n) := rfl

theorem task_deadlocked : ∃ actions s, run (step pullOnce) init actions = some s ∧ Deadlocked s := by
  obtain ⟨actions,ran⟩ := loaded_reached (n := 1023) (by decide)
  refine ⟨_,stuckKill 1024,run_trans (run_trans ran (loaded_holding 1024)) (holding_killed 1024),.inr rfl,?_,?_⟩
  · exact ⟨0,0,⟨1024,"GET",0⟩,true,Nat.one_pos,rfl,by simp [stuckKill],by simp [stuckKill,holding]⟩
  · simp [stuckKill,holding,loaded,chanCap]

end OpenLambda.Lambda
