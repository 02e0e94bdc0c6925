import OpenLambda.Event.Server
import OpenLambda.Lambda.Answers
import OpenLambda.Lambda.FunctionKill

namespace OpenLambda.Event
open Foundation.Runs Packages

inductive Advance (w : Worker) : MainPc → Prop where
  | kafka : w.main = .kafkaCleanup → Advance w .lockMap
  | exited : w.main = .awaiting name left → (w.func name).pc = .exited → Advance w (.killing left)
  | killed : w.main = .killing [] → Advance w .zygoteCleanup
  | zygotes : w.main = .zygoteCleanup → Advance w .poolCleanup
  | pool : w.main = .poolCleanup → Advance w .closeTracer
  | traced : w.main = .awaitTracer → w.tracer.file ≠ none → Advance w .dirsCleanup
  | dirs : w.main = .dirsCleanup → Advance w (.shutdown [.uds,.tcp])
  | closed : w.main = .shutdown left → server ∈ left →
      (server = .tcp → ∀ c, c < w.nextCaller → (w.caller c).http = true → (w.caller c).pc = .returned) →
      Advance w (.shutdown (left.erase server))
  | servers : w.main = .shutdown [] → Advance w .finalStats
  | stats : w.main = .finalStats → Advance w .returned

inductive Turn (conf : Lambda.Conf) (w : Worker) : Worker → Prop where
  | arrived : (http = true → w.main.tcpClosed = false) →
      Turn conf w {w.put w.nextCaller ⟨name,method,http,.getting,none⟩ with nextCaller := w.nextCaller + 1}
  | got : c < w.nextCaller → (w.caller c).pc = .getting → w.mapLocked = false →
      Turn conf w {w.put c {w.caller c with pc := .invoking} with lfuncMap := names}
  | invoked : c < w.nextCaller → (w.caller c).pc = .invoking →
      Lambda.step conf (w.func (w.caller c).name) (.invoke (w.caller c).method) = some t →
      Turn conf w ((w.setFunc (w.caller c).name t).put c {w.caller c with
        pc := if (w.func (w.caller c).name).funcChan.length < Lambda.chanCap then .waiting else .returned
        id := some (w.func (w.caller c).name).nextReq})
  | woke : c < w.nextCaller → (w.caller c).pc = .waiting → (w.caller c).id = some r →
      r ∈ (w.func (w.caller c).name).signalled → Turn conf w (w.put c {w.caller c with pc := .returned})
  | acted : name ∈ w.lfuncMap → own action = true → Lambda.step conf (w.func name) action = some t →
      traceOf conf (w.func name) deps action = none → Turn conf w (w.setFunc name t)
  | traced : name ∈ w.lfuncMap → own action = true → Lambda.step conf (w.func name) action = some t →
      traceOf conf (w.func name) deps action = some ev → w.tracer.trace ev = some (.ok tracer) →
      Turn conf w {w.setFunc name t with tracer := tracer,sent := w.sent ++ [ev]}
  | tracePanicked : name ∈ w.lfuncMap → own action = true → Lambda.step conf (w.func name) action = some t →
      traceOf conf (w.func name) deps action = some ev → w.tracer.trace ev = some (.error text) →
      Turn conf w {w.setFunc name t with fault := some text}
  | packaged : name ∈ w.lfuncMap → installs conf (w.func name) inst = true → w.tracer.trace ev = some (.ok tracer) →
      Turn conf w {w with tracer := tracer,sent := w.sent ++ [ev]}
  | packagePanicked : name ∈ w.lfuncMap → installs conf (w.func name) inst = true →
      w.tracer.trace ev = some (.error text) → Turn conf w {w with fault := some text}
  | tracerRan : w.tracer.run = some tracer → Turn conf w {w with tracer := tracer}
  | triggered : w.main = .serving → Turn conf w {w with trigger := err,main := .kafkaCleanup}
  | locked : w.main = .lockMap → Turn conf w {w with mapLocked := true,main := .killing w.lfuncMap}
  | killed : w.main = .killing left → name ∈ left → Lambda.step conf (w.func name) .askKill = some t →
      Turn conf w {w.setFunc name t with main := .awaiting name (left.erase name)}
  | tracerClosed : w.main = .closeTracer →
      Turn conf w {w with tracer := {w.tracer with closed := true},main := .awaitTracer}
  | advanced : Advance w main → Turn conf w {w with main := main}

theorem trace_turn (moved : Worker.trace w ev = some v) :
    (∃ tracer, w.tracer.trace ev = some (.ok tracer) ∧ v = {w with tracer := tracer,sent := w.sent ++ [ev]}) ∨
      ∃ text, w.tracer.trace ev = some (.error text) ∧ v = {w with fault := some text} := by
  unfold Worker.trace at moved
  split at moved
  · rename_i tracer sends
    cases moved
    exact .inl ⟨tracer,sends,rfl⟩
  · rename_i text sends
    cases moved
    exact .inr ⟨text,sends,rfl⟩
  · cases moved

theorem act_turn (moved : Worker.act conf w name action deps = some v) : Turn conf w v := by
  unfold Worker.act at moved
  obtain ⟨⟨known,inside⟩,moved⟩ := Option.ite_none_right_eq_some.mp moved
  split at moved
  · rename_i t stepped quiet
    cases moved
    exact .acted known inside stepped quiet
  · rename_i t ev stepped traces
    rcases trace_turn moved with ⟨tracer,sends,rfl⟩ | ⟨text,sends,rfl⟩
    · exact .traced known inside stepped traces sends
    · exact .tracePanicked known inside stepped traces sends
  · cases moved

theorem package_turn (moved : Worker.package conf w name inst pkg deps top = some v) : Turn conf w v := by
  unfold Worker.package at moved
  obtain ⟨⟨known,busy⟩,moved⟩ := Option.ite_none_right_eq_some.mp moved
  rcases trace_turn moved with ⟨tracer,sends,rfl⟩ | ⟨text,sends,rfl⟩
  · exact .packaged known busy sends
  · exact .packagePanicked known busy sends

theorem next_turn (moved : Worker.next w = some v) : Turn conf w v := by
  unfold Worker.next at moved
  split at moved
  · rename_i here
    cases moved
    exact .advanced (.kafka here)
  · rename_i here
    cases moved
    exact .locked here
  · rename_i here
    obtain ⟨exited,moved⟩ := Option.ite_none_right_eq_some.mp moved
    cases moved
    exact .advanced (.exited here exited)
  · rename_i here
    cases moved
    exact .advanced (.killed here)
  · rename_i here
    cases moved
    exact .advanced (.zygotes here)
  · rename_i here
    cases moved
    exact .advanced (.pool here)
  · rename_i here
    cases moved
    exact .tracerClosed here
  · rename_i here
    obtain ⟨flushed,moved⟩ := Option.ite_none_right_eq_some.mp moved
    cases moved
    exact .advanced (.traced here flushed)
  · rename_i here
    cases moved
    exact .advanced (.dirs here)
  · rename_i here
    cases moved
    exact .advanced (.servers here)
  · rename_i here
    cases moved
    exact .advanced (.stats here)
  · cases moved

theorem step_turn (moved : step conf w action = some v) : w.fault = none ∧ Turn conf w v := by
  unfold step at moved
  split at moved
  · cases moved
  · rename_i sound
    refine ⟨by simpa using sound,?_⟩
    split at moved
    · rename_i name method http
      unfold Worker.arrive at moved
      split at moved
      · cases moved
      · rename_i accepts
        cases moved
        refine .arrived ?_
        intro web
        simpa [web] using accepts
    · obtain ⟨known,moved⟩ := Option.ite_none_right_eq_some.mp moved
      obtain ⟨⟨here,free⟩,moved⟩ := Option.ite_none_right_eq_some.mp moved
      cases moved
      exact .got known here free
    · obtain ⟨known,moved⟩ := Option.ite_none_right_eq_some.mp moved
      obtain ⟨here,moved⟩ := Option.ite_none_right_eq_some.mp moved
      obtain ⟨t,stepped,rfl⟩ := Option.map_eq_some_iff.mp moved
      exact .invoked known here stepped
    · obtain ⟨known,moved⟩ := Option.ite_none_right_eq_some.mp moved
      unfold Worker.wake at moved
      split at moved
      · rename_i here id
        obtain ⟨signalled,moved⟩ := Option.ite_none_right_eq_some.mp moved
        cases moved
        exact .woke known here id signalled
      · cases moved
    · exact act_turn moved
    · exact package_turn moved
    · obtain ⟨tracer,ran,rfl⟩ := Option.map_eq_some_iff.mp moved
      exact .tracerRan ran
    · obtain ⟨here,moved⟩ := Option.ite_none_right_eq_some.mp moved
      cases moved
      exact .triggered here
    · exact next_turn moved
    · unfold Worker.kill at moved
      split at moved
      · rename_i left here
        obtain ⟨member,moved⟩ := Option.ite_none_right_eq_some.mp moved
        obtain ⟨t,stepped,rfl⟩ := Option.map_eq_some_iff.mp moved
        exact .killed here member stepped
      · cases moved
    · unfold Worker.shutdown at moved
      split at moved
      · rename_i left here
        obtain ⟨⟨member,idle⟩,moved⟩ := Option.ite_none_right_eq_some.mp moved
        cases moved
        exact .advanced (.closed here member idle)
      · cases moved

def FuncMoves (conf : Lambda.Conf) (s t : Lambda.System) : Prop := t = s ∨ ∃ action, Lambda.step conf s action = some t

theorem setFunc_moves {w : Worker} {name : String} (stepped : Lambda.step conf (w.func name) action = some t) (other : String) :
    FuncMoves conf (w.func other) (Function.update w.func name t other) := by
  by_cases equal : other = name
  · subst equal
    rw [Function.update_self]
    exact .inr ⟨action,stepped⟩
  · rw [Function.update_of_ne equal]
    exact .inl rfl

theorem turn_func (turn : Turn conf w v) (name : String) : FuncMoves conf (w.func name) (v.func name) := by
  cases turn with
  | invoked _ _ stepped | acted _ _ stepped | traced _ _ stepped | tracePanicked _ _ stepped | killed _ _ stepped =>
      exact setFunc_moves stepped name
  | _ => exact .inl rfl

def FuncReached (conf : Lambda.Conf) (w : Worker) : Prop :=
  ∀ name, ∃ actions, run (Lambda.step conf) Lambda.init actions = some (w.func name)

theorem turn_funcReached (reached : FuncReached conf w) (turn : Turn conf w v) : FuncReached conf v := by
  intro name
  obtain ⟨actions,ran⟩ := reached name
  rcases turn_func turn name with same | ⟨action,moved⟩
  · exact ⟨actions,same ▸ ran⟩
  · exact ⟨actions ++ [action],run_trans ran (by simp [run,moved])⟩

def MainPc.left : MainPc → Option (List String)
  | .serving | .kafkaCleanup | .lockMap => none
  | .killing left => some left
  | .awaiting name left => some (name :: left)
  | _ => some []

def MainPc.traced : MainPc → Bool
  | .dirsCleanup | .shutdown _ | .finalStats | .returned => true
  | _ => false

def closedChannel : String := "send on closed channel"

structure Orderly (w : Worker) : Prop where
  killed : ∀ left, w.main.left = some left → w.mapLocked = true ∧
    ∀ name ∈ w.lfuncMap, name ∈ left ∨ (w.func name).pc = .exited
  closed : w.tracer.closed = true → w.main.left = some []
  flushed : w.main.traced = true → w.tracer.file ≠ none
  traced : Traced w.tracer w.sent
  sound : w.fault ≠ some closedChannel

theorem init_orderly : Orderly init := ⟨nofun,nofun,nofun,new_traced,nofun⟩

theorem moves_exited (reached : ∃ actions, run (Lambda.step conf) Lambda.init actions = some s)
    (moves : FuncMoves conf s t) (exited : s.pc = .exited) : t.pc = .exited := by
  obtain ⟨actions,ran⟩ := reached
  rcases moves with rfl | ⟨action,moved⟩
  · exact exited
  · have more : run (Lambda.step conf) s [action] = some t := by simp [run,moved]
    exact (Lambda.run_ended (Lambda.reached_accounted ran) exited more).pc

theorem exited_silent (reached : ∃ actions, run (Lambda.step conf) Lambda.init actions = some s) (exited : s.pc = .exited)
    (inside : own action = true) (moved : Lambda.step conf s action = some t) : traceOf conf s deps action = none := by
  obtain ⟨actions,ran⟩ := reached
  have outside := Lambda.exited_outside (Lambda.reached_accounted ran) exited (Lambda.step_turn moved).2
  cases outside with
  | invoke | askKill => cases inside
  | tick => rfl

theorem exited_installs (reached : ∃ actions, run (Lambda.step conf) Lambda.init actions = some s) (exited : s.pc = .exited)
    (inst : Option Nat) : installs conf s inst = false := by
  obtain ⟨actions,ran⟩ := reached
  cases inst with
  | none => simp [installs,exited]
  | some i =>
      by_cases born : i < s.nextInst
      · have stopped := Lambda.accounted_stopped (Lambda.reached_accounted ran) exited born
        simp [installs,stopped]
      · simp only [installs]
        split
        · simp [born]
        · rfl

theorem trace_error (sends : DepTracer.trace t ev = some (.error text)) : t.closed = true := by
  unfold DepTracer.trace at sends
  split at sends
  · assumption
  · split at sends <;> cases sends

theorem orderly_exited (orderly : Orderly w) (closed : w.tracer.closed = true) (known : name ∈ w.lfuncMap) :
    (w.func name).pc = .exited := by
  rcases (orderly.killed [] (orderly.closed closed)).2 name known with wrong | exited
  · cases wrong
  · exact exited

theorem localStep_fault (moved : Lambda.localStep zygotes fresh l action = some out) : out.fault ≠ some closedChannel := by
  cases Lambda.localStep_turn moved with
  | @tripped _ _ outcome _ _ _ => cases outcome <;> nofun
  | pausePanicked => simp [closedChannel]
  | _ => nofun

theorem step_fault (moved : Lambda.step conf s action = some t) : t.fault ≠ some closedChannel := by
  obtain ⟨sound,turn⟩ := Lambda.step_turn moved
  cases turn with
  | acted born stepped => exact localStep_fault stepped
  | checkPanicked => simp [closedChannel]
  | growPanicked _ _ cause =>
      rcases cause with ⟨_,rfl⟩ | ⟨_,rfl⟩
      · simp [Lambda.System.adjusted,closedChannel]
      · simp [Lambda.System.adjusted,closedChannel]
  | _ => simp [sound,Lambda.System.write,Lambda.System.sentKill,Lambda.System.put,Lambda.System.adjusted]

theorem advance_left (advance : Advance w main) : main.left = w.main.left ∨
    ∃ name left, w.main.left = some (name :: left) ∧ main.left = some left ∧ (w.func name).pc = .exited := by
  cases advance with
  | @exited name left here gone => exact .inr ⟨name,left,by rw [here]; rfl,rfl,gone⟩
  | kafka here | killed here | zygotes here | pool here | traced here | dirs here | closed here | servers here
  | stats here => exact .inl (by rw [here]; rfl)

theorem advance_traced (advance : Advance w main) (after : main.traced = true) : w.main.traced = true ∨ w.tracer.file ≠ none := by
  cases advance with
  | traced here flushed => exact .inr flushed
  | kafka here | exited here | killed here | zygotes here | pool here => cases after
  | dirs here | closed here | servers here | stats here => exact .inl (by rw [here]; rfl)

theorem turn_killed (reached : FuncReached conf w) (orderly : Orderly w) (turn : Turn conf w v) (held : v.main.left = some left) :
    v.mapLocked = true ∧ ∀ name ∈ v.lfuncMap, name ∈ left ∨ (v.func name).pc = .exited := by
  have exited : ∀ name, (w.func name).pc = .exited → (v.func name).pc = .exited :=
    fun name => moves_exited (reached name) (turn_func turn name)
  have kept : ∀ rest, w.main.left = some rest → ∀ name ∈ w.lfuncMap, name ∈ rest ∨ (v.func name).pc = .exited := by
    intro rest before name known
    rcases (orderly.killed rest before).2 name known with waits | gone
    · exact .inl waits
    · exact .inr (exited name gone)
  cases turn with
  | got _ _ free =>
      rw [(orderly.killed left held).1] at free
      cases free
  | locked here =>
      cases held
      exact ⟨rfl,fun name known => .inl known⟩
  | @killed rest name t here member stepped =>
      have before : w.main.left = some rest := by rw [here]; rfl
      cases held
      refine ⟨(orderly.killed rest before).1,?_⟩
      intro other known
      rcases kept rest before other known with waits | gone
      · by_cases equal : other = name
        · exact .inl (equal ▸ List.mem_cons_self)
        · exact .inl (List.mem_cons_of_mem _ ((List.mem_erase_of_ne equal).mpr waits))
      · exact .inr gone
  | tracerClosed here =>
      have before : w.main.left = some left := by rw [here]; exact held
      exact ⟨(orderly.killed left before).1,kept left before⟩
  | triggered here => cases held
  | advanced advance =>
      rcases advance_left advance with same | ⟨name,rest,before,after,gone⟩
      · have before : w.main.left = some left := same ▸ held
        exact ⟨(orderly.killed left before).1,kept left before⟩
      · cases after.symm.trans held
        refine ⟨(orderly.killed _ before).1,?_⟩
        intro other known
        rcases kept _ before other known with waits | done
        · rcases List.mem_cons.mp waits with rfl | later
          · exact .inr gone
          · exact .inl later
        · exact .inr done
  | _ => exact ⟨(orderly.killed left held).1,kept left held⟩

theorem turn_closed (orderly : Orderly w) (turn : Turn conf w v) (closed : v.tracer.closed = true) : v.main.left = some [] := by
  cases turn with
  | tracerClosed => rfl
  | traced _ _ _ _ sends | packaged _ _ sends =>
      obtain ⟨isOpen,rfl⟩ := trace_parts sends
      cases isOpen.symm.trans closed
  | tracerRan ran =>
      rw [(run_traced orderly.traced ran).2] at closed
      exact orderly.closed closed
  | triggered here | locked here =>
      have before := orderly.closed closed
      rw [here] at before
      cases before
  | killed here member =>
      have before := orderly.closed closed
      rw [here] at before
      cases before
      cases member
  | advanced advance =>
      have before := orderly.closed closed
      rcases advance_left advance with same | ⟨name,rest,other,_⟩
      · exact same.trans before
      · cases before.symm.trans other
  | _ => exact orderly.closed closed

theorem turn_flushed (orderly : Orderly w) (turn : Turn conf w v) (after : v.main.traced = true) : v.tracer.file ≠ none := by
  cases turn with
  | traced _ _ _ _ sends | packaged _ _ sends =>
      obtain ⟨_,rfl⟩ := trace_parts sends
      exact orderly.flushed after
  | tracerRan ran => exact absurd (run_unflushed ran) (orderly.flushed after)
  | triggered | locked | killed | tracerClosed => cases after
  | advanced advance =>
      rcases advance_traced advance after with before | now
      · exact orderly.flushed before
      · exact now
  | _ => exact orderly.flushed after

theorem turn_orderly (reached : FuncReached conf w) (orderly : Orderly w) (turn : Turn conf w v) : Orderly v where
  killed := fun left held => turn_killed reached orderly turn held
  closed := turn_closed orderly turn
  flushed := turn_flushed orderly turn
  traced := by
    cases turn with
    | traced _ _ _ _ sends | packaged _ _ sends => exact trace_traced orderly.traced sends
    | tracerRan ran => exact (run_traced orderly.traced ran).1
    | tracerClosed => exact close_traced orderly.traced
    | _ => exact orderly.traced
  sound := by
    cases turn with
    | invoked _ _ stepped | acted _ _ stepped | traced _ _ stepped | killed _ _ stepped => exact step_fault stepped
    | tracePanicked known inside stepped traces sends =>
        have exited := orderly_exited orderly (trace_error sends) known
        cases (exited_silent (reached _) exited inside stepped).symm.trans traces
    | packagePanicked known busy sends =>
        have exited := orderly_exited orderly (trace_error sends) known
        cases (exited_installs (reached _) exited _).symm.trans busy
    | _ => exact orderly.sound

theorem reached_orderly (ran : run (step conf) init actions = some w) : Orderly w := by
  have preserved : ∀ w action v, FuncReached conf w ∧ Orderly w → step conf w action = some v →
      FuncReached conf v ∧ Orderly v := by
    intro w action v both moved
    have turn := (step_turn moved).2
    exact ⟨turn_funcReached both.1 turn,turn_orderly both.1 both.2 turn⟩
  exact (run_preserves (fun w => FuncReached conf w ∧ Orderly w) preserved ⟨fun _ => ⟨[],rfl⟩,init_orderly⟩ ran).2

def requested : List Action := [.arrive "f" "POST" true,.get 0,.invoke 0]

def ownSteps (actions : List Lambda.Action) : List Action := actions.map fun action => .func "f" action []

def served : List Action :=
  requested ++ (ownSteps [.receive,.pull ⟨.ok "code/1001-f",.ok (Lambda.codeMeta .python false ["*"]),none,none⟩,.check,.dispatch,.scale,.take 0,
    .act 0 (.create none),.act 0 (.roundTrip (.replied 200 "" none) 1),.report 0,.act 0 .settle,.act 0 .checkKill,.grab 0,.finished,.signal,.scale] ++
    [.wake 0])

def killed : List Action := [.trigger none,.main,.main,.kill "f",.func "f" .takeKill []]

def stopped (cleaning : List Lambda.Action) (events : Nat) : List Action :=
  ownSteps (cleaning ++ [.kill,.exit]) ++ (List.replicate 5 .main ++ (List.replicate (events + 1) .tracer ++
    [.main,.main,.shutdown .uds]))

def graceful : List Action :=
  served ++ (killed ++ (stopped [.kill,.queue,.cleanup,.act 0 .takeKill,.act 0 .destroy,.ack 0] 2 ++
    [.shutdown .tcp,.main,.main]))

theorem trace_complete (ran : run (step conf) init actions = some w) :
    w.fault ≠ some closedChannel ∧ (w.main.traced = true → w.tracer.file = some w.sent) := by
  have orderly := reached_orderly ran
  refine ⟨orderly.sound,?_⟩
  intro after
  cases flushed : w.tracer.file with
  | none => exact absurd flushed (orderly.flushed after)
  | some log =>
      obtain ⟨same,empty,_⟩ := orderly.traced.file log flushed
      rw [same,← orderly.traced.order,empty,List.append_nil]

theorem trace_complete_graceful :
    ∃ w, run (step ⟨false,0⟩) init graceful = some w ∧ w.main = .returned ∧
      w.tracer.file = some [.function "code/1001-f" [],.invocation "code/1001-f"] := by
  have seen : (run (step ⟨false,0⟩) init graceful).map (fun w => (w.main,w.sent)) =
      some (.returned,[.function "code/1001-f" [],.invocation "code/1001-f"]) := by decide +kernel
  obtain ⟨w,ran,facts⟩ := Option.map_eq_some_iff.mp seen
  simp only [Prod.mk.injEq] at facts
  obtain ⟨returned,sent⟩ := facts
  exact ⟨w,ran,returned,by rw [(trace_complete ran).2 (by rw [returned]; rfl),sent]⟩

structure Served (w : Worker) : Prop where
  closed : w.main.tcpClosed = true → ∀ c, c < w.nextCaller → (w.caller c).http = true → (w.caller c).pc = .returned
  answered : ∀ c, c < w.nextCaller → (w.caller c).pc = .returned →
    ∃ r, (w.caller c).id = some r ∧ (w.func (w.caller c).name).Answered r

theorem init_served : Served init := ⟨nofun,nofun⟩

theorem moves_answered (moves : FuncMoves conf s t) (answered : s.Answered r) : t.Answered r := by
  rcases moves with rfl | ⟨action,moved⟩
  · exact answered
  · obtain ⟨more,grown⟩ := Lambda.turn_written (Lambda.step_turn moved).2
    exact Lambda.later_answered grown answered

theorem put_closed {w : Worker} (served : Served w) (here : (w.caller c).pc ≠ .returned) (known : c < w.nextCaller)
    (new : Caller) (same : new.http = (w.caller c).http) (closed : w.main.tcpClosed = true) (d : Nat) (born : d < w.nextCaller)
    (web : (Function.update w.caller c new d).http = true) : (Function.update w.caller c new d).pc = .returned := by
  by_cases equal : d = c
  · subst equal
    rw [Function.update_self,same] at web
    exact absurd (served.closed closed d known web) here
  · rw [Function.update_of_ne equal] at web ⊢
    exact served.closed closed d born web

theorem advance_closed (served : Served w) (advance : Advance w main) (closed : main.tcpClosed = true) (c : Nat)
    (born : c < w.nextCaller) (web : (w.caller c).http = true) : (w.caller c).pc = .returned := by
  cases advance with
  | @closed left server here member idle =>
      by_cases port : server = .tcp
      · exact idle port c born web
      · refine served.closed ?_ c born web
        have different : HttpServer.tcp ≠ server := Ne.symm port
        simpa [MainPc.tcpClosed,here,List.mem_erase_of_ne different] using closed
  | servers here | stats here => exact served.closed (by rw [here]; rfl) c born web
  | kafka | exited | killed | zygotes | pool | traced | dirs => cases closed

theorem turn_closedPort (served : Served w) (turn : Turn conf w v) (closed : v.main.tcpClosed = true) :
    ∀ c, c < v.nextCaller → (v.caller c).http = true → (v.caller c).pc = .returned := by
  cases turn with
  | @arrived http name method accepts =>
      intro c born web
      by_cases equal : c = w.nextCaller
      · subst equal
        have mine : http = true := by simpa [Worker.put] using web
        cases (accepts mine).symm.trans closed
      · have older : c < w.nextCaller := Nat.lt_of_le_of_ne (Nat.lt_succ_iff.mp born) equal
        simp only [Worker.put,Function.update_of_ne equal] at web ⊢
        exact served.closed closed c older web
  | got known here | invoked known here => exact put_closed served (by rw [here]; nofun) known _ rfl closed
  | woke known here => exact put_closed served (by rw [here]; nofun) known _ rfl closed
  | triggered | locked | killed | tracerClosed => cases closed
  | advanced advance => exact fun c born web => advance_closed (w := w) served advance closed c born web
  | _ => exact served.closed closed

theorem put_answered {w v : Worker} (served : Served w) (c : Nat) (new : Caller) (callers : v.caller = Function.update w.caller c new)
    (moves : ∀ name, FuncMoves conf (w.func name) (v.func name))
    (back : new.pc = .returned → ∃ r, new.id = some r ∧ (v.func new.name).Answered r) (d : Nat) (older : d ≠ c → d < w.nextCaller)
    (here : (v.caller d).pc = .returned) : ∃ r, (v.caller d).id = some r ∧ (v.func (v.caller d).name).Answered r := by
  rw [callers] at here ⊢
  by_cases equal : d = c
  · subst equal
    rw [Function.update_self] at here ⊢
    exact back here
  · rw [Function.update_of_ne equal] at here ⊢
    obtain ⟨r,id,answered⟩ := served.answered d (older equal) here
    exact ⟨r,id,moves_answered (moves _) answered⟩

theorem invoke_refused (moved : Lambda.step conf s (.invoke method) = some t) (full : ¬s.funcChan.length < Lambda.chanCap) :
    t.Answered s.nextReq := by
  unfold Lambda.step at moved
  split at moved
  · cases moved
  · simp only [Lambda.System.invoke,if_neg full,Option.some.injEq] at moved
    subst moved
    exact Lambda.wrote_answered s ⟨s.nextReq,429,"lambda function queue is full\n"⟩

theorem turn_served (reached : FuncReached conf w) (served : Served w) (turn : Turn conf w v) : Served v where
  closed := turn_closedPort served turn
  answered := by
    have moves := turn_func turn
    have kept : v.caller = w.caller → v.nextCaller = w.nextCaller → ∀ c, c < v.nextCaller → (v.caller c).pc = .returned →
        ∃ r, (v.caller c).id = some r ∧ (v.func (v.caller c).name).Answered r := by
      intro callers number c born here
      rw [callers] at here ⊢
      obtain ⟨r,id,answered⟩ := served.answered c (number ▸ born) here
      exact ⟨r,id,moves_answered (moves _) answered⟩
    cases turn with
    | arrived accepts =>
        intro c born
        exact put_answered served w.nextCaller _ rfl moves nofun c
          fun different => Nat.lt_of_le_of_ne (Nat.lt_succ_iff.mp born) different
    | @got c names known here free =>
        intro d born
        exact put_answered served c _ rfl moves nofun d fun _ => born
    | @invoked c t known here stepped =>
        intro d born
        refine put_answered served c _ rfl moves ?_ d fun _ => born
        intro back
        refine ⟨_,rfl,?_⟩
        have full : ¬(w.func (w.caller c).name).funcChan.length < Lambda.chanCap := by
          intro room
          simp [room] at back
        simpa [Worker.setFunc,Worker.put] using invoke_refused stepped full
    | @woke c r known here id signalled =>
        intro d born
        refine put_answered served c _ rfl moves ?_ d fun _ => born
        intro _
        obtain ⟨actions,ran⟩ := reached (w.caller c).name
        exact ⟨r,id,Lambda.reached_answered ran signalled⟩
    | _ => exact kept rfl rfl

theorem reached_served (ran : run (step conf) init actions = some w) : Served w := by
  have preserved : ∀ w action v, FuncReached conf w ∧ Served w → step conf w action = some v →
      FuncReached conf v ∧ Served v := by
    intro w action v both moved
    have turn := (step_turn moved).2
    exact ⟨turn_funcReached both.1 turn,turn_served both.1 both.2 turn⟩
  exact (run_preserves (fun w => FuncReached conf w ∧ Served w) preserved ⟨fun _ => ⟨[],rfl⟩,init_served⟩ ran).2

-- If Main returns, every request that came in over the port was answered, however
-- late it came.
theorem main_returned_answered (ran : run (step conf) init actions = some w) (returned : w.main = .returned) (c : Nat)
    (born : c < w.nextCaller) (web : (w.caller c).http = true) :
    (w.caller c).pc = .returned ∧ ∃ r, (w.caller c).id = some r ∧ (w.func (w.caller c).name).Answered r := by
  have served := reached_served ran
  have back := served.closed (by rw [returned]; rfl) c born web
  exact ⟨back,served.answered c born back⟩

theorem main_returned_answered_graceful :
    ∃ w, run (step ⟨false,0⟩) init graceful = some w ∧ w.main = .returned ∧ (w.func "f").Answered 0 := by
  have seen : (run (step ⟨false,0⟩) init graceful).map (fun w => (w.main,w.nextCaller,w.caller 0)) =
      some (.returned,1,⟨"f","POST",true,.returned,some 0⟩) := by decide +kernel
  obtain ⟨w,ran,facts⟩ := Option.map_eq_some_iff.mp seen
  simp only [Prod.mk.injEq] at facts
  obtain ⟨returned,one,caller⟩ := facts
  obtain ⟨_,r,id,answered⟩ := main_returned_answered ran returned 0 (by rw [one]; exact Nat.one_pos) (by rw [caller])
  rw [caller] at id answered
  cases id
  exact ⟨w,ran,returned,answered⟩

-- A request that is not answered when Task takes the kill, or that comes to Get
-- when Cleanup has the lock.
inductive Stuck (w : Worker) (c : Nat) : Prop where
  | unanswered : (w.caller c).pc = .waiting → (w.caller c).id = some r →
      r ∉ (w.func (w.caller c).name).signalled → (w.func (w.caller c).name).pc.ended = true → Stuck w c
  | locked : (w.caller c).pc = .getting → w.mapLocked = true → Stuck w c

theorem moves_ended (moves : FuncMoves conf s t) (ended : s.pc.ended = true) :
    t.pc.ended = true ∧ t.signalled = s.signalled := by
  rcases moves with rfl | ⟨action,moved⟩
  · exact ⟨ended,rfl⟩
  · exact Lambda.turn_ended (Lambda.step_turn moved).2 ended

theorem stuck_kept {w v : Worker} (stuck : Stuck w c) (caller : v.caller c = w.caller c)
    (moves : ∀ name, FuncMoves conf (w.func name) (v.func name)) (lock : w.mapLocked = true → v.mapLocked = true) :
    Stuck v c := by
  cases stuck with
  | unanswered here id silent ended =>
      obtain ⟨still,same⟩ := moves_ended (moves (w.caller c).name) ended
      exact .unanswered (caller ▸ here) (caller ▸ id) (by rw [caller,same]; exact silent) (by rw [caller]; exact still)
  | locked here held => exact .locked (caller ▸ here) (lock held)

theorem stuck_got (stuck : Stuck w c) (here : (w.caller d).pc = .getting) (free : w.mapLocked = false) : c ≠ d := by
  rintro rfl
  cases stuck with
  | unanswered there => cases here.symm.trans there
  | locked _ held => cases free.symm.trans held

theorem stuck_invoked (stuck : Stuck w c) (here : (w.caller d).pc = .invoking) : c ≠ d := by
  rintro rfl
  cases stuck with
  | unanswered there => cases here.symm.trans there
  | locked there => cases here.symm.trans there

theorem stuck_woke (stuck : Stuck w c) (here : (w.caller d).pc = .waiting) (id : (w.caller d).id = some r)
    (signalled : r ∈ (w.func (w.caller d).name).signalled) : c ≠ d := by
  rintro rfl
  cases stuck with
  | unanswered _ other silent =>
      cases id.symm.trans other
      exact silent signalled
  | locked there => cases here.symm.trans there

theorem turn_stuck (turn : Turn conf w v) (born : c < w.nextCaller) (stuck : Stuck w c) : Stuck v c := by
  have moves := turn_func turn
  cases turn with
  | arrived => exact stuck_kept stuck (Function.update_of_ne (Nat.ne_of_lt born) _ _) moves id
  | got known here free => exact stuck_kept stuck (Function.update_of_ne (stuck_got stuck here free) _ _) moves id
  | invoked known here => exact stuck_kept stuck (Function.update_of_ne (stuck_invoked stuck here) _ _) moves id
  | woke known here id signalled =>
      exact stuck_kept stuck (Function.update_of_ne (stuck_woke stuck here id signalled) _ _) moves (·)
  | locked => exact stuck_kept stuck rfl moves (fun _ => rfl)
  | _ => exact stuck_kept stuck rfl moves id

theorem put_http {w : Worker} (c d : Nat) (new : Caller) (same : new.http = (w.caller d).http) :
    (Function.update w.caller d new c).http = (w.caller c).http := by
  by_cases equal : c = d
  · rw [equal,Function.update_self,same]
  · rw [Function.update_of_ne equal]

theorem turn_http (turn : Turn conf w v) (born : c < w.nextCaller) :
    c < v.nextCaller ∧ (v.caller c).http = (w.caller c).http := by
  cases turn with
  | arrived =>
      exact ⟨Nat.lt_succ_of_lt born,by simp only [Worker.put,Function.update_of_ne (Nat.ne_of_lt born)]⟩
  | got | invoked | woke => exact ⟨born,put_http c _ _ rfl⟩
  | _ => exact ⟨born,rfl⟩

theorem shutdown_hangs (ran : run (step conf) init actions = some w) (born : c < w.nextCaller)
    (web : (w.caller c).http = true) (stuck : Stuck w c) (later : run (step conf) w more = some v) : v.main ≠ .returned := by
  have preserved : ∀ u action v, c < u.nextCaller ∧ (u.caller c).http = true ∧ Stuck u c → step conf u action = some v →
      c < v.nextCaller ∧ (v.caller c).http = true ∧ Stuck v c := by
    intro u action v before moved
    obtain ⟨known,port,waits⟩ := before
    have turn := (step_turn moved).2
    obtain ⟨still,same⟩ := turn_http turn known
    exact ⟨still,same.trans port,turn_stuck turn known waits⟩
  obtain ⟨still,port,waits⟩ := run_preserves (fun u => c < u.nextCaller ∧ (u.caller c).http = true ∧ Stuck u c) preserved
    ⟨born,web,stuck⟩ later
  intro returned
  have back := (reached_served (run_trans ran later)).closed (by rw [returned]; rfl) c still port
  cases waits with
  | unanswered here => cases here.symm.trans back
  | locked here => cases here.symm.trans back

theorem shutdown_hangs_queued :
    ∃ w v, run (step ⟨false,0⟩) init (requested ++ killed) = some w ∧ Stuck w 0 ∧
      run (step ⟨false,0⟩) w (stopped [] 0) = some v ∧ v.main = .shutdown [.tcp] ∧ v.main ≠ .returned := by
  have seen : (run (step ⟨false,0⟩) init (requested ++ killed)).map
      (fun w => ((w.caller 0,(w.func "f").signalled,(w.func "f").pc,w.nextCaller),
        (run (step ⟨false,0⟩) w (stopped [] 0)).map (·.main))) =
        some ((⟨"f","POST",true,.waiting,some 0⟩,[],.dying [],1),some (.shutdown [.tcp])) := by decide +kernel
  obtain ⟨w,ran,facts⟩ := Option.map_eq_some_iff.mp seen
  simp only [Prod.mk.injEq] at facts
  obtain ⟨⟨caller,signalled,dying,one⟩,later⟩ := facts
  obtain ⟨v,more,last⟩ := Option.map_eq_some_iff.mp later
  have stuck : Stuck w 0 := .unanswered (by rw [caller]) (by rw [caller]) (by rw [caller,signalled]; nofun)
    (by rw [caller,dying]; rfl)
  exact ⟨w,v,ran,stuck,more,last,shutdown_hangs ran (by rw [one]; exact Nat.one_pos) (by rw [caller]) stuck more⟩

end OpenLambda.Event
