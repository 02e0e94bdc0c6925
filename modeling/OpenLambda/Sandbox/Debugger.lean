import OpenLambda.Sandbox.SafeSandbox
import Mathlib.Logic.Function.Basic

namespace OpenLambda.Debugger
open SafeWrapper (SafeSandbox SandboxEventType newSafeSandbox event startNotifyingListeners died autoKilled explicitlyKilled
  idleKilled pauseDone unpauseDone childExitDone)
open SafeWrapper.SandboxEventType

def debuggerCap : Nat := 64

inductive Call where
  | start
  | destroy (reason : String)
  | destroyIfPaused (reason : String)
  | pause
  | unpause
  | fork
  | childExit
  | debugString
  deriving DecidableEq, Repr

inductive Next where
  | inner
  | leaving
  deriving DecidableEq, Repr

-- Where a call is. `sending` is at the debugger's handler, with the mutex.
-- `inner` is in the method of the wrapped sandbox, `killing` in the Destroy of
-- destroyOnErr; both know whether the parent's childExit was called from there.
inductive Stage where
  | locking
  | entered
  | sending (evType : SandboxEventType) (next : Next)
  | inner (told : Bool)
  | killing (text : String) (told : Bool)
  | leaving
  deriving DecidableEq, Repr

def Next.stage : Next → Stage
  | .inner => .inner false
  | .leaving => .leaving

def Stage.atSend : Stage → Bool
  | .sending _ _ => true
  | _ => false

def notify : List SandboxEventType → Next → Stage
  | [],next => next.stage
  | evType :: _,next => .sending evType next

def enter (sb : SafeSandbox) : Call → SafeSandbox × Stage
  | .start => ((startNotifyingListeners sb).1,notify (startNotifyingListeners sb).2 .leaving)
  | .destroy _ | .fork => (sb,if sb.dead = none then .inner false else .leaving)
  | .destroyIfPaused _ =>
      (sb,if sb.dead ≠ none then .leaving else if sb.paused then .inner false
        else notify (event sb evDestroyIgnored) .leaving)
  | .pause => (sb,if sb.dead = none ∧ sb.paused = false then .inner false else .leaving)
  | .unpause => (sb,if sb.dead = none ∧ sb.paused = true then notify (event sb evUnpause) .inner else .leaving)
  | .childExit => (sb,.inner false)
  | .debugString => (sb,.leaving)

-- After the wrapped sandbox has returned `err`. The fields change under the
-- mutex, so that nobody sees whether that is before or after the event.
def finish (sb : SafeSandbox) (err : Option String) : Call → SafeSandbox × Stage
  | .destroy reason =>
      ((died sb (explicitlyKilled sb reason)).1,notify (died sb (explicitlyKilled sb reason)).2 .leaving)
  | .destroyIfPaused reason => ((died sb (idleKilled reason)).1,notify (died sb (idleKilled reason)).2 .leaving)
  | .pause => match err with
      | some e => (sb,.killing (autoKilled "Pause" e) false)
      | none => ((pauseDone sb).1,notify (pauseDone sb).2 .leaving)
  | .unpause => match err with
      | some e => (sb,.killing (autoKilled "Unpause" e) false)
      | none => (unpauseDone sb,.leaving)
  | .fork => match err with
      | some _ => (sb,.leaving)
      | none => (sb,notify (event sb evFork) .leaving)
  | .childExit => (sb,notify (childExitDone sb) .leaving)
  | .start | .debugString => (sb,.leaving)

def kill (sb : SafeSandbox) (text : String) : SafeSandbox × Stage := ((died sb text).1,notify (died sb text).2 .leaving)

-- A call whose steps nobody comes between, and the events it sends: it has the
-- effect of the whole method.
def undisturbed (call : Call) (err : Option String) : Nat → SafeSandbox × Stage → SafeSandbox × List SandboxEventType
  | n + 1,(sb,.sending evType next) =>
      let (after,events) := undisturbed call err n (sb,next.stage)
      (after,evType :: events)
  | n + 1,(sb,.inner _) => undisturbed call err n (finish sb err call)
  | n + 1,(sb,.killing text _) => undisturbed call err n (kill sb text)
  | _,(sb,_) => (sb,[])

def Call.method (err : Option String) : Call → Option SafeWrapper.Call
  | .destroy reason => some (.destroy reason)
  | .destroyIfPaused reason => some (.destroyIfPaused reason)
  | .pause => some (.pause err)
  | .unpause => some (.unpause err)
  | .fork => some (.fork err)
  | .childExit => some .childExit
  | .start | .debugString => none

theorem undisturbed_perform (call : Call) (sb : SafeSandbox) (method : call.method err = some whole) :
    undisturbed call err 4 (enter sb call) = ((SafeWrapper.perform sb whole).sb,(SafeWrapper.perform sb whole).events) := by
  obtain ⟨paused,dead,listening⟩ := sb
  cases call <;> cases method <;> cases dead <;> cases paused <;> cases listening <;> first | rfl | (cases err <;> rfl)

structure Frame where
  sb : Nat
  call : Call
  stage : Stage
  deriving DecidableEq, Repr

-- A call that waits for the childExit it has made, in its inner call or in the
-- Destroy of destroyOnErr.
structure Caller where
  sb : Nat
  call : Call
  killing : Option String
  deriving DecidableEq, Repr

def Caller.resume (caller : Caller) : Frame :=
  ⟨caller.sb,caller.call,match caller.killing with
    | none => .inner true
    | some text => .killing text true⟩

inductive Routine where
  | calls (top : Frame) (callers : List Caller)
  | dumpSend
  | dumpWait
  | done
  deriving DecidableEq, Repr

def Routine.atSend : Routine → Bool
  | .calls top _ => top.stage.atSend
  | .dumpSend => true
  | _ => false

inductive Msg where
  | event (evType : SandboxEventType) (sb : Nat)
  | dump (g : Nat)
  deriving DecidableEq, Repr

-- debugger.Run: at the receive, and serving the Dump of the goroutine `g`: between
-- two sandboxes, before the mutex of one, and with it.
inductive Loop where
  | receiving
  | dumping (g : Nat) (rest : List Nat)
  | locking (g sb : Nat) (rest : List Nat)
  | printing (g sb : Nat) (rest : List Nat)
  deriving DecidableEq, Repr

inductive Holder where
  | routine (g : Nat)
  | loop
  deriving DecidableEq, Repr

structure System where
  sandbox : Nat → SafeSandbox
  holder : Nat → Option Holder
  chan : List Msg
  routine : Nat → Routine
  nextRoutine : Nat
  loop : Loop
  sandboxes : List Nat

def init : System where
  sandbox := fun _ => newSafeSandbox
  holder := fun _ => none
  chan := []
  routine := fun _ => .done
  nextRoutine := 0
  loop := .receiving
  sandboxes := []

def System.set (s : System) (g : Nat) (routine : Routine) : System :=
  {s with routine := Function.update s.routine g routine}

def System.spawn (s : System) (routine : Routine) : System :=
  {s.set s.nextRoutine routine with nextRoutine := s.nextRoutine + 1}

def System.put (s : System) (g : Nat) (top : Frame) (callers : List Caller) (effect : SafeSandbox × Stage) : System :=
  {s.set g (.calls {top with stage := effect.2} callers) with sandbox := Function.update s.sandbox top.sb effect.1}

def System.lock (s : System) (g : Nat) : Option System :=
  match s.routine g with
  | .calls top callers => match top.stage with
      | .locking =>
          if s.holder top.sb = none then
            some {s.set g (.calls {top with stage := .entered} callers) with
              holder := Function.update s.holder top.sb (some (.routine g))}
          else none
      | _ => none
  | _ => none

def System.enter (s : System) (g : Nat) : Option System :=
  match s.routine g with
  | .calls top callers => match top.stage with
      | .entered => some (s.put g top callers (Debugger.enter (s.sandbox top.sb) top.call))
      | _ => none
  | _ => none

def System.send (s : System) (g : Nat) : Option System :=
  match s.routine g with
  | .calls top callers => match top.stage with
      | .sending evType next =>
          if s.chan.length < debuggerCap then
            some {s.set g (.calls {top with stage := next.stage} callers) with chan := s.chan ++ [.event evType top.sb]}
          else none
      | _ => none
  | .dumpSend => if s.chan.length < debuggerCap then some {s.set g .dumpWait with chan := s.chan ++ [.dump g]} else none
  | _ => none

def System.descend (parent : Nat → Option Nat) (s : System) (g : Nat) : Option System :=
  match s.routine g with
  | .calls top callers => match parent top.sb with
      | some p => match top.stage,top.call with
          | .inner false,.destroy _ | .inner false,.destroyIfPaused _ | .inner false,.childExit =>
              some (s.set g (.calls ⟨p,.childExit,.locking⟩ (⟨top.sb,top.call,none⟩ :: callers)))
          | .killing text false,_ =>
              some (s.set g (.calls ⟨p,.childExit,.locking⟩ (⟨top.sb,top.call,some text⟩ :: callers)))
          | _,_ => none
      | none => none
  | _ => none

def System.finish (s : System) (g : Nat) (err : Option String) : Option System :=
  match s.routine g with
  | .calls top callers => match top.stage with
      | .inner _ => some (s.put g top callers (Debugger.finish (s.sandbox top.sb) err top.call))
      | .killing text _ => some (s.put g top callers (kill (s.sandbox top.sb) text))
      | _ => none
  | _ => none

def System.leave (s : System) (g : Nat) : Option System :=
  match s.routine g with
  | .calls top callers => match top.stage with
      | .leaving =>
          let t := {s with holder := Function.update s.holder top.sb none}
          match callers with
          | [] => some (t.set g .done)
          | caller :: rest => some (t.set g (.calls caller.resume rest))
      | _ => none
  | _ => none

def System.receive (s : System) : Option System :=
  match s.loop,s.chan with
  | .receiving,msg :: rest => match msg with
      | .event evCreate sb => some {s with chan := rest,sandboxes := sb :: s.sandboxes.erase sb}
      | .event evDestroy sb => some {s with chan := rest,sandboxes := s.sandboxes.erase sb}
      | .event _ _ => some {s with chan := rest}
      | .dump g => some {s with chan := rest,loop := .dumping g s.sandboxes}
  | _,_ => none

def System.visit (s : System) (sb : Nat) : Option System :=
  match s.loop with
  | .dumping g rest => if sb ∈ rest then some {s with loop := .locking g sb (rest.erase sb)} else none
  | _ => none

def System.lockLoop (s : System) : Option System :=
  match s.loop with
  | .locking g sb rest =>
      if s.holder sb = none then
        some {s with loop := .printing g sb rest,holder := Function.update s.holder sb (some .loop)}
      else none
  | _ => none

def System.print (s : System) : Option System :=
  match s.loop with
  | .printing g sb rest => some {s with loop := .dumping g rest,holder := Function.update s.holder sb none}
  | _ => none

def System.reply (s : System) : Option System :=
  match s.loop with
  | .dumping g [] => if s.routine g = .dumpWait then some {s.set g .done with loop := .receiving} else none
  | _ => none

inductive Action where
  | call (sb : Nat) (call : Call)
  | dump
  | lock (g : Nat)
  | enter (g : Nat)
  | send (g : Nat)
  | descend (g : Nat)
  | finish (g : Nat) (err : Option String)
  | leave (g : Nat)
  | receive
  | visit (sb : Nat)
  | lockLoop
  | print
  | reply
  deriving DecidableEq, Repr

def Action.actor : Action → Option Nat
  | .lock g | .enter g | .send g | .descend g | .finish g _ | .leave g => some g
  | _ => none

def routineStep (parent : Nat → Option Nat) (s : System) (g : Nat) : Action → Option System
  | .lock _ => s.lock g
  | .enter _ => s.enter g
  | .send _ => s.send g
  | .descend _ => s.descend parent g
  | .finish _ err => s.finish g err
  | .leave _ => s.leave g
  | _ => none

def step (parent : Nat → Option Nat) (s : System) (action : Action) : Option System :=
  match action.actor with
  | some g => if g < s.nextRoutine then routineStep parent s g action else none
  | none => match action with
      | .call sb call => some (s.spawn (.calls ⟨sb,call,.locking⟩ []))
      | .dump => some (s.spawn .dumpSend)
      | .receive => s.receive
      | .visit sb => s.visit sb
      | .lockLoop => s.lockLoop
      | .print => s.print
      | .reply => s.reply
      | _ => none

-- Run waits for a mutex, and the goroutine that has it waits for room in the
-- channel that only Run empties.
def System.Stuck (s : System) : Prop :=
  ∃ g sb rest holder, s.loop = .locking g sb rest ∧ s.holder sb = some (.routine holder) ∧
    holder < s.nextRoutine ∧ (s.routine holder).atSend = true ∧ debuggerCap ≤ s.chan.length

end OpenLambda.Debugger
