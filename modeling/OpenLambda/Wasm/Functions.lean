import OpenLambda.Foundation.Hands
import OpenLambda.Foundation.Runs

namespace OpenLambda.Functions
open Foundation.Hands Foundation.Runs

def maxIdleInstances : Nat := 100

-- An instance of a function; `handle` is the ResultHandle in its store, which is
-- the number of the request it belongs to.
structure Instance where
  function : Nat
  handle : Nat
  deriving DecidableEq, Repr

inductive Response where
  | ok (body : List UInt8)
  | internalServerError
  deriving DecidableEq, Repr

-- Where a call of execute_function is: before the pop of get_idle_instance, in
-- InstanceData::new, in the guest's function, after its return, before and within
-- mark_idle, answered, and gone after a panic or because it was cancelled.
inductive Stage where
  | unborn
  | waiting
  | creating (i : Nat)
  | running (i : Nat)
  | returned (i : Nat)
  | answering (i : Nat) (response : Response)
  | pushing (i : Nat) (response : Response)
  | finished (response : Response)
  | dropped
  deriving DecidableEq, Repr

def Stage.holding : Stage → Option Nat
  | .creating i | .running i | .returned i | .answering i _ | .pushing i _ => some i
  | _ => none

def Stage.calling : Stage → Option Nat
  | .creating i | .running i => some i
  | _ => none

-- `set` is history: the bytes that were passed to set_result and accepted.
structure Request where
  function : Nat
  stage : Stage
  set : List (List UInt8)
  deriving DecidableEq, Repr

structure Worker where
  request : Nat → Request
  slot : Nat → Option (List UInt8)
  inst : Nat → Instance
  nextInstance : Nat
  idle : Nat → List Nat
  discarded : Nat → List Nat

def init : Worker where
  request := fun _ => ⟨0,.unborn,[]⟩
  slot := fun _ => none
  inst := fun _ => ⟨0,0⟩
  nextInstance := 1
  idle := fun _ => []
  discarded := fun _ => []

def Worker.goto (s : Worker) (r : Nat) (stage : Stage) : Worker :=
  {s with request := Function.update s.request r {s.request r with stage := stage}}

def Worker.discard (s : Worker) (r i : Nat) : Worker :=
  {s with discarded := Function.update s.discarded (s.request r).function (s.discarded (s.request r).function ++ [i])}

def Worker.execute (loaded : Nat → Bool) (s : Worker) (r function : Nat) : Option Worker :=
  match (s.request r).stage with
  | .unborn =>
      some {s with
        request := Function.update s.request r ⟨function,if loaded function then .waiting else .dropped,[]⟩}
  | _ => none

-- A reused instance is refreshed, a new one has to be instantiated first.
def Worker.getIdleInstance (s : Worker) (r : Nat) : Option Worker :=
  match (s.request r).stage with
  | .waiting => match s.idle (s.request r).function with
      | i :: rest =>
          some {s.goto r (.running i) with
            idle := Function.update s.idle (s.request r).function rest
            inst := Function.update s.inst i {s.inst i with handle := r}}
      | [] =>
          some {s.goto r (.creating s.nextInstance) with
            inst := Function.update s.inst s.nextInstance ⟨(s.request r).function,r⟩
            nextInstance := s.nextInstance + 1}
  | _ => none

def Worker.created (s : Worker) (r : Nat) : Option Worker :=
  match (s.request r).stage with
  | .creating i => some (s.goto r (.running i))
  | _ => none

-- The handle is the one in the store of the instance whose guest code calls. A
-- result that is already set makes the host function panic.
def Worker.setResultOf (s : Worker) (r i : Nat) (bytes : List UInt8) : Worker :=
  match s.slot (s.inst i).handle with
  | some _ => (s.discard r i).goto r .dropped
  | none =>
      {s with
        slot := Function.update s.slot (s.inst i).handle (some bytes)
        request := Function.update s.request r {s.request r with set := (s.request r).set ++ [bytes]}}

def Worker.setResult (s : Worker) (r : Nat) (bytes : List UInt8) : Option Worker :=
  match (s.request r).stage with
  | .creating i | .running i => some (s.setResultOf r i bytes)
  | _ => none

def Worker.trap (s : Worker) (r : Nat) : Option Worker :=
  match (s.request r).stage with
  | .running i => some (s.goto r (.answering i .internalServerError))
  | _ => none

def Worker.returns (s : Worker) (r : Nat) : Option Worker :=
  match (s.request r).stage with
  | .running i => some (s.goto r (.returned i))
  | _ => none

def Worker.take (s : Worker) (r : Nat) : Option Worker :=
  match (s.request r).stage with
  | .returned i =>
      some {s.goto r (.answering i (.ok ((s.slot r).getD []))) with slot := Function.update s.slot r none}
  | _ => none

def Worker.markIdle (s : Worker) (r : Nat) : Option Worker :=
  match (s.request r).stage with
  | .answering i response =>
      if (s.idle (s.request r).function).length < maxIdleInstances then some (s.goto r (.pushing i response))
      else some ((s.discard r i).goto r (.finished response))
  | _ => none

def Worker.push (s : Worker) (r : Nat) : Option Worker :=
  match (s.request r).stage with
  | .pushing i response =>
      some {s.goto r (.finished response) with
        idle := Function.update s.idle (s.request r).function (s.idle (s.request r).function ++ [i])}
  | _ => none

-- A panic in another host function, or the client went away.
def Worker.abort (s : Worker) (r : Nat) : Option Worker :=
  match (s.request r).stage with
  | .waiting => some (s.goto r .dropped)
  | .creating i | .running i => some ((s.discard r i).goto r .dropped)
  | _ => none

inductive Action where
  | execute (r function : Nat)
  | getIdleInstance (r : Nat)
  | created (r : Nat)
  | setResult (r : Nat) (bytes : List UInt8)
  | trap (r : Nat)
  | returns (r : Nat)
  | take (r : Nat)
  | markIdle (r : Nat)
  | push (r : Nat)
  | abort (r : Nat)
  deriving DecidableEq, Repr

def step (loaded : Nat → Bool) (s : Worker) : Action → Option Worker
  | .execute r function => s.execute loaded r function
  | .getIdleInstance r => s.getIdleInstance r
  | .created r => s.created r
  | .setResult r bytes => s.setResult r bytes
  | .trap r => s.trap r
  | .returns r => s.returns r
  | .take r => s.take r
  | .markIdle r => s.markIdle r
  | .push r => s.push r
  | .abort r => s.abort r

theorem execute_parts {s t : Worker} (moved : s.execute loaded r function = some t) :
    (s.request r).stage = .unborn ∧
      t = {s with
        request := Function.update s.request r ⟨function,if loaded function then .waiting else .dropped,[]⟩} := by
  unfold Worker.execute at moved
  split at moved
  · rename_i here
    cases moved
    exact ⟨here,rfl⟩
  · cases moved

theorem getIdleInstance_parts {s t : Worker} (moved : s.getIdleInstance r = some t) :
    (s.request r).stage = .waiting ∧
      ((∃ i rest, s.idle (s.request r).function = i :: rest ∧
          t = {s.goto r (.running i) with
            idle := Function.update s.idle (s.request r).function rest
            inst := Function.update s.inst i {s.inst i with handle := r}}) ∨
        t = {s.goto r (.creating s.nextInstance) with
          inst := Function.update s.inst s.nextInstance ⟨(s.request r).function,r⟩
          nextInstance := s.nextInstance + 1}) := by
  unfold Worker.getIdleInstance at moved
  split at moved
  · rename_i here
    split at moved
    · rename_i i rest front
      cases moved
      exact ⟨here,.inl ⟨i,rest,front,rfl⟩⟩
    · cases moved
      exact ⟨here,.inr rfl⟩
  · cases moved

theorem created_parts {s t : Worker} (moved : s.created r = some t) :
    ∃ i, (s.request r).stage = .creating i ∧ t = s.goto r (.running i) := by
  unfold Worker.created at moved
  split at moved
  · rename_i i here
    cases moved
    exact ⟨i,here,rfl⟩
  · cases moved

theorem setResult_parts {s t : Worker} (moved : s.setResult r bytes = some t) :
    ∃ i, (s.request r).stage.calling = some i ∧ t = s.setResultOf r i bytes := by
  unfold Worker.setResult at moved
  split at moved
  · rename_i i here
    cases moved
    exact ⟨i,congrArg Stage.calling here,rfl⟩
  · rename_i i here
    cases moved
    exact ⟨i,congrArg Stage.calling here,rfl⟩
  · cases moved

theorem trap_parts {s t : Worker} (moved : s.trap r = some t) :
    ∃ i, (s.request r).stage = .running i ∧ t = s.goto r (.answering i .internalServerError) := by
  unfold Worker.trap at moved
  split at moved
  · rename_i i here
    cases moved
    exact ⟨i,here,rfl⟩
  · cases moved

theorem returns_parts {s t : Worker} (moved : s.returns r = some t) :
    ∃ i, (s.request r).stage = .running i ∧ t = s.goto r (.returned i) := by
  unfold Worker.returns at moved
  split at moved
  · rename_i i here
    cases moved
    exact ⟨i,here,rfl⟩
  · cases moved

theorem take_parts {s t : Worker} (moved : s.take r = some t) :
    ∃ i, (s.request r).stage = .returned i ∧
      t = {s.goto r (.answering i (.ok ((s.slot r).getD []))) with slot := Function.update s.slot r none} := by
  unfold Worker.take at moved
  split at moved
  · rename_i i here
    cases moved
    exact ⟨i,here,rfl⟩
  · cases moved

theorem markIdle_parts {s t : Worker} (moved : s.markIdle r = some t) :
    ∃ i response, (s.request r).stage = .answering i response ∧
      (t = s.goto r (.pushing i response) ∨ t = (s.discard r i).goto r (.finished response)) := by
  unfold Worker.markIdle at moved
  split at moved
  · rename_i i response here
    split at moved
    · cases moved
      exact ⟨i,response,here,.inl rfl⟩
    · cases moved
      exact ⟨i,response,here,.inr rfl⟩
  · cases moved

theorem push_parts {s t : Worker} (moved : s.push r = some t) :
    ∃ i response, (s.request r).stage = .pushing i response ∧
      t = {s.goto r (.finished response) with
        idle := Function.update s.idle (s.request r).function (s.idle (s.request r).function ++ [i])} := by
  unfold Worker.push at moved
  split at moved
  · rename_i i response here
    cases moved
    exact ⟨i,response,here,rfl⟩
  · cases moved

theorem abort_parts {s t : Worker} (moved : s.abort r = some t) :
    (s.request r).stage = .waiting ∧ t = s.goto r .dropped ∨
      ∃ i, (s.request r).stage.calling = some i ∧ t = (s.discard r i).goto r .dropped := by
  unfold Worker.abort at moved
  split at moved
  · rename_i here
    cases moved
    exact .inl ⟨here,rfl⟩
  · rename_i i here
    cases moved
    exact .inr ⟨i,congrArg Stage.calling here,rfl⟩
  · rename_i i here
    cases moved
    exact .inr ⟨i,congrArg Stage.calling here,rfl⟩
  · cases moved

theorem calling_holding {stage : Stage} (calls : stage.calling = some i) : stage.holding = some i := by
  cases stage <;> first | exact calls | cases calls

end OpenLambda.Functions
