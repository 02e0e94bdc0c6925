import Mathlib.Data.List.Basic

namespace OpenLambda.Packages

inductive TraceEvent where
  | package (name : String) (deps top : List String)
  | function (name : String) (deps : List String)
  | invocation (name : String)
  deriving DecidableEq, Repr

-- `writer` is what went through the buffered writer, `file` the log once run has
-- flushed and closed it.
structure DepTracer where
  events : List TraceEvent
  closed : Bool
  writer : List TraceEvent
  file : Option (List TraceEvent)
  deriving DecidableEq, Repr

def newDepTracer : DepTracer := ⟨[],false,[],none⟩

def eventsCap : Nat := 128

-- TracePackage, TraceFunction and TraceInvocation are one send each, which
-- blocks while the channel is full and panics once it is closed.
def DepTracer.trace (t : DepTracer) (ev : TraceEvent) : Option (Except String DepTracer) :=
  if t.closed then some (.error "send on closed channel")
  else if t.events.length < eventsCap then some (.ok {t with events := t.events ++ [ev]})
  else none

def DepTracer.run (t : DepTracer) : Option DepTracer :=
  match t.file,t.events with
  | some _,_ => none
  | none,ev :: rest => some {t with events := rest,writer := t.writer ++ [ev]}
  | none,[] => if t.closed then some {t with file := some t.writer} else none

structure Traced (t : DepTracer) (sent : List TraceEvent) : Prop where
  order : t.writer ++ t.events = sent
  file : ∀ log, t.file = some log → log = t.writer ∧ t.events = [] ∧ t.closed = true

theorem new_traced : Traced newDepTracer [] := ⟨rfl,nofun⟩

theorem trace_parts (sends : DepTracer.trace t ev = some (.ok next)) :
    t.closed = false ∧ next = {t with events := t.events ++ [ev]} := by
  unfold DepTracer.trace at sends
  split at sends
  · cases sends
  · rename_i isOpen
    split at sends
    · cases sends
      exact ⟨by simpa using isOpen,rfl⟩
    · cases sends

theorem trace_traced (traced : Traced t sent) (sends : t.trace ev = some (.ok next)) : Traced next (sent ++ [ev]) := by
  obtain ⟨isOpen,rfl⟩ := trace_parts sends
  refine ⟨?_,?_⟩
  · rw [← traced.order,List.append_assoc]
  · intro log flushed
    have closed := (traced.file log flushed).2.2
    rw [isOpen] at closed
    cases closed

theorem run_unflushed (moved : DepTracer.run t = some next) : t.file = none := by
  unfold DepTracer.run at moved
  split at moved
  · cases moved
  · assumption
  · assumption

theorem run_traced (traced : Traced t sent) (moved : t.run = some next) : Traced next sent ∧ next.closed = t.closed := by
  unfold DepTracer.run at moved
  split at moved
  · cases moved
  · rename_i ev rest pending waiting
    cases moved
    refine ⟨⟨?_,?_⟩,rfl⟩
    · rw [← traced.order,waiting,List.append_assoc]
      rfl
    · intro log flushed
      cases pending.symm.trans flushed
  · rename_i pending empty
    split at moved
    · rename_i closed
      cases moved
      refine ⟨⟨traced.order,?_⟩,rfl⟩
      intro log flushed
      cases flushed
      exact ⟨rfl,empty,closed⟩
    · cases moved

theorem close_traced (traced : Traced t sent) : Traced {t with closed := true} sent :=
  ⟨traced.order,fun log flushed => ⟨(traced.file log flushed).1,(traced.file log flushed).2.1,rfl⟩⟩

end OpenLambda.Packages
