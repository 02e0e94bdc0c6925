import OpenLambda.Foundation.Runs
import OpenLambda.Foundation.Tally
import OpenLambda.Sandbox.Debugger

namespace OpenLambda.Debugger
open Foundation.Runs Foundation.Tally
open SafeWrapper (SafeSandbox)

def Routine.load (routine : Routine) : Int := if routine.atSend then 1 else 0

def System.senders (s : System) : Int := tally s.nextRoutine fun g => (s.routine g).load

def System.load (s : System) : Int := s.chan.length + s.senders

def Comes (s : System) : Action → Bool
  | .dump => true
  | .enter g => match s.routine g with
      | .calls top _ => (enter (s.sandbox top.sb) top.call).2.atSend
      | _ => false
  | .finish g err => match s.routine g with
      | .calls top _ => match top.stage with
          | .killing text _ => (kill (s.sandbox top.sb) text).2.atSend
          | _ => (finish (s.sandbox top.sb) err top.call).2.atSend
      | _ => false
  | _ => false

theorem set_senders (s : System) (born : g < s.nextRoutine) (routine : Routine) :
    (s.set g routine).senders = s.senders - (s.routine g).load + routine.load :=
  tally_update born s.routine routine fun _ => Routine.load

theorem spawn_senders (s : System) (routine : Routine) : (s.spawn routine).senders = s.senders + routine.load := by
  unfold System.senders System.spawn System.set
  dsimp only
  rw [tally_succ,Function.update_self]
  congr 1
  apply tally_congr
  intro g born
  rw [Function.update_of_ne (Nat.ne_of_lt born)]

theorem load_nonneg (routine : Routine) : 0 ≤ routine.load := by
  unfold Routine.load
  split <;> decide

theorem load_quiet (quiet : Routine.atSend routine = false) : routine.load = 0 := by
  unfold Routine.load
  rw [quiet]
  rfl

structure Eased (s t : System) (comes : Bool) : Prop where
  load : t.load ≤ s.load + if comes then 1 else 0
  loop : t.loop = s.loop

theorem set_eased (s : System) (born : g < s.nextRoutine) (routine : Routine) (comes : Bool)
    (quiet : (s.routine g).atSend = false) (same : routine.atSend = true → comes = true) :
    Eased s (s.set g routine) comes := by
  refine ⟨?_,rfl⟩
  have senders := set_senders s born routine
  rw [load_quiet quiet] at senders
  have added : routine.load ≤ if comes then 1 else 0 := by
    cases here : routine.atSend with
    | false =>
        rw [load_quiet here]
        split <;> decide
    | true =>
        rw [Routine.load,here,same here]
  have chan : (s.set g routine).chan = s.chan := rfl
  unfold System.load
  rw [senders,chan]
  omega

theorem calls_quiet (here : s.routine g = Routine.calls top callers) (stage : top.stage.atSend = false) :
    (System.routine s g).atSend = false := by
  rw [here]
  exact stage

theorem lock_eased (born : g < System.nextRoutine s) (moved : s.lock g = some t) : Eased s t false := by
  unfold System.lock at moved
  split at moved
  · rename_i top callers here
    split at moved
    · rename_i stage
      split at moved
      · cases moved
        exact {set_eased s born (.calls {top with stage := .entered} callers) false
          (calls_quiet here (by rw [stage]; rfl)) Bool.noConfusion with}
      · cases moved
    · cases moved
  · cases moved

theorem put_eased (s : System) (born : g < s.nextRoutine) (here : s.routine g = .calls top callers)
    (stage : top.stage.atSend = false) (effect : SafeSandbox × Stage) (came : effect.2.atSend = comes) :
    Eased s (s.put g top callers effect) comes :=
  {set_eased s born (.calls {top with stage := effect.2} callers) comes (calls_quiet here stage)
    (fun sends => came.symm.trans sends) with}

theorem enter_eased (born : g < System.nextRoutine s) (moved : s.enter g = some t) : Eased s t (Comes s (.enter g)) := by
  unfold System.enter at moved
  split at moved
  · rename_i top callers here
    split at moved
    · rename_i stage
      cases moved
      refine put_eased s born here (by rw [stage]; rfl) _ ?_
      simp only [Comes,here]
    · cases moved
  · cases moved

theorem finish_eased (born : g < System.nextRoutine s) (moved : s.finish g err = some t) :
    Eased s t (Comes s (.finish g err)) := by
  unfold System.finish at moved
  split at moved
  · rename_i top callers here
    split at moved
    · rename_i told stage
      cases moved
      refine put_eased s born here (by rw [stage]; rfl) _ ?_
      simp only [Comes,here,stage]
    · rename_i text told stage
      cases moved
      refine put_eased s born here (by rw [stage]; rfl) _ ?_
      simp only [Comes,here,stage]
    · cases moved
  · cases moved

theorem sent_eased (s : System) (born : g < s.nextRoutine) (routine : Routine) (msg : Msg)
    (sending : (s.routine g).atSend = true) (sent : routine.atSend = false) :
    Eased s {s.set g routine with chan := s.chan ++ [msg]} false := by
  refine ⟨?_,rfl⟩
  have senders := set_senders s born routine
  rw [load_quiet sent] at senders
  have before : (s.routine g).load = 1 := by rw [Routine.load,sending]; rfl
  have after : ({s.set g routine with chan := s.chan ++ [msg]} : System).load =
      (s.chan.length : Int) + 1 + (s.set g routine).senders := by
    unfold System.load
    dsimp only
    rw [List.length_append]
    rfl
  rw [after,senders,before]
  unfold System.load
  simp

theorem send_eased (born : g < System.nextRoutine s) (moved : s.send g = some t) : Eased s t false := by
  unfold System.send at moved
  split at moved
  · rename_i top callers here
    split at moved
    · rename_i evType next stage
      split at moved
      · cases moved
        refine sent_eased s born _ _ (by rw [here]; simp only [Routine.atSend,stage]; rfl) ?_
        cases next <;> rfl
      · cases moved
    · cases moved
  · rename_i here
    split at moved
    · cases moved
      exact sent_eased s born _ _ (by rw [here]; rfl) rfl
    · cases moved
  · cases moved

theorem descend_eased (born : g < System.nextRoutine s) (moved : s.descend parent g = some t) : Eased s t false := by
  unfold System.descend at moved
  split at moved
  · rename_i top callers here
    split at moved
    · -- The four ways into a childExit, and the rest.
      have quietly : top.stage.atSend = false → ∀ routine, routine.atSend = false → Eased s (s.set g routine) false :=
        fun stage routine quiet => set_eased s born routine false (calls_quiet here stage) (fun sends => quiet.symm.trans sends)
      split at moved
      · rename_i stage _
        cases moved
        exact quietly (by rw [stage]; rfl) _ rfl
      · rename_i stage _
        cases moved
        exact quietly (by rw [stage]; rfl) _ rfl
      · rename_i stage _
        cases moved
        exact quietly (by rw [stage]; rfl) _ rfl
      · rename_i text stage
        cases moved
        exact quietly (by rw [stage]; rfl) _ rfl
      · cases moved
    · cases moved
  · cases moved

theorem resume_quiet (caller : Caller) : caller.resume.stage.atSend = false := by
  obtain ⟨sb,call,killing⟩ := caller
  cases killing <;> rfl

theorem leave_eased (born : g < System.nextRoutine s) (moved : s.leave g = some t) : Eased s t false := by
  unfold System.leave at moved
  split at moved
  · rename_i top callers here
    split at moved
    · rename_i stage
      have quiet := calls_quiet here (by rw [stage]; rfl)
      split at moved
      · cases moved
        exact {set_eased s born .done false quiet Bool.noConfusion with}
      · rename_i caller rest
        cases moved
        have later : (Routine.calls caller.resume rest).atSend = true → false = true :=
          fun sends => (resume_quiet caller).symm.trans sends
        exact {set_eased s born (.calls caller.resume rest) false quiet later with}
    · cases moved
  · cases moved

theorem routineStep_eased (born : g < System.nextRoutine s) (actor : action.actor = some g)
    (moved : routineStep parent s g action = some t) : Eased s t (Comes s action) := by
  cases action with
  | lock _ => exact lock_eased born moved
  | enter _ => cases actor; exact enter_eased born moved
  | send _ => exact send_eased born moved
  | descend _ => exact descend_eased born moved
  | finish _ err => cases actor; exact finish_eased born moved
  | leave _ => exact leave_eased born moved
  | _ => cases actor

def TakesDump (s : System) : Action → Bool
  | .receive => match s.loop,s.chan with
      | .receiving,.dump _ :: _ => true
      | _,_ => false
  | _ => false

-- While Run serves a Dump the channel has room for everybody at a send: nobody
-- else comes to one, and Run does not take up a Dump before.
def Calm (s : System) (action : Action) : Prop :=
  (s.loop ≠ .receiving → Comes s action = true → s.load < debuggerCap) ∧
    (TakesDump s action = true → s.load ≤ debuggerCap + 1)

instance Calm.decidable (s : System) (action : Action) : Decidable (Calm s action) := by
  unfold Calm
  infer_instance

def System.Room (s : System) : Prop := s.loop ≠ .receiving → s.load ≤ debuggerCap

theorem eased_room (room : System.Room s) (calm : Calm s action) (eased : Eased s t (Comes s action)) : t.Room := by
  intro serving
  rw [eased.loop] at serving
  have before := room serving
  have after := eased.load
  cases comes : Comes s action with
  | false =>
      rw [comes] at after
      simp only [Bool.false_eq_true,if_false] at after
      omega
  | true =>
      have free := calm.1 serving comes
      rw [comes] at after
      simp only [if_true] at after
      omega

theorem receive_room (calm : Calm s .receive) (moved : System.receive s = some t) : t.Room := by
  unfold System.receive at moved
  split at moved
  · rename_i msg rest loop chan
    split at moved
    · cases moved
      exact fun serving => absurd loop serving
    · cases moved
      exact fun serving => absurd loop serving
    · cases moved
      exact fun serving => absurd loop serving
    · cases moved
      intro _
      have few := calm.2 (by simp only [TakesDump,loop,chan])
      unfold System.load at few
      rw [chan,List.length_cons] at few
      change (rest.length : Int) + s.senders ≤ debuggerCap
      omega
  · cases moved

theorem spawn_eased (s : System) (routine : Routine) : Eased s (s.spawn routine) routine.atSend := by
  refine ⟨?_,rfl⟩
  change (s.chan.length : Int) + (s.spawn routine).senders ≤ s.chan.length + s.senders + routine.load
  rw [spawn_senders]
  omega

theorem serve_room (room : System.Room s) (serving : s.loop ≠ .receiving) (loop : t.loop = .receiving ∨ t.load = s.load) :
    System.Room t := by
  intro still
  rcases loop with done | same
  · exact absurd done still
  · rw [same]
    exact room serving

theorem visit_room (room : System.Room s) (moved : s.visit sb = some t) : t.Room := by
  unfold System.visit at moved
  split at moved
  · rename_i g rest loop
    split at moved
    · cases moved
      exact serve_room room (by simp [loop]) (.inr rfl)
    · cases moved
  · cases moved

theorem lockLoop_room (room : System.Room s) (moved : s.lockLoop = some t) : t.Room := by
  unfold System.lockLoop at moved
  split at moved
  · rename_i g sb rest loop
    split at moved
    · cases moved
      exact serve_room room (by simp [loop]) (.inr rfl)
    · cases moved
  · cases moved

theorem print_room (room : System.Room s) (moved : s.print = some t) : t.Room := by
  unfold System.print at moved
  split at moved
  · rename_i g sb rest loop
    cases moved
    exact serve_room room (by simp [loop]) (.inr rfl)
  · cases moved

theorem reply_room (room : System.Room s) (moved : s.reply = some t) : t.Room := by
  unfold System.reply at moved
  split at moved
  · rename_i g loop
    split at moved
    · cases moved
      exact serve_room room (by simp [loop]) (.inl rfl)
    · cases moved
  · cases moved

theorem step_room (room : System.Room s) (calm : Calm s action) (moved : step parent s action = some t) : t.Room := by
  unfold step at moved
  split at moved
  · rename_i g actor
    obtain ⟨born,moved⟩ := Option.ite_none_right_eq_some.mp moved
    exact eased_room room calm (routineStep_eased born actor moved)
  · cases action with
    | call sb call =>
        cases moved
        exact eased_room room calm (spawn_eased s _)
    | dump =>
        cases moved
        exact eased_room room calm (spawn_eased s .dumpSend)
    | receive => exact receive_room calm moved
    | visit sb => exact visit_room room moved
    | lockLoop => exact lockLoop_room room moved
    | print => exact print_room room moved
    | reply => exact reply_room room moved
    | _ => cases moved

theorem reached_room (meets : Meets (step parent) Calm init actions) (ran : run (step parent) init actions = some s) :
    s.Room :=
  run_preserves_guarded System.Room (fun _ _ _ room calm moved => step_room room calm moved)
    (fun serving => absurd rfl serving) meets ran

theorem sender_counts {s : System} (born : g < s.nextRoutine) (sending : (s.routine g).atSend = true) : 1 ≤ s.senders := by
  have counted : (s.routine g).load = 1 := by rw [Routine.load,sending]; rfl
  rw [← counted]
  exact le_tally (fun i _ => load_nonneg (s.routine i)) born

theorem dump_never_stuck (meets : Meets (step parent) Calm init actions) (ran : run (step parent) init actions = some s) :
    ¬s.Stuck := by
  rintro ⟨g,sb,rest,holder,loop,_,born,sending,full⟩
  have room := reached_room meets ran (by simp [loop])
  have waits := sender_counts born sending
  unfold System.load at room
  omega

def dumpBegins : List Action :=
  [.call 0 .start,.lock 0,.enter 0,.send 0,.leave 0,.receive,.dump,.send 1,.receive,.visit 0]

def alone (_ : Nat) : Option Nat := none

def evictor (g : Nat) : List Action := [.call 0 (.destroyIfPaused "evict"),.lock g,.enter g]

theorem dump_never_stuck_once : ∃ s, run (step alone) init (dumpBegins ++ evictor 2) = some s ∧
    s.loop = .locking 1 0 [] ∧ s.holder 0 = some (.routine 2) ∧ (s.routine 2).atSend = true ∧ ¬s.Stuck := by
  have meets : Meets (step alone) Calm init (dumpBegins ++ evictor 2) := by decide +kernel
  have seen : (run (step alone) init (dumpBegins ++ evictor 2)).any (fun s => decide (s.loop = .locking 1 0 [] ∧
      s.holder 0 = some (.routine 2) ∧ (s.routine 2).atSend = true)) = true := by decide +kernel
  obtain ⟨s,ran,loop,held,sending⟩ := run_seen seen
  exact ⟨s,ran,loop,held,sending,dump_never_stuck meets ran⟩

-- Before Run gets the mutex, 64 calls have sent their events, and one more has
-- the mutex and an event.
def dumpClogged : List Action :=
  dumpBegins ++ (List.range 64).flatMap (fun k => evictor (k + 2) ++ [.send (k + 2),.leave (k + 2)]) ++ evictor 66

theorem dump_stuck : ∃ s, run (step alone) init dumpClogged = some s ∧ s.Stuck := by
  have seen : (run (step alone) init dumpClogged).any (fun s => decide (s.loop = .locking 1 0 [] ∧
      s.holder 0 = some (.routine 66) ∧ 66 < s.nextRoutine ∧ (s.routine 66).atSend = true ∧
        debuggerCap ≤ s.chan.length)) = true := by decide +kernel
  obtain ⟨s,ran,loop,held,born,sending,full⟩ := run_seen seen
  exact ⟨s,ran,1,0,[],66,loop,held,born,sending,full⟩

end OpenLambda.Debugger
