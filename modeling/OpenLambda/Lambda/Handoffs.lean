import OpenLambda.Lambda.Turns

namespace OpenLambda.Lambda

def TaskPc.req : TaskPc → Option Invocation
  | .pulling req | .checking req _ | .switching req _ _ | .queueKill req _ _ _ | .queueCode req _
  | .dispatching req | .signalling req _ => some req
  | _ => none

def ids (reqs : List Invocation) : List Nat := reqs.map (·.id)

def TaskPc.hand (pc : TaskPc) : List Nat := ids pc.req.toList

structure Still (s t : System) : Prop where
  funcChan : t.funcChan = s.funcChan
  instChan : t.instChan = s.instChan
  doneChan : t.doneChan = s.doneChan
  req : t.pc.req = s.pc.req
  inst : ∀ i, i < s.nextInst → SameWork (s.inst i) (t.inst i)
  accepted : t.accepted = s.accepted
  signalled : t.signalled = s.signalled
  lost : t.lost = s.lost

inductive Moves (s : System) : Action → System → Prop where
  | still : Still s t → t.nextInst = s.nextInst → s.nextReq ≤ t.nextReq → Moves s action t
  | spawned : Still s t → t.nextInst = s.nextInst + 1 → t.inst s.nextInst = newLambdaInstance codeDir config →
      t.nextReq = s.nextReq → Moves s action t
  | invoked (method : String) :
      Moves s (.invoke method) {s with
        funcChan := s.funcChan ++ [⟨s.nextReq,method,0⟩]
        nextReq := s.nextReq + 1
        accepted := s.accepted ++ [s.nextReq]}
  | received : s.pc = .selecting → s.funcChan = req :: rest →
      Moves s .receive {s with funcChan := rest,pc := .pulling req}
  | dispatched : s.pc = .dispatching req →
      Moves s .dispatch {s with
        instChan := s.instChan ++ [req]
        outstandingReqs := s.outstandingReqs + 1
        pc := .scaling}
  | finished : s.pc = .selecting → s.doneChan = req :: rest →
      Moves s .finished {s with
        doneChan := rest
        execMs := s.execMs.add req.execMs
        outstandingReqs := s.outstandingReqs - 1
        pc := .signalling req true}
  | signalled : s.pc = .signalling req scale →
      Moves s .signal {s with
        signalled := s.signalled ++ [req.id]
        pc := if scale then .scaling else .selecting}
  | taken : i < s.nextInst → (s.inst i).pc = .waiting → s.instChan = req :: rest →
      Moves s (.take i) {s.put i ((s.inst i).accept req) with instChan := rest}
  | reported : i < s.nextInst → (s.inst i).pc = .reporting req failed →
      Moves s (.report i) {s.put i ((s.inst i).report req failed) with doneChan := s.doneChan ++ [req]}
  | grabbed : i < s.nextInst → (s.inst i).pc = .grabbing → s.instChan = req :: rest →
      Moves s (.grab i) {s.put i ((s.inst i).grab req) with
        instChan := rest
        lost := if (s.inst i).sb = none then s.lost ++ [req.id] else s.lost}

theorem still_refl (s : System) : Still s s :=
  ⟨rfl,rfl,rfl,rfl,fun _ _ => work_of_req rfl rfl rfl,rfl,rfl,rfl⟩

theorem put_still (s : System) (i : Nat) (same : SameWork (s.inst i) l) : Still s (s.put i l) := by
  refine {still_refl s with inst := ?_}
  intro j _
  by_cases equal : j = i
  · subst j
    simpa [System.put] using same
  · simpa [System.put,equal] using work_of_req rfl rfl rfl

theorem message_req {pc next : TaskPc} (here : pc.message = some (msg,next)) : next.req = pc.req := by
  cases pc <;> simp [TaskPc.message] at here <;> obtain ⟨_,rfl⟩ := here <;> rfl

theorem killed_still (s : System) (i : Nat) (instances : List Nat) (same : pc.req = s.pc.req) :
    Still s {s.sentKill i with instances := instances,pc := pc} := by
  have kept := put_still s i (l := {s.inst i with killChan := (s.inst i).killChan ++ [s.nextToken]})
    (work_of_req rfl rfl rfl)
  exact {kept with req := same}

theorem spawned_still (s : System) (l : LambdaInstance) : Still s (s.put s.nextInst l) := by
  refine {still_refl s with inst := ?_}
  intro i older
  have different : i ≠ s.nextInst := Nat.ne_of_lt older
  simpa [System.put,different] using work_of_req rfl rfl rfl

theorem turn_moves (turn : Turn conf s action t) : Moves s action t := by
  cases turn with
  | invoked method => exact .invoked method
  | refused method => exact .still {still_refl s with} rfl (Nat.le_succ _)
  | timer here =>
      refine .still {still_refl s with req := ?_} rfl (Nat.le_refl _)
      rw [here]
      dsimp only
      split <;> rfl
  | received here waiting => exact .received here waiting
  | dispatched here room => exact .dispatched here
  | finished here waiting => exact .finished here waiting
  | signalled here => exact .signalled here
  | switchKill here => exact .still (killed_still s _ s.instances (by rw [here]; rfl)) rfl (Nat.le_refl _)
  | dyingKill here => exact .still (killed_still s _ s.instances (by rw [here]; rfl)) rfl (Nat.le_refl _)
  | shrunk here => exact .still (killed_still s _ _ (by rw [here]; rfl)) rfl (Nat.le_refl _)
  | queued here => exact .still {still_refl s with req := message_req here} rfl (Nat.le_refl _)
  | grown here few fetched known =>
      exact .spawned {spawned_still s _ with req := by rw [here]; rfl} rfl (Function.update_self _ _ _) rfl
  | checkPanicked => exact .still {still_refl s with} rfl (Nat.le_refl _)
  | pullKept here | pullFailed here | pullDirtied here | pullSwitched here | checkSwitch here | checkKept here | checkRefused here | switchEnd here | dyingEnd here | overflowed here | limited here
  | growPanicked here | balanced here | scaledDown here | takenKill here | exited here =>
      exact .still {still_refl s with req := by rw [here]; rfl} rfl (Nat.le_refl _)
  | ticked | askedKill | removed | awaited => exact .still {still_refl s with} rfl (Nat.le_refl _)
  | taken born here waiting => exact .taken born here waiting
  | acted born stepped => exact .still {put_still s _ (localStep_work stepped) with} rfl (Nat.le_refl _)
  | reported born here room => exact .reported born here
  | grabbed born here waiting => exact .grabbed born here waiting
  | idled born here empty =>
      refine .still (put_still s _ (work_of_req ?_ rfl rfl)) rfl (Nat.le_refl _)
      rw [here]
      dsimp only
      split <;> rfl
  | @acked i token born here awaited =>
      have same := put_still s i (l := {s.inst i with pc := .stopped}) (work_of_req (by rw [here]; rfl) rfl rfl)
      exact .still {same with} rfl (Nat.le_refl _)

theorem step_moves (moved : step conf s action = some t) : Moves s action t := turn_moves (step_turn moved).2

end OpenLambda.Lambda
