import OpenLambda.Lambda.Function

namespace OpenLambda.Lambda

def System.sentKill (s : System) (i : Nat) : System :=
  {s.put i {s.inst i with killChan := (s.inst i).killChan ++ [s.nextToken]} with nextToken := s.nextToken + 1}

-- Every step with the branch it took: what was tested before, and the state
-- after.
inductive Turn (conf : Conf) (s : System) : Action → System → Prop where
  | invoked (method : String) :
      Turn conf s (.invoke method) {s with
        funcChan := s.funcChan ++ [⟨s.nextReq,method,0⟩]
        nextReq := s.nextReq + 1
        accepted := s.accepted ++ [s.nextReq]}
  | refused (method : String) :
      Turn conf s (.invoke method) {s.write ⟨s.nextReq,429,"lambda function queue is full\n"⟩ with
        nextReq := s.nextReq + 1}
  | ticked (ns : Nat) : Turn conf s (.tick ns) {s with now := s.now + ns}
  | timer : s.pc = .selecting → s.timeout = some due → due ≤ s.now →
      Turn conf s .timer {s with timeout := none,pc := if s.codeDir = "" then .selecting else .scaling}
  | received : s.pc = .selecting → s.funcChan = req :: rest →
      Turn conf s .receive {s with funcChan := rest,pc := .pulling req}
  | pullKept : s.pc = .pulling req → Turn conf s (.pull pulled) {s with pc := .checking req s.codeDir}
  | pullFailed : s.pc = .pulling req →
      Turn conf s (.pull pulled) {s.write ⟨req.id,500,err ++ "\n"⟩ with pc := .signalling req false}
  | pullDirtied : s.pc = .pulling req → pulled.codeDir = .ok codeDir → codeDir ≠ s.codeDir →
      pulled.parsed = .ok config → pulled.prepareErr config = some err →
      Turn conf s (.pull pulled) {s.write ⟨req.id,500,err ++ "\n"⟩ with
        removed := s.removed ++ [codeDir]
        resets := if config.python then s.resets + 1 else s.resets
        pc := .signalling req false}
  | pullSwitched : s.pc = .pulling req → pulled.codeDir = .ok codeDir → codeDir ≠ s.codeDir →
      pulled.parsed = .ok config → pulled.prepareErr config = none →
      Turn conf s (.pull pulled) {s with
        funcMeta := some config
        codeDir := codeDir
        lastPull := some s.now
        pc := .checking req s.codeDir}
  | checkPanicked : s.pc = .checking req oldCodeDir → s.funcMeta = none →
      Turn conf s .check {s with fault := some "nil pointer dereference"}
  | checkSwitch : s.pc = .checking req oldCodeDir → s.funcMeta = some config →
      config.isHTTPMethodAllowed req.method = true → oldCodeDir ≠ "" → oldCodeDir ≠ s.codeDir →
      Turn conf s .check {s with pc := .switching req oldCodeDir s.instances}
  | checkKept : s.pc = .checking req oldCodeDir → s.funcMeta = some config →
      config.isHTTPMethodAllowed req.method = true → oldCodeDir = "" ∨ oldCodeDir = s.codeDir →
      Turn conf s .check {s with pc := .dispatching req}
  | checkRefused : s.pc = .checking req oldCodeDir → s.funcMeta = some config →
      config.isHTTPMethodAllowed req.method = false →
      Turn conf s .check {s.write (methodNotAllowed req config) with pc := .signalling req false}
  | switchKill : s.pc = .switching req oldCodeDir (i :: left) →
      Turn conf s .kill {s.sentKill i with pc := .queueKill req oldCodeDir left s.nextToken}
  | switchEnd : s.pc = .switching req oldCodeDir [] →
      Turn conf s .kill {s with instances := [],pc := .queueCode req oldCodeDir}
  | dyingKill : s.pc = .dying (i :: left) → Turn conf s .kill {s.sentKill i with pc := .queueDying left s.nextToken}
  | dyingEnd : s.pc = .dying [] → Turn conf s .kill {s with closed := true,pc := .awaiting}
  | queued : s.pc.message = some (msg,next) →
      Turn conf s .queue {s with cleanupChan := s.cleanupChan ++ [msg],pc := next}
  | dispatched : s.pc = .dispatching req → s.instChan.length < chanCap →
      Turn conf s .dispatch {s with
        instChan := s.instChan ++ [req]
        outstandingReqs := s.outstandingReqs + 1
        pc := .scaling}
  | overflowed : s.pc = .dispatching req →
      Turn conf s .dispatch {s.write ⟨req.id,429,"lambda instance queue is full\n"⟩ with pc := .signalling req true}
  | finished : s.pc = .selecting → s.doneChan = req :: rest →
      Turn conf s .finished {s with
        doneChan := rest
        execMs := s.execMs.add req.execMs
        outstandingReqs := s.outstandingReqs - 1
        pc := .signalling req true}
  | signalled : s.pc = .signalling req scale →
      Turn conf s .signal {s with
        signalled := s.signalled ++ [req.id]
        pc := if scale then .scaling else .selecting}
  | limited : s.pc = .scaling → s.lastScaling = some last →
      Turn conf s .scale {s with
        timeout := if desiredInstances s.outstandingReqs s.execMs.avg ≠ s.instances.length then some (last + adjustFreq)
          else s.timeout
        pc := .selecting}
  | grown : s.pc = .scaling → (s.instances.length : Int) < desiredInstances s.outstandingReqs s.execMs.avg →
      s.codeDir ≠ "" → s.funcMeta = some config →
      Turn conf s .scale (System.adjusted
        {s.put s.nextInst (newLambdaInstance s.codeDir config) with
          instances := s.instances ++ [s.nextInst]
          nextInst := s.nextInst + 1} s.now (desiredInstances s.outstandingReqs s.execMs.avg))
  | growPanicked : s.pc = .scaling → (s.instances.length : Int) < desiredInstances s.outstandingReqs s.execMs.avg →
      s.codeDir = "" ∧ text = "cannot start instance until code has been fetched" ∨
        s.funcMeta = none ∧ text = "nil pointer dereference" →
      Turn conf s .scale (System.adjusted {s with fault := some text} s.now
        (desiredInstances s.outstandingReqs s.execMs.avg))
  | shrunk : s.pc = .scaling → desiredInstances s.outstandingReqs s.execMs.avg < s.instances.length →
      s.instances = front ++ [i] →
      Turn conf s .scale {s.sentKill i with
        instances := front
        pc := .queueScaled s.nextToken s.now (desiredInstances s.outstandingReqs s.execMs.avg)}
  | balanced : s.pc = .scaling → (s.instances.length : Int) = desiredInstances s.outstandingReqs s.execMs.avg →
      Turn conf s .scale {s with pc := .selecting}
  | scaledDown : s.pc = .queueScaled token now desired →
      Turn conf s .queueScaled (System.adjusted
        {s with cleanupChan := s.cleanupChan ++ [.wait token],pc := .selecting} now desired)
  | askedKill : Turn conf s .askKill {s with killChan := s.killChan + 1}
  | takenKill : s.pc = .selecting → Turn conf s .takeKill {s with killChan := s.killChan - 1,pc := .dying s.instances}
  | exited : s.pc = .awaiting → s.cleaning = none → s.cleanupChan = [] → Turn conf s .exit {s with pc := .exited}
  | removed : s.cleaning = none → s.cleanupChan = .path dir :: rest →
      Turn conf s .cleanup {s with cleanupChan := rest,removed := s.removed ++ [dir]}
  | awaited : s.cleaning = none → s.cleanupChan = .wait token :: rest →
      Turn conf s .cleanup {s with cleanupChan := rest,cleaning := some token}
  | taken : i < s.nextInst → (s.inst i).pc = .waiting → s.instChan = req :: rest →
      Turn conf s (.take i) {s.put i ((s.inst i).accept req) with instChan := rest}
  | acted : i < s.nextInst → localStep conf.zygotes s.nextSb (s.inst i) act = some out →
      Turn conf s (.act i act) {s.put i out.inst with
        nextSb := s.nextSb + 1
        written := s.written ++ out.written
        fault := out.fault}
  | reported : i < s.nextInst → (s.inst i).pc = .reporting req failed → s.doneChan.length < chanCap →
      Turn conf s (.report i) {s.put i ((s.inst i).report req failed) with doneChan := s.doneChan ++ [req]}
  | grabbed : i < s.nextInst → (s.inst i).pc = .grabbing → s.instChan = req :: rest →
      Turn conf s (.grab i) {s.put i ((s.inst i).grab req) with
        instChan := rest
        lost := if (s.inst i).sb = none then s.lost ++ [req.id] else s.lost}
  | idled : i < s.nextInst → (s.inst i).pc = .grabbing → s.instChan = [] →
      Turn conf s (.grab i) (s.put i {s.inst i with pc := if (s.inst i).sb = none then .waiting else .leaving})
  | acked : i < s.nextInst → (s.inst i).pc = .acking token → s.cleaning = some token →
      Turn conf s (.ack i) {s.put i {s.inst i with pc := .stopped} with cleaning := none}

theorem invoke_turn (s : System) (method : String) : Turn conf s (.invoke method) (s.invoke method) := by
  unfold System.invoke
  split
  · exact .invoked method
  · exact .refused method

theorem pull_turn (here : s.pc = .pulling req) : Turn conf s (.pull pulled) (s.pull conf req pulled) := by
  unfold System.pull pullHandlerIfStale
  split
  · rename_i result
    split at result
    · cases result
    · split at result
      · cases result
        exact .pullFailed here
      · split at result
        · cases result
        · rename_i codeDir pulledDir different
          split at result
          · cases result
            exact .pullFailed here
          · rename_i config parsed
            split at result
            · rename_i err failed
              cases result
              exact .pullDirtied here pulledDir different parsed failed
            · cases result
  · rename_i result
    split at result
    · cases result
      exact .pullKept here
    · split at result
      · cases result
      · split at result
        · cases result
          exact .pullKept here
        · rename_i codeDir pulledDir different
          split at result
          · cases result
          · rename_i config parsed
            split at result
            · cases result
            · rename_i prepared
              cases result
              exact .pullSwitched here pulledDir different parsed prepared

theorem check_turn (here : s.pc = .checking req oldCodeDir) : Turn conf s .check (s.check req oldCodeDir) := by
  unfold System.check
  split
  · rename_i unknown
    exact .checkPanicked here unknown
  · rename_i config known
    split
    · rename_i allowed
      split
      · rename_i both
        exact .checkSwitch here known allowed both.1 both.2
      · rename_i neither
        refine .checkKept here known allowed ?_
        by_cases first : oldCodeDir = ""
        · exact .inl first
        · exact .inr (Classical.byContradiction fun different => neither ⟨first,different⟩)
    · rename_i refused
      exact .checkRefused here known (by simpa using refused)

theorem asyncKill_parts {s : System} (killed : s.asyncKill i = some t) : t = s.sentKill i := by
  unfold System.asyncKill at killed
  split at killed
  · cases killed
    rfl
  · cases killed

theorem kill_turn (moved : s.kill = some t) : Turn conf s .kill t := by
  unfold System.kill at moved
  split at moved
  · rename_i here
    obtain ⟨middle,killed,rfl⟩ := Option.map_eq_some_iff.mp moved
    rw [asyncKill_parts killed]
    exact .switchKill here
  · rename_i here
    cases moved
    exact .switchEnd here
  · rename_i here
    obtain ⟨middle,killed,rfl⟩ := Option.map_eq_some_iff.mp moved
    rw [asyncKill_parts killed]
    exact .dyingKill here
  · rename_i here
    cases moved
    exact .dyingEnd here
  · cases moved

theorem queue_parts (moved : System.queue s msg pc = some t) :
    t = {s with cleanupChan := s.cleanupChan ++ [msg],pc := pc} := by
  unfold System.queue at moved
  split at moved
  · cases moved
    rfl
  · cases moved

theorem dispatch_turn (here : s.pc = .dispatching req) : Turn conf s .dispatch (s.dispatch req) := by
  unfold System.dispatch
  split
  · rename_i room
    exact .dispatched here room
  · exact .overflowed here

theorem grow_turn (here : s.pc = .scaling)
    (few : (s.instances.length : Int) < desiredInstances s.outstandingReqs s.execMs.avg) :
    Turn conf s .scale (s.newInstance.adjusted s.now (desiredInstances s.outstandingReqs s.execMs.avg)) := by
  unfold System.newInstance
  split
  · rename_i unfetched
    exact .growPanicked here few (.inl ⟨unfetched,rfl⟩)
  · rename_i fetched
    split
    · rename_i unknown
      exact .growPanicked here few (.inr ⟨unknown,rfl⟩)
    · rename_i config known
      exact .grown here few fetched known

theorem scale_turn (here : s.pc = .scaling) (moved : s.scale = some t) : Turn conf s .scale t := by
  unfold System.scale at moved
  dsimp only at moved
  split at moved
  · rename_i last recent
    cases moved
    exact .limited here (Option.filter_eq_some_iff.mp recent).1
  · split at moved
    · rename_i few
      cases moved
      exact grow_turn here few
    · split at moved
      · rename_i many
        split at moved
        · rename_i i last
          obtain ⟨middle,killed,rfl⟩ := Option.map_eq_some_iff.mp moved
          rw [asyncKill_parts killed]
          refine .shrunk here many ?_
          obtain ⟨front,whole⟩ := List.getLast?_eq_some_iff.mp last
          rw [whole,List.dropLast_concat]
        · cases moved
      · cases moved
        exact .balanced here (by omega)

theorem timer_turn (moved : s.timer = some t) : Turn conf s .timer t := by
  unfold System.timer at moved
  split at moved
  · rename_i here due
    split at moved
    · rename_i fired
      cases moved
      exact .timer here due fired
    · cases moved
  · cases moved

theorem receive_turn (moved : s.receive = some t) : Turn conf s .receive t := by
  unfold System.receive at moved
  split at moved
  · rename_i here waiting
    cases moved
    exact .received here waiting
  · cases moved

theorem finished_turn (moved : s.finished = some t) : Turn conf s .finished t := by
  unfold System.finished at moved
  split at moved
  · rename_i here waiting
    cases moved
    exact .finished here waiting
  · cases moved

theorem signal_turn (moved : s.signal = some t) : Turn conf s .signal t := by
  unfold System.signal at moved
  split at moved
  · rename_i here
    cases moved
    exact .signalled here
  · cases moved

theorem takeKill_turn (moved : s.takeKill = some t) : Turn conf s .takeKill t := by
  unfold System.takeKill at moved
  split at moved
  · rename_i here
    split at moved
    · cases moved
      exact .takenKill here
    · cases moved
  · cases moved

theorem exit_turn (moved : s.exit = some t) : Turn conf s .exit t := by
  unfold System.exit at moved
  split at moved
  · rename_i here idle empty
    split at moved
    · cases moved
      exact .exited here idle empty
    · cases moved
  · cases moved

theorem cleanup_turn (moved : s.cleanup = some t) : Turn conf s .cleanup t := by
  unfold System.cleanup at moved
  split at moved
  · rename_i idle waiting
    cases moved
    exact .removed idle waiting
  · rename_i idle waiting
    cases moved
    exact .awaited idle waiting
  · cases moved

theorem take_turn (born : i < s.nextInst) (moved : s.take i = some t) : Turn conf s (.take i) t := by
  unfold System.take at moved
  split at moved
  · rename_i here waiting
    cases moved
    exact .taken born here waiting
  · cases moved

theorem report_turn (born : i < s.nextInst) (moved : s.report i = some t) : Turn conf s (.report i) t := by
  unfold System.report at moved
  split at moved
  · rename_i here
    split at moved
    · rename_i room
      cases moved
      exact .reported born here room
    · cases moved
  · cases moved

theorem grab_turn (born : i < s.nextInst) (moved : s.grab i = some t) : Turn conf s (.grab i) t := by
  unfold System.grab at moved
  split at moved
  · rename_i here waiting
    cases moved
    exact .grabbed born here waiting
  · rename_i here empty
    cases moved
    exact .idled born here empty
  · cases moved

theorem ack_turn (born : i < s.nextInst) (moved : s.ack i = some t) : Turn conf s (.ack i) t := by
  unfold System.ack at moved
  split at moved
  · rename_i here
    split at moved
    · rename_i awaited
      cases moved
      exact .acked born here awaited
    · cases moved
  · cases moved

theorem step_turn (moved : step conf s action = some t) : s.fault = none ∧ Turn conf s action t := by
  unfold step at moved
  split at moved
  · cases moved
  · rename_i sound
    refine ⟨Classical.byContradiction sound,?_⟩
    cases action with
    | invoke method => cases moved; exact invoke_turn s method
    | tick ns => cases moved; exact .ticked ns
    | timer => exact timer_turn moved
    | receive => exact receive_turn moved
    | pull pulled =>
        dsimp only at moved
        split at moved
        · rename_i here
          cases moved
          exact pull_turn here
        · cases moved
    | check =>
        dsimp only at moved
        split at moved
        · rename_i here
          cases moved
          exact check_turn here
        · cases moved
    | kill => exact kill_turn moved
    | queue =>
        dsimp only at moved
        split at moved
        · rename_i here
          rw [queue_parts moved]
          exact .queued here
        · cases moved
    | dispatch =>
        dsimp only at moved
        split at moved
        · rename_i here
          cases moved
          exact dispatch_turn here
        · cases moved
    | finished => exact finished_turn moved
    | signal => exact signal_turn moved
    | scale =>
        dsimp only at moved
        split at moved
        · rename_i here
          exact scale_turn here moved
        · cases moved
    | queueScaled =>
        dsimp only at moved
        split at moved
        · rename_i here
          obtain ⟨middle,queued,rfl⟩ := Option.map_eq_some_iff.mp moved
          rw [queue_parts queued]
          exact .scaledDown here
        · cases moved
    | askKill =>
        dsimp only at moved
        split at moved
        · cases moved
          exact .askedKill
        · cases moved
    | takeKill => exact takeKill_turn moved
    | exit => exact exit_turn moved
    | cleanup => exact cleanup_turn moved
    | take i =>
        obtain ⟨born,moved⟩ := Option.ite_none_right_eq_some.mp moved
        exact take_turn born moved
    | act i action =>
        obtain ⟨born,moved⟩ := Option.ite_none_right_eq_some.mp moved
        obtain ⟨out,stepped,rfl⟩ := Option.map_eq_some_iff.mp moved
        exact .acted born stepped
    | report i =>
        obtain ⟨born,moved⟩ := Option.ite_none_right_eq_some.mp moved
        exact report_turn born moved
    | grab i =>
        obtain ⟨born,moved⟩ := Option.ite_none_right_eq_some.mp moved
        exact grab_turn born moved
    | ack i =>
        obtain ⟨born,moved⟩ := Option.ite_none_right_eq_some.mp moved
        exact ack_turn born moved

end OpenLambda.Lambda
