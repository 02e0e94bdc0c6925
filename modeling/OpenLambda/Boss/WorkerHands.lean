import OpenLambda.Boss.WorkerPool
import OpenLambda.Foundation.Hands

namespace OpenLambda.Boss
open Foundation.Runs Foundation.Hands

-- The worker that a goroutine has in its hand and nobody else has: its starter
-- up to the send on the queue, or whoever received it from the queue.
def Pc.carries : Pc → Option (Nat × WorkerState)
  | .creating w _ | .registering w => some (w,.starting)
  | .queueing w | .cleaning w _ | .requeueing w _ => some (w,.running)
  | _ => none

def Pc.hand (pc : Pc) : Option Nat := pc.carries.map Prod.fst

def WorkerPool.hands (s : WorkerPool) (i : Nat) : Option Nat := (s.go i).pc.hand

def Pc.retires : Pc → Option Nat
  | .recovering w _ _ | .draining w | .looking w | .destroying w | .deleting w _ | .removing w => some w
  | _ => none

def WorkerPool.Retired (s : WorkerPool) (w : Nat) : Prop :=
  (∃ i, (s.go i).pc.retires = some w) ∨ (s.worker w).maps .cleaning = true ∨ (s.worker w).deleting = true

-- A worker is in the queue once or in one hand, and never comes back after it was
-- taken out to be cleaned. This holds in every run.
structure Dealt (s : WorkerPool) : Prop where
  custody : Custody s.hands s.queue
  carried : ∀ i w state, (s.go i).pc.carries = some (w,state) → (s.worker w).maps state = true
  queued : ∀ w ∈ s.queue, (s.worker w).maps .running = true
  retired : ∀ w, s.Retired w → Free s.hands s.queue w
  fresh : ∀ w, s.nextId ≤ w → ¬ s.Retired w ∧ ∀ state, (s.worker w).maps state = false

theorem new_dealt (cap : Nat) : Dealt (newWorkerPool cap) where
  custody := empty_custody
  carried := fun _ _ _ => nofun
  queued := nofun
  retired := fun _ _ => ⟨List.not_mem_nil,fun _ => nofun⟩
  fresh := by
    intro w _
    refine ⟨?_,fun _ => rfl⟩
    rintro (⟨i,retires⟩ | cleaning | deleting)
    · cases retires
    · cases cleaning
    · cases deleting

theorem hand_carries {pc : Pc} (holds : pc.hand = some w) : ∃ state, pc.carries = some (w,state) := by
  obtain ⟨⟨v,state⟩,carries,same⟩ := Option.map_eq_some_iff.mp holds
  cases same
  exact ⟨state,carries⟩

theorem retires_empty {pc : Pc} (retires : pc.retires = some w) : pc.hand = none := by
  cases pc <;> cases retires <;> rfl

theorem held_known {s : WorkerPool} (dealt : Dealt s) (holds : s.hands i = some w) : w < s.nextId ∧ ¬ s.Retired w := by
  constructor
  · obtain ⟨state,carries⟩ := hand_carries holds
    apply Classical.byContradiction
    intro beyond
    have absent := (dealt.fresh w (Nat.le_of_not_lt beyond)).2 state
    cases absent.symm.trans (dealt.carried i w state carries)
  · exact fun retired => (dealt.retired w retired).2 i holds

theorem goto_dealt {s : WorkerPool} (dealt : Dealt s) (i : Nat) (g : Goroutine) (next : Nat)
    (carries : ∀ w state, g.pc.carries = some (w,state) → (s.worker w).maps state = true ∧
      (s.hands i = some w ∨ Free s.hands s.queue w ∧ ¬ s.Retired w))
    (retires : ∀ w, g.pc.retires = some w → Free s.hands s.queue w ∧ w < s.nextId) :
    Dealt {s with go := Function.update s.go i g,nextGo := next} := by
  let t : WorkerPool := {s with go := Function.update s.go i g,nextGo := next}
  have hands : t.hands = Function.update s.hands i g.pc.hand := Function.comp_update (fun g : Goroutine => g.pc.hand) s.go i g
  have origin : ∀ w, t.Retired w → s.Retired w ∨ g.pc.retires = some w := by
    rintro w (⟨j,there⟩ | kept)
    · change (Function.update s.go i g j).pc.retires = some w at there
      rw [Function.update_apply] at there
      split at there
      · exact .inr there
      · exact .inl (.inl ⟨j,there⟩)
    · exact .inl (.inr kept)
  constructor
  · change Custody t.hands s.queue
    rw [hands]
    apply hand_custody dealt.custody
    intro w holds
    obtain ⟨state,here⟩ := hand_carries holds
    exact (carries w state here).2.imp id And.left
  · intro j w state there
    change (Function.update s.go i g j).pc.carries = some (w,state) at there
    rw [Function.update_apply] at there
    split at there
    · exact (carries w state there).1
    · exact dealt.carried j w state there
  · exact dealt.queued
  · intro w retired
    change Free t.hands s.queue w
    rw [hands]
    rcases origin w retired with old | new
    · have free := dealt.retired w old
      apply hand_free free
      intro holds
      obtain ⟨state,here⟩ := hand_carries holds
      rcases (carries w state here).2 with mine | ⟨_,never⟩
      · exact free.2 i mine
      · exact never old
    · apply hand_free (retires w new).1
      rw [retires_empty new]
      nofun
  · intro w beyond
    refine ⟨?_,(dealt.fresh w beyond).2⟩
    intro retired
    rcases origin w retired with old | new
    · exact (dealt.fresh w beyond).1 old
    · exact absurd (retires w new).2 (Nat.not_lt_of_le beyond)

theorem at_dealt {s : WorkerPool} (dealt : Dealt s) (i : Nat) (pc : Pc) (stack : List (Int × List Nat))
    (carries : pc.carries = none ∨ ∃ w state, pc.carries = some (w,state) ∧ (s.go i).pc.carries = some (w,state))
    (retires : pc.retires = none ∨ ∃ w, pc.retires = some w ∧ s.Retired w) :
    Dealt {s with go := Function.update s.go i ⟨pc,stack⟩} := by
  refine goto_dealt dealt i ⟨pc,stack⟩ s.nextGo ?_ ?_
  · intro w state here
    rcases carries with nothing | ⟨v,other,now,before⟩
    · cases nothing.symm.trans here
    · cases now.symm.trans here
      exact ⟨dealt.carried i w state before,.inl (by rw [WorkerPool.hands,Pc.hand,before]; rfl)⟩
  · intro w here
    rcases retires with nothing | ⟨v,now,retired⟩
    · cases nothing.symm.trans here
    · cases now.symm.trans here
      refine ⟨dealt.retired w retired,?_⟩
      apply Nat.lt_of_not_le
      exact fun beyond => (dealt.fresh w beyond).1 retired

theorem put_dealt {s : WorkerPool} (dealt : Dealt s) (w : Nat) (x : Worker)
    (carried : ∀ i state, (s.go i).pc.carries = some (w,state) → x.maps state = true)
    (queued : w ∈ s.queue → x.maps .running = true)
    (retired : x.maps .cleaning = true ∨ x.deleting = true → Free s.hands s.queue w)
    (fresh : s.nextId ≤ w → (∀ state, x.maps state = false) ∧ x.deleting = false) : Dealt (s.put w x) := by
  constructor
  · exact dealt.custody
  · intro i v state here
    rw [put_worker]
    split
    · rename_i same
      exact carried i state (same ▸ here)
    · exact dealt.carried i v state here
  · intro v member
    rw [put_worker]
    split
    · rename_i same
      exact queued (same ▸ member)
    · exact dealt.queued v member
  · rintro v (pc | changed)
    · exact dealt.retired v (.inl pc)
    · rw [put_worker] at changed
      split at changed
      · rename_i same
        subst v
        exact retired changed
      · exact dealt.retired v (.inr changed)
  · intro v beyond
    obtain ⟨never,absent⟩ := dealt.fresh v beyond
    unfold WorkerPool.Retired
    simp only [put_worker]
    split
    · rename_i same
      subst v
      obtain ⟨none,kept⟩ := fresh beyond
      refine ⟨?_,none⟩
      rintro (pc | cleaning | deleting)
      · exact never (.inl pc)
      · cases (none .cleaning).symm.trans cleaning
      · cases kept.symm.trans deleting
    · exact ⟨never,absent⟩

theorem dequeue_dealt {s : WorkerPool} (dealt : Dealt s) (queue : s.queue = w :: rest) :
    Dealt {s with queue := rest} ∧ (s.worker w).maps .running = true ∧ Free s.hands rest w ∧ ¬ s.Retired w := by
  have custody := dealt.custody
  rw [queue] at custody
  obtain ⟨shorter,free⟩ := head_custody custody
  refine ⟨{dealt with custody := shorter,queued := ?_,retired := ?_},dealt.queued w (by simp [queue]),free,?_⟩
  · intro v member
    exact dealt.queued v (by rw [queue]; exact List.mem_cons_of_mem _ member)
  · intro v retired
    have before := dealt.retired v retired
    rw [queue] at before
    exact (tail_free before).1
  · intro retired
    exact (dealt.retired w retired).1 (by simp [queue])

theorem enqueue_dealt {s : WorkerPool} (dealt : Dealt s) (running : (s.worker w).maps .running = true)
    (free : Free s.hands s.queue w) (never : ¬ s.Retired w) : Dealt {s with queue := s.queue ++ [w]} := by
  refine {dealt with custody := last_custody dealt.custody free,queued := ?_,retired := ?_}
  · intro v member
    rcases List.mem_append.mp member with old | new
    · exact dealt.queued v old
    · cases List.mem_singleton.mp new
      exact running
  · intro v retired
    apply last_free (dealt.retired v retired)
    rintro rfl
    exact never retired

theorem spawn_dealt {s : WorkerPool} (dealt : Dealt s) (pc : Pc) (carries : pc.carries = none)
    (retires : ∀ w, pc.retires = some w → Free s.hands s.queue w ∧ w < s.nextId) : Dealt (s.spawn pc) := by
  refine goto_dealt dealt s.nextGo ⟨pc,[]⟩ (s.nextGo + 1) ?_ retires
  intro w state here
  cases carries.symm.trans here

theorem back_dealt {s : WorkerPool} (dealt : Dealt s) (i : Nat) : Dealt (s.back i) := by
  unfold WorkerPool.back
  split
  · exact at_dealt dealt i _ _ (.inl rfl) (.inl rfl)
  · exact at_dealt dealt i _ _ (.inl rfl) (.inl rfl)

theorem hands_at (s : WorkerPool) (i : Nat) (pc : Pc) : (s.at i pc).hands = Function.update s.hands i pc.hand :=
  Function.comp_update (fun g : Goroutine => g.pc.hand) s.go i _

theorem drop_dealt {s : WorkerPool} (dealt : Dealt s) (here : (s.go i).pc.carries = some (w,state)) (pc : Pc)
    (nothing : pc.carries = none) (free : pc.retires = none) :
    Dealt (s.at i pc) ∧ Free (s.at i pc).hands s.queue w ∧ ¬ (s.at i pc).Retired w ∧ w < s.nextId := by
  have holds : s.hands i = some w := by rw [WorkerPool.hands,Pc.hand,here]; rfl
  have empty : pc.hand = none := by rw [Pc.hand,nothing]; rfl
  obtain ⟨known,never⟩ := held_known dealt holds
  refine ⟨at_dealt dealt i pc _ (.inl nothing) (.inl free),?_,?_,known⟩
  · rw [hands_at,empty]
    exact dropped_free dealt.custody holds nofun
  · rintro (⟨j,there⟩ | kept)
    · change (Function.update s.go i _ j).pc.retires = some w at there
      rw [Function.update_apply] at there
      split at there
      · cases free.symm.trans there
      · exact never (.inl ⟨j,there⟩)
    · exact never (.inr kept)

theorem retired_known {s : WorkerPool} (dealt : Dealt s) (retired : s.Retired w) :
    Free s.hands s.queue w ∧ w < s.nextId := by
  refine ⟨dealt.retired w retired,?_⟩
  apply Nat.lt_of_not_le
  exact fun beyond => (dealt.fresh w beyond).1 retired

theorem free_carried {s : WorkerPool} (free : Free s.hands s.queue w) (i : Nat) (state : WorkerState) :
    (s.go i).pc.carries ≠ some (w,state) := by
  intro here
  apply free.2 i
  rw [WorkerPool.hands,Pc.hand,here]
  rfl

theorem tasks_dealt {s : WorkerPool} (dealt : Dealt s) (w : Nat) (numTask : Int) :
    Dealt (s.put w {s.worker w with numTask := numTask}) := by
  refine put_dealt dealt w _ (fun i => dealt.carried i w) (dealt.queued w)
    (fun changed => dealt.retired w (.inr changed)) ?_
  intro beyond
  obtain ⟨never,absent⟩ := dealt.fresh w beyond
  exact ⟨absent,Bool.eq_false_iff.mpr fun deleting => never (.inr (.inr deleting))⟩

theorem shift_dealt {s : WorkerPool} (dealt : Dealt s) (free : Free s.hands s.queue w) (known : w < s.nextId)
    (x : Worker) : Dealt (s.put w x) :=
  put_dealt dealt w x (fun i state here => absurd here (free_carried free i state)) (fun member => absurd member free.1)
    (fun _ => free) (fun beyond => absurd known (Nat.not_lt_of_le beyond))

theorem startNewWorker_dealt {s : WorkerPool} (dealt : Dealt s) (i left : Nat) : Dealt (s.startNewWorker i left) := by
  obtain ⟨never,absent⟩ := dealt.fresh s.nextId (Nat.le_refl _)
  have free : Free s.hands s.queue s.nextId := by
    constructor
    · intro member
      cases (absent _).symm.trans (dealt.queued _ member)
    · intro j holds
      exact Nat.lt_irrefl _ (held_known dealt holds).1
  have grown : Dealt {s with nextId := s.nextId + 1} :=
    {dealt with fresh := fun w beyond => dealt.fresh w (Nat.le_of_succ_le beyond)}
  let x : Worker := ⟨.starting,fun state => state == WorkerState.starting,0,true,false⟩
  have born : Dealt ({s with nextId := s.nextId + 1}.put s.nextId x) := shift_dealt grown free (Nat.lt_succ_self _) x
  have moved := at_dealt born i (.starting left) (s.go i).stack (.inl rfl) (.inl rfl)
  refine goto_dealt moved s.nextGo ⟨.creating s.nextId false,[]⟩ (s.nextGo + 1) ?_ nofun
  intro w state here
  cases here
  refine ⟨by simp [WorkerPool.put,x],.inr ⟨?_,?_⟩⟩
  · refine ⟨free.1,?_⟩
    intro j holds
    change (Function.update s.go i _ j).pc.hand = _ at holds
    rw [Function.update_apply] at holds
    split at holds
    · cases holds
    · exact free.2 j holds
  · rintro (⟨j,there⟩ | kept)
    · change (Function.update s.go i _ j).pc.retires = _ at there
      rw [Function.update_apply] at there
      split at there
      · cases there
      · exact never (.inl ⟨j,there⟩)
    · simp [WorkerPool.put,x] at kept

theorem cleanWorker_dealt {s : WorkerPool} (dealt : Dealt s) (here : (s.go i).pc = .cleaning w left) :
    Dealt (s.cleanWorker i w left) := by
  obtain ⟨dropped,free,_,known⟩ := drop_dealt dealt (congrArg Pc.carries here) (.taking left) rfl rfl
  have shifted := shift_dealt dropped free known ((s.worker w).shift .running .cleaning)
  refine spawn_dealt shifted (.draining w) rfl ?_
  intro v same
  cases same
  exact ⟨free,known⟩

theorem recoverWorker_dealt {s : WorkerPool} (dealt : Dealt s) (here : (s.go i).pc = .recovering w toBeRecover due) :
    Dealt (s.recoverWorker i w toBeRecover due) := by
  obtain ⟨free,known⟩ := retired_known dealt (.inl ⟨i,congrArg Pc.retires here⟩)
  exact at_dealt (shift_dealt dealt free known _) i .sizing _ (.inl rfl) (.inl rfl)

theorem registered_dealt {s : WorkerPool} (dealt : Dealt s) (here : (s.go i).pc = .registering w) :
    Dealt ((s.put w ((s.worker w).shift .starting .running)).at i (.queueing w)) := by
  obtain ⟨dropped,free,never,known⟩ := drop_dealt dealt (congrArg Pc.carries here) .done rfl rfl
  have shifted := shift_dealt dropped free known ((s.worker w).shift .starting .running)
  have taken := goto_dealt shifted i ⟨.queueing w,(s.go i).stack⟩ s.nextGo (by
    intro v state there
    cases there
    refine ⟨by simp [WorkerPool.put,Worker.shift],.inr ⟨free,?_⟩⟩
    rintro (pc | cleaning | deleting)
    · exact never (.inl pc)
    · have before : (s.worker w).maps .cleaning = true := by simpa [WorkerPool.put,Worker.shift] using cleaning
      exact never (.inr (.inl before))
    · have before : (s.worker w).deleting = true := by simpa [WorkerPool.put,Worker.shift] using deleting
      exact never (.inr (.inr before))) nofun
  simpa only [WorkerPool.at,WorkerPool.put,Function.update_idem] using taken

theorem sent_dealt {s : WorkerPool} (dealt : Dealt s) (here : (s.go i).pc.carries = some (w,.running))
    (nothing : pc.carries = none) (free : pc.retires = none) : Dealt {s.at i pc with queue := s.queue ++ [w]} := by
  obtain ⟨dropped,nobody,never,_⟩ := drop_dealt dealt here pc nothing free
  exact enqueue_dealt dropped (dealt.carried i w .running here) nobody never

theorem received_dealt {s : WorkerPool} (dealt : Dealt s) (queue : s.queue = w :: rest)
    (here : pc.carries = some (w,.running)) (free : pc.retires = none) : Dealt {s.at i pc with queue := rest} := by
  obtain ⟨shorter,running,nobody,never⟩ := dequeue_dealt dealt queue
  refine goto_dealt shorter i ⟨pc,(s.go i).stack⟩ s.nextGo ?_ ?_
  · intro v state there
    cases here.symm.trans there
    exact ⟨running,.inr ⟨nobody,never⟩⟩
  · intro v there
    cases free.symm.trans there

theorem detroyWorker_dealt {s : WorkerPool} (dealt : Dealt s) (here : (s.go i).pc = .destroying w) :
    Dealt (s.detroyWorker i w) := by
  obtain ⟨free,known⟩ := retired_known dealt (.inl ⟨i,congrArg Pc.retires here⟩)
  have shifted := shift_dealt dealt free known ((s.worker w).shift .cleaning .destroying)
  have ended := at_dealt shifted i .done (s.go i).stack (.inl rfl) (.inl rfl)
  refine spawn_dealt ended (.deleting w false) rfl ?_
  intro v same
  cases same
  refine ⟨?_,known⟩
  change Free (s.at i .done).hands s.queue w
  rw [hands_at]
  exact hand_free free i _ nofun

theorem move_dealt {s t : WorkerPool} (dealt : Dealt s) (move : Move s i t) : Dealt t := by
  cases move with
  | sized | short | enough | excess | noExcess | allCleaned | lack | forwarded =>
      exact at_dealt dealt i _ _ (.inl rfl) (.inl rfl)
  | allStarted | noLack | allRecovered => exact back_dealt dealt i
  | @targeted target here =>
      have set : Dealt {s with target := target} := {dealt with}
      exact at_dealt set i .sizing (s.go i).stack (.inl rfl) (.inl rfl)
  | givesUp here recovered => exact {at_dealt dealt i .done (s.go i).stack (.inl rfl) (.inl rfl) with}
  -- the hand of a starter
  | started here => exact startNewWorker_dealt dealt i _
  | creates here =>
      exact at_dealt (tasks_dealt dealt _ 1) i _ _ (.inr ⟨_,_,rfl,congrArg Pc.carries here⟩) (.inl rfl)
  | created here => exact at_dealt dealt i _ _ (.inr ⟨_,_,rfl,congrArg Pc.carries here⟩) (.inl rfl)
  | registered here => exact {registered_dealt dealt here with}
  | queued here room => exact sent_dealt dealt (congrArg Pc.carries here) rfl rfl
  | opened here => exact {at_dealt (tasks_dealt dealt _ 0) i .sizing (s.go i).stack (.inl rfl) (.inl rfl) with}
  -- the hand of whoever received from the queue
  | took here queue => exact received_dealt dealt queue rfl rfl
  | cleaned here => exact cleanWorker_dealt dealt here
  | received run here queue => exact received_dealt dealt queue rfl rfl
  | requeued run here room =>
      refine sent_dealt dealt (congrArg Pc.carries here) ?_ ?_
      · cases run <;> rfl
      · cases run <;> rfl
  | entered | left => exact at_dealt (tasks_dealt dealt _ _) i _ _ (.inl rfl) (.inl rfl)
  -- workers that were taken out to be cleaned
  | busy here | drained here | waits here | deleted here =>
      exact at_dealt dealt i _ _ (.inl rfl) (.inr ⟨_,rfl,.inl ⟨i,congrArg Pc.retires here⟩⟩)
  | recovered here => exact recoverWorker_dealt dealt here
  | destroyed here => exact detroyWorker_dealt dealt here
  | deletes here =>
      obtain ⟨free,known⟩ := retired_known dealt (.inl ⟨i,congrArg Pc.retires here⟩)
      exact at_dealt (shift_dealt dealt free known _) i _ _ (.inl rfl) (.inr ⟨_,rfl,.inl ⟨i,congrArg Pc.retires here⟩⟩)
  | removed here =>
      obtain ⟨free,known⟩ := retired_known dealt (.inl ⟨i,congrArg Pc.retires here⟩)
      exact at_dealt (shift_dealt dealt free known _) i .sizing (s.go i).stack (.inl rfl) (.inl rfl)

theorem turn_dealt {s t : WorkerPool} (dealt : Dealt s) (turn : Turn s action t) : Dealt t := by
  cases turn with
  | setTarget | runLambda | getWorker => exact spawn_dealt dealt _ rfl nofun
  | moved _ _ move => exact move_dealt dealt move
  | chose _ _ _ _ cleaning => exact at_dealt dealt _ _ _ (.inl rfl) (.inr ⟨_,rfl,.inr (.inl cleaning)⟩)
  | failed => exact {dealt with}

theorem reached_dealt (ran : run step (newWorkerPool cap) actions = some s) : Dealt s :=
  run_preserves Dealt (fun _ _ _ dealt moved => turn_dealt dealt (step_turn moved).2) (new_dealt cap) ran

end OpenLambda.Boss
