import OpenLambda.Boss.WorkerPool

namespace OpenLambda.Boss
open Foundation.Runs

def Pc.tends : Pc → Option (Nat × WorkerState)
  | .creating w _ | .registering w => some (w,.starting)
  | .draining w | .looking w | .destroying w => some (w,.cleaning)
  | .deleting w _ | .removing w => some (w,.destroying)
  | _ => none

-- Goroutines that will change the cluster, wait forever for a worker, or compare
-- it with the target once more; with `comparing` and `counting` only as long as
-- what they have read is still so. A drain goroutine whose worker was recovered
-- just ends.
def WorkerPool.Pending (s : WorkerPool) : Pc → Prop
  | .settingTarget _ | .sizing | .starting (_ + 1) | .taking _ | .cleaning _ _ | .recovering _ _ _ | .creating _ _
  | .registering _ | .queueing _ | .opening _ | .deleting _ _ | .removing _ => True
  | .comparing size => size = s.size
  | .counting scaleSize => scaleSize = s.target - s.size ∧ scaleSize ≤ 0
  | .draining w | .looking w | .destroying w => (s.worker w).maps .cleaning = true
  | _ => False

structure Minded (s : WorkerPool) : Prop where
  unborn : ∀ i, s.nextGo ≤ i → (s.go i).pc = .done
  tended : ∀ w state, state ≠ .running → (s.worker w).maps state = true → ∃ i, (s.go i).pc.tends = some (w,state)
  decided : (∃ i, s.Pending (s.go i).pc) ∨ s.target = s.size

theorem new_minded (cap : Nat) : Minded (newWorkerPool cap) where
  unborn := fun _ _ => rfl
  tended := by
    intro w state _ present
    cases present
  decided := .inr rfl

theorem len_congr {s t : WorkerPool} (ids : t.nextId = s.nextId) (maps : ∀ w, (t.worker w).maps = (s.worker w).maps)
    (state : WorkerState) : t.len state = s.len state := by
  unfold WorkerPool.len
  simp only [ids,maps]

theorem size_congr {s t : WorkerPool} (ids : t.nextId = s.nextId) (maps : ∀ w, (t.worker w).maps = (s.worker w).maps) :
    t.size = s.size := by
  unfold WorkerPool.size
  simp only [len_congr ids maps]

theorem WorkerPool.len_zero_iff (s : WorkerPool) (state : WorkerState) :
    s.len state = 0 ↔ ∀ w, w < s.nextId → (s.worker w).maps state = false := by
  unfold WorkerPool.len
  rw [Int.natCast_eq_zero,List.countP_eq_zero]
  constructor
  · intro none w born
    exact Bool.eq_false_iff.mpr (none w (List.mem_range.mpr born))
  · intro none w member
    rw [none w (List.mem_range.mp member)]
    exact Bool.false_ne_true

theorem tends_pending {s : WorkerPool} {pc : Pc} (tends : pc.tends = some (w,state)) (present : (s.worker w).maps state = true) :
    s.Pending pc := by
  cases pc <;> cases tends <;> trivial

theorem tended_moved {s t : WorkerPool} (minded : Minded s) (goes : ∀ j, j ≠ i → j < s.nextGo → t.go j = s.go j)
    (maps : ∀ w state, state ≠ .running → (t.worker w).maps state = true →
      (s.worker w).maps state = true ∧ (s.go i).pc.tends ≠ some (w,state) ∨ ∃ j, (t.go j).pc.tends = some (w,state)) :
    ∀ w state, state ≠ .running → (t.worker w).maps state = true → ∃ j, (t.go j).pc.tends = some (w,state) := by
  intro w state idle present
  rcases maps w state idle present with ⟨before,free⟩ | tended
  · obtain ⟨j,tends⟩ := minded.tended w state idle before
    have other : j ≠ i := by
      rintro rfl
      exact free tends
    have born : j < s.nextGo := by
      apply Classical.byContradiction
      intro beyond
      rw [minded.unborn j (Nat.le_of_not_lt beyond)] at tends
      cases tends
    exact ⟨j,by rw [goes j other born]; exact tends⟩
  · exact tended

theorem pending_congr {s t : WorkerPool} (target : t.target = s.target) (ids : t.nextId = s.nextId)
    (maps : ∀ w, (t.worker w).maps = (s.worker w).maps) (pc : Pc) : t.Pending pc ↔ s.Pending pc := by
  cases pc <;> simp only [WorkerPool.Pending,target,maps,size_congr ids maps]

theorem calm_minded {s t : WorkerPool} (minded : Minded s) (born : i < s.nextGo) (pc : Pc) (stack : List (Int × List Nat))
    (go : t.go = Function.update s.go i ⟨pc,stack⟩) (count : t.nextGo = s.nextGo) (target : t.target = s.target)
    (ids : t.nextId = s.nextId) (maps : ∀ w, (t.worker w).maps = (s.worker w).maps)
    (tends : ∀ w state, (s.go i).pc.tends = some (w,state) → (s.worker w).maps state = true → pc.tends = some (w,state))
    (mine : s.Pending (s.go i).pc → s.Pending pc ∨ (∃ j, j ≠ i ∧ s.Pending (s.go j).pc) ∨ s.target = s.size) : Minded t := by
  have self : (t.go i).pc = pc := by rw [go,Function.update_self]
  have others : ∀ j, j ≠ i → t.go j = s.go j := by
    intro j other
    rw [go,Function.update_of_ne other]
  constructor
  · intro j beyond
    rw [count] at beyond
    rw [others j (by omega)]
    exact minded.unborn j beyond
  · apply tended_moved minded fun j other _ => others j other
    intro w state _ present
    rw [maps] at present
    by_cases ours : (s.go i).pc.tends = some (w,state)
    · exact .inr ⟨i,by rw [self]; exact tends w state ours present⟩
    · exact .inl ⟨present,ours⟩
  · simp only [pending_congr target ids maps,target,size_congr ids maps]
    rcases minded.decided with ⟨j,pending⟩ | equal
    · by_cases same : j = i
      · subst j
        rcases mine pending with goes | ⟨k,other,pending⟩ | equal
        · exact .inl ⟨i,by rw [self]; exact goes⟩
        · exact .inl ⟨k,by rw [others k other]; exact pending⟩
        · exact .inr equal
      · exact .inl ⟨j,by rw [others j same]; exact pending⟩
    · exact .inr equal

theorem nothing_to_do {s : WorkerPool} (minded : Minded s) (enough : s.target - s.size ≤ 0)
    (noExcess : s.toBeClean (s.target - s.size) ≤ 0) :
    (∃ j w state, (s.go j).pc.tends = some (w,state) ∧ s.Pending (s.go j).pc) ∨ s.target = s.size := by
  by_cases idle : ∃ w state, state ≠ .running ∧ (s.worker w).maps state = true
  · obtain ⟨w,state,other,present⟩ := idle
    obtain ⟨j,tends⟩ := minded.tended w state other present
    exact .inl ⟨j,w,state,tends,tends_pending tends present⟩
  · have none : ∀ state, state ≠ .running → s.len state = 0 := by
      intro state other
      apply (s.len_zero_iff state).mpr
      intro w _
      apply Bool.eq_false_iff.mpr
      exact fun present => idle ⟨w,state,other,present⟩
    unfold WorkerPool.toBeClean at noExcess
    rw [none .cleaning nofun,none .destroying nofun,none .starting nofun] at noExcess
    exact .inr (by omega)

theorem move_unborn {s t : WorkerPool} (unborn : ∀ j, s.nextGo ≤ j → (s.go j).pc = .done) (born : i < s.nextGo)
    (move : Move s i t) : ∀ j, t.nextGo ≤ j → (t.go j).pc = .done := by
  intro j beyond
  have more := move_nextGo move
  rw [move_frame move (by omega) (.inr beyond)]
  exact unborn j (by omega)

theorem change_minded {s t : WorkerPool} (minded : Minded s) (born : i < s.nextGo) (move : Move s i t) (j : Nat)
    (pending : t.Pending (t.go j).pc)
    (maps : ∀ w state, state ≠ .running → (t.worker w).maps state = true →
      (s.worker w).maps state = true ∧ (s.go i).pc.tends ≠ some (w,state) ∨ ∃ j, (t.go j).pc.tends = some (w,state)) :
    Minded t where
  unborn := move_unborn minded.unborn born move
  tended := tended_moved minded (fun _ other old => move_frame move other (.inl old)) maps
  decided := .inl ⟨j,pending⟩

theorem shift_minded {s t : WorkerPool} (minded : Minded s) (born : i < s.nextGo) (move : Move s i t) (j : Nat)
    (pending : t.Pending (t.go j).pc) (before after : WorkerState)
    (worker : t.worker = Function.update s.worker w ((s.worker w).shift before after))
    (mine : ∀ v state, (s.go i).pc.tends = some (v,state) → v = w ∧ state = before)
    (next : after ≠ .running → ∃ k, (t.go k).pc.tends = some (w,after)) : Minded t := by
  apply change_minded minded born move j pending
  intro v state idle present
  rw [worker,Function.update_apply] at present
  split at present
  · rename_i same
    subst v
    rcases shift_maps present with rfl | ⟨left,before⟩
    · exact .inr (next idle)
    · exact .inl ⟨before,fun tends => left (mine w state tends).2⟩
  · rename_i other
    exact .inl ⟨present,fun tends => other (mine v state tends).1⟩

theorem started_minded {s : WorkerPool} (minded : Minded s) (born : i < s.nextGo)
    (here : (s.go i).pc = .starting (left + 1)) : Minded (s.startNewWorker i left) := by
  have fresh : ((s.startNewWorker i left).go s.nextGo).pc = .creating s.nextId false := by
    simp [WorkerPool.startNewWorker,WorkerPool.spawn,WorkerPool.at,WorkerPool.put]
  apply change_minded minded born (.started here) s.nextGo (by rw [fresh]; trivial)
  intro v state idle present
  change (Function.update s.worker s.nextId _ v).maps state = true at present
  rw [Function.update_apply] at present
  split at present
  · rename_i same
    subst v
    have starting : state = .starting := by simpa using present
    subst state
    exact .inr ⟨s.nextGo,by rw [fresh]; rfl⟩
  · exact .inl ⟨present,by rw [here]; exact (Option.some_ne_none _).symm⟩

theorem removed_minded {s : WorkerPool} (minded : Minded s) (born : i < s.nextGo) (here : (s.go i).pc = .removing w) :
    Minded ((s.put w {s.worker w with
      maps := Function.update (s.worker w).maps .destroying false
      present := false}).at i .sizing) := by
  apply change_minded minded born (.removed here) i (by simp [WorkerPool.at,WorkerPool.put,WorkerPool.Pending])
  intro v state idle present
  change ((s.put w _).worker v).maps state = true at present
  rw [put_worker] at present
  split at present
  · rename_i same
    subst v
    change Function.update (s.worker w).maps .destroying false state = true at present
    rw [Function.update_apply] at present
    split at present
    · cases present
    · rename_i other
      refine .inl ⟨present,?_⟩
      rw [here]
      rintro ⟨⟩
      exact other rfl
  · rename_i other
    refine .inl ⟨present,?_⟩
    rw [here]
    rintro ⟨⟩
    exact other rfl

theorem free_tends {s : WorkerPool} (free : (s.go i).pc.tends = none) (pc : Pc) (w : Nat) (state : WorkerState)
    (tends : (s.go i).pc.tends = some (w,state)) (_ : (s.worker w).maps state = true) : pc.tends = some (w,state) := by
  cases free.symm.trans tends

theorem back_minded {s : WorkerPool} (minded : Minded s) (born : i < s.nextGo) (idle : ¬ s.Pending (s.go i).pc)
    (free : (s.go i).pc.tends = none) : Minded (s.back i) := by
  unfold WorkerPool.back
  split
  · exact calm_minded minded born _ _ rfl rfl rfl rfl (fun _ => rfl) (free_tends free _) fun pending => absurd pending idle
  · exact calm_minded minded born _ _ rfl rfl rfl rfl (fun _ => rfl) (free_tends free _) fun pending => absurd pending idle

theorem tasks_maps (s : WorkerPool) (w : Nat) (numTask : Int) (v : Nat) :
    ((s.put w {s.worker w with numTask := numTask}).worker v).maps = (s.worker v).maps := by
  rw [put_worker]
  split
  · rename_i same
    rw [same]
  · rfl

theorem flagged_maps (s : WorkerPool) (w : Nat) (deleting : Bool) (v : Nat) :
    ((s.put w {s.worker w with deleting := deleting}).worker v).maps = (s.worker v).maps := by
  rw [put_worker]
  split
  · rename_i same
    rw [same]
  · rfl

theorem noExcess_minded {s : WorkerPool} (minded : Minded s) (born : i < s.nextGo)
    (here : (s.go i).pc = .counting scaleSize) (noExcess : s.toBeClean scaleSize ≤ 0) : Minded (s.at i .lacking) := by
  have free : (s.go i).pc.tends = none := by rw [here]; rfl
  refine calm_minded minded born _ _ rfl rfl rfl rfl (fun _ => rfl) (free_tends free _) ?_
  intro pending
  rw [here] at pending
  obtain ⟨rfl,enough⟩ := pending
  rcases nothing_to_do minded enough noExcess with ⟨j,w,state,tends,pending⟩ | equal
  · refine .inr (.inl ⟨j,?_,pending⟩)
    rintro rfl
    cases free.symm.trans tends
  · exact .inr (.inr equal)

theorem short_minded {s : WorkerPool} (minded : Minded s) (born : i < s.nextGo) (here : (s.go i).pc = .comparing size)
    (more : 0 < s.target - size) : Minded (s.at i (.starting (s.target - size).toNat)) := by
  obtain ⟨left,some⟩ : ∃ left, (s.target - size).toNat = left + 1 := ⟨(s.target - size).toNat - 1,by omega⟩
  rw [some]
  exact calm_minded minded born _ _ rfl rfl rfl rfl (fun _ => rfl) (free_tends (by rw [here]; rfl) _) fun _ => .inl trivial

theorem move_minded {s t : WorkerPool} (minded : Minded s) (born : i < s.nextGo) (move : Move s i t) : Minded t := by
  cases move with
  | short here more => exact short_minded minded born here more
  | noExcess here fewer => exact noExcess_minded minded born here fewer
  | started here => exact started_minded minded born here
  | removed here => exact removed_minded minded born here
  | allStarted here | noLack here | allRecovered here =>
      exact back_minded minded born (by rw [here]; exact id) (by rw [here]; rfl)
  -- the target or a worker's map changes
  | targeted here =>
      refine change_minded minded born (.targeted here) i (by simp [WorkerPool.at,WorkerPool.Pending]) ?_
      intro w state _ present
      exact .inl ⟨present,by rw [here]; exact (Option.some_ne_none _).symm⟩
  | @cleaned w left here =>
      have old : i ≠ s.nextGo := Nat.ne_of_lt born
      refine shift_minded minded born (.cleaned here) i ?_ .running .cleaning rfl ?_ ?_
      · simp [WorkerPool.cleanWorker,WorkerPool.spawn,WorkerPool.at,WorkerPool.put,WorkerPool.Pending,old]
      · rw [here]
        intro _ _ tends
        cases tends
      · exact fun _ => ⟨s.nextGo,by simp [WorkerPool.cleanWorker,WorkerPool.spawn,WorkerPool.at,WorkerPool.put,Pc.tends]⟩
  | recovered here =>
      refine shift_minded minded born (.recovered here) i ?_ .cleaning .running rfl ?_ (fun wrong => absurd rfl wrong)
      · simp [WorkerPool.recoverWorker,WorkerPool.Pending]
      · rw [here]
        intro _ _ tends
        cases tends
  | registered here =>
      refine shift_minded minded born (.registered here) i ?_ .starting .running rfl ?_ (fun wrong => absurd rfl wrong)
      · simp [WorkerPool.at,WorkerPool.put,WorkerPool.Pending]
      · rw [here]
        rintro _ _ ⟨⟩
        exact ⟨rfl,rfl⟩
  | destroyed here =>
      refine shift_minded minded born (.destroyed here) s.nextGo ?_ .cleaning .destroying rfl ?_ ?_
      · simp [WorkerPool.detroyWorker,WorkerPool.spawn,WorkerPool.at,WorkerPool.put,WorkerPool.Pending]
      · rw [here]
        rintro _ _ ⟨⟩
        exact ⟨rfl,rfl⟩
      · exact fun _ => ⟨s.nextGo,by simp [WorkerPool.detroyWorker,WorkerPool.spawn,WorkerPool.at,WorkerPool.put,Pc.tends]⟩
  -- nothing changes, and what was pending goes on
  | sized here | allCleaned here | took here | excess here | queued here | lack here | received _ here | requeued _ here
  | forwarded here =>
      refine calm_minded minded born _ _ rfl rfl rfl rfl (fun _ => rfl) (free_tends (by rw [here]; rfl) _) ?_
      intro pending
      rw [here] at pending
      first | exact .inl trivial | exact .inl rfl | cases pending
  | enough here fewer =>
      refine calm_minded minded born _ _ rfl rfl rfl rfl (fun _ => rfl) (free_tends (by rw [here]; rfl) _) ?_
      intro pending
      rw [here] at pending
      cases pending
      exact .inl ⟨rfl,fewer⟩
  | opened here | entered here | left here =>
      refine calm_minded minded born _ _ rfl rfl rfl rfl (tasks_maps s _ _) (free_tends (by rw [here]; rfl) _) ?_
      intro pending
      rw [here] at pending
      first | exact .inl trivial | cases pending
  | creates here =>
      refine calm_minded minded born _ _ rfl rfl rfl rfl (tasks_maps s _ _) ?_ fun _ => .inl trivial
      rw [here]
      exact fun _ _ tends _ => tends
  | deletes here =>
      refine calm_minded minded born _ _ rfl rfl rfl rfl (flagged_maps s _ _) ?_ fun _ => .inl trivial
      rw [here]
      exact fun _ _ tends _ => tends
  | created here | deleted here =>
      refine calm_minded minded born _ _ rfl rfl rfl rfl (fun _ => rfl) ?_ fun _ => .inl trivial
      rw [here]
      exact fun _ _ tends _ => tends
  | busy here | drained here | waits here =>
      refine calm_minded minded born _ _ rfl rfl rfl rfl (fun _ => rfl) ?_ ?_
      · rw [here]
        exact fun _ _ tends _ => tends
      · rw [here]
        exact .inl
  | givesUp here recovered =>
      refine calm_minded minded born _ _ rfl rfl rfl rfl (fun _ => rfl) ?_ ?_
      · rw [here]
        rintro _ _ ⟨⟩ present
        cases recovered.symm.trans present
      · rw [here]
        intro pending
        cases recovered.symm.trans pending

theorem spawn_minded {s : WorkerPool} (minded : Minded s) (pc : Pc) : Minded (s.spawn pc) := by
  have others : ∀ j, j < s.nextGo → (s.spawn pc).go j = s.go j := by
    intro j old
    simp [WorkerPool.spawn,Nat.ne_of_lt old]
  have still : ∀ other, (s.spawn pc).Pending other ↔ s.Pending other :=
    pending_congr (rfl : (s.spawn pc).target = s.target) rfl fun _ => rfl
  constructor
  · intro j beyond
    have new : j ≠ s.nextGo := Nat.ne_of_gt beyond
    simp only [WorkerPool.spawn,Function.update_of_ne new]
    exact minded.unborn j (Nat.le_of_succ_le beyond)
  · refine tended_moved minded (i := s.nextGo) (fun j _ old => others j old) ?_
    intro w state _ present
    refine .inl ⟨present,?_⟩
    rw [minded.unborn s.nextGo (Nat.le_refl _)]
    exact (Option.some_ne_none _).symm
  · rcases minded.decided with ⟨j,pending⟩ | equal
    · have old : j < s.nextGo := by
        apply Classical.byContradiction
        intro beyond
        rw [minded.unborn j (Nat.le_of_not_lt beyond)] at pending
        exact pending
      exact .inl ⟨j,by rw [others j old,still]; exact pending⟩
    · exact .inr equal

theorem turn_minded {s t : WorkerPool} (minded : Minded s) (turn : Turn s action t) : Minded t := by
  cases turn with
  | setTarget | runLambda | getWorker => exact spawn_minded minded _
  | moved born _ move => exact move_minded minded born move
  | chose born _ here =>
      refine calm_minded minded born _ _ rfl rfl rfl rfl (fun _ => rfl) ?_ fun _ => .inl trivial
      intro w state tends
      rw [here] at tends
      cases tends
  | failed => exact {minded with}

-- RunLambda and GetWorker may be at work; nothing is starting, draining or being
-- deleted and no updateCluster is in progress.
def Pc.quiet : Pc → Bool
  | .receiving _ | .requeueing _ _ | .entering _ | .forwarding _ | .leaving _ | .done => true
  | _ => false

theorem quiet_idle (s : WorkerPool) {pc : Pc} (quiet : pc.quiet = true) : pc.tends = none ∧ ¬ s.Pending pc := by
  cases pc <;> cases quiet <;> exact ⟨rfl,id⟩

theorem reached_minded (ran : run step (newWorkerPool cap) actions = some s) : Minded s :=
  run_preserves Minded (fun _ _ _ minded moved => turn_minded minded (step_turn moved).2) (new_minded cap) ran

theorem target_reached (ran : run step (newWorkerPool cap) actions = some s) (quiet : ∀ i, (s.go i).pc.quiet = true) :
    s.len .running = s.target := by
  have minded := reached_minded ran
  have empty : ∀ state, state ≠ .running → s.len state = 0 := by
    intro state other
    apply (s.len_zero_iff state).mpr
    intro w _
    apply Bool.eq_false_iff.mpr
    intro present
    obtain ⟨i,tends⟩ := minded.tended w state other present
    cases (quiet_idle s (quiet i)).1.symm.trans tends
  rcases minded.decided with ⟨i,pending⟩ | equal
  · exact absurd pending (quiet_idle s (quiet i)).2
  · rw [equal,WorkerPool.size,empty .starting nofun,empty .cleaning nofun,empty .destroying nofun]
    omega

def grownAndShrunk : List Action :=
  .setTarget 2 :: goes 0 6 ++ goes 1 9 ++ goes 2 9 ++ .setTarget 1 :: goes 3 11 ++ goes 4 2 ++ goes 5 7

theorem target_reached_one : ∃ s, run step (newWorkerPool 2) grownAndShrunk = some s ∧ s.nextId = 3 ∧ s.target = 1 ∧
    s.len .running = 1 := by
  have seen : (run step (newWorkerPool 2) grownAndShrunk).map
      (fun s => (s.nextId,s.target,s.nextGo,(List.range 6).all fun i => (s.go i).pc.quiet)) = some (3,1,6,true) := by
    decide +kernel
  obtain ⟨s,ran,facts⟩ := Option.map_eq_some_iff.mp seen
  simp only [Prod.mk.injEq] at facts
  obtain ⟨ids,target,count,quiet⟩ := facts
  refine ⟨s,ran,ids,target,?_⟩
  rw [← target]
  apply target_reached ran
  intro i
  by_cases started : i < 6
  · exact List.all_eq_true.mp quiet i (List.mem_range.mpr started)
  · rw [(reached_minded ran).unborn i (by omega)]
    rfl

end OpenLambda.Boss
