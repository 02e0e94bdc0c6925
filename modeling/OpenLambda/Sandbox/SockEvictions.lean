import OpenLambda.Sandbox.SockEvents

namespace OpenLambda.Evictor
open SafeWrapper SandboxEventType

theorem seen_sent (events : List SandboxEventType) (sb other : Nat) :
    seen (events.map fun ev => (ev,sb)) other = if other = sb then events else [] := by
  induction events with
  | nil => simp [seen]
  | cons ev rest ih =>
      rw [List.map_cons,← List.singleton_append,seen_append,ih]
      by_cases same : other = sb
      · subst same; simp
      · simp [same,seen_other ev (Ne.symm same)]

theorem seen_mem (present : ev ∈ seen log sb) : (ev,sb) ∈ log := by
  obtain ⟨⟨other,owner⟩,member,rfl⟩ := List.mem_map.mp present
  obtain ⟨inside,same⟩ := List.mem_filter.mp member
  simp only [decide_eq_true_eq] at same
  subst same
  exact inside

theorem update_log {t : Trace} (ran : t.update ev sb = .ok next) :
    next.processed = t.processed ++ [(ev,sb)] ∧ next.moved = Function.update t.moved sb false := by
  unfold Trace.update at ran
  split at ran <;> cases ran
  exact ⟨rfl,rfl⟩

theorem evict_log {t : Trace} (ran : t.evict memLimitMB totalMB availableMB = .ok (next,tasks)) :
    next.processed = t.processed ∧ ∀ sb, next.moved sb = (t.moved sb || (tasks.map (·.1)).contains sb) := by
  unfold Trace.evict at ran
  split at ran <;> cases ran
  exact ⟨rfl,fun _ => rfl⟩

end OpenLambda.Evictor

namespace OpenLambda.SockSystem
open Foundation.Runs Foundation.SharedLists SafeWrapper SandboxEventType SockContainer Evictor

-- The channel holds what was sent and not yet processed, and the evictor's
-- books agree with what was.
structure Reading (s : System) : Prop where
  channel : ∀ i, seen (s.evictor.processed ++ s.events) i = (s.box i).hist
  books : Books s.evictor
  calm : ∀ text, s.fault ≠ some (.updateState text)

theorem init_reading (conf : Conf) : Reading (init conf) :=
  ⟨fun _ => rfl,newTrace_books,by simp [init]⟩

theorem Reading.legal {s : System} {id : Nat} (reading : Reading s) (stream : Stream s)
    (front : s.events = (ev,id) :: rest) : Legal (seen s.evictor.processed id ++ [ev]) := by
  have head : seen ((ev,id) :: rest) id = ev :: seen rest id := by simp [seen]
  refine (stream.legal id).early ⟨seen rest id,?_⟩
  rw [← reading.channel id,front,seen_append,head]
  simp

theorem kept_reading {s t : System} (reading : Reading s) (evictor : t.evictor = s.evictor) (events : t.events = s.events)
    (hist : ∀ i, (t.box i).hist = (s.box i).hist) (calm : ∀ text, t.fault ≠ some (.updateState text)) : Reading t :=
  ⟨fun i => by rw [evictor,events,hist i]; exact reading.channel i,evictor ▸ reading.books,calm⟩

theorem emitted_reading {s t : System} {id : Nat} {more : List SandboxEventType} (reading : Reading s)
    (evictor : t.evictor = s.evictor) (events : t.events = s.events ++ more.map fun ev => (ev,id))
    (hist : ∀ i, (t.box i).hist = (s.box i).hist ++ if i = id then more else [])
    (calm : ∀ text, t.fault ≠ some (.updateState text)) : Reading t := by
  refine ⟨fun i => ?_,evictor ▸ reading.books,calm⟩
  rw [evictor,events,← List.append_assoc,seen_append,reading.channel i,hist i,seen_sent]

theorem update_hist {box : Nat → Box} {id : Nat} {b : Box} (same : b.hist = (box id).hist) (i : Nat) :
    (Function.update box id b i).hist = (box i).hist := by
  by_cases equal : i = id
  · rw [equal,Function.update_self,same]
  · rw [Function.update_of_ne equal]

theorem update_hist_more {box : Nat → Box} {id : Nat} {b : Box} {more : List SandboxEventType}
    (longer : b.hist = (box id).hist ++ more) (i : Nat) :
    (Function.update box id b i).hist = (box i).hist ++ if i = id then more else [] := by
  by_cases equal : i = id
  · rw [equal,Function.update_self,longer,if_pos rfl]
  · rw [Function.update_of_ne equal,if_neg equal,List.append_nil]

theorem pair_hist {box : Nat → Box} {id p : Nat} {child parent : Box} {more : List SandboxEventType} (different : id ≠ p)
    (same : child.hist = (box id).hist) (longer : parent.hist = (box p).hist ++ more) (i : Nat) :
    (Function.update (Function.update box p parent) id child i).hist = (box i).hist ++ if i = p then more else [] := by
  rw [← update_hist_more longer i]
  exact update_hist (by rw [Function.update_of_ne different,same]) i

theorem localStep_calm {b : Box} (step : LocalStep conf b out) (text : String) : out.fault ≠ some (.updateState text) := by
  cases step with
  | decRef =>
      unfold Box.decCgRefCount
      dsimp only
      split
      · simp
      · split <;> simp
  | _ => simp

theorem answer_rest (s : System) (a : MemPool.Answer Client) : (s.answer a).evictor = s.evictor ∧
    (s.answer a).events = s.events ∧ (s.answer a).fault = s.fault ∧ ∀ i, ((s.answer a).box i).hist = (s.box i).hist := by
  unfold System.answer
  split
  · refine ⟨rfl,rfl,rfl,update_hist ?_⟩
    unfold Box.resume
    split <;> rfl
  · exact ⟨rfl,rfl,rfl,fun _ => rfl⟩

theorem moves_reading {s t : System} (family : Family conf s) (stream : Stream s) (reading : Reading s)
    (move : Moves conf s action t) : Reading t := by
  cases move with
  | create known =>
      refine kept_reading reading rfl rfl (update_hist ?_) reading.calm
      rw [stream.blank _ (le_refl _)]
      rfl
  | act within moved _ =>
      exact emitted_reading reading rfl rfl (update_hist_more (by rw [(localStep_hist moved).1])) (localStep_calm moved)
  | memSend | forkRefused => exact kept_reading reading rfl rfl (update_hist rfl) reading.calm
  | memReleased | memGranted =>
      obtain ⟨evictor,events,fault,hist⟩ := answer_rest _ _
      exact kept_reading reading evictor events hist (fun text => by rw [fault]; exact reading.calm text)
  | forkEntered within here made idle ran =>
      obtain ⟨_,rfl⟩ := forkEnter_parts ran
      have order := (family.older _ _ within made).1
      refine emitted_reading reading rfl (List.append_nil _).symm
        (pair_hist (by omega) rfl (List.append_nil _).symm) (fun text => ?_)
      simp only
      split <;> simp
  | forkFailed _ within here made busy | forkDone within here made busy =>
      have order := (family.older _ _ within made).1
      exact emitted_reading reading rfl rfl (pair_hist (by omega) rfl rfl) reading.calm
  | exitCall within here child idle =>
      have order := (family.older _ _ within (family.parent _ _ within child)).1
      exact emitted_reading reading rfl (List.append_nil _).symm
        (pair_hist (by omega) rfl (List.append_nil _).symm) reading.calm
  | exitReturn within here waits born =>
      have inside := (family.exiting _ _ within (by rw [here]; rfl)).1
      have order := (family.older _ _ inside (family.parent _ _ inside born)).1
      exact emitted_reading reading rfl rfl (pair_hist (by omega) rfl rfl) reading.calm
  | memPanic | decidePanic => exact kept_reading reading rfl rfl (fun _ => rfl) (by simp)
  | memQueued | memKept | probe => exact kept_reading reading rfl rfl (fun _ => rfl) reading.calm
  | updatePanic front ran =>
      obtain ⟨next,accepted,_⟩ := update_books reading.books (reading.legal stream front)
      rw [accepted] at ran
      cases ran
  | update _ front ran =>
      obtain ⟨next,accepted,books⟩ := update_books reading.books (reading.legal stream front)
      rw [accepted] at ran
      cases ran
      refine ⟨fun i => ?_,books,reading.calm⟩
      rw [(update_log accepted).1,List.append_assoc,List.singleton_append,← front]
      exact reading.channel i
  | decide _ ran =>
      obtain ⟨tasks,last,next,started⟩ := start_parts _ _
      rw [started]
      refine ⟨fun i => ?_,evict_books reading.books ran,reading.calm⟩
      simp only
      rw [(evict_log ran).1]
      exact reading.channel i

theorem reached_reading (ran : run (step conf) (init conf) actions = some s) : Family conf s ∧ Stream s ∧ Reading s :=
  reached_invariant (fun s => Family conf s ∧ Stream s ∧ Reading s)
    (fun _ _ _ valid move => ⟨moves_family valid.1 move,moves_stream valid.1 valid.2.1 move,
      moves_reading valid.1 valid.2.1 valid.2.2 move⟩)
    ⟨init_family conf,init_stream conf,init_reading conf⟩ ran

theorem evictor_books_match (ran : run (step conf) (init conf) actions = some s) :
    (∀ sb, s.evictor.live sb →
      s.evictor.evictor.priority sb = some (priorityOf (seen s.evictor.processed sb)) ∧
      ∃ key, s.evictor.evictor.lists.place sb = some (s.evictor.home sb,key) ∧
        ∀ list, (s.evictor.evictor.lists.shelf list).filter (·.item = sb) =
          if list = s.evictor.home sb then [⟨key,sb⟩] else []) ∧
    (∀ sb, ¬ s.evictor.live sb →
      s.evictor.evictor.priority sb = none ∧ s.evictor.evictor.lists.place sb = none ∧
        ∀ list, (s.evictor.evictor.lists.shelf list).filter (·.item = sb) = []) ∧
    ∀ text, s.fault ≠ some (.updateState text) := by
  obtain ⟨_,_,reading⟩ := reached_reading ran
  refine ⟨?_,?_,reading.calm⟩
  · intro sb live
    obtain ⟨known,key,place⟩ := reading.books.live sb live
    refine ⟨known,key,place,fun list => ?_⟩
    rw [reading.books.shelved.held sb list,place]
    rfl
  · intro sb gone
    obtain ⟨unknown,nowhere,_⟩ := reading.books.gone sb gone
    refine ⟨unknown,nowhere,fun list => ?_⟩
    rw [reading.books.shelved.held sb list,nowhere]
    rfl

def childNoticed : List Action :=
  [.create none 0] ++ bornFresh 0 ++ [.create (some 0) 0] ++ forkBegins 1 ++ forkEnds 1 ++
    [.evictorUpdate,.evictorUpdate,.evictorUpdate]

theorem evictor_books_match_child : ∃ s, run (step smallConf) (init smallConf) childNoticed = some s ∧
    s.evictor.evictor.priority 0 = some 3 ∧ ∃ key, s.evictor.evictor.lists.place 0 = some (.prio2,key) := by
  have noticed : (run (step smallConf) (init smallConf) childNoticed).map
      (fun s => (seen s.evictor.processed 0,s.evictor.moved 0)) = some ([evCreate,evFork],false) := by decide +kernel
  obtain ⟨s,ran,facts⟩ := Option.map_eq_some_iff.mp noticed
  simp only [Prod.mk.injEq] at facts
  obtain ⟨log,kept⟩ := facts
  have live : s.evictor.live 0 := ⟨evFork,by rw [log]; rfl,by decide⟩
  obtain ⟨priority,key,place,_⟩ := (evictor_books_match ran).1 0 live
  rw [log] at priority
  rw [Trace.home,kept,log] at place
  exact ⟨s,ran,priority,key,place⟩

def System.evictionUnfinished (s : System) (sb : Nat) : Prop :=
  s.lastTask sb < s.nextTask ∧ (s.task (s.lastTask sb)).sb = sb ∧
    ((s.task (s.lastTask sb)).started = false ∨ (s.box sb).task = some (s.lastTask sb))

def Marked (b : Box) : Prop :=
  ∀ n, b.task = some n → b.safe.listening = true ∧ ∃ text, b.op.after = some (.destroy text)

structure Evictions (s : System) : Prop where
  marked : ∀ i, Marked (s.box i)
  awaited : ∀ sb, s.evictor.moved sb = true → s.evictionUnfinished sb ∨ ∃ ev, (ev,sb) ∈ s.events

theorem init_evictions (conf : Conf) : Evictions (init conf) := by
  refine ⟨fun i n entered => ?_,fun sb moved => ?_⟩
  · cases entered
  · cases moved

theorem localStep_unmarked {b : Box} (step : LocalStep conf b out) (free : b.task = none) : out.box.task = none := by
  cases step with
  | decRef =>
      unfold Box.decCgRefCount
      dsimp only
      split
      · exact free
      · split <;> exact free
  | kill =>
      unfold Box.killAndRelease
      split <;> exact free
  | connected | paused | thawed | finish => rfl
  | _ => exact free

theorem localStep_marked {b : Box} (step : LocalStep conf b out) (inside : b.task = some n)
    (heard : b.safe.listening = true) (dying : b.op.after = some (.destroy text)) :
    (out.box.task = some n ∧ out.box.safe.listening = true ∧ out.box.op.after = some (.destroy text)) ∨
      (out.box.task = none ∧ evDestroy ∈ out.events) := by
  cases step with
  | goto move =>
      cases move with
      | createFailed here => rcases here with here | here <;> simp [here,Op.after] at dying
      | frozen here => exact .inl ⟨inside,heard,by rw [here] at dying; exact dying⟩
      | setupDone here | setupFailed here | freshDone here | destroyed here | pauseKept here | thawFailed here
      | gone here => simp [here,Op.after] at dying
  | freezePanic here => exact .inl ⟨inside,heard,dying⟩
  | decRef here =>
      rw [here] at dying
      unfold Box.decCgRefCount
      dsimp only
      split
      · exact .inl ⟨inside,heard,by rw [here]; exact dying⟩
      · split <;> exact .inl ⟨inside,heard,dying⟩
  | kill here =>
      rw [here] at dying
      unfold Box.killAndRelease
      split <;> exact .inl ⟨inside,heard,dying⟩
  | removeRoot here =>
      rw [here] at dying
      refine .inl ⟨inside,heard,?_⟩
      unfold Box.removeRoot
      split <;> exact dying
  | finish here => exact .inr ⟨rfl,by simp [died,event,heard]⟩
  | ignored here | getCg here | setParent here | connected here | downsized here | paused here | unpause here | raise here
  | thawed here | destroyIgnored here => simp [here,Op.after] at dying

theorem resume_marked {b : Box} (marked : Marked b) : Marked b.resume ∧ b.resume.task = b.task := by
  unfold Box.resume
  split
  all_goals refine ⟨?_,rfl⟩
  -- these operations destroy nothing, so no eviction is in one of them
  iterate 3
    · rename_i here
      intro n entered
      have dying := (marked n entered).2
      simp [here,Op.after] at dying
  · rename_i here
    intro n entered
    have parts := marked n entered
    rw [here] at parts
    exact parts
  · exact marked

theorem start_tasks (works : List (Nat × Bool)) (s : System) (sb : Nat) :
    let t := works.foldl System.start s
    s.nextTask ≤ t.nextTask ∧ (∀ n, n < s.nextTask → t.task n = s.task n) ∧
      (sb ∈ works.map (·.1) → t.evictionUnfinished sb) ∧ (sb ∉ works.map (·.1) → t.lastTask sb = s.lastTask sb) := by
  induction works generalizing s with
  | nil => simp
  | cons work rest ih =>
      obtain ⟨grows,kept,new,old⟩ := ih (s.start work)
      have next : (s.start work).nextTask = s.nextTask + 1 := rfl
      refine ⟨by simp only [List.foldl_cons]; omega,?_,?_,?_⟩
      · intro n earlier
        rw [List.foldl_cons,kept n (by omega)]
        exact Function.update_of_ne (by omega) ..
      · intro present
        by_cases later : sb ∈ rest.map (·.1)
        · exact new later
        · have this : sb = work.1 := by simpa [later] using present
          have last : (rest.foldl System.start (s.start work)).lastTask sb = s.nextTask := by
            rw [old later,this]
            exact Function.update_self ..
          have task : (rest.foldl System.start (s.start work)).task s.nextTask = ⟨work.1,work.2,false⟩ := by
            rw [kept _ (by omega)]
            exact Function.update_self ..
          refine ⟨?_,?_,.inl ?_⟩
          · rw [List.foldl_cons,last]; omega
          · rw [List.foldl_cons,last,task,this]
          · rw [List.foldl_cons,last,task]
      · intro absent
        simp only [List.map_cons,List.mem_cons,not_or] at absent
        rw [List.foldl_cons,old absent.2]
        exact Function.update_of_ne absent.1 ..

theorem unmarked {b : Box} (marked : Marked b) (here : b.op = op) (other : ∀ text, op.after ≠ some (.destroy text)) :
    b.task = none := by
  cases entered : b.task with
  | none => rfl
  | some n =>
      obtain ⟨_,text,dying⟩ := marked n entered
      rw [here] at dying
      exact absurd dying (other text)

theorem free_marked {b : Box} (free : b.task = none) : Marked b := by
  intro n entered
  rw [free] at entered
  cases entered

theorem kept_evictions {s t : System} (evictions : Evictions s) (moved : t.evictor.moved = s.evictor.moved)
    (last : t.lastTask = s.lastTask) (next : t.nextTask = s.nextTask) (tasks : t.task = s.task)
    (events : ∀ sent, sent ∈ s.events → sent ∈ t.events) (marked : ∀ i, Marked (t.box i))
    (inside : ∀ sb n, (s.box sb).task = some n → (t.box sb).task = some n ∨ ∃ ev, (ev,sb) ∈ t.events) : Evictions t := by
  refine ⟨marked,fun sb chosen => ?_⟩
  rw [moved] at chosen
  rcases evictions.awaited sb chosen with ⟨known,owner,waiting | entered⟩ | ⟨ev,pending⟩
  · exact .inl ⟨by rw [last,next]; exact known,by rw [last,tasks]; exact owner,.inl (by rw [last,tasks]; exact waiting)⟩
  · rcases inside sb _ entered with still | told
    · exact .inl ⟨by rw [last,next]; exact known,by rw [last,tasks]; exact owner,.inr (by rw [last]; exact still)⟩
    · exact .inr told
  · exact .inr ⟨ev,events _ pending⟩

theorem update_marked {box : Nat → Box} {id : Nat} {b : Box} (marked : ∀ i, Marked (box i)) (new : Marked b) (i : Nat) :
    Marked (Function.update box id b i) := by
  by_cases equal : i = id
  · rw [equal,Function.update_self]; exact new
  · rw [Function.update_of_ne equal]; exact marked i

theorem update_task {box : Nat → Box} {id : Nat} {b : Box} (same : b.task = (box id).task) (i : Nat) :
    (Function.update box id b i).task = (box i).task := by
  by_cases equal : i = id
  · rw [equal,Function.update_self,same]
  · rw [Function.update_of_ne equal]

-- A dead sandbox that the evictor still lists has sent an event the evictor has
-- not seen.
theorem dead_pending {s : System} (stream : Stream s) (reading : Reading s) (heard : (s.box sb).safe.listening = true)
    (dead : (s.box sb).safe.dead ≠ none) (chosen : s.evictor.moved sb = true) : ∃ ev, (ev,sb) ∈ s.events := by
  obtain ⟨shown,_,tracks⟩ := stream.heard sb
  obtain ⟨before,whole,_⟩ := tracks.killed dead heard
  have channel := reading.channel sb
  rw [seen_append,whole] at channel
  cases pending : seen s.events sb with
  | cons ev rest => exact ⟨ev,seen_mem (by rw [pending]; exact List.mem_cons_self ..)⟩
  | nil =>
      rw [pending,List.append_nil] at channel
      have gone : ¬ s.evictor.live sb := by
        rintro ⟨final,found,alive⟩
        rw [channel,List.getLast?_concat] at found
        cases found
        exact alive rfl
      rw [(reading.books.gone sb gone).2.2] at chosen
      cases chosen

theorem act_evictions {s : System} {id : Nat} (stream : Stream s) (reading : Reading s)
    (evictions : Evictions s) (moved : LocalStep conf (s.box id) out) (entry : Entry s id out mark tasks) :
    Evictions {s.emitted id {out.box with task := mark} out.events with fault := out.fault,task := tasks} := by
  have told : ∀ ev, ev ∈ out.events → (ev,id) ∈ (s.emitted id {out.box with task := mark} out.events).events :=
    fun ev present => List.mem_append_right _ (List.mem_map_of_mem present)
  cases entry with
  | caller =>
      have steps : Marked out.box ∧ ∀ n, (s.box id).task = some n → out.box.task = some n ∨ evDestroy ∈ out.events := by
        cases entered : (s.box id).task with
        | none => exact ⟨free_marked (localStep_unmarked moved entered),by simp⟩
        | some n =>
            obtain ⟨heard,text,dying⟩ := evictions.marked id n entered
            rcases localStep_marked moved entered heard dying with ⟨still,stays,after⟩ | ⟨left,destroyed⟩
            · exact ⟨fun _ _ => ⟨stays,text,after⟩,fun m same => .inl (still.trans same)⟩
            · exact ⟨free_marked left,fun _ _ => .inr destroyed⟩
      refine kept_evictions evictions rfl rfl rfl rfl (fun sent => List.mem_append_left _)
        (update_marked evictions.marked steps.1) ?_
      intro sb n entered
      by_cases equal : sb = id
      · rw [equal] at entered ⊢
        rcases steps.2 n entered with still | destroyed
        · exact .inl (by simpa [System.emitted] using still)
        · exact .inr ⟨_,told _ destroyed⟩
      · refine .inl ?_
        simp only [System.emitted,Function.update_of_ne equal]
        exact entered
  | @nothing n known waiting owner enter same quiet =>
      have heard := (enterable_parts enter).2
      refine ⟨update_marked evictions.marked (by rw [same]; exact evictions.marked id),fun sb chosen => ?_⟩
      rcases evictions.awaited sb chosen with ⟨bound,owned,still⟩ | ⟨ev,pending⟩
      · by_cases this : s.lastTask sb = n
        · -- the goroutine of this sandbox has just ended
          obtain rfl : sb = id := by rw [← owned,this,owner]
          rcases quiet with dead | ignored
          · obtain ⟨ev,pending⟩ := dead_pending stream reading heard dead chosen
            exact .inr ⟨ev,List.mem_append_left _ pending⟩
          · exact .inr ⟨evDestroyIgnored,told _ (by simp [ignored,heard])⟩
        · have kept : Function.update s.task n {s.task n with started := true} (s.lastTask sb) = s.task (s.lastTask sb) :=
            Function.update_of_ne this ..
          refine .inl ⟨bound,(congrArg EvictTask.sb kept).trans owned,still.imp ?_ ?_⟩
          · exact (congrArg EvictTask.started kept).trans
          · exact (update_task (by rw [same]) sb).trans
      · exact .inr ⟨ev,List.mem_append_left _ pending⟩
  | @inside n text known waiting owner enter begun =>
      obtain ⟨idle,heard⟩ := enterable_parts enter
      have free : (s.box id).task = none := unmarked (evictions.marked id) idle (by simp [Op.after])
      refine ⟨update_marked evictions.marked ?_,fun sb chosen => ?_⟩
      · intro m _
        rw [begun]
        exact ⟨heard,text,rfl⟩
      · rcases evictions.awaited sb chosen with ⟨bound,owned,still⟩ | ⟨ev,pending⟩
        · by_cases this : s.lastTask sb = n
          · obtain rfl : sb = id := by rw [← owned,this,owner]
            have set : Function.update s.task n {s.task n with started := true} (s.lastTask sb) =
                {s.task n with started := true} := by rw [this,Function.update_self]
            refine .inl ⟨bound,(congrArg EvictTask.sb set).trans owner,.inr ?_⟩
            simp [System.emitted,this]
          · have kept : Function.update s.task n {s.task n with started := true} (s.lastTask sb) =
                s.task (s.lastTask sb) := Function.update_of_ne this ..
            refine .inl ⟨bound,(congrArg EvictTask.sb kept).trans owned,?_⟩
            · rcases still with idle | entered
              · exact .inl ((congrArg EvictTask.started kept).trans idle)
              · have other : sb ≠ id := by
                  rintro rfl
                  rw [free] at entered
                  cases entered
                exact .inr (by simp only [System.emitted,Function.update_of_ne other]; exact entered)
        · exact .inr ⟨ev,List.mem_append_left _ pending⟩

theorem put_evictions {s t : System} {id : Nat} {b : Box} (evictions : Evictions s)
    (moved : t.evictor.moved = s.evictor.moved) (last : t.lastTask = s.lastTask) (next : t.nextTask = s.nextTask)
    (tasks : t.task = s.task) (events : t.events = s.events) (box : t.box = Function.update s.box id b)
    (same : b.task = (s.box id).task) (marked : Marked b) : Evictions t := by
  refine kept_evictions evictions moved last next tasks (fun _ sent => events ▸ sent) ?_ ?_
  · rw [box]
    exact update_marked evictions.marked marked
  · intro sb n entered
    rw [box]
    exact .inl ((update_task same sb).trans entered)

theorem pair_evictions {s t : System} {id p : Nat} {child parent : Box} (evictions : Evictions s)
    (moved : t.evictor.moved = s.evictor.moved) (last : t.lastTask = s.lastTask) (next : t.nextTask = s.nextTask)
    (tasks : t.task = s.task) (events : ∀ sent, sent ∈ s.events → sent ∈ t.events)
    (box : t.box = Function.update (Function.update s.box p parent) id child) (different : id ≠ p)
    (parentFree : (s.box p).task = none ∧ parent.task = none) (childSame : child.task = (s.box id).task)
    (childMarked : Marked child) : Evictions t := by
  refine kept_evictions evictions moved last next tasks events ?_ ?_
  · rw [box]
    exact update_marked (update_marked evictions.marked (free_marked parentFree.2)) childMarked
  · intro sb n entered
    have same : (t.box sb).task = (s.box sb).task := by
      rw [box,update_task (by rw [Function.update_of_ne different,childSame]),
        update_task (parentFree.2.trans parentFree.1.symm)]
    exact .inl (same.trans entered)

theorem blank_task {s : System} (stream : Stream s) (evictions : Evictions s) (beyond : s.nextId ≤ i) :
    (s.box i).task = none := by
  cases entered : (s.box i).task with
  | none => rfl
  | some n =>
      obtain ⟨shown,_,tracks⟩ := stream.heard i
      obtain ⟨rest,whole,_⟩ := tracks.created (evictions.marked i n entered).1
      rw [stream.blank i beyond] at whole
      cases whole

theorem decide_evictions {s : System} (evictions : Evictions s)
    (ran : s.evictor.evict memLimitMB totalMB availableMB = .ok (next,works)) :
    Evictions (works.foldl System.start {s with evictor := next,evictorPc := .waiting}) := by
  obtain ⟨tasks,last,count,started⟩ := start_parts works {s with evictor := next,evictorPc := .waiting}
  refine ⟨by rw [started]; exact evictions.marked,fun sb chosen => ?_⟩
  obtain ⟨grows,kept,new,old⟩ := start_tasks works {s with evictor := next,evictorPc := .waiting} sb
  by_cases picked : sb ∈ works.map (·.1)
  · exact .inl (new picked)
  · have before : s.evictor.moved sb = true := by
      rw [started] at chosen
      simp only [(evict_log ran).2] at chosen
      simpa [picked] using chosen
    rcases evictions.awaited sb before with ⟨bound,owned,still⟩ | pending
    · have task := kept (s.lastTask sb) bound
      refine .inl ⟨?_,?_,?_⟩
      · rw [old picked]
        exact Nat.lt_of_lt_of_le bound grows
      · rw [old picked,task]
        exact owned
      · rw [old picked,task]
        refine still.imp id fun entered => ?_
        rw [started]
        exact entered
    · exact .inr (by rw [started]; exact pending)

theorem answer_evictions {s : System} (evictions : Evictions s) (a : MemPool.Answer Client) : Evictions (s.answer a) := by
  unfold System.answer
  split
  · rename_i id _
    have resumed := resume_marked (evictions.marked id)
    exact put_evictions evictions rfl rfl rfl rfl rfl rfl resumed.2 resumed.1
  · exact ⟨evictions.marked,evictions.awaited⟩

theorem moves_evictions {s t : System} (family : Family conf s) (stream : Stream s) (reading : Reading s)
    (evictions : Evictions s) (move : Moves conf s action t) : Evictions t := by
  have marked := evictions.marked
  cases move with
  | create known =>
      exact put_evictions evictions rfl rfl rfl rfl rfl rfl (blank_task stream evictions (le_refl _)).symm (free_marked rfl)
  | act within moved entry => exact act_evictions stream reading evictions moved entry
  | @memSend mb use id within here =>
      refine put_evictions evictions rfl rfl rfl rfl rfl rfl rfl fun n entered => ?_
      have parts := marked id n entered
      rw [here] at parts
      cases use <;> exact parts
  | memReleased | memGranted => refine answer_evictions ?_ _; exact ⟨marked,evictions.awaited⟩
  | forkRefused within here =>
      have free := unmarked (marked _) here (by simp [Op.after])
      exact put_evictions evictions rfl rfl rfl rfl rfl rfl rfl (free_marked free)
  | forkEntered within here made idle ran =>
      obtain ⟨_,rfl⟩ := forkEnter_parts ran
      have order := (family.older _ _ within made).1
      have free := unmarked (marked _) idle (by simp [Op.after])
      have childFree := unmarked (marked _) here (by simp [Op.after])
      exact pair_evictions evictions rfl rfl rfl rfl (fun _ => id) rfl (by omega) ⟨free,free⟩ rfl (free_marked childFree)
  | forkFailed _ within here made busy | forkDone within here made busy =>
      have order := (family.older _ _ within made).1
      have free := unmarked (marked _) busy (by simp [Op.after])
      have childFree := unmarked (marked _) here (by simp [Op.after])
      exact pair_evictions evictions rfl rfl rfl rfl (fun _ => List.mem_append_left _) rfl (by omega) ⟨free,rfl⟩ rfl
        (free_marked childFree)
  | exitCall within here child idle =>
      have order := (family.older _ _ within (family.parent _ _ within child)).1
      have free := unmarked (marked _) idle (by simp [Op.after])
      refine pair_evictions evictions rfl rfl rfl rfl (fun _ => id) rfl (by omega) ⟨free,free⟩ rfl fun n entered => ?_
      have parts := marked _ n entered
      rw [here] at parts
      exact parts
  | exitReturn within here waits born =>
      have inside := (family.exiting _ _ within (by rw [here]; rfl)).1
      have order := (family.older _ _ inside (family.parent _ _ inside born)).1
      have free := unmarked (marked _) here (by simp [Op.after])
      refine pair_evictions evictions rfl rfl rfl rfl (fun _ => List.mem_append_left _) rfl (by omega) ⟨free,rfl⟩ rfl
        fun n entered => ?_
      have parts := marked _ n entered
      rw [waits] at parts
      exact parts
  | memPanic | memQueued | memKept | updatePanic | probe | decidePanic => exact ⟨marked,evictions.awaited⟩
  | @update ev rest next id _ front ran =>
      refine ⟨marked,fun sb chosen => ?_⟩
      simp only [(update_log ran).2] at chosen
      have other : sb ≠ id := by
        rintro rfl
        rw [Function.update_self] at chosen
        cases chosen
      rw [Function.update_of_ne other] at chosen
      rcases evictions.awaited sb chosen with unfinished | ⟨ev,pending⟩
      · exact .inl unfinished
      · rw [front] at pending
        rcases List.mem_cons.mp pending with this | later
        · cases this
          exact absurd rfl other
        · exact .inr ⟨ev,later⟩
  | decide _ ran => exact decide_evictions evictions ran

theorem reached_evictions (ran : run (step conf) (init conf) actions = some s) : Reading s ∧ Evictions s := by
  have all := reached_invariant (fun s => Family conf s ∧ Stream s ∧ Reading s ∧ Evictions s)
    (fun _ _ _ valid move => ⟨moves_family valid.1 move,moves_stream valid.1 valid.2.1 move,
      moves_reading valid.1 valid.2.1 valid.2.2.1 move,
      moves_evictions valid.1 valid.2.1 valid.2.2.1 valid.2.2.2 move⟩)
    ⟨init_family conf,init_stream conf,init_reading conf,init_evictions conf⟩ ran
  exact all.2.2

theorem evicting_moved {t : Trace} (books : Books t) (listed : cell ∈ t.evictor.lists.shelf .evicting) :
    t.moved cell.item = true := by
  have held := books.shelved.held cell.item .evicting
  have member : cell ∈ (t.evictor.lists.shelf .evicting).filter (·.item = cell.item) := by simp [listed]
  by_cases live : t.live cell.item
  · obtain ⟨_,key,place⟩ := books.live cell.item live
    by_contra kept
    have elsewhere : Queue.evicting ≠ t.home cell.item := by
      rw [Trace.home,if_neg kept]
      unfold prioQueue
      split
      · decide
      · split <;> decide
    rw [held,place] at member
    simp [recorded,elsewhere] at member
  · rw [held,(books.gone cell.item live).2.1] at member
    cases member

theorem evicting_is_awaited (ran : run (step conf) (init conf) actions = some s) :
    ∀ cell, cell ∈ s.evictor.evictor.lists.shelf .evicting →
      s.evictionUnfinished cell.item ∨ ∃ ev, (ev,cell.item) ∈ s.events := by
  obtain ⟨reading,evictions⟩ := reached_evictions ran
  intro cell listed
  exact evictions.awaited cell.item (evicting_moved reading.books listed)

def crowded : List Action :=
  [.create none 0] ++ bornFresh 0 ++ [.create none 0] ++ bornFresh 1 ++
    [.evictorUpdate,.evictorUpdate,.evictorProbe,.memReceive,.memServe,.evictorDecide]

theorem evicting_is_awaited_crowded : ∃ s, run (step ⟨50,100,true⟩) (init ⟨50,100,true⟩) crowded = some s ∧
    (s.evictor.evictor.lists.shelf .evicting).map (·.item) = [0] ∧
    (s.evictionUnfinished 0 ∨ ∃ ev, (ev,0) ∈ s.events) := by
  have picked : (run (step ⟨50,100,true⟩) (init ⟨50,100,true⟩) crowded).map
      (fun s => s.evictor.evictor.lists.shelf .evicting) = some [⟨2,0⟩] := by decide +kernel
  obtain ⟨s,ran,listed⟩ := Option.map_eq_some_iff.mp picked
  exact ⟨s,ran,by rw [listed]; rfl,evicting_is_awaited ran ⟨2,0⟩ (by rw [listed]; exact List.mem_singleton_self _)⟩

end OpenLambda.SockSystem
