import OpenLambda.Foundation.Shelves
import OpenLambda.Sandbox.SafeSandbox

namespace OpenLambda.Evictor
open Foundation.SharedLists SafeWrapper SandboxEventType

inductive Queue where
  | prio0
  | prio1
  | prio2
  | evicting
  deriving DecidableEq, Repr

-- The priority map and the four lists with stateMap. Sandboxes are named by ID.
structure SOCKEvictor where
  priority : Nat → Option Int
  lists : Shelves Queue Nat

def newSOCKEvictor : SOCKEvictor := ⟨fun _ => none,empty⟩

def prioQueue (prio : Int) : Queue :=
  if prio ≥ 2 then .prio2 else if prio = 1 then .prio1 else .prio0

def createPanic (prio : Int) (sb : Nat) : String :=
  "Sandboxes should be at prio 0 upon EvCreate event but it was " ++ toString prio ++ " for " ++ toString sb

def negativePanic (prio : Int) (sb : Nat) : String :=
  "priority should never go negative, but it went to " ++ toString prio ++ " for sandbox " ++ toString sb

def weight : SandboxEventType → Int
  | evCreate | evUnpause => 1
  | evPause => -1
  | evFork => 2
  | evChildExit => -2
  | evDestroy | evDestroyIgnored => 0

def updateState (e : SOCKEvictor) (evType : SandboxEventType) (sb : Nat) : Except String SOCKEvictor :=
  let old := (e.priority sb).getD 0
  let prio := old + weight evType
  if evType = evCreate ∧ old ≠ 0 then .error (createPanic old sb)
  else if prio < 0 then .error (negativePanic prio sb)
  else if evType = evDestroy then
    .ok ⟨Function.update e.priority sb none,move e.lists sb none⟩
  else .ok ⟨Function.update e.priority sb (some prio),move e.lists sb (some (prioQueue prio))⟩

-- evictFront on a queue that may be empty; the goroutine it starts calls
-- Destroy when `force`, else DestroyIfPaused, on the sandbox returned.
def evictFront (e : SOCKEvictor) (queue : Queue) : Option (SOCKEvictor × Nat) :=
  match e.lists.shelf queue with
  | [] => none
  | front :: _ => some ({e with lists := move e.lists front.item (some .evicting)},front.item)

def evictIdle : Nat → SOCKEvictor → SOCKEvictor × List Nat
  | 0,e => (e,[])
  | count + 1,e =>
      match evictFront e .prio0 with
      | none => (e,[])
      | some (next,sb) =>
          let (last,others) := evictIdle count next
          (last,sb :: others)

def freeSandboxesPercentGoal : Int := 20
def concurrentEvictions : Int := 8

-- What to evict, given the answer of getAvailableMB. Division truncates as in
-- the source; a zero divisor panics there.
structure Plan where
  freeSandboxes : Int
  evictCount : Int
  deriving DecidableEq, Repr

def plan (memLimitMB totalMB availableMB : Int) (evictingLen : Nat) : Plan :=
  let freeSandboxes := availableMB.tdiv memLimitMB
  let freeGoal := 1 + ((totalMB.tdiv memLimitMB - 2) * freeSandboxesPercentGoal).tdiv 100
  let evictCount := freeGoal - freeSandboxes
  let evictCap := concurrentEvictions - evictingLen
  ⟨freeSandboxes,if evictCap < evictCount then evictCap else evictCount⟩

def doEvictions (memLimitMB totalMB availableMB : Int) (e : SOCKEvictor) :
    Except String (SOCKEvictor × List (Nat × Bool)) :=
  if memLimitMB = 0 then .error "runtime error: integer divide by zero"
  else
    let p := plan memLimitMB totalMB availableMB (e.lists.shelf .evicting).length
    let (calm,idle) := evictIdle p.evictCount.toNat e
    let tasks := idle.map fun sb => (sb,false)
    if p.freeSandboxes ≤ 0 ∧ (calm.lists.shelf .evicting).length = 0 then
      match evictFront calm .prio1 with
      | some (last,sb) => .ok (last,tasks ++ [(sb,true)])
      | none => .ok (calm,tasks)
    else .ok (calm,tasks)

-- The evictor with what it has done so far: the events it processed, oldest
-- first, and which sandboxes it moved to `evicting` after their last event.
structure Trace where
  evictor : SOCKEvictor
  processed : List (SandboxEventType × Nat)
  moved : Nat → Bool

def newTrace : Trace := ⟨newSOCKEvictor,[],fun _ => false⟩

def Trace.update (t : Trace) (evType : SandboxEventType) (sb : Nat) : Except String Trace :=
  match updateState t.evictor evType sb with
  | .error message => .error message
  | .ok next => .ok ⟨next,t.processed ++ [(evType,sb)],Function.update t.moved sb false⟩

def Trace.evict (t : Trace) (memLimitMB totalMB availableMB : Int) : Except String (Trace × List (Nat × Bool)) :=
  match doEvictions memLimitMB totalMB availableMB t.evictor with
  | .error message => .error message
  | .ok (next,tasks) => .ok (⟨next,t.processed,fun sb => t.moved sb || (tasks.map (·.1)).contains sb⟩,tasks)

def seen (log : List (SandboxEventType × Nat)) (sb : Nat) : List SandboxEventType :=
  (log.filter (·.2 = sb)).map (·.1)

theorem seen_append (first second : List (SandboxEventType × Nat)) (sb : Nat) :
    seen (first ++ second) sb = seen first sb ++ seen second sb := by simp [seen]

@[simp] theorem seen_self (evType : SandboxEventType) (sb : Nat) : seen [(evType,sb)] sb = [evType] := by simp [seen]

@[simp] theorem seen_other (evType : SandboxEventType) (different : sb ≠ other) : seen [(evType,sb)] other = [] := by
  simp [seen,different]

def isActivity : SandboxEventType → Bool
  | evCreate | evUnpause | evPause => true
  | _ => false

def priorityOf (events : List SandboxEventType) : Int :=
  2 * ((events.count evFork : Int) - events.count evChildExit) +
    if (events.filter isActivity).getLast? = some evPause then 0 else 1

-- A sandbox's own events obey the listener contract, and no child leaves that
-- has not been forked.
structure Legal (events : List SandboxEventType) : Prop where
  contract : events ≠ [] → Contract events
  balanced : ∀ early, early <+: events → early.count evChildExit ≤ early.count evFork

def Trace.home (t : Trace) (sb : Nat) : Queue :=
  if t.moved sb then .evicting else prioQueue (priorityOf (seen t.processed sb))

def Trace.live (t : Trace) (sb : Nat) : Prop :=
  ∃ last, (seen t.processed sb).getLast? = some last ∧ last ≠ evDestroy

structure Books (t : Trace) : Prop where
  shelved : Shelved t.evictor.lists
  live : ∀ sb, t.live sb → t.evictor.priority sb = some (priorityOf (seen t.processed sb)) ∧
    ∃ key, t.evictor.lists.place sb = some (t.home sb,key)
  gone : ∀ sb, ¬ t.live sb → t.evictor.priority sb = none ∧ t.evictor.lists.place sb = none ∧ t.moved sb = false

theorem newTrace_books : Books newTrace := by
  refine ⟨empty_shelved,?_,fun _ _ => ⟨rfl,rfl,rfl⟩⟩
  rintro sb ⟨last,found,_⟩
  cases found

theorem Contract.early (contract : Contract events) (early : start <+: events) (nonempty : start ≠ []) : Contract start := by
  obtain ⟨later,rfl⟩ := early
  obtain ⟨rest,whole,once⟩ := contract.created
  refine ⟨?_,?_,?_⟩
  · cases start with
    | nil => exact absurd rfl nonempty
    | cons head tail =>
        simp only [List.cons_append,List.cons.injEq] at whole
        refine ⟨tail,by rw [whole.1],?_⟩
        intro present
        exact once (by rw [← whole.2]; exact List.mem_append_left _ present)
  · intro before after split
    obtain ⟨first,last⟩ := contract.destroyed before (after ++ later) (by simp [split])
    exact ⟨first,(List.append_eq_nil_iff.mp last).1⟩
  · obtain ⟨n,same⟩ := contract.alternating
    rw [List.filter_append] at same
    refine ⟨(start.filter isPauseEvent).length,?_⟩
    have front := congrArg (List.take (start.filter isPauseEvent).length) same
    have short : (start.filter isPauseEvent).length ≤ n := by
      have size := congrArg List.length same
      simp [alternation] at size
      omega
    rw [List.take_left] at front
    rw [front]
    simp [alternation,← List.map_take,List.take_range,Nat.min_eq_left short]

theorem Legal.early (legal : Legal events) (early : start <+: events) : Legal start := by
  refine ⟨fun nonempty => Contract.early (legal.contract ?_) early nonempty,fun more inner => legal.balanced more (inner.trans early)⟩
  rintro rfl
  exact nonempty (List.prefix_nil.mp early)

theorem last_activity (contract : Contract events) (same : events.filter isPauseEvent = alternation n) :
    (events.filter isActivity).getLast? = some evPause ↔ n % 2 = 1 := by
  obtain ⟨rest,rfl,once⟩ := contract.created
  have tail : rest.filter isActivity = rest.filter isPauseEvent := by
    apply List.filter_congr
    intro event present
    cases event with
    | evCreate => exact absurd present once
    | _ => rfl
  have pauses : rest.filter isPauseEvent = alternation n := by
    rwa [List.filter_cons_of_neg (by decide)] at same
  have whole : (evCreate :: rest).filter isActivity = evCreate :: alternation n := by
    rw [List.filter_cons_of_pos (by decide),tail,pauses]
  rw [whole]
  cases n with
  | zero => simp [alternation]
  | succ m =>
      rw [alternation_succ,← List.cons_append,List.getLast?_concat]
      by_cases even : m % 2 = 0
      · have odd : (m + 1) % 2 = 1 := by omega
        simp [even,odd]
      · simp only [even,if_false]
        have odd : ¬ (m + 1) % 2 = 1 := by omega
        simp [odd]

theorem priority_nonneg (legal : Legal events) : 0 ≤ priorityOf events := by
  have enough := legal.balanced events (List.prefix_refl _)
  unfold priorityOf
  split <;> omega

theorem alternation_length (n : Nat) : (alternation n).length = n := by simp [alternation]

theorem alternation_same (same : alternation n = alternation m) : m = n := by
  simpa [alternation_length] using (congrArg List.length same).symm

theorem alternation_next (ev : SandboxEventType) (more : alternation n ++ [ev] = alternation m) :
    (ev = evPause → m = n + 1 ∧ n % 2 = 0) ∧ (ev = evUnpause → m = n + 1 ∧ n % 2 = 1) := by
  have longer : m = n + 1 := by simpa [alternation_length] using (congrArg List.length more).symm
  subst longer
  rw [alternation_succ] at more
  have flips := List.append_cancel_left more
  by_cases even : n % 2 = 0
  · simp only [even,if_true,List.cons.injEq,and_true] at flips
    simp [flips,even]
  · simp only [even,if_false,List.cons.injEq,and_true] at flips
    have odd : n % 2 = 1 := by omega
    simp [flips,odd]

theorem priority_step (legal : Legal (events ++ [ev])) (nonempty : events ≠ []) :
    priorityOf (events ++ [ev]) = priorityOf events + weight ev := by
  have whole := legal.contract (by simp)
  have contract := Contract.early whole (List.prefix_append events [ev]) nonempty
  obtain ⟨n,same⟩ := contract.alternating
  obtain ⟨m,more⟩ := whole.alternating
  have before := last_activity contract same
  have after := last_activity whole more
  rw [List.filter_append,same] at more
  unfold priorityOf
  rw [if_congr before rfl rfl,if_congr after rfl rfl]
  cases ev with
  | evCreate =>
      obtain ⟨rest,first,once⟩ := whole.created
      cases events with
      | nil => exact absurd rfl nonempty
      | cons head tail =>
          simp only [List.cons_append,List.cons.injEq] at first
          exact absurd (by rw [← first.2]; simp) once
  | evPause =>
      obtain ⟨rfl,even⟩ := (alternation_next evPause more).1 rfl
      have odd : (n + 1) % 2 = 1 := by omega
      have forks : (events ++ [evPause]).count evFork = events.count evFork := by simp
      have exits : (events ++ [evPause]).count evChildExit = events.count evChildExit := by simp
      rw [forks,exits,if_pos odd,if_neg (by omega)]
      change _ = _ + (-1 : Int)
      omega
  | evUnpause =>
      obtain ⟨rfl,odd⟩ := (alternation_next evUnpause more).2 rfl
      have even : (n + 1) % 2 = 0 := by omega
      simp [even,odd,weight]
  | evDestroy | evDestroyIgnored | evFork | evChildExit =>
      have kept : alternation n ++ [] = alternation m := more
      obtain rfl : m = n := alternation_same (by simpa using kept)
      simp [weight] <;> omega

theorem live_of_legal {t : Trace} (legal : Legal (seen t.processed sb ++ [ev])) (nonempty : seen t.processed sb ≠ []) :
    t.live sb := by
  refine ⟨(seen t.processed sb).getLast nonempty,List.getLast?_eq_some_getLast nonempty,?_⟩
  intro destroyed
  have split := List.dropLast_append_getLast nonempty
  have final := (legal.contract (by simp)).destroyed (seen t.processed sb).dropLast [ev] (by
    conv_lhs => rw [← split,destroyed]
    simp)
  exact absurd final.2 (by simp)

theorem update_parts {t : Trace} (books : Books t) (legal : Legal (seen t.processed sb ++ [ev])) :
    t.update ev sb = .ok ⟨if ev = evDestroy then ⟨Function.update t.evictor.priority sb none,move t.evictor.lists sb none⟩
      else ⟨Function.update t.evictor.priority sb (some (priorityOf (seen t.processed sb ++ [ev]))),
        move t.evictor.lists sb (some (prioQueue (priorityOf (seen t.processed sb ++ [ev]))))⟩,
      t.processed ++ [(ev,sb)],Function.update t.moved sb false⟩ := by
  have nonneg := priority_nonneg legal
  by_cases first : seen t.processed sb = []
  · rw [first] at legal nonneg ⊢
    obtain ⟨rest,same,_⟩ := (legal.contract (by simp)).created
    simp only [List.nil_append,List.cons.injEq] at same
    obtain ⟨rfl,_⟩ := same
    have dead : ¬ t.live sb := by rintro ⟨last,found,_⟩; simp [first] at found
    have unknown := (books.gone sb dead).1
    have one : priorityOf [evCreate] = 1 := rfl
    simp [Trace.update,updateState,unknown,weight,one]
  · have live := live_of_legal legal first
    have known := (books.live sb live).1
    have moved := priority_step legal first
    have later : ev ≠ evCreate := by
      rintro rfl
      obtain ⟨rest,same,once⟩ := (legal.contract (by simp)).created
      cases events : seen t.processed sb with
      | nil => exact first events
      | cons head tail =>
          rw [events] at same
          simp only [List.cons_append,List.cons.injEq] at same
          exact once (by rw [← same.2]; simp)
    have stays : ¬ priorityOf (seen t.processed sb) + weight ev < 0 := by omega
    by_cases destroyed : ev = evDestroy
    · subst destroyed
      simp [Trace.update,updateState,known,stays]
    · simp [Trace.update,updateState,known,later,stays,destroyed,moved]

theorem seen_update (t : Trace) (ev : SandboxEventType) (sb : Nat) :
    seen (t.processed ++ [(ev,sb)]) sb = seen t.processed sb ++ [ev] := by simp [seen_append]

theorem update_books {t : Trace} (books : Books t) (legal : Legal (seen t.processed sb ++ [ev])) :
    ∃ next, t.update ev sb = .ok next ∧ Books next := by
  refine ⟨_,update_parts books legal,?_⟩
  have others : ∀ other, other ≠ sb → seen (t.processed ++ [(ev,sb)]) other = seen t.processed other := by
    intro other different
    simp [seen_append,seen_other ev (Ne.symm different)]
  by_cases destroyed : ev = evDestroy
  · simp only [destroyed,if_true]
    rw [destroyed] at others
    refine ⟨move_shelved books.shelved sb none,?_,?_⟩
    · rintro other ⟨last,found,alive⟩
      by_cases same : other = sb
      · subst same
        simp only [seen_update,List.getLast?_concat,Option.some.injEq] at found
        exact absurd found.symm alive
      · rw [others other same] at found
        obtain ⟨known,key,place⟩ := books.live other ⟨last,found,alive⟩
        simp only [Trace.home,others other same,Function.update_of_ne same,move_place]
        exact ⟨known,key,place⟩
    · intro other dead
      by_cases same : other = sb
      · subst same
        simp [move_place]
      · simp only [Trace.live,others other same] at dead
        simpa [move_place,Function.update_of_ne same] using books.gone other dead
  · simp only [destroyed,if_false]
    refine ⟨move_shelved books.shelved sb (some _),?_,?_⟩
    · rintro other ⟨last,found,alive⟩
      by_cases same : other = sb
      · subst same
        simp [Trace.home,seen_update,move_place]
      · rw [others other same] at found
        obtain ⟨known,key,place⟩ := books.live other ⟨last,found,alive⟩
        simp only [Trace.home,others other same,Function.update_of_ne same,move_place]
        exact ⟨known,key,place⟩
    · intro other dead
      by_cases same : other = sb
      · subst same
        exact absurd ⟨ev,by simp [seen_update],destroyed⟩ dead
      · simp only [Trace.live,others other same] at dead
        simpa [move_place,Function.update_of_ne same] using books.gone other dead

theorem evictFront_parts {t : Trace} (books : Books t) (ran : evictFront t.evictor queue = some (next,sb)) :
    t.live sb ∧ next = {t.evictor with lists := move t.evictor.lists sb (some .evicting)} := by
  unfold evictFront at ran
  split at ran
  · cases ran
  · rename_i front rest waiting
    cases ran
    refine ⟨?_,rfl⟩
    by_contra dead
    have nowhere := (books.gone front.item dead).2.1
    have held := books.shelved.held front.item queue
    simp [waiting,nowhere,recorded] at held

theorem evictFront_books {t : Trace} (books : Books t) (ran : evictFront t.evictor queue = some (next,sb)) :
    Books ⟨next,t.processed,Function.update t.moved sb true⟩ := by
  obtain ⟨live,rfl⟩ := evictFront_parts books ran
  refine ⟨move_shelved books.shelved sb (some .evicting),?_,?_⟩
  · intro other alive
    obtain ⟨known,key,place⟩ := books.live other alive
    refine ⟨known,?_⟩
    by_cases same : other = sb
    · subst same
      simp [Trace.home,move_place]
    · simp only [Trace.home,move_place,Function.update_of_ne same]
      exact ⟨key,place⟩
  · intro other dead
    have different : other ≠ sb := fun same => dead (same ▸ live)
    simpa [move_place,Function.update_of_ne different] using books.gone other dead

theorem evictIdle_books (count : Nat) {t : Trace} (books : Books t) (ran : evictIdle count t.evictor = (next,sbs)) :
    Books ⟨next,t.processed,fun sb => t.moved sb || sbs.contains sb⟩ := by
  induction count generalizing t sbs with
  | zero => cases ran; simpa using books
  | succ count ih =>
      cases front : evictFront t.evictor .prio0 with
      | none =>
          simp only [evictIdle,front] at ran
          cases ran
          simpa using books
      | some result =>
          obtain ⟨middle,sb⟩ := result
          simp only [evictIdle,front] at ran
          cases ran
          have moved := ih (evictFront_books books front) rfl
          convert moved using 2
          funext other
          by_cases same : other = sb
          · subst same; simp
          · simp [same]

theorem evict_books {t : Trace} (books : Books t) (ran : t.evict memLimitMB totalMB availableMB = .ok (next,tasks)) :
    Books next := by
  unfold Trace.evict doEvictions at ran
  by_cases zero : memLimitMB = 0
  · simp [zero] at ran
  simp only [zero,if_false] at ran
  generalize planned : plan memLimitMB totalMB availableMB (t.evictor.lists.shelf .evicting).length = p at ran
  cases calm : evictIdle p.evictCount.toNat t.evictor with
  | mk middle idle =>
      have settled := evictIdle_books _ books calm
      simp only [calm] at ran
      by_cases forced : p.freeSandboxes ≤ 0 ∧ (middle.lists.shelf .evicting).length = 0
      · simp only [forced] at ran
        cases front : evictFront middle .prio1 with
        | none =>
            simp only [front,and_self,if_true] at ran
            cases ran
            simpa [Function.comp_def] using settled
        | some result =>
            obtain ⟨last,sb⟩ := result
            simp only [front,and_self,if_true] at ran
            cases ran
            have moved := evictFront_books settled front
            convert moved using 2
            funext other
            by_cases same : other = sb
            · subst same; simp
            · simp [same]
      · simp only [forced,if_false] at ran
        cases ran
        simpa [Function.comp_def] using settled

end OpenLambda.Evictor
