import OpenLambda.Lambda.CodeDirs
import Mathlib.Data.List.Chain

namespace OpenLambda.Lambda
open Foundation.Runs

def cacheNs (registryCacheMs : Int64) : Int := (registryCacheMs * 1000000).toInt

-- How a call of pullHandlerIfStale ends: without Pull, with the error of Pull or
-- of what follows it, with the code at hand or with new code.
inductive PullEnd where
  | cached
  | pullErr
  | prepareErr
  | unchanged
  | renewed
  deriving DecidableEq, Repr

structure Visit where
  now : Nat
  ended : PullEnd
  deriving DecidableEq, Repr

def pullEnd (conf : Conf) (s : System) (pulled : Pulled) : PullEnd :=
  if stale conf s = false then .cached
  else match pulled.codeDir with
    | .error _ => .pullErr
    | .ok codeDir =>
        if codeDir = s.codeDir then .unchanged
        else match pulled.parsed with
          | .error _ => .prepareErr
          | .ok config => if pulled.prepareErr config = none then .renewed else .prepareErr

def PullEnd.fine : PullEnd → Bool
  | .unchanged | .renewed => true
  | _ => false

def PullEnd.failed : PullEnd → Bool
  | .pullErr | .prepareErr => true
  | _ => false

def PullEnd.found : PullEnd → Bool
  | .prepareErr | .unchanged | .renewed => true
  | _ => false

structure Visited where
  sys : System
  visits : List Visit

def visiting (conf : Conf) (s : System) : Action → List Visit
  | .pull pulled => [⟨s.now,pullEnd conf s pulled⟩]
  | _ => []

def visitStep (conf : Conf) (w : Visited) (action : Action) : Option Visited :=
  (step conf w.sys action).map fun t => ⟨t,w.visits ++ visiting conf w.sys action⟩

def unvisited : Visited := ⟨init,[]⟩

structure Consulted (ms : Int) (visits : List Visit) : Prop where
  spaced : visits.Pairwise fun first second =>
    first.ended.fine = true → second.ended.found = true → (first.now : Int) + ms * 1000000 ≤ second.now
  retried : visits.IsChain fun first next => first.ended.failed = true → next.ended ≠ .cached

def lastFine (visits : List Visit) : Option Visit := (visits.filter (·.ended.fine)).getLast?

-- When the last call without an error has found the code unchanged, a request of
-- the next period finds no code.
def Spared (ms : Int) (w : Visited) : Action → Prop
  | .pull pulled => ∀ last ∈ lastFine w.visits, last.ended = .unchanged →
      (w.sys.now : Int) < last.now + ms * 1000000 → pulled.codeDir.isOk = false
  | _ => True

instance (ms : Int) (w : Visited) : DecidablePred (Spared ms w)
  | .pull pulled => inferInstanceAs (Decidable (∀ last ∈ lastFine w.visits, last.ended = .unchanged →
      (w.sys.now : Int) < last.now + ms * 1000000 → pulled.codeDir.isOk = false))
  | .invoke _ | .tick _ | .timer | .receive | .check | .kill | .queue | .dispatch | .finished | .signal | .scale
  | .queueScaled | .askKill | .takeKill | .exit | .cleanup | .take _ | .act _ _ | .report _ | .grab _ | .ack _ =>
      .isTrue trivial

def StaleAt (conf : Conf) (lastPull : Option Nat) (now : Nat) : Prop :=
  ∀ last, lastPull = some last → conf.cacheNs ≤ (now : Int) - last

theorem stale_iff : stale conf s = true ↔ StaleAt conf s.lastPull s.now := by
  unfold stale StaleAt
  cases s.lastPull with
  | none => simp
  | some last => simp

theorem StaleAt.later (old : StaleAt conf lastPull now) (more : now ≤ after) : StaleAt conf lastPull after := by
  intro last recorded
  have period := old last recorded
  omega

theorem cached_iff : pullEnd conf s pulled = .cached ↔ stale conf s = false := by
  unfold pullEnd
  cases stale conf s with
  | false => exact ⟨fun _ => rfl,fun _ => rfl⟩
  | true =>
      refine ⟨fun cached => ?_,nofun⟩
      simp only [Bool.true_eq_false,if_false] at cached
      repeat' split at cached
      all_goals cases cached

theorem pull_records (conf : Conf) (s : System) (req : Invocation) (pulled : Pulled) :
    (s.pull conf req pulled).now = s.now ∧ (s.pull conf req pulled).lastPull =
      if pullEnd conf s pulled = .renewed then some s.now else s.lastPull := by
  have handled : (pullHandlerIfStale conf s pulled).1.now = s.now ∧ (pullHandlerIfStale conf s pulled).1.lastPull =
      if pullEnd conf s pulled = .renewed then some s.now else s.lastPull := by
    unfold pullHandlerIfStale pullEnd stale
    cases s.lastPull.any fun last => decide ((s.now : Int) - last < conf.cacheNs) with
    | true => exact ⟨rfl,rfl⟩
    | false => cases pulled.codeDir with
        | error err => exact ⟨rfl,rfl⟩
        | ok codeDir =>
            by_cases same : codeDir = s.codeDir
            · simp [same]
            · cases pulled.parsed with
              | error err => simp [same]
              | ok config => cases prepared : pulled.prepareErr config <;> simp [same,prepared]
  rw [← handled.2]
  refine ⟨Eq.trans ?_ handled.1,?_⟩
  · unfold System.pull
    cases pullHandlerIfStale conf s pulled with
    | mk t result => cases result <;> rfl
  · unfold System.pull
    cases pullHandlerIfStale conf s pulled with
    | mk t result => cases result <;> rfl

theorem turn_records (turn : Turn conf s action t) (other : ∀ pulled, action ≠ .pull pulled) :
    t.lastPull = s.lastPull ∧ s.now ≤ t.now := by
  cases turn with
  | pullKept | pullFailed | pullDirtied | pullSwitched => exact absurd rfl (other _)
  | ticked ns => exact ⟨rfl,Nat.le_add_right _ _⟩
  | _ => exact ⟨rfl,Nat.le_refl _⟩

theorem found_iff : (pullEnd conf s pulled).found = true ↔ stale conf s = true ∧ ∃ codeDir, pulled.codeDir = .ok codeDir := by
  unfold pullEnd
  cases stale conf s with
  | false => simp [PullEnd.found]
  | true => cases pulled.codeDir with
      | error err => simp [PullEnd.found]
      | ok codeDir =>
          simp only [Bool.true_eq_false,if_false,true_and]
          refine ⟨fun _ => ⟨codeDir,rfl⟩,fun _ => ?_⟩
          split
          · rfl
          · cases pulled.parsed with
            | error err => rfl
            | ok config =>
                dsimp only
                split
                · rfl
                · rfl

theorem visit_parts (moved : visitStep conf w action = some next) :
    (next.visits = w.visits ∧ next.sys.lastPull = w.sys.lastPull ∧ w.sys.now ≤ next.sys.now ∧
      ∀ pulled, action ≠ .pull pulled) ∨
    ∃ pulled, action = .pull pulled ∧ next.visits = w.visits ++ [⟨w.sys.now,pullEnd conf w.sys pulled⟩] ∧
      next.sys.now = w.sys.now ∧ next.sys.lastPull =
        if pullEnd conf w.sys pulled = .renewed then some w.sys.now else w.sys.lastPull := by
  obtain ⟨t,stepped,rfl⟩ := Option.map_eq_some_iff.mp moved
  have other : (∀ pulled, action ≠ .pull pulled) → visiting conf w.sys action = [] := by
    intro silent
    cases action with
    | pull pulled => exact absurd rfl (silent pulled)
    | _ => rfl
  by_cases pulls : ∃ pulled, action = .pull pulled
  · obtain ⟨pulled,rfl⟩ := pulls
    refine .inr ⟨pulled,rfl,rfl,?_⟩
    unfold step at stepped
    split at stepped
    · cases stepped
    · dsimp only at stepped
      split at stepped
      · cases stepped
        exact pull_records conf w.sys _ pulled
      · cases stepped
  · have silent : ∀ pulled, action ≠ .pull pulled := fun pulled same => pulls ⟨pulled,same⟩
    refine .inl ⟨?_,(turn_records (step_turn stepped).2 silent).1,(turn_records (step_turn stepped).2 silent).2,silent⟩
    dsimp only
    rw [other silent,List.append_nil]

theorem lastFine_snoc (visits : List Visit) (visit : Visit) :
    lastFine (visits ++ [visit]) = if visit.ended.fine = true then some visit else lastFine visits := by
  unfold lastFine
  rw [List.filter_append]
  split
  · rename_i fine
    have kept : [visit].filter (·.ended.fine) = [visit] := List.filter_eq_self.mpr (by simpa using fine)
    rw [kept,List.getLast?_concat]
  · rename_i other
    have dropped : [visit].filter (·.ended.fine) = [] := List.filter_eq_nil_iff.mpr (by simpa using other)
    rw [dropped,List.append_nil]

theorem lastFine_some (member : visit ∈ visits) (fine : visit.ended.fine = true) : ∃ last, lastFine visits = some last := by
  refine Option.isSome_iff_exists.mp (List.getLast?_isSome.mpr ?_)
  exact List.ne_nil_of_mem (List.mem_filter.mpr ⟨member,fine⟩)

theorem lastFine_fine (found : lastFine visits = some last) : last ∈ visits ∧ last.ended.fine = true :=
  List.mem_filter.mp (List.mem_of_getLast? found)

-- What lastPull says about the last call without an error and about one that
-- has failed since.
structure PullTimes (conf : Conf) (w : Visited) : Prop where
  times : ∀ visit ∈ w.visits, visit.now ≤ w.sys.now
  latest : ∀ last, lastFine w.visits = some last → ∀ visit ∈ w.visits, visit.ended.fine = true → visit.now ≤ last.now
  renewed : ∀ last, lastFine w.visits = some last → last.ended = .renewed → w.sys.lastPull = some last.now
  unchanged : ∀ last, lastFine w.visits = some last → last.ended = .unchanged → StaleAt conf w.sys.lastPull last.now
  failed : ∀ last, w.visits.getLast? = some last → last.ended.failed = true → StaleAt conf w.sys.lastPull last.now

theorem unvisited_timed (conf : Conf) : PullTimes conf unvisited :=
  ⟨nofun,nofun,nofun,nofun,nofun⟩

theorem checked_stale (checked : pullEnd conf s pulled ≠ .cached) : StaleAt conf s.lastPull s.now := by
  refine stale_iff.mp ?_
  cases fresh : stale conf s with
  | true => rfl
  | false => exact absurd (cached_iff.mpr fresh) checked

theorem waited_timed (timed : PullTimes conf w) (visits : next.visits = w.visits)
    (pull : next.sys.lastPull = w.sys.lastPull) (later : w.sys.now ≤ next.sys.now) : PullTimes conf next := by
  refine ⟨?_,?_,?_,?_,?_⟩
  · rw [visits]
    exact fun visit member => Nat.le_trans (timed.times visit member) later
  · rw [visits]
    exact timed.latest
  · rw [visits,pull]
    exact timed.renewed
  · rw [visits,pull]
    exact timed.unchanged
  · rw [visits,pull]
    exact timed.failed

theorem lastFine_next (found : lastFine (visits ++ [visit]) = some last) :
    last = visit ∧ visit.ended.fine = true ∨ lastFine visits = some last ∧ visit.ended.fine = false := by
  rw [lastFine_snoc] at found
  split at found
  · rename_i fine
    exact .inl ⟨(Option.some.inj found).symm,fine⟩
  · rename_i other
    exact .inr ⟨found,Bool.eq_false_iff.mpr other⟩

theorem unfine_kept (pull : lastPull = if ended = PullEnd.renewed then some now else before) (other : ended.fine = false) :
    lastPull = before := by
  rw [pull,if_neg]
  rintro rfl
  cases other

theorem failed_unfine {ended : PullEnd} (failed : ended.failed = true) : ended.fine = false := by
  cases ended with
  | pullErr | prepareErr => rfl
  | cached | unchanged | renewed => cases failed

theorem pulled_timed (timed : PullTimes conf w) (visits : next.visits = w.visits ++ [⟨w.sys.now,pullEnd conf w.sys pulled⟩])
    (now : next.sys.now = w.sys.now) (pull : next.sys.lastPull =
      if pullEnd conf w.sys pulled = .renewed then some w.sys.now else w.sys.lastPull) : PullTimes conf next := by
  have times : ∀ visit ∈ next.visits, visit.now ≤ w.sys.now := by
    intro visit member
    rw [visits] at member
    rcases List.mem_append.mp member with old | new
    · exact timed.times visit old
    · rw [List.mem_singleton.mp new]
  refine ⟨now ▸ times,?_,?_,?_,?_⟩
  · intro last found visit member fine
    rw [visits] at found
    rcases lastFine_next found with ⟨rfl,_⟩ | ⟨old,other⟩
    · exact times visit member
    · rw [visits] at member
      rcases List.mem_append.mp member with before | new
      · exact timed.latest last old visit before fine
      · rw [List.mem_singleton.mp new,other] at fine
        cases fine
  · intro last found renewed
    rw [visits] at found
    rcases lastFine_next found with ⟨rfl,_⟩ | ⟨old,other⟩
    · rw [pull,if_pos renewed]
    · rw [unfine_kept pull other]
      exact timed.renewed last old renewed
  · intro last found unchanged
    rw [visits] at found
    rcases lastFine_next found with ⟨rfl,_⟩ | ⟨old,other⟩
    · dsimp only at unchanged
      rw [pull,unchanged,if_neg nofun]
      exact checked_stale (by rw [unchanged]; nofun)
    · rw [unfine_kept pull other]
      exact timed.unchanged last old unchanged
  · intro last found failed
    rw [visits,List.getLast?_concat] at found
    cases found
    have checked : pullEnd conf w.sys pulled ≠ .cached := by
      intro cached
      dsimp only at failed
      rw [cached] at failed
      cases failed
    rw [unfine_kept pull (failed_unfine failed)]
    exact checked_stale checked

theorem visit_timed (timed : PullTimes conf w) (moved : visitStep conf w action = some next) : PullTimes conf next := by
  rcases visit_parts moved with ⟨visits,pull,later,_⟩ | ⟨pulled,_,visits,now,pull⟩
  · exact waited_timed timed visits pull later
  · exact pulled_timed timed visits now pull

theorem spaced_iff (timed : PullTimes conf w) (period : conf.cacheNs = ms * 1000000) (pulled : Pulled) :
    (∀ visit ∈ w.visits, visit.ended.fine = true → (pullEnd conf w.sys pulled).found = true →
      (visit.now : Int) + ms * 1000000 ≤ w.sys.now) ↔ Spared ms w (.pull pulled) := by
  constructor
  · intro spaced last latest unchanged early
    cases code : pulled.codeDir with
    | error err => rfl
    | ok codeDir =>
        obtain ⟨member,fine⟩ := lastFine_fine latest
        have old := (timed.unchanged last latest unchanged).later (timed.times last member)
        have apart := spaced last member fine (found_iff.mpr ⟨stale_iff.mpr old,codeDir,code⟩)
        omega
  · intro spared visit member fine found
    obtain ⟨old,codeDir,code⟩ := found_iff.mp found
    obtain ⟨last,latest⟩ := lastFine_some member fine
    have before := timed.latest last latest visit member fine
    cases ended : last.ended with
    | renewed =>
        have apart := stale_iff.mp old last.now (timed.renewed last latest ended)
        omega
    | unchanged =>
        have late : ¬(w.sys.now : Int) < last.now + ms * 1000000 := by
          intro early
          have failed := spared last latest ended early
          rw [code] at failed
          cases failed
        omega
    | cached | pullErr | prepareErr =>
        have wrong := (lastFine_fine latest).2
        rw [ended] at wrong
        cases wrong

theorem consulted_snoc (visit : Visit) : Consulted ms (visits ++ [visit]) ↔ Consulted ms visits ∧
    (∀ first ∈ visits, first.ended.fine = true → visit.ended.found = true →
      (first.now : Int) + ms * 1000000 ≤ visit.now) ∧
    ∀ last, visits.getLast? = some last → last.ended.failed = true → visit.ended ≠ .cached := by
  constructor
  · rintro ⟨spaced,retried⟩
    obtain ⟨before,_,across⟩ := List.pairwise_append.mp spaced
    obtain ⟨chain,_,link⟩ := List.isChain_append.mp retried
    refine ⟨⟨before,chain⟩,fun first member => across first member visit (List.mem_singleton.mpr rfl),?_⟩
    intro last found
    exact link last found visit rfl
  · rintro ⟨⟨before,chain⟩,across,link⟩
    refine ⟨List.pairwise_append.mpr ⟨before,List.pairwise_singleton _ _,?_⟩,
      List.isChain_append.mpr ⟨chain,List.isChain_singleton _,?_⟩⟩
    · intro first member second new
      rw [List.mem_singleton.mp new]
      exact across first member
    · intro last found next new
      cases new
      exact link last found

theorem visit_consulted (timed : PullTimes conf w) (period : conf.cacheNs = ms * 1000000)
    (moved : visitStep conf w action = some next) :
    Consulted ms next.visits ↔ Consulted ms w.visits ∧ Spared ms w action := by
  rcases visit_parts moved with ⟨visits,_,_,other⟩ | ⟨pulled,rfl,visits,_,_⟩
  · rw [visits]
    refine ⟨fun consulted => ⟨consulted,?_⟩,And.left⟩
    cases action with
    | pull pulled => exact absurd rfl (other pulled)
    | _ => trivial
  · rw [visits,consulted_snoc,spaced_iff timed period]
    have retried : ∀ last, w.visits.getLast? = some last → last.ended.failed = true →
        pullEnd conf w.sys pulled ≠ .cached := by
      intro last found failed fresh
      have old := (timed.failed last found failed).later (timed.times last (List.mem_of_getLast? found))
      exact absurd (stale_iff.mpr old) (Bool.eq_false_iff.mp (cached_iff.mp fresh))
    exact ⟨fun ⟨before,spared,_⟩ => ⟨before,spared⟩,fun ⟨before,spared⟩ => ⟨before,spared,retried⟩⟩

theorem visits_consulted (timed : PullTimes conf w) (period : conf.cacheNs = ms * 1000000)
    (ran : run (visitStep conf) w actions = some last) :
    Consulted ms last.visits ↔ Consulted ms w.visits ∧ Meets (visitStep conf) (Spared ms) w actions := by
  induction actions generalizing w with
  | nil =>
      cases ran
      exact ⟨fun consulted => ⟨consulted,trivial⟩,And.left⟩
  | cons action rest ih =>
      obtain ⟨middle,moved,tail⟩ := run_cons_parts ran
      rw [ih (visit_timed timed moved) tail,visit_consulted timed period moved,and_assoc]
      refine and_congr_right fun _ => and_congr_right fun _ => ?_
      constructor
      · intro meets t same
        cases moved.symm.trans same
        exact meets
      · intro meets
        exact meets middle moved

theorem cacheNs_exact {registryCacheMs : Int64} (positive : 0 < registryCacheMs.toInt)
    (fits : registryCacheMs.toInt * 1000000 ≤ 9223372036854775807) :
    cacheNs registryCacheMs = registryCacheMs.toInt * 1000000 := by
  unfold cacheNs
  rw [Int64.toInt_mul]
  exact Int.bmod_eq_of_le (by change _ ≤ _ * 1000000; omega) (by change _ * 1000000 < _; omega)

theorem registry_spared {registryCacheMs : Int64} (positive : 0 < registryCacheMs.toInt)
    (fits : registryCacheMs.toInt * 1000000 ≤ 9223372036854775807) (period : conf.cacheNs = cacheNs registryCacheMs)
    (ran : run (visitStep conf) unvisited actions = some w) :
    Consulted registryCacheMs.toInt w.visits ↔
      Meets (visitStep conf) (Spared registryCacheMs.toInt) unvisited actions := by
  have start : Consulted registryCacheMs.toInt unvisited.visits := ⟨List.Pairwise.nil,List.isChain_nil⟩
  rw [visits_consulted (unvisited_timed conf) (period.trans (cacheNs_exact positive fits)) ran]
  exact and_iff_right start

-- A function for POST, whose GET requests end after the pull.
def pulledDir (codeDir : String) : Pulled := ⟨.ok codeDir,.ok (codeMeta .native true ["POST"]),none,none⟩

def getRequest (codeDir : String) : List Action := [.invoke "GET",.receive,.pull (pulledDir codeDir),.check,.signal]

def registryDown : List Action := [.invoke "GET",.receive,.pull ⟨.error "registry is down",.error "",none,none⟩,.signal]

def oneSecond : Conf := ⟨false,cacheNs 1000⟩

def updates : List Action :=
  getRequest "/code/1" ++ (.tick 999999999 :: (getRequest "/code/2" ++ (.tick 1 :: (registryDown ++ getRequest "/code/2"))))

theorem registry_spared_updates : ∃ w, run (visitStep oneSecond) unvisited updates = some w ∧
    w.visits = [⟨0,.renewed⟩,⟨999999999,.cached⟩,⟨1000000000,.pullErr⟩,⟨1000000000,.renewed⟩] ∧
    Consulted (Int64.toInt 1000) w.visits := by
  have seen : ∃ w, run (visitStep oneSecond) unvisited updates = some w ∧
      w.visits = [⟨0,.renewed⟩,⟨999999999,.cached⟩,⟨1000000000,.pullErr⟩,⟨1000000000,.renewed⟩] :=
    run_seen (by decide +kernel)
  obtain ⟨w,ran,visits⟩ := seen
  exact ⟨w,ran,visits,(registry_spared (by decide) (by decide) rfl ran).mpr (by decide +kernel)⟩

def noUpdate : List Action :=
  getRequest "/code/1" ++ (.tick 1000000000 :: (getRequest "/code/1" ++ (.tick 1000000 :: getRequest "/code/1")))

theorem unchanged_asked_again : ∃ w, run (visitStep oneSecond) unvisited noUpdate = some w ∧
    w.visits = [⟨0,.renewed⟩,⟨1000000000,.unchanged⟩,⟨1001000000,.unchanged⟩] ∧
    ¬Consulted (Int64.toInt 1000) w.visits := by
  have seen : ∃ w, run (visitStep oneSecond) unvisited noUpdate = some w ∧
      w.visits = [⟨0,.renewed⟩,⟨1000000000,.unchanged⟩,⟨1001000000,.unchanged⟩] := run_seen (by decide +kernel)
  obtain ⟨w,ran,visits⟩ := seen
  refine ⟨w,ran,visits,?_⟩
  rw [visits]
  intro consulted
  exact absurd consulted.spaced (by decide)

end OpenLambda.Lambda
