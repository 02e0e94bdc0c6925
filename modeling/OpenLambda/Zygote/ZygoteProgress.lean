import OpenLambda.Foundation.Runs
import OpenLambda.Zygote.ZygoteShifts

namespace OpenLambda.Zygote
open Foundation.Runs

def Cache.Ready (s : Cache) (c : Nat) : Prop :=
  match (s.call c).stage with
  | .start | .putting _ _ _ => (s.nodeOf c).mutex = none
  | .building sub => ∃ result, (s.call sub).stage = .returned result
  | _ => True

theorem ready_moves (tree : Tree) (exact : Exact s) (born : c < s.nextCall)
    (unfinished : (s.call c).stage.finished = false) (ready : s.Ready c) :
    ∃ action, action.actor = some c ∧ (callStep tree s c action).isSome := by
  unfold Cache.Ready at ready
  cases stage : (s.call c).stage with
  | start =>
      rw [stage] at ready
      have twice : (s.call c).i < 2 := by
        have tries := (exact.fine c born).tries
        omega
      exact ⟨.lock c,rfl,by simp [callStep,Cache.lock,stage,twice,ready]⟩
  | locked =>
      refine ⟨.force c,rfl,?_⟩
      simp only [callStep,Cache.force,stage]
      split <;> rfl
  | looking =>
      refine ⟨.look c,rfl,?_⟩
      simp only [callStep,Cache.look,stage]
      split
      · split <;> rfl
      · rfl
  | unpausing sb =>
      refine ⟨.unpause c none,rfl,?_⟩
      simp only [callStep,Cache.unpause,stage]
      split <;> rfl
  | preparing =>
      refine ⟨.prepare c "" none,rfl,?_⟩
      simp only [callStep,Cache.prepare,stage]
      split <;> rfl
  | making =>
      refine ⟨.make c none,rfl,?_⟩
      simp only [callStep,Cache.make,stage]
      split <;> rfl
  | building sub =>
      rw [stage] at ready
      obtain ⟨result,returned⟩ := ready
      refine ⟨.built c,rfl,?_⟩
      simp only [callStep,Cache.built,stage,returned]
      cases result <;> rfl
  | creating sb isNew => exact ⟨.create c none,rfl,by simp [callStep,Cache.create,stage]⟩
  | putting sb isNew result =>
      rw [stage] at ready
      exact ⟨.lockPut c,rfl,by simp [callStep,Cache.lockPut,stage,ready]⟩
  | dropping sb isNew result =>
      refine ⟨.drop c,rfl,?_⟩
      simp only [callStep,Cache.drop,stage]
      split
      · split
        · rfl
        · split <;> rfl
      · rfl
  | pausing sb isNew result => exact ⟨.pause c none,rfl,by simp [callStep,Cache.pause,stage]⟩
  | returned result =>
      rw [stage] at unfinished
      cases unfinished
  | collected =>
      rw [stage] at unfinished
      cases unfinished

-- Whoever has a mutex is at that node and inside, and a call waits for one it
-- made at the parent.
structure Linked (tree : Tree) (s : Cache) : Prop where
  owned : ∀ n d, (s.node n).mutex = some d →
    d < s.nextCall ∧ (s.call d).node = n ∧ (s.call d).stage.inside = true
  chained : ∀ c, c < s.nextCall → ∀ d, (s.call c).stage = .building d →
    tree.parent (s.call c).node = some (s.call d).node ∧ (s.call d).stage ≠ .collected

theorem shift_owned (linked : Linked tree s) (shift : Shift tree s c t) (born : c < s.nextCall) (n d : Nat)
    (held : (t.node n).mutex = some d) : d < t.nextCall ∧ (t.call d).node = n ∧ (t.call d).stage.inside = true := by
  -- A holder other than `c` had the mutex before, and `c` did not touch it.
  have before : d ≠ c → (s.node n).mutex = some d →
      d < t.nextCall ∧ (t.call d).node = n ∧ (t.call d).stage.inside = true := by
    intro other held
    obtain ⟨known,there,inside⟩ := linked.owned n d held
    have same : t.call d = s.call d := by
      refine shift.others d other known ?_
      intro building
      rw [(shift.taken d building).1] at inside
      cases inside
    rw [same]
    exact ⟨Nat.lt_of_lt_of_le known shift.grows,there,inside⟩
  by_cases equal : n = (s.call c).node
  · subst n
    rw [shift.mutex] at held
    split at held
    · rename_i inside
      cases held
      exact ⟨Nat.lt_of_lt_of_le born shift.grows,shift.sameNode,inside⟩
    · split at held
      · cases held
      · rename_i outside
        refine before ?_ held
        rintro rfl
        exact outside (linked.owned _ d held).2.2
  · rw [shift.mutexes n equal] at held
    refine before ?_ held
    rintro rfl
    exact equal (linked.owned n d held).2.1.symm

theorem shift_chained (exact : Exact s) (linked : Linked tree s) (shift : Shift tree s c t) (born : c < s.nextCall)
    (e : Nat) (known : e < t.nextCall) (d : Nat) (building : (t.call e).stage = .building d) :
    tree.parent (t.call e).node = some (t.call d).node ∧ (t.call d).stage ≠ .collected := by
  by_cases equal : e = c
  · subst e
    obtain ⟨_,start,above⟩ := shift.building d building
    rw [shift.sameNode,start]
    exact ⟨above,nofun⟩
  · have older : e < s.nextCall := by
      apply Classical.byContradiction
      intro later
      rw [shift.fresh e (Nat.le_of_not_lt later) known] at building
      cases building
    have same : t.call e = s.call e := by
      refine shift.others e equal older ?_
      intro taken
      rw [(shift.taken e taken).2] at building
      cases building
    rw [same] at building ⊢
    obtain ⟨above,alive⟩ := linked.chained e older d building
    obtain ⟨earlier,called⟩ := exact.building e older d building
    by_cases mine : d = c
    · subst d
      rw [shift.sameNode]
      exact ⟨above,shift.alive⟩
    · rw [shift.others d mine earlier]
      · exact ⟨above,alive⟩
      · -- A call has one caller.
        intro also
        have caller := (exact.building c born d also).2
        exact equal (Option.some.inj (called.symm.trans caller))

theorem shift_linked (exact : Exact s) (linked : Linked tree s) (shift : Shift tree s c t) (born : c < s.nextCall) :
    Linked tree t :=
  ⟨shift_owned linked shift born,shift_chained exact linked shift born⟩

theorem init_linked (tree : Tree) : Linked tree init where
  owned := nofun
  chained := nofun

theorem spawn_linked (linked : Linked tree s) (exact : Exact s) (node : Nat) (isLeaf : Bool) :
    Linked tree (s.spawn node isLeaf none) := by
  have old : ∀ c, c < s.nextCall → (s.spawn node isLeaf none).call c = s.call c :=
    fun c older => Function.update_of_ne (Nat.ne_of_lt older) _ _
  constructor
  · intro n d held
    obtain ⟨known,there,inside⟩ := linked.owned n d held
    rw [old d known]
    exact ⟨Nat.lt_succ_of_lt known,there,inside⟩
  · intro c known d building
    rcases Nat.lt_succ_iff_lt_or_eq.mp known with older | rfl
    · rw [old c older] at building ⊢
      rw [old d (exact.building c older d building).1]
      exact linked.chained c older d building
    · dsimp only [Cache.spawn] at building
      rw [Function.update_self] at building
      cases building

theorem kill_linked (linked : Linked tree s) (moved : s.kill n = some t) : Linked tree t := by
  unfold Cache.kill at moved
  split at moved
  · split at moved
    · cases moved
      refine ⟨?_,linked.chained⟩
      intro m d held
      apply linked.owned m d
      by_cases equal : m = n
      · subst m
        dsimp only at held
        rw [Function.update_self] at held
        exact held
      · dsimp only at held
        rw [Function.update_of_ne equal] at held
        exact held
    · cases moved
      exact linked
  · cases moved

theorem doom_linked (linked : Linked tree s) (moved : s.doom sb = some t) : Linked tree t := by
  unfold Cache.doom at moved
  split at moved
  · cases moved
    exact {linked with}
  · cases moved

theorem step_linked (exact : Exact s) (linked : Linked tree s) (moved : step tree s action = some t) :
    Linked tree t := by
  unfold step at moved
  split at moved
  · cases moved
  · split at moved
    · obtain ⟨born,moved⟩ := Option.ite_none_right_eq_some.mp moved
      exact shift_linked exact linked (callStep_shift exact born moved) born
    · cases action with
      | call node isLeaf =>
          cases moved
          exact spawn_linked linked exact node isLeaf
      | kill node => exact kill_linked linked moved
      | doom sb => exact doom_linked linked moved
      | evict sb force reason =>
          cases moved
          exact {linked with}
      | _ => cases moved

structure Sound (tree : Tree) (s : Cache) : Prop where
  exact : Exact s
  linked : Linked tree s

theorem reached_sound (ran : run (step tree) init actions = some s) : Sound tree s :=
  run_preserves (Sound tree)
    (fun _ _ _ sound moved => ⟨step_exact sound.exact moved,step_linked sound.exact sound.linked moved⟩)
    ⟨init_exact,init_linked tree⟩ ran

theorem ready_step (sound : Sound tree s) (born : c < s.nextCall) (unfinished : (s.call c).stage.finished = false)
    (ready : s.Ready c) : ∃ action t, step tree s action = some t ∧ Shift tree s c t ∧ Sound tree t := by
  obtain ⟨action,actor,moves⟩ := ready_moves tree sound.exact born unfinished ready
  obtain ⟨t,moved⟩ := Option.isSome_iff_exists.mp moves
  have stepped : step tree s action = some t := by
    unfold step
    rw [if_neg (by simp [sound.exact.safe]),actor]
    dsimp only
    rw [if_pos born]
    exact moved
  exact ⟨action,t,stepped,callStep_shift sound.exact born moved,step_exact sound.exact stepped,
    step_linked sound.exact sound.linked stepped⟩

structure Leads (tree : Tree) (kept : Nat → ChildCreate → Prop) (s t : Cache) : Prop where
  reached : ∃ more, run (step tree) s more = some t
  sound : Sound tree t
  grows : s.nextCall ≤ t.nextCall
  same : ∀ d, d < s.nextCall → kept d (s.call d) → t.call d = s.call d

theorem leads_refl (sound : Sound tree s) (kept : Nat → ChildCreate → Prop) : Leads tree kept s s :=
  ⟨⟨[],rfl⟩,sound,Nat.le_refl _,fun _ _ _ => rfl⟩

theorem leads_trans (first : Leads tree kept s t) (second : Leads tree kept t u) : Leads tree kept s u := by
  obtain ⟨early,toT⟩ := first.reached
  obtain ⟨late,toU⟩ := second.reached
  refine ⟨⟨early ++ late,run_trans toT toU⟩,second.sound,Nat.le_trans first.grows second.grows,?_⟩
  intro d known picked
  have unchanged := first.same d known picked
  rw [← unchanged] at picked
  exact (second.same d (Nat.lt_of_lt_of_le known first.grows) picked).trans unchanged

theorem leads_weaken {kept fewer : Nat → ChildCreate → Prop} (leads : Leads tree kept s t)
    (less : ∀ d k, fewer d k → kept d k) : Leads tree fewer s t :=
  {leads with same := fun d known picked => leads.same d known (less d _ picked)}

def Beside (n c d : Nat) (k : ChildCreate) : Prop := n < k.node ∨ k.node = n ∧ d ≠ c

theorem shift_leads (sound : Sound tree s) (born : c < s.nextCall) (stepped : step tree s action = some t)
    (shift : Shift tree s c t) (next : Sound tree t) : Leads tree (Beside (s.call c).node c) s t := by
  refine ⟨⟨[action],by simp [run,stepped]⟩,next,shift.grows,?_⟩
  intro d known beside
  apply shift.others d ?_ known ?_
  · rintro rfl
    rcases beside with below | ⟨_,other⟩
    · exact Nat.lt_irrefl _ below
    · exact other rfl
  · intro building
    have older := tree.older _ _ (sound.linked.chained c born d building).1
    rcases beside with below | ⟨here,_⟩ <;> omega

def CanFinish (tree : Tree) (n : Nat) : Prop :=
  ∀ s c, Sound tree s → c < s.nextCall → (s.call c).node = n →
    ∃ t, Leads tree (fun _ k => n < k.node) s t ∧ (t.call c).stage.finished = true ∧
      (s.call c).got <+: (t.call c).got

theorem inside_ready (above : ∀ m, m < n → CanFinish tree m) (sound : Sound tree s) (born : c < s.nextCall)
    (there : (s.call c).node = n) (inside : (s.call c).stage.inside = true) :
    ∃ t, Leads tree (fun _ k => n ≤ k.node) s t ∧ t.Ready c := by
  cases stage : (s.call c).stage with
  | building sub =>
      obtain ⟨known,_⟩ := sound.exact.building c born sub stage
      have parent := (sound.linked.chained c born sub stage).1
      have older := tree.older _ _ parent
      rw [there] at older
      obtain ⟨t,leads,finished,_⟩ := above _ older s sub sound known rfl
      have same := leads.same c born (by rw [there]; exact older)
      have waits : (t.call c).stage = .building sub := by rw [same,stage]
      have alive := (leads.sound.linked.chained c (Nat.lt_of_lt_of_le born leads.grows) sub waits).2
      refine ⟨t,leads_weaken leads fun _ _ below => Nat.lt_of_lt_of_le older below,?_⟩
      unfold Cache.Ready
      rw [waits]
      cases ended : (t.call sub).stage with
      | returned result => exact ⟨result,ended⟩
      | collected => exact absurd ended alive
      | _ =>
          rw [ended] at finished
          cases finished
  | start | creating | putting | returned | collected =>
      rw [stage] at inside
      cases inside
  | _ =>
      refine ⟨s,leads_refl sound _,?_⟩
      unfold Cache.Ready
      rw [stage]
      trivial

-- Whoever has the mutex can be brought to give it back; by induction on how far
-- that call is from its end.
theorem mutex_freed (above : ∀ m, m < n → CanFinish tree m) (rank : Nat) :
    ∀ s d, Sound tree s → (s.node n).mutex = some d → (s.call d).rank = rank →
      ∃ t, Leads tree (Beside n d) s t ∧ (t.node n).mutex = none := by
  induction rank using Nat.strong_induction_on with
  | _ rank ih =>
      intro s d sound held ranked
      obtain ⟨born,there,inside⟩ := sound.linked.owned n d held
      obtain ⟨u,toU,ready⟩ := inside_ready above sound born there inside
      have same := toU.same d born (by rw [there])
      have unfinished : (u.call d).stage.finished = false := by
        rw [same]
        cases stage : (s.call d).stage <;> rw [stage] at inside <;> first | rfl | cases inside
      have known := Nat.lt_of_lt_of_le born toU.grows
      obtain ⟨action,t,stepped,shift,next⟩ := ready_step toU.sound known unfinished ready
      have toT := shift_leads toU.sound known stepped shift next
      have mutex := shift.mutex
      rw [same,there] at toT mutex
      rw [inside,if_pos rfl] at mutex
      have beside : ∀ e k, Beside n d e k → n ≤ k.node := by
        rintro e k (below | ⟨here,_⟩) <;> omega
      have soFar := leads_trans (leads_weaken toU beside) toT
      split at mutex
      · have lower := shift.rank
        rw [same,ranked] at lower
        obtain ⟨v,toV,free⟩ := ih _ lower t d next mutex rfl
        exact ⟨v,leads_trans soFar toV,free⟩
      · exact ⟨t,soFar,mutex⟩

def Below (n c d : Nat) (k : ChildCreate) : Prop := n < k.node ∨ k.node = n ∧ d = c

theorem can_be_ready (above : ∀ m, m < n → CanFinish tree m) (sound : Sound tree s) (born : c < s.nextCall)
    (there : (s.call c).node = n) : ∃ t, Leads tree (Below n c) s t ∧ t.Ready c := by
  -- The mutex is free, or another call has it and gives it back.
  have freed : (s.call c).stage.inside = false →
      ∃ t, Leads tree (Below n c) s t ∧ t.call c = s.call c ∧ (t.nodeOf c).mutex = none := by
    intro outside
    cases mutex : (s.node n).mutex with
    | none => exact ⟨s,leads_refl sound _,rfl,by rw [Cache.nodeOf,there,mutex]⟩
    | some d =>
        have other : c ≠ d := by
          rintro rfl
          rw [(sound.linked.owned n c mutex).2.2] at outside
          cases outside
        obtain ⟨t,leads,free⟩ := mutex_freed above _ s d sound mutex rfl
        have same := leads.same c born (.inr ⟨there,other⟩)
        refine ⟨t,leads_weaken leads ?_,same,by rw [Cache.nodeOf,same,there,free]⟩
        rintro e k (below | ⟨here,rfl⟩)
        · exact .inl below
        · exact .inr ⟨here,other⟩
  cases inside : (s.call c).stage.inside with
  | true =>
      obtain ⟨t,leads,ready⟩ := inside_ready above sound born there inside
      refine ⟨t,leads_weaken leads ?_,ready⟩
      rintro e k (below | ⟨here,_⟩) <;> omega
  | false =>
      obtain ⟨t,leads,same,free⟩ := freed inside
      refine ⟨t,leads,?_⟩
      unfold Cache.Ready
      rw [same]
      cases stage : (s.call c).stage with
      | start | putting => exact free
      | building sub =>
          rw [stage] at inside
          cases inside
      | _ => trivial

theorem node_finishes (above : ∀ m, m < n → CanFinish tree m) (rank : Nat) :
    ∀ s c, Sound tree s → c < s.nextCall → (s.call c).node = n → (s.call c).rank = rank →
      ∃ t, Leads tree (fun _ k => n < k.node) s t ∧ (t.call c).stage.finished = true ∧
        (s.call c).got <+: (t.call c).got := by
  induction rank using Nat.strong_induction_on with
  | _ rank ih =>
      intro s c sound born there ranked
      cases finished : (s.call c).stage.finished with
      | true => exact ⟨s,leads_refl sound _,finished,List.prefix_refl _⟩
      | false =>
          obtain ⟨u,toU,ready⟩ := can_be_ready above sound born there
          have same := toU.same c born (.inr ⟨there,rfl⟩)
          have known := Nat.lt_of_lt_of_le born toU.grows
          obtain ⟨action,t,stepped,shift,next⟩ := ready_step toU.sound known (by rw [same,finished]) ready
          have toT := shift_leads toU.sound known stepped shift next
          have lower := shift.rank
          have got := shift.got
          have stays := shift.sameNode
          rw [same] at toT lower got stays
          rw [there] at toT stays
          rw [ranked] at lower
          obtain ⟨v,toV,ended,more⟩ := ih _ lower t c next (Nat.lt_of_lt_of_le known shift.grows) stays rfl
          have soFar := leads_trans (leads_weaken toU fun _ _ => .inl) (leads_weaken toT fun _ _ => .inl)
          exact ⟨v,leads_trans soFar toV,ended,got.trans more⟩

-- By induction on the node: a call only ever waits for calls at its own node and
-- at the parent.
theorem can_finish (tree : Tree) (n : Nat) : CanFinish tree n := by
  induction n using Nat.strong_induction_on with
  | _ n above => exact fun s c sound born there => node_finishes above _ s c sound born there rfl

theorem everything_put (sound : Sound tree s) (born : c < s.nextCall) :
    ∃ more t, run (step tree) s more = some t ∧ (t.call c).stage.finished = true ∧
      (s.call c).got <+: (t.call c).put := by
  obtain ⟨t,leads,finished,got⟩ := can_finish tree _ s c sound born rfl
  obtain ⟨more,ran⟩ := leads.reached
  refine ⟨more,t,ran,finished,?_⟩
  rw [← finished_matched leads.sound.exact (Nat.lt_of_lt_of_le born leads.grows) finished]
  exact got

theorem zygote_refs_exact (ran : run (step tree) init actions = some s) :
    s.fault = none ∧
      (∀ n sb, (s.node n).sb = some sb → (s.node n).sbRefCount = s.outstanding sb ∧
        (0 < s.outstanding sb → (s.sb sb).paused = false ∨ (s.sb sb).dead ≠ none)) ∧
      (∀ c, c < s.nextCall → (s.call c).got = (s.call c).put ++ (s.call c).stage.holding.toList ∧
        ((s.call c).stage.finished = true → (s.call c).got = (s.call c).put)) ∧
      (∀ c, c < s.nextCall → ∀ sb isNew, (s.call c).stage = .creating sb isNew → (s.sb sb).paused = false) ∧
      ∀ c, c < s.nextCall → ∃ more t, run (step tree) s more = some t ∧ (t.call c).stage.finished = true ∧
        (s.call c).got <+: (t.call c).put := by
  have sound := reached_sound ran
  have exact := sound.exact
  refine ⟨exact.safe,?_,?_,?_,fun c => everything_put sound⟩
  · intro n sb present
    rw [outstanding_holders exact]
    refine ⟨exact.counts n sb present,?_⟩
    intro used
    obtain ⟨c,born,holding⟩ := holder_exists (Int.ne_of_gt used)
    exact .inl (exact.held c born sb holding).2
  · intro c born
    exact ⟨(exact.fine c born).matched,finished_matched exact born⟩
  · intro c born sb isNew stage
    exact (exact.held c born sb (by rw [stage]; rfl)).2

def chain : Tree where
  parent := fun n => if n = 0 then none else some (n - 1)
  older := by
    intro n p parent
    split at parent
    · cases parent
    · cases parent
      omega

def slowPath (c : Nat) : List Action := [.lock c,.force c,.look c,.prepare c "import-cache" none,.make c none]

def twoForkers : List Action :=
  [.call 1 true] ++ slowPath 0 ++ slowPath 1 ++ [.create 1 none,.lockPut 1,.drop 1,.pause 1 none,.built 0] ++
    [.call 1 true,.lock 2,.force 2,.look 2]

theorem zygote_refs_exact_chain :
    ∃ s, run (step chain) init twoForkers = some s ∧ (s.sb 0).paused = true ∧ (s.node 1).sb = some 1 ∧
      (s.node 1).sbRefCount = 2 ∧ s.outstanding 1 = 2 ∧ (s.sb 1).paused = false ∧
      (s.call 1).got = [0] ∧ (s.call 1).put = [0] ∧
      ∃ more t, run (step chain) s more = some t ∧ 1 ∈ (t.call 2).put := by
  have seen : (run (step chain) init twoForkers).map
      (fun s => ((s.node 1).sb,(s.node 1).sbRefCount,(s.sb 0).paused,s.nextCall,(s.call 0).stage,(s.call 1).stage)) =
        some (some 1,2,true,3,.creating 1 true,.collected) := by decide +kernel
  have log : (run (step chain) init twoForkers).map (fun s => [(s.call 1).put,(s.call 2).got]) = some [[0],[1]] := by
    decide +kernel
  obtain ⟨s,ran,facts⟩ := Option.map_eq_some_iff.mp seen
  simp only [Prod.mk.injEq] at facts
  obtain ⟨present,two,paused,calls,forking,collected⟩ := facts
  rw [ran] at log
  obtain ⟨put,got⟩ : (s.call 1).put = [0] ∧ (s.call 2).got = [1] := by simpa using log
  obtain ⟨_,exact,matched,awake,ends⟩ := zygote_refs_exact ran
  obtain ⟨count,_⟩ := exact 1 1 present
  refine ⟨s,ran,paused,present,two,count.symm.trans two,awake 0 (by omega) 1 true forking,?_,put,?_⟩
  · rw [(matched 1 (by omega)).2 (by rw [collected]; rfl),put]
  · obtain ⟨more,t,led,_,given⟩ := ends 2 (by omega)
    rw [got] at given
    exact ⟨more,t,led,given.subset (List.mem_singleton.mpr rfl)⟩

end OpenLambda.Zygote
