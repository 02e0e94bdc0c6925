import OpenLambda.Zygote.ZygoteProgress

namespace OpenLambda.Zygote
open Foundation.Runs

def Stage.forking : Stage → Option Nat
  | .creating sb _ => some sb
  | _ => none

def ChildCreate.mayRetry (k : ChildCreate) : Bool :=
  match k.stage with
  | .creating _ isNew => !isNew
  | .putting _ isNew result | .dropping _ isNew result | .pausing _ isNew result =>
      !isNew && result = .failed .forkFailed
  | .start | .locked => k.forceNew
  | _ => false

def Fills (tree : Tree) (s : Cache) : Action → Bool
  | .make c err => tree.parent (s.call c).node = none ∧ err = none
  | .built c => match (s.call c).stage with
      | .building sub => match (s.call sub).stage with
          | .returned (.sandbox _) => true
          | _ => false
      | _ => false
  | _ => false

def Cache.Unplaced (s : Cache) (sb : Nat) : Prop := ∀ n, s.fate sb ≠ .placed n

-- What a step of the call `c` does to the Zygotes of the nodes; `fills` tells
-- that a new one may be put in.
structure Pass (fills : Prop) (s : Cache) (c : Nat) (t : Cache) : Prop where
  elsewhere : ∀ n, n ≠ (s.call c).node → (t.node n).sb = (s.node n).sb
  here : (t.node (s.call c).node).sb = (s.nodeOf c).sb ∨ (t.node (s.call c).node).sb = none ∨
    ∃ new, (t.node (s.call c).node).sb = some new ∧ s.Unplaced new ∧ (t.call c).mayRetry = false ∧ fills
  retry : (t.call c).mayRetry = true → (s.call c).mayRetry = true ∧ (t.call c).got = (s.call c).got ∨
    ∃ sb, (t.call c).got.getLast? = some sb ∧ (t.node (s.call c).node).sb = some sb ∧ (t.call c).stage.forking = some sb
  forking : ∀ sb, (t.call c).stage.forking = some sb → (s.nodeOf c).sb = some sb ∨ s.Unplaced sb
  others : ∀ d, d < t.nextCall → d ≠ c →
    d < s.nextCall ∧ t.call d = s.call d ∨ (t.call d).mayRetry = false ∧ (t.call d).stage.forking = none
  fate : ∀ sb n, s.fate sb = .placed n → t.fate sb = .placed n

theorem act_pass (s : Cache) (node : ImportCacheNode) (k : ChildCreate)
    (here : node.sb = (s.nodeOf c).sb ∨ node.sb = none ∨
      ∃ new, node.sb = some new ∧ s.Unplaced new ∧ k.mayRetry = false ∧ fills)
    (retry : k.mayRetry = true → (s.call c).mayRetry = true ∧ k.got = (s.call c).got ∨
      ∃ sb, k.got.getLast? = some sb ∧ node.sb = some sb ∧ k.stage.forking = some sb)
    (forking : ∀ sb, k.stage.forking = some sb → (s.nodeOf c).sb = some sb ∨ s.Unplaced sb) :
    Pass fills s c (s.act c node k) where
  elsewhere := fun n other => by rw [act_node_other s node k other]
  here := by rw [act_node_self,act_call_self]; exact here
  retry := by rw [act_node_self,act_call_self]; exact retry
  forking := by rw [act_call_self]; exact forking
  others := fun d born other => .inl ⟨born,act_call_other s node k other⟩
  fate := fun _ _ placed => placed

theorem goto_pass (s : Cache) (node : ImportCacheNode) (k : ChildCreate)
    (here : node.sb = (s.nodeOf c).sb ∨ node.sb = none) (got : k.got = (s.call c).got)
    (retry : k.mayRetry = true → (s.call c).mayRetry = true) (forking : k.stage.forking = none) :
    Pass fills s c (s.act c node k) := by
  refine act_pass s node k (here.imp id .inl) (fun may => .inl ⟨retry may,got⟩) ?_
  intro sb mine
  cases forking.symm.trans mine

theorem lock_pass (exact : Exact s) (born : c < s.nextCall) (moved : s.lock c = some t) : Pass fills s c t := by
  unfold Cache.lock at moved
  split at moved
  · rename_i here
    split at moved
    · split at moved
      · cases moved
        refine goto_pass s _ _ (.inl rfl) rfl ?_ rfl
        simp only [ChildCreate.mayRetry,ChildCreate.goto,here]
        exact id
      · cases moved
    · have tries := (exact.fine c born).tries
      omega
  · cases moved

theorem force_pass (moved : s.force c = some t) : Pass fills s c t := by
  unfold Cache.force at moved
  split at moved
  · split at moved
    · cases moved
      exact {goto_pass s {s.nodeOf c with sb := none} ((s.call c).goto .looking) (.inr rfl) rfl Bool.noConfusion rfl with}
    · cases moved
      exact goto_pass s (s.nodeOf c) _ (.inl rfl) rfl Bool.noConfusion rfl
  · cases moved

theorem getOld_pass (s : Cache) (node : ImportCacheNode) (present : (s.nodeOf c).sb = some sb) (same : node.sb = some sb) :
    Pass fills s c (s.getReturns c node sb false) := by
  refine act_pass s _ _ (.inl (same.trans present.symm)) (fun _ => .inr ⟨sb,by simp,same,rfl⟩) ?_
  intro other forking
  cases forking
  exact .inl present

theorem getFails_pass (s : Cache) (node : ImportCacheNode) (here : node.sb = (s.nodeOf c).sb ∨ node.sb = none)
    (err : CreateErr) : Pass fills s c (s.getFails c node err) :=
  goto_pass s {node with mutex := none} _ here rfl Bool.noConfusion rfl

theorem look_pass (moved : s.look c = some t) : Pass fills s c t := by
  unfold Cache.look at moved
  split at moved
  · split at moved
    · rename_i sb present
      split at moved
      · cases moved
        exact goto_pass s _ _ (.inl rfl) rfl Bool.noConfusion rfl
      · cases moved
        exact getOld_pass s _ present present
    · cases moved
      exact goto_pass s _ _ (.inl rfl) rfl Bool.noConfusion rfl
  · cases moved

theorem unpause_pass {inner : Option String} (exact : Exact s) (born : c < s.nextCall)
    (moved : s.unpause c inner = some t) : Pass fills s c t := by
  unfold Cache.unpause at moved
  split at moved
  · rename_i sb here
    have fits := exact.fits c born
    rw [ChildCreate.Fits,here] at fits
    dsimp only at moved fits
    split at moved
    · rename_i err _
      cases moved
      exact {getFails_pass s {s.nodeOf c with sb := none} (.inr rfl) (.other err) with}
    · cases moved
      exact {getOld_pass s {s.nodeOf c with sbRefCount := (s.nodeOf c).sbRefCount + 1} fits.1 fits.1 with}
  · cases moved

theorem prepare_pass (moved : s.prepare c codeDir err = some t) : Pass fills s c t := by
  unfold Cache.prepare at moved
  split at moved
  · split at moved
    · split at moved
      · cases moved
        exact getFails_pass s _ (.inl rfl) _
      · cases moved
        exact goto_pass s _ _ (.inl rfl) rfl Bool.noConfusion rfl
    · cases moved
      exact goto_pass s _ _ (.inl rfl) rfl Bool.noConfusion rfl
  · cases moved

theorem getNew_pass (s : Cache) (unplaced : s.Unplaced sb) (filled : fills) : Pass fills s c (s.getNew c sb) := by
  refine act_pass s _ _ (.inr (.inr ⟨sb,rfl,unplaced,rfl,filled⟩)) Bool.noConfusion ?_
  intro other forking
  cases forking
  exact .inr unplaced

theorem next_unplaced (exact : Exact s) : s.Unplaced s.nextSb := by
  intro n placed
  cases (exact.unused s.nextSb (Nat.le_refl _)).symm.trans placed

theorem mint_fate (exact : Exact s) (placed : s.fate sb = .placed n) (fate : Fate) : (s.mint fate).fate sb = .placed n := by
  refine (Function.update_of_ne ?_ _ _).trans placed
  rintro rfl
  exact next_unplaced exact n placed

theorem pass_after (pass : Pass fills mid c t) (same : mid.call c = s.call c) (nodes : mid.node = s.node)
    (fates : ∀ sb n, s.fate sb = .placed n → mid.fate sb = .placed n)
    (others : ∀ d, d < mid.nextCall → d ≠ c →
      d < s.nextCall ∧ mid.call d = s.call d ∨ (mid.call d).mayRetry = false ∧ (mid.call d).stage.forking = none) :
    Pass fills s c t := by
  have sameNode : mid.nodeOf c = s.nodeOf c := by unfold Cache.nodeOf; rw [same,nodes]
  have unplaced : ∀ sb, mid.Unplaced sb → s.Unplaced sb := fun sb free n placed => free n (fates sb n placed)
  obtain ⟨elsewhere,here,retry,forking,rest,kept⟩ := pass
  rw [same] at elsewhere here retry
  rw [nodes] at elsewhere
  rw [sameNode] at here forking
  refine ⟨elsewhere,?_,retry,?_,?_,fun sb n placed => kept sb n (fates sb n placed)⟩
  · rcases here with old | gone | ⟨new,put,free,known⟩
    · exact .inl old
    · exact .inr (.inl gone)
    · exact .inr (.inr ⟨new,put,unplaced new free,known⟩)
  · intro sb mine
    exact (forking sb mine).imp id (unplaced sb)
  · intro d born other
    rcases rest d born other with ⟨older,equal⟩ | idle
    · rw [equal]
      exact others d older other
    · exact .inr idle

theorem make_pass (exact : Exact s) (born : c < s.nextCall) (moved : s.make tree c err = some t) :
    Pass (Fills tree s (.make c err) = true) s c t := by
  unfold Cache.make at moved
  split at moved
  · split at moved
    · rename_i parent above
      cases moved
      have same : (s.spawn parent false (some c)).call c = s.call c := Function.update_of_ne (Nat.ne_of_lt born) _ _
      refine pass_after (goto_pass (s.spawn parent false (some c)) _ _ (.inl ?_) ?_ Bool.noConfusion rfl) same rfl
        (fun _ _ placed => placed) ?_
      · unfold Cache.nodeOf
        rw [same]
        rfl
      · rw [same]
        rfl
      · intro d known other
        rcases Nat.lt_succ_iff_lt_or_eq.mp known with older | rfl
        · exact .inl ⟨older,Function.update_of_ne (Nat.ne_of_lt older) _ _⟩
        · dsimp only [Cache.spawn]
          rw [Function.update_self]
          exact .inr ⟨rfl,rfl⟩
    · rename_i above
      split at moved
      · cases moved
        have pass : Pass (Fills tree s (.make c none) = true) s c (s.getNew c s.nextSb) :=
          getNew_pass s (next_unplaced exact) (by simp [Fills,above])
        exact {pass with fate := fun sb n placed => mint_fate exact placed _}
      · cases moved
        exact getFails_pass s _ (.inl rfl) _
  · cases moved

theorem built_pass (exact : Exact s) (born : c < s.nextCall) (moved : s.built c = some t) :
    Pass (Fills tree s (.built c) = true) s c t := by
  unfold Cache.built at moved
  split at moved
  · rename_i sub here
    obtain ⟨known,called⟩ := exact.building c born sub here
    have others : ∀ d, d < s.nextCall → d ≠ c → d < s.nextCall ∧ (s.collect sub).call d = s.call d ∨
        ((s.collect sub).call d).mayRetry = false ∧ ((s.collect sub).call d).stage.forking = none := by
      intro d older _
      by_cases equal : d = sub
      · subst d
        dsimp only [Cache.collect]
        rw [Function.update_self]
        exact .inr ⟨rfl,rfl⟩
      · exact .inl ⟨older,Function.update_of_ne equal _ _⟩
    have apart : ∀ result, (s.call sub).stage = .returned result → (s.collect sub).call c = s.call c := by
      intro result returned
      refine Function.update_of_ne ?_ _ _
      rintro rfl
      cases here.symm.trans returned
    split at moved
    · rename_i sb returned
      cases moved
      have moving := (exact.transit sub known (by simp [called]) sb (by rw [returned]; rfl)).1
      have unplaced : (s.collect sub).Unplaced sb := fun n placed => by cases moving.symm.trans placed
      have pass : Pass (Fills tree s (.built c) = true) (s.collect sub) c ((s.collect sub).getNew c sb) :=
        getNew_pass _ unplaced (by simp [Fills,here,returned])
      have placed : Pass (Fills tree s (.built c) = true) (s.collect sub) c
          (((s.collect sub).place sb (s.call c).node).getNew c sb) := by
        refine {pass with fate := ?_}
        intro other n placed
        refine (Function.update_of_ne ?_ _ _).trans placed
        rintro rfl
        exact unplaced n placed
      exact pass_after placed (apart _ returned) rfl (fun _ _ placed => placed) others
    · rename_i err returned
      cases moved
      refine pass_after (getFails_pass (s.collect sub) _ (.inl ?_) err) (apart _ returned) rfl (fun _ _ placed => placed) others
      unfold Cache.nodeOf
      rw [apart _ returned]
      rfl
    · cases moved
  · cases moved

theorem create_pass (exact : Exact s) (moved : s.create c err = some t) : Pass fills s c t := by
  unfold Cache.create at moved
  split at moved
  · rename_i sb isNew here
    -- A new Zygote is not retried, whatever the outcome.
    have may : ∀ result, ((s.call c).goto (.putting sb isNew result)).mayRetry = true → (s.call c).mayRetry = true := by
      intro result
      cases isNew with
      | false => simp [ChildCreate.mayRetry,here]
      | true => exact Bool.noConfusion
    split at moved
    · cases moved
      have same : ((s.nodeOf c).created (s.call c).isLeaf).sb = (s.nodeOf c).sb :=
        (created_core (s.nodeOf c) (s.call c).isLeaf).2.1
      exact {goto_pass s _ ((s.call c).goto (.putting sb isNew (.sandbox s.nextSb))) (.inl same) rfl (may _) rfl with
        fate := fun sb n placed => mint_fate exact placed _}
    · cases moved
      exact goto_pass s _ _ (.inl rfl) rfl (may _) rfl
  · cases moved

theorem lockPut_pass (moved : s.lockPut c = some t) : Pass fills s c t := by
  unfold Cache.lockPut at moved
  split at moved
  · rename_i sb isNew result here
    split at moved
    · cases moved
      refine goto_pass s _ _ (.inl rfl) rfl ?_ rfl
      intro may
      rw [ChildCreate.mayRetry,here]
      exact may
    · cases moved
  · cases moved

theorem putReturns_retry (k : ChildCreate) (isNew : Bool) (result : Result) :
    ((k.putReturns isNew result).mayRetry = true → isNew = false ∧ result = .failed .forkFailed) ∧
      (k.putReturns isNew result).got = k.got ∧ (k.putReturns isNew result).stage.forking = none := by
  unfold ChildCreate.putReturns
  split
  · exact ⟨Bool.noConfusion,rfl,rfl⟩
  · rename_i again
    obtain ⟨failed,old⟩ := not_or.mp again
    exact ⟨fun _ => ⟨Bool.eq_false_iff.mpr old,Classical.not_not.mp failed⟩,rfl,rfl⟩

theorem drop_pass (exact : Exact s) (born : c < s.nextCall) (moved : s.drop c = some t) : Pass fills s c t := by
  have safe := (drop_exact exact born moved).safe
  unfold Cache.drop at moved
  split at moved
  · rename_i sb isNew result here
    have leaves : ∀ node : ImportCacheNode, node.sb = (s.nodeOf c).sb → Pass fills s c (s.act c {node with mutex := none}
        (ChildCreate.putReturns {s.call c with put := (s.call c).put ++ [sb]} isNew result)) := by
      intro node same
      obtain ⟨retry,got,forking⟩ := putReturns_retry {s.call c with put := (s.call c).put ++ [sb]} isNew result
      refine goto_pass s _ _ (.inl same) got ?_ forking
      intro may
      obtain ⟨old,failed⟩ := retry may
      rw [ChildCreate.mayRetry,here,old,failed]
      rfl
    dsimp only at moved
    split at moved
    · split at moved
      · cases moved
        refine goto_pass s _ _ (.inl rfl) rfl ?_ rfl
        intro may
        rw [ChildCreate.mayRetry,here]
        exact may
      · split at moved
        · cases moved
          cases safe
        · cases moved
          exact leaves {s.nodeOf c with sbRefCount := (s.nodeOf c).sbRefCount - 1} rfl
    · cases moved
      exact leaves _ rfl
  · cases moved

theorem pause_pass {inner : Option String} (moved : s.pause c inner = some t) : Pass fills s c t := by
  unfold Cache.pause at moved
  split at moved
  · rename_i sb isNew result here
    cases moved
    obtain ⟨retry,got,forking⟩ := putReturns_retry (s.call c) isNew result
    have kept : (if (SafeWrapper.pause (s.sb sb) inner).err = none then s.nodeOf c else {s.nodeOf c with sb := none}).sb =
        (s.nodeOf c).sb ∨
        (if (SafeWrapper.pause (s.sb sb) inner).err = none then s.nodeOf c else {s.nodeOf c with sb := none}).sb = none := by
      split
      · exact .inl rfl
      · exact .inr rfl
    have pass : Pass fills s c (s.act c {(if (SafeWrapper.pause (s.sb sb) inner).err = none then s.nodeOf c
        else {s.nodeOf c with sb := none}) with mutex := none} ((s.call c).putReturns isNew result)) := by
      refine goto_pass s _ _ kept got ?_ forking
      intro may
      obtain ⟨old,failed⟩ := retry may
      rw [ChildCreate.mayRetry,here,old,failed]
      rfl
    exact {pass with}
  · cases moved

theorem callStep_pass (exact : Exact s) (born : c < s.nextCall) (actor : action.actor = some c)
    (moved : callStep tree s c action = some t) : Pass (Fills tree s action = true) s c t := by
  cases action with
  | lock _ => exact lock_pass exact born moved
  | force _ => exact force_pass moved
  | look _ => exact look_pass moved
  | unpause _ inner => exact unpause_pass exact born moved
  | prepare _ codeDir err => exact prepare_pass moved
  | make _ err => cases actor; exact make_pass exact born moved
  | built _ => cases actor; exact built_pass exact born moved
  | create _ err => exact create_pass exact moved
  | lockPut _ => exact lockPut_pass moved
  | drop _ => exact drop_pass exact born moved
  | pause _ inner => exact pause_pass moved
  | _ => cases actor

structure Aside (s t : Cache) : Prop where
  nodes : ∀ n, (t.node n).sb = (s.node n).sb ∨ (t.node n).sb = none
  calls : ∀ d, d < t.nextCall →
    d < s.nextCall ∧ t.call d = s.call d ∨ (t.call d).mayRetry = false ∧ (t.call d).stage.forking = none
  fate : t.fate = s.fate

theorem spawn_aside (s : Cache) (node : Nat) (isLeaf : Bool) : Aside s (s.spawn node isLeaf none) where
  nodes := fun _ => .inl rfl
  calls := by
    intro d known
    rcases Nat.lt_succ_iff_lt_or_eq.mp known with older | rfl
    · exact .inl ⟨older,Function.update_of_ne (Nat.ne_of_lt older) _ _⟩
    · dsimp only [Cache.spawn]
      rw [Function.update_self]
      exact .inr ⟨rfl,rfl⟩
  fate := rfl

theorem kill_aside (moved : s.kill n = some t) : Aside s t := by
  unfold Cache.kill at moved
  split at moved
  · split at moved
    · cases moved
      refine ⟨?_,fun _ known => .inl ⟨known,rfl⟩,rfl⟩
      intro m
      dsimp only
      by_cases equal : m = n
      · subst m
        rw [Function.update_self]
        exact .inr rfl
      · rw [Function.update_of_ne equal]
        exact .inl rfl
    · cases moved
      exact ⟨fun _ => .inl rfl,fun _ known => .inl ⟨known,rfl⟩,rfl⟩
  · cases moved

theorem doom_aside (moved : s.doom sb = some t) : Aside s t := by
  unfold Cache.doom at moved
  split at moved
  · cases moved
    exact ⟨fun _ => .inl rfl,fun _ known => .inl ⟨known,rfl⟩,rfl⟩
  · cases moved

theorem step_parts (exact : Exact s) (moved : step tree s action = some t) :
    (∃ c, action.actor = some c ∧ c < s.nextCall ∧ callStep tree s c action = some t ∧
      Pass (Fills tree s action = true) s c t) ∨ action.actor = none ∧ Aside s t := by
  unfold step at moved
  split at moved
  · cases moved
  · split at moved
    · rename_i c actor
      obtain ⟨born,moved⟩ := Option.ite_none_right_eq_some.mp moved
      exact .inl ⟨c,actor,born,moved,callStep_pass exact born actor moved⟩
    · rename_i nobody
      refine .inr ⟨nobody,?_⟩
      cases action with
      | call node isLeaf =>
          cases moved
          exact spawn_aside s node isLeaf
      | kill node => exact kill_aside moved
      | doom sb => exact doom_aside moved
      | evict sb force reason =>
          cases moved
          exact ⟨fun _ => .inl rfl,fun _ known => .inl ⟨known,rfl⟩,rfl⟩
      | _ => cases moved

def Replaces (s : Cache) : Action → Bool
  | .force c => (s.call c).forceNew && (s.nodeOf c).sb.isSome
  | _ => false

-- A Zygote is put in a node only while no other call there may come to a second
-- attempt, and taken away only while no other call has still to fork from it.
def Calm (tree : Tree) (s : Cache) (action : Action) : Prop :=
  ∀ c ∈ action.actor, ∀ d, d < s.nextCall → d ≠ c → (s.call d).node = (s.call c).node →
    (Fills tree s action = true → (s.call d).mayRetry = false) ∧
      (Replaces s action = true → (s.call d).stage.forking ≠ (s.nodeOf c).sb)

instance Calm.decidable (tree : Tree) (s : Cache) (action : Action) : Decidable (Calm tree s action) := by
  unfold Calm
  infer_instance

def Cache.Pending (s : Cache) (c : Nat) : Prop :=
  ∃ sb, (s.call c).got.getLast? = some sb ∧ ∀ there, (s.nodeOf c).sb = some there → there = sb

def Cache.AllPending (s : Cache) : Prop := ∀ c, c < s.nextCall → (s.call c).mayRetry = true → s.Pending c

theorem pass_pending (all : s.AllPending) (pass : Pass (Fills tree s action = true) s c t) (actor : action.actor = some c)
    (born : c < s.nextCall) (sameNode : (t.call c).node = (s.call c).node) (calm : Calm tree s action) : t.AllPending := by
  intro d known may
  by_cases equal : d = c
  · subst d
    rcases pass.retry may with ⟨before,got⟩ | ⟨sb,last,there,_⟩
    · obtain ⟨sb,last,only⟩ := all c born before
      refine ⟨sb,by rw [got,last],?_⟩
      intro there present
      rw [Cache.nodeOf,sameNode] at present
      rcases pass.here with old | gone | ⟨_,_,_,not,_⟩
      · exact only there (old.symm.trans present)
      · cases gone.symm.trans present
      · cases not.symm.trans may
    · refine ⟨sb,last,?_⟩
      intro other present
      rw [Cache.nodeOf,sameNode,there] at present
      exact (Option.some.inj present).symm
  · rcases pass.others d known equal with ⟨older,same⟩ | ⟨idle,_⟩
    · rw [same] at may
      obtain ⟨sb,last,only⟩ := all d older may
      refine ⟨sb,by rw [same,last],?_⟩
      intro there present
      rw [Cache.nodeOf,same] at present
      by_cases here : (s.call d).node = (s.call c).node
      · rw [here] at present
        rcases pass.here with old | gone | ⟨_,_,_,_,filled⟩
        · refine only there ?_
          rw [Cache.nodeOf,here]
          exact old.symm.trans present
        · cases gone.symm.trans present
        · cases ((calm c actor d older equal here).1 filled).symm.trans may
      · rw [pass.elsewhere _ here] at present
        exact only there present
    · cases idle.symm.trans may

theorem aside_pending (all : s.AllPending) (aside : Aside s t) : t.AllPending := by
  intro d known may
  rcases aside.calls d known with ⟨older,same⟩ | ⟨idle,_⟩
  · rw [same] at may
    obtain ⟨sb,last,only⟩ := all d older may
    refine ⟨sb,by rw [same,last],?_⟩
    intro there present
    rw [Cache.nodeOf,same] at present
    rcases aside.nodes (s.call d).node with old | gone
    · exact only there (old.symm.trans present)
    · cases gone.symm.trans present
  · cases idle.symm.trans may

theorem reached_pending (meets : Meets (step tree) (Calm tree) init actions) (ran : run (step tree) init actions = some s) :
    s.AllPending := by
  have start : Cache.AllPending init := fun _ none => absurd none (Nat.not_lt_zero _)
  have both := run_preserves_guarded (fun s => Exact s ∧ s.AllPending) ?_ ⟨init_exact,start⟩ meets ran
  · exact both.2
  · rintro s action t ⟨exact,all⟩ calm moved
    refine ⟨step_exact exact moved,?_⟩
    rcases step_parts exact moved with ⟨c,actor,born,called,pass⟩ | ⟨_,aside⟩
    · exact pass_pending all pass actor born (callStep_shift exact born called).sameNode calm
    · exact aside_pending all aside

structure Cache.Gone (s : Cache) (sb : Nat) : Prop where
  placed : ∃ n, s.fate sb = .placed n
  nowhere : ∀ n, (s.node n).sb ≠ some sb
  unforked : ∀ c, c < s.nextCall → (s.call c).stage.forking ≠ some sb

theorem pass_gone (gone : s.Gone sb) (pass : Pass fills s c t) : t.Gone sb := by
  obtain ⟨n,placed⟩ := gone.placed
  refine ⟨⟨n,pass.fate sb n placed⟩,?_,?_⟩
  · intro m there
    by_cases here : m = (s.call c).node
    · subst m
      rcases pass.here with old | none | ⟨new,put,unplaced,_⟩
      · exact gone.nowhere _ (old.symm.trans there)
      · cases none.symm.trans there
      · cases put.symm.trans there
        exact unplaced n placed
    · rw [pass.elsewhere m here] at there
      exact gone.nowhere m there
  · intro d known forks
    by_cases equal : d = c
    · subst d
      rcases pass.forking sb forks with there | unplaced
      · exact gone.nowhere _ there
      · exact unplaced n placed
    · rcases pass.others d known equal with ⟨older,same⟩ | ⟨_,idle⟩
      · rw [same] at forks
        exact gone.unforked d older forks
      · cases idle.symm.trans forks

theorem aside_gone (gone : s.Gone sb) (aside : Aside s t) : t.Gone sb := by
  refine ⟨by rw [aside.fate]; exact gone.placed,?_,?_⟩
  · intro n there
    rcases aside.nodes n with old | none
    · exact gone.nowhere n (old.symm.trans there)
    · cases none.symm.trans there
  · intro d known forks
    rcases aside.calls d known with ⟨older,same⟩ | ⟨_,idle⟩
    · rw [same] at forks
      exact gone.unforked d older forks
    · cases idle.symm.trans forks

theorem run_gone (exact : Exact s) (gone : s.Gone sb) (ran : run (step tree) s actions = some t) : t.Gone sb := by
  have both := run_preserves (fun s => Exact s ∧ s.Gone sb) ?_ ⟨exact,gone⟩ ran
  · exact both.2
  · rintro s action t ⟨exact,gone⟩ moved
    refine ⟨step_exact exact moved,?_⟩
    rcases step_parts exact moved with ⟨c,_,_,_,pass⟩ | ⟨_,aside⟩
    · exact pass_gone gone pass
    · exact aside_gone gone aside

theorem forking_creates (forks : (s.call c).stage = .creating sb isNew) (moved : callStep tree s c action = some t)
    (actor : action.actor = some c) : ∃ err, action = .create c err ∧ s.create c err = some t := by
  cases action with
  | create d err => cases actor; exact ⟨err,rfl,moved⟩
  | call | kill | doom | evict => cases actor
  | _ =>
      simp [callStep,Cache.lock,Cache.force,Cache.look,Cache.unpause,Cache.prepare,Cache.make,Cache.built,
        Cache.lockPut,Cache.drop,Cache.pause,forks] at moved

theorem forking_stage {stage : Stage} (forks : stage.forking = some sb) : ∃ isNew, stage = .creating sb isNew := by
  cases stage <;> cases forks
  exact ⟨_,rfl⟩

theorem create_retry {s t : Cache} (forks : (s.call c).stage = .creating sb isNew) (moved : s.create c err = some t)
    (may : (t.call c).mayRetry = true) : err = some .forkFailed ∧ isNew = false := by
  rw [Cache.create,forks] at moved
  cases err with
  | none =>
      cases moved
      rw [act_call_self] at may
      simp [ChildCreate.mayRetry,ChildCreate.goto] at may
  | some e =>
      cases moved
      rw [act_call_self] at may
      simpa [ChildCreate.mayRetry,ChildCreate.goto,and_comm] using may

def FailedOn (tree : Tree) (actions : List Action) (c : Nat) (k : ChildCreate) : Prop :=
  ∃ early late s sb, actions = early ++ .create c (some .forkFailed) :: late ∧ run (step tree) init early = some s ∧
    (s.call c).stage = .creating sb false ∧ (s.call c).got = k.got ∧ k.got.getLast? = some sb

theorem failedOn_extend (failed : FailedOn tree actions c k) (got : other.got = k.got) (action : Action) :
    FailedOn tree (actions ++ [action]) c other := by
  obtain ⟨early,late,s,sb,rfl,ran,forks,same,last⟩ := failed
  exact ⟨early,late ++ [action],s,sb,by simp,ran,forks,by rw [got,same],by rw [got,last]⟩

theorem creating_last (exact : Exact s) (born : c < s.nextCall) (forks : (s.call c).stage = .creating sb isNew) :
    (s.call c).got.getLast? = some sb := by
  rw [(exact.fine c born).matched,forks]
  simp [Stage.holding]

theorem reached_failed (ran : run (step tree) init actions = some s) : ∀ c, c < s.nextCall →
    (s.call c).mayRetry = true → (s.call c).stage.forking = none → FailedOn tree actions c (s.call c) := by
  refine run_history (fun actions s => ∀ c, c < s.nextCall → (s.call c).mayRetry = true →
    (s.call c).stage.forking = none → FailedOn tree actions c (s.call c)) ?_ ?_ ran
  · intro c born
    exact absurd born (Nat.not_lt_zero _)
  · intro early s action t reached all moved d known may settled
    have exact := (reached_sound reached).exact
    rcases step_parts exact moved with ⟨c,actor,born,called,pass⟩ | ⟨_,aside⟩
    · by_cases equal : d = c
      · subst d
        rcases pass.retry may with ⟨before,got⟩ | ⟨sb,_,_,forks⟩
        · cases forks : (s.call c).stage.forking with
          | none => exact failedOn_extend (all c born before forks) got action
          | some sb =>
              obtain ⟨isNew,stage⟩ := forking_stage forks
              obtain ⟨err,rfl,created⟩ := forking_creates stage called actor
              obtain ⟨rfl,rfl⟩ := create_retry stage created may
              have last := creating_last exact born stage
              exact ⟨early,[],s,sb,rfl,reached,stage,got.symm,by rw [got,last]⟩
        · cases settled.symm.trans forks
      · rcases pass.others d known equal with ⟨older,same⟩ | ⟨idle,_⟩
        · rw [same] at may settled ⊢
          exact failedOn_extend (all d older may settled) rfl action
        · cases idle.symm.trans may
    · rcases aside.calls d known with ⟨older,same⟩ | ⟨idle,_⟩
      · rw [same] at may settled ⊢
        exact failedOn_extend (all d older may settled) rfl action
      · cases idle.symm.trans may

theorem force_parts (forced : (s.call c).forceNew = true) (there : (s.nodeOf c).sb = some old)
    (moved : step tree s (.force c) = some t) : c < s.nextCall ∧ (s.call c).stage = .locked ∧
      t = {s.act c {s.nodeOf c with sb := none} ((s.call c).goto .looking) with doomed := s.doomed ++ [old]} := by
  unfold step at moved
  split at moved
  · cases moved
  · obtain ⟨born,moved⟩ := Option.ite_none_right_eq_some.mp moved
    rw [callStep,Cache.force] at moved
    split at moved
    · rename_i locked
      rw [forced,there] at moved
      cases moved
      exact ⟨born,locked,rfl⟩
    · cases moved

theorem force_gone (exact : Exact s) (forced : (s.call c).forceNew = true) (there : (s.nodeOf c).sb = some old)
    (moved : step tree s (.force c) = some t) (calm : Calm tree s (.force c)) : t.Gone old := by
  obtain ⟨born,locked,rfl⟩ := force_parts forced there moved
  have placed := exact.placed _ old there
  refine ⟨⟨_,placed⟩,?_,?_⟩
  · intro n present
    by_cases here : n = (s.call c).node
    · subst n
      simp [Cache.act] at present
    · have elsewhere := exact.placed n old (by simpa [Cache.act,here] using present)
      exact here (Fate.placed.inj (elsewhere.symm.trans placed))
  · intro d known forks
    by_cases equal : d = c
    · subst d
      simp [Cache.act,ChildCreate.goto,Stage.forking] at forks
    · have before : (s.call d).stage.forking = some old := by simpa [Cache.act,equal] using forks
      obtain ⟨isNew,stage⟩ := forking_stage before
      have held := (exact.held d known old (by rw [stage]; rfl)).1
      have same := Fate.placed.inj (held.symm.trans placed)
      exact (calm c rfl d known equal same).2 (by simp [Replaces,forced,there]) (before.trans there.symm)

theorem retry_replaces_failed (meets : Meets (step tree) (Calm tree) init (actions ++ [.force c]))
    (ran : run (step tree) init actions = some s) (forced : (s.call c).forceNew = true)
    (there : (s.nodeOf c).sb = some old) (moved : step tree s (.force c) = some t) :
    t.doomed = s.doomed ++ [old] ∧
      (∃ early late mid, actions = early ++ .create c (some .forkFailed) :: late ∧ run (step tree) init early = some mid ∧
        (mid.call c).stage = .creating old false ∧ (mid.call c).got = (s.call c).got) ∧
      ∀ more u, run (step tree) t more = some u → ∀ d, d < u.nextCall → (u.call d).stage.forking ≠ some old := by
  have exact := (reached_sound ran).exact
  obtain ⟨before,last⟩ := meets_append actions meets ran
  obtain ⟨born,locked,result⟩ := force_parts forced there moved
  have may : (s.call c).mayRetry = true := by rw [ChildCreate.mayRetry,locked]; exact forced
  obtain ⟨tried,isLast,only⟩ := reached_pending before ran c born may
  obtain ⟨early,late,mid,sb,split,reached,stage,got,same⟩ := reached_failed ran c born may (by rw [locked]; rfl)
  cases isLast.symm.trans same
  cases only old there
  refine ⟨by rw [result],⟨early,late,mid,split,reached,stage,got⟩,?_⟩
  intro more u after d known
  exact (run_gone (step_exact exact moved) (force_gone exact forced there moved last.1) after).unforked d known

def oldZygote : List Action :=
  [.call 0 true] ++ slowPath 0 ++ [.create 0 none,.lockPut 0,.drop 0,.pause 0 none,.call 0 true,.lock 1,.force 1,
    .look 1,.unpause 1 none]

def oneRetry : List Action := oldZygote ++ [.create 1 (some .forkFailed),.lockPut 1,.drop 1,.pause 1 none,.lock 1]

theorem retry_replaces_failed_once :
    ∃ s t, run (step chain) init oneRetry = some s ∧ step chain s (.force 1) = some t ∧ t.doomed = [0] ∧
      (∃ early late mid, oneRetry = early ++ .create 1 (some .forkFailed) :: late ∧
        run (step chain) init early = some mid ∧ (mid.call 1).stage = .creating 0 false) ∧
      ∀ more u, run (step chain) t more = some u → ∀ d, d < u.nextCall → (u.call d).stage.forking ≠ some 0 := by
  have meets : Meets (step chain) (Calm chain) init (oneRetry ++ [.force 1]) := by decide +kernel
  have seen : (run (step chain) init oneRetry).any (fun s => decide ((s.call 1).forceNew = true ∧
      (s.nodeOf 1).sb = some 0 ∧ s.doomed = [] ∧ (step chain s (.force 1)).isSome = true)) = true := by decide +kernel
  obtain ⟨s,ran,forced,there,none,moves⟩ := run_seen seen
  obtain ⟨t,moved⟩ := Option.isSome_iff_exists.mp moves
  obtain ⟨doomed,⟨early,late,mid,split,reached,stage,_⟩,later⟩ := retry_replaces_failed meets ran forced there moved
  exact ⟨s,t,ran,moved,by rw [doomed,none]; rfl,⟨early,late,mid,split,reached,stage⟩,later⟩

-- Two calls fail on one Zygote. The second of them to retry destroys the Zygote
-- that the first has put in its place and has still to fork from.
def twoRetries : List Action :=
  oldZygote ++ [.call 0 true,.lock 2,.force 2,.look 2,.create 1 (some .forkFailed),.create 2 (some .forkFailed),
    .lockPut 1,.drop 1,.lockPut 2,.drop 2,.pause 2 none] ++ slowPath 1 ++ [.lock 2]

theorem retry_replaces_fresh :
    ∃ s t u, run (step chain) init twoRetries = some s ∧ (s.call 2).forceNew = true ∧ (s.call 2).got = [0] ∧
      (s.nodeOf 2).sb = some 2 ∧ step chain s (.force 2) = some t ∧ t.doomed = [0,2] ∧
      step chain t (.doom 2) = some u ∧ (u.call 1).stage = .creating 2 true ∧ (u.sb 2).dead ≠ none := by
  have seen : (run (step chain) init twoRetries).any (fun s => decide ((s.call 2).forceNew = true ∧
      (s.call 2).got = [0] ∧ (s.nodeOf 2).sb = some 2 ∧ (run (step chain) s [.force 2]).any (fun t =>
        decide (t.doomed = [0,2] ∧ (run (step chain) t [.doom 2]).any (fun u =>
          decide ((u.call 1).stage = .creating 2 true ∧ (u.sb 2).dead ≠ none)) = true)) = true)) = true := by decide +kernel
  obtain ⟨s,ran,forced,got,there,next⟩ := run_seen seen
  obtain ⟨t,taken,doomed,last⟩ := run_seen next
  obtain ⟨u,destroyed,forks,dead⟩ := run_seen last
  obtain ⟨_,moved,stays⟩ := run_cons_parts taken
  cases stays
  obtain ⟨_,ended,stays⟩ := run_cons_parts destroyed
  cases stays
  exact ⟨s,t,u,ran,forced,got,there,moved,doomed,ended,forks,dead⟩

end OpenLambda.Zygote
