import OpenLambda.Zygote.ZygoteExact

namespace OpenLambda.Zygote

-- How far a call is from its end. The second iteration starts below the end of
-- the first.
def Stage.rank : Stage → Nat
  | .start => 12
  | .locked => 11
  | .looking => 10
  | .unpausing _ | .preparing => 9
  | .making => 8
  | .building _ => 7
  | .creating _ _ => 6
  | .putting _ _ _ => 5
  | .dropping _ _ _ => 4
  | .pausing _ _ _ => 3
  | .returned _ => 1
  | .collected => 0

def ChildCreate.rank (k : ChildCreate) : Nat := (2 - k.i) * 12 + k.stage.rank

structure Shift (tree : Tree) (s : Cache) (c : Nat) (t : Cache) : Prop where
  grows : s.nextCall ≤ t.nextCall
  sameNode : (t.call c).node = (s.call c).node
  got : (s.call c).got <+: (t.call c).got
  rank : (t.call c).rank < (s.call c).rank
  alive : (t.call c).stage ≠ .collected
  others : ∀ d, d ≠ c → d < s.nextCall → (s.call c).stage ≠ .building d → t.call d = s.call d
  taken : ∀ d, (s.call c).stage = .building d → (s.call d).stage.inside = false ∧ (t.call d).stage = .collected
  fresh : ∀ d, s.nextCall ≤ d → d < t.nextCall → (t.call d).stage = .start
  building : ∀ d, (t.call c).stage = .building d →
    d < t.nextCall ∧ (t.call d).stage = .start ∧ tree.parent (s.call c).node = some (t.call d).node
  mutexes : ∀ n, n ≠ (s.call c).node → (t.node n).mutex = (s.node n).mutex
  mutex : (t.node (s.call c).node).mutex = if (t.call c).stage.inside then some c
    else if (s.call c).stage.inside then none else (s.nodeOf c).mutex

theorem act_shift (s : Cache) (node : ImportCacheNode) (k : ChildCreate) (sameNode : k.node = (s.call c).node)
    (got : (s.call c).got <+: k.got) (rank : k.rank < (s.call c).rank) (alive : k.stage ≠ .collected)
    (before : ∀ d, (s.call c).stage ≠ .building d) (after : ∀ d, k.stage ≠ .building d)
    (mutex : node.mutex = if k.stage.inside then some c
      else if (s.call c).stage.inside then none else (s.nodeOf c).mutex) : Shift tree s c (s.act c node k) where
  grows := Nat.le_refl _
  sameNode := by rw [act_call_self,sameNode]
  got := by rw [act_call_self]; exact got
  rank := by rw [act_call_self]; exact rank
  alive := by rw [act_call_self]; exact alive
  others := fun d other _ _ => act_call_other s node k other
  taken := fun d here => absurd here (before d)
  fresh := fun d later earlier => absurd (Nat.lt_of_lt_of_le earlier later) (Nat.lt_irrefl _)
  building := by
    intro d here
    rw [act_call_self] at here
    exact absurd here (after d)
  mutexes := fun n other => by rw [act_node_other s node k other]
  mutex := by rw [act_node_self,act_call_self]; exact mutex

theorem goto_rank (here : (k : ChildCreate).stage = stage) (lower : next.rank < stage.rank) :
    (k.goto next).rank < k.rank := by
  simp only [ChildCreate.rank,ChildCreate.goto,here]
  omega

theorem lock_shift (exact : Exact s) (born : c < s.nextCall) (moved : s.lock c = some t) : Shift tree s c t := by
  unfold Cache.lock at moved
  split at moved
  · rename_i here
    split at moved
    · split at moved
      · cases moved
        exact act_shift s _ _ rfl (List.prefix_refl _) (goto_rank here (by decide)) nofun (by simp [here]) nofun rfl
      · cases moved
    · rename_i third
      have tries := (exact.fine c born).tries
      omega
  · cases moved

theorem force_shift (exact : Exact s) (born : c < s.nextCall) (moved : s.force c = some t) : Shift tree s c t := by
  unfold Cache.force at moved
  split at moved
  · rename_i here
    have mine := exact.locked c born (by rw [here]; rfl)
    have looks : ∀ node, node.mutex = (s.nodeOf c).mutex → Shift tree s c (s.act c node ((s.call c).goto .looking)) :=
      fun node mutex => act_shift s node _ rfl (List.prefix_refl _) (goto_rank here (by decide)) nofun (by simp [here])
        nofun (mutex.trans mine)
    split at moved
    · cases moved
      exact {looks {s.nodeOf c with sb := none} rfl with}
    · cases moved
      exact looks _ rfl
  · cases moved

theorem getReturns_shift (s : Cache) (node : ImportCacheNode) (sb : Nat) (isNew : Bool)
    (here : (s.call c).stage = stage) (inside : stage.inside = true) (before : ∀ d, stage ≠ .building d)
    (lower : 6 < stage.rank) : Shift tree s c (s.getReturns c node sb isNew) := by
  refine act_shift s _ _ rfl (List.prefix_append _ _) ?_ nofun (by simpa [here] using before) nofun ?_
  · simp only [ChildCreate.rank,here]
    exact Nat.add_lt_add_left lower _
  · rw [here,inside]
    rfl

theorem getFails_shift (s : Cache) (node : ImportCacheNode) (err : CreateErr) (here : (s.call c).stage = stage)
    (inside : stage.inside = true) (before : ∀ d, stage ≠ .building d) (lower : 1 < stage.rank) :
    Shift tree s c (s.getFails c node err) := by
  refine act_shift s _ _ rfl (List.prefix_refl _) (goto_rank here lower) nofun (by simpa [here] using before) nofun ?_
  rw [here,inside]
  rfl

theorem look_shift (exact : Exact s) (born : c < s.nextCall) (moved : s.look c = some t) : Shift tree s c t := by
  unfold Cache.look at moved
  split at moved
  · rename_i here
    have mine := exact.locked c born (by rw [here]; rfl)
    split at moved
    · split at moved
      · cases moved
        exact act_shift s _ _ rfl (List.prefix_refl _) (goto_rank here (by simp [Stage.rank])) nofun (by simp [here])
          nofun mine
      · cases moved
        exact getReturns_shift s _ _ _ here rfl nofun (by simp [Stage.rank])
    · cases moved
      exact act_shift s _ _ rfl (List.prefix_refl _) (goto_rank here (by simp [Stage.rank])) nofun (by simp [here])
        nofun mine
  · cases moved

theorem unpause_shift {inner : Option String} (moved : s.unpause c inner = some t) : Shift tree s c t := by
  unfold Cache.unpause at moved
  split at moved
  · rename_i sb here
    dsimp only at moved
    split at moved
    · cases moved
      exact {getFails_shift s _ _ here rfl nofun (by simp [Stage.rank]) with}
    · cases moved
      exact {getReturns_shift s _ sb false here rfl nofun (by simp [Stage.rank]) with}
  · cases moved

theorem prepare_shift (exact : Exact s) (born : c < s.nextCall) (moved : s.prepare c codeDir err = some t) :
    Shift tree s c t := by
  unfold Cache.prepare at moved
  split at moved
  · rename_i here
    have mine := exact.locked c born (by rw [here]; rfl)
    have making : ∀ node, node.mutex = (s.nodeOf c).mutex → Shift tree s c (s.act c node ((s.call c).goto .making)) :=
      fun node mutex => act_shift s node _ rfl (List.prefix_refl _) (goto_rank here (by simp [Stage.rank])) nofun
        (by simp [here]) nofun (mutex.trans mine)
    split at moved
    · split at moved
      · cases moved
        exact getFails_shift s _ _ here rfl nofun (by simp [Stage.rank])
      · cases moved
        exact making _ rfl
    · cases moved
      exact making _ rfl
  · cases moved

theorem make_shift (exact : Exact s) (born : c < s.nextCall) (moved : s.make tree c err = some t) :
    Shift tree s c t := by
  unfold Cache.make at moved
  split at moved
  · rename_i here
    have mine := exact.locked c born (by rw [here]; rfl)
    split at moved
    · rename_i parent above
      cases moved
      have older : c ≠ s.nextCall := Nat.ne_of_lt born
      have same : (s.spawn parent false (some c)).call c = s.call c := Function.update_of_ne older _ _
      have new : (s.spawn parent false (some c)).call s.nextCall = ⟨parent,false,some c,0,false,.start,[],[]⟩ :=
        Function.update_self _ _ _
      have self : ((s.spawn parent false (some c)).act c (s.nodeOf c) ((s.call c).goto (.building s.nextCall))).call c =
        (s.call c).goto (.building s.nextCall) := act_call_self _ _ _ _
      have other : ∀ d, d ≠ c →
          ((s.spawn parent false (some c)).act c (s.nodeOf c) ((s.call c).goto (.building s.nextCall))).call d =
            (s.spawn parent false (some c)).call d := fun d different => act_call_other _ _ _ different
      constructor
      case grows => exact Nat.le_succ _
      case sameNode => rw [self]; rfl
      case got => rw [self]; exact List.prefix_refl _
      case rank => rw [self]; exact goto_rank here (by simp [Stage.rank])
      case alive => rw [self]; exact nofun
      case others =>
        intro d different known _
        rw [other d different]
        exact Function.update_of_ne (Nat.ne_of_lt known) _ _
      case taken =>
        intro d building
        rw [here] at building
        cases building
      case fresh =>
        intro d later earlier
        obtain rfl : d = s.nextCall := Nat.le_antisymm (Nat.le_of_lt_succ earlier) later
        rw [other _ older.symm,new]
      case building =>
        intro d building
        rw [self] at building
        cases building
        rw [other _ older.symm,new]
        exact ⟨Nat.lt_succ_self _,rfl,above⟩
      case mutexes =>
        intro n different
        rw [act_node_other _ _ _ (by rw [same]; exact different)]
        rfl
      case mutex =>
        rw [self,← same,act_node_self]
        exact mine
    · split at moved
      · cases moved
        exact {getReturns_shift s {s.nodeOf c with sb := some s.nextSb,sbRefCount := 1} s.nextSb true here rfl nofun
          (by simp [Stage.rank]) with}
      · cases moved
        exact getFails_shift s _ _ here rfl nofun (by simp [Stage.rank])
  · cases moved

theorem built_shift (moved : s.built c = some t) : Shift tree s c t := by
  unfold Cache.built at moved
  split at moved
  · rename_i sub here
    have apart : ∀ result, (s.call sub).stage = .returned result → c ≠ sub := by
      rintro result returned rfl
      rw [here] at returned
      cases returned
    -- Only the calls `c` and `sub` change, and the mutex is given back.
    have leave : ∀ (result : Result) (node : ImportCacheNode) (k : ChildCreate), (s.call sub).stage = .returned result →
        k.node = (s.call c).node → (s.call c).got <+: k.got → k.i = (s.call c).i → k.stage.rank < 7 →
        k.stage ≠ .collected → k.stage.inside = false →
        Shift tree s c ((s.collect sub).act c {node with mutex := none} k) := by
      intro result node k returned sameNode got sameI lower alive outside
      have different := apart _ returned
      have same : (s.collect sub).call c = s.call c := Function.update_of_ne different _ _
      have self : ((s.collect sub).act c {node with mutex := none} k).call c = k := act_call_self _ _ _ _
      constructor
      case grows => exact Nat.le_refl _
      case sameNode => rw [self,sameNode]
      case got => rw [self]; exact got
      case rank =>
        rw [self]
        simp only [ChildCreate.rank,here,sameI]
        exact Nat.add_lt_add_left lower _
      case alive => rw [self]; exact alive
      case others =>
        intro d other _ notSub
        rw [act_call_other _ _ _ other]
        refine Function.update_of_ne ?_ _ _
        rintro rfl
        exact notSub here
      case taken =>
        intro d building
        rw [here] at building
        cases building
        rw [returned,act_call_other _ _ _ different.symm]
        refine ⟨rfl,?_⟩
        dsimp only [Cache.collect]
        rw [Function.update_self]
      case fresh => exact fun d later earlier => absurd (Nat.lt_of_lt_of_le earlier later) (Nat.lt_irrefl _)
      case building =>
        intro d building
        rw [self] at building
        rw [building] at outside
        cases outside
      case mutexes =>
        intro n other
        rw [act_node_other _ _ _ (by rw [same]; exact other)]
        rfl
      case mutex =>
        rw [self,outside,here,← same,act_node_self]
        rfl
    have home : ∀ result, (s.call sub).stage = .returned result → (s.collect sub).call c = s.call c :=
      fun _ returned => Function.update_of_ne (apart _ returned) _ _
    split at moved
    · rename_i sb returned
      cases moved
      have shift := leave _ {(s.collect sub).nodeOf c with sb := some sb,sbRefCount := 1}
        {(s.collect sub).call c with stage := .creating sb true,got := ((s.collect sub).call c).got ++ [sb]} returned
        (by rw [home _ returned]) (by rw [home _ returned]; exact List.prefix_append _ _) (by rw [home _ returned])
        (by simp [Stage.rank]) nofun rfl
      exact {shift with}
    · rename_i err returned
      cases moved
      exact leave _ _ _ returned (by rw [home _ returned]; rfl) (by rw [home _ returned]; exact List.prefix_refl _)
        (by rw [home _ returned]; rfl) (by simp [ChildCreate.goto,Stage.rank]) nofun rfl
    · cases moved
  · cases moved

theorem create_shift (moved : s.create c err = some t) : Shift tree s c t := by
  unfold Cache.create at moved
  split at moved
  · rename_i sb isNew here
    have puts : ∀ result node, node.mutex = (s.nodeOf c).mutex →
        Shift tree s c (s.act c node ((s.call c).goto (.putting sb isNew result))) := by
      intro result node mutex
      refine act_shift s node _ rfl (List.prefix_refl _) (goto_rank here (by simp [Stage.rank])) nofun (by simp [here])
        nofun ?_
      rw [here]
      exact mutex
    split at moved
    · cases moved
      exact {puts (.sandbox s.nextSb) _ (created_core (s.nodeOf c) (s.call c).isLeaf).1 with}
    · cases moved
      exact puts _ _ rfl
  · cases moved

theorem lockPut_shift (moved : s.lockPut c = some t) : Shift tree s c t := by
  unfold Cache.lockPut at moved
  split at moved
  · rename_i here
    split at moved
    · cases moved
      exact act_shift s _ _ rfl (List.prefix_refl _) (goto_rank here (by simp [Stage.rank])) nofun (by simp [here])
        nofun rfl
    · cases moved
  · cases moved

theorem putReturns_shift (s : Cache) (node : ImportCacheNode) (k : ChildCreate) (result : Result)
    (here : (s.call c).stage = stage) (inside : stage.inside = true) (before : ∀ d, stage ≠ .building d)
    (lower : 1 < stage.rank) (sameNode : k.node = (s.call c).node) (got : k.got = (s.call c).got)
    (sameI : k.i = (s.call c).i) (tries : k.i = 0 ∧ k.forceNew = false ∨ k.i = 1 ∧ k.forceNew = true)
    (renewed : k.forceNew = true → isNew = true) :
    Shift tree s c (s.act c {node with mutex := none} (k.putReturns isNew result)) := by
  obtain ⟨putNode,_,stages⟩ := putReturns_parts k isNew result
  have outside : (k.putReturns isNew result).stage.inside = false := by
    rcases stages with stage | stage <;> rw [stage] <;> rfl
  refine act_shift s _ _ (putNode.trans sameNode) ?_ ?_ ?_ (by simpa [here] using before) ?_ ?_
  · rw [← got]
    unfold ChildCreate.putReturns
    split <;> exact List.prefix_refl _
  · unfold ChildCreate.putReturns
    split
    · simp only [ChildCreate.rank,ChildCreate.goto,here,sameI]
      exact Nat.add_lt_add_left lower _
    · rename_i again
      -- Only the first iteration is followed by another.
      have first : k.i = 0 := by
        rcases tries with ⟨first,_⟩ | ⟨_,forced⟩
        · exact first
        · exact absurd (Or.inr (renewed forced)) again
      have before : (s.call c).rank = 24 + stage.rank := by rw [ChildCreate.rank,← sameI,first,here]
      have after : ({k with i := k.i + 1,forceNew := true,stage := .start} : ChildCreate).rank = 24 := by
        simp only [ChildCreate.rank,first]
        rfl
      omega
  · rcases stages with stage | stage <;> simp [stage]
  · intro d building
    rw [building] at outside
    cases outside
  · rw [outside,here,inside]
    rfl

theorem drop_shift (exact : Exact s) (born : c < s.nextCall) (moved : s.drop c = some t) (safe : t.fault = none) :
    Shift tree s c t := by
  unfold Cache.drop at moved
  split at moved
  · rename_i sb isNew result here
    have mine := exact.locked c born (by rw [here]; rfl)
    have fine := exact.fine c born
    have renewed := fine.renewed
    rw [ChildCreate.Renewed,here] at renewed
    have leaves : ∀ node : ImportCacheNode, Shift tree s c (s.act c {node with mutex := none}
        (ChildCreate.putReturns {s.call c with put := (s.call c).put ++ [sb]} isNew result)) :=
      fun node => putReturns_shift s node _ result here rfl (by simp) (by simp [Stage.rank]) rfl rfl rfl fine.tries renewed
    dsimp only at moved
    split at moved
    · split at moved
      · cases moved
        refine act_shift s _ _ rfl (List.prefix_refl _) ?_ (by simp [ChildCreate.goto]) (by simp [here])
          (by simp [ChildCreate.goto]) mine
        simp [ChildCreate.rank,ChildCreate.goto,here,Stage.rank]
      · split at moved
        · cases moved
          cases safe
        · cases moved
          exact leaves {s.nodeOf c with sbRefCount := (s.nodeOf c).sbRefCount - 1}
    · cases moved
      exact leaves _
  · cases moved

theorem pause_shift {inner : Option String} (exact : Exact s) (born : c < s.nextCall)
    (moved : s.pause c inner = some t) : Shift tree s c t := by
  unfold Cache.pause at moved
  split at moved
  · rename_i sb isNew result here
    cases moved
    have fine := exact.fine c born
    have renewed := fine.renewed
    rw [ChildCreate.Renewed,here] at renewed
    exact {putReturns_shift s (if (SafeWrapper.pause (s.sb sb) inner).err = none then s.nodeOf c
      else {s.nodeOf c with sb := none}) (s.call c) result here rfl (by simp) (by simp [Stage.rank]) rfl rfl rfl fine.tries
      renewed with}
  · cases moved

theorem callStep_shift (exact : Exact s) (born : c < s.nextCall) (moved : callStep tree s c action = some t) :
    Shift tree s c t := by
  cases action with
  | lock _ => exact lock_shift exact born moved
  | force _ => exact force_shift exact born moved
  | look _ => exact look_shift exact born moved
  | unpause _ inner => exact unpause_shift moved
  | prepare _ codeDir err => exact prepare_shift exact born moved
  | make _ err => exact make_shift exact born moved
  | built _ => exact built_shift moved
  | create _ err => exact create_shift moved
  | lockPut _ => exact lockPut_shift moved
  | drop _ => exact drop_shift exact born moved (drop_exact exact born moved).safe
  | pause _ inner => exact pause_shift exact born moved
  | _ => cases moved

end OpenLambda.Zygote
