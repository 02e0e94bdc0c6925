import OpenLambda.Zygote.ZygoteRefs

namespace OpenLambda.Zygote
open Foundation.Tally

theorem lock_exact (exact : Exact s) (born : c < s.nextCall) (moved : s.lock c = some t) : Exact t := by
  unfold Cache.lock at moved
  split at moved
  · rename_i here
    split at moved
    · split at moved
      · rename_i free
        cases moved
        exact act_exact exact born (quiet_lawful exact born here .locked _ (.inr (.inl free)) (.inr rfl) rfl rfl
          (fun _ => none_result rfl) (fun _ => rfl) trivial trivial nofun)
      · cases moved
    · -- The loop has at most two iterations.
      rename_i third
      have tries := (exact.fine c born).tries
      omega
  · cases moved

theorem force_exact (exact : Exact s) (born : c < s.nextCall) (moved : s.force c = some t) : Exact t := by
  unfold Cache.force at moved
  split at moved
  · rename_i here
    have mine := exact.locked c born (by rw [here]; rfl)
    split at moved
    · cases moved
      have next := act_exact exact born (quiet_lawful exact born here .looking {s.nodeOf c with sb := none}
        (.inr (.inr mine)) (.inl rfl) rfl rfl (fun _ => none_result rfl) (fun _ => mine) (fun _ => rfl) trivial
        nofun)
      exact {next with}
    · rename_i notBoth
      cases moved
      refine act_exact exact born (quiet_lawful exact born here .looking _ (.inr (.inr mine)) (.inr rfl) rfl rfl
        (fun _ => none_result rfl) (fun _ => mine) ?_ trivial nofun)
      intro forced
      cases present : (s.nodeOf c).sb with
      | none => rfl
      | some old => exact absurd present (notBoth old forced)
  · cases moved

theorem getFails_exact (exact : Exact s) (born : c < s.nextCall) (inside : (s.call c).stage.inside = true)
    (idle : (s.call c).stage.holding = none) (node : ImportCacheNode)
    (sb : node.sb = none ∨ node.sb = (s.nodeOf c).sb) (count : node.sbRefCount = (s.nodeOf c).sbRefCount)
    (err : CreateErr) : Exact (s.getFails c node err) :=
  act_exact exact born (quiet_lawful exact born rfl (.returned (.failed err)) _
    (.inr (.inr (exact.locked c born inside))) sb count idle.symm (fun _ => none_result rfl)
    nofun trivial trivial nofun)

theorem getReturns_exact (exact : Exact s) (born : c < s.nextCall) (inside : (s.call c).stage.inside = true)
    (idle : (s.call c).stage.holding = none) {node : ImportCacheNode} (present : node.sb = some sb)
    (count : node.sbRefCount = s.holders sb + 1) (home : s.fate sb = .placed (s.call c).node)
    (awake : (s.sb sb).paused = false) (renewed : (s.call c).forceNew = true → isNew = true) :
    Exact (s.getReturns c node sb isNew) := by
  have fine := exact.fine c born
  have matched := fine.matched
  rw [idle] at matched
  refine act_exact exact born ⟨rfl,rfl,.inr (.inr (exact.locked c born inside)),?_,?_,?_,fun _ => none_result rfl,
    nofun,trivial,⟨fine.tries,renewed,?_⟩,nofun⟩
  · intro other there
    cases present.symm.trans there
    rw [holds_none idle,holds_self rfl]
    exact count.trans (by omega)
  · intro other there
    cases present.symm.trans there
    exact home
  · intro other holding
    cases holding
    exact ⟨home,awake⟩
  · simp [matched,Stage.holding]

theorem holder_exists {s : Cache} (used : s.holders sb ≠ 0) :
    ∃ c, c < s.nextCall ∧ (s.call c).stage.holding = some sb := by
  apply Classical.byContradiction
  intro nobody
  apply used
  have idle : ∀ c, c < s.nextCall → (s.call c).holds sb = 0 := by
    intro c born
    unfold ChildCreate.holds
    rw [if_neg]
    exact fun holding => nobody ⟨c,born,holding⟩
  exact (tally_congr idle).trans (tally_none _)

theorem holds_le (s : Cache) (born : c < s.nextCall) (sb : Nat) : (s.call c).holds sb ≤ s.holders sb := by
  refine le_tally (fun d _ => ?_) born
  unfold ChildCreate.holds
  split <;> decide

theorem holder_none {s : Cache} (zero : s.holders sb = 0) (born : c < s.nextCall) :
    (s.call c).stage.holding ≠ some sb := by
  intro holding
  have least := holds_le s born sb
  rw [holds_self holding,zero] at least
  exact absurd least (by decide)

theorem look_exact (exact : Exact s) (born : c < s.nextCall) (moved : s.look c = some t) : Exact t := by
  unfold Cache.look at moved
  split at moved
  · rename_i here
    have inside : (s.call c).stage.inside = true := by rw [here]; rfl
    have mine := exact.locked c born inside
    have fits := exact.fits c born
    rw [ChildCreate.Fits,here] at fits
    split at moved
    · rename_i sb present
      have first : (s.call c).forceNew = false := by
        cases forced : (s.call c).forceNew with
        | false => rfl
        | true =>
            rw [fits forced] at present
            cases present
      split at moved
      · rename_i free
        cases moved
        exact act_exact exact born (quiet_lawful exact born here (.unpausing sb) _ (.inr (.inr mine)) (.inr rfl) rfl rfl
          (fun _ => none_result rfl) (fun _ => mine) ⟨present,free⟩ first nofun)
      · rename_i used
        cases moved
        have count := exact.counts _ sb present
        -- Somebody holds the sandbox, so it is awake.
        have awake : (s.sb sb).paused = false := by
          obtain ⟨d,known,holding⟩ := holder_exists (fun zero => used (count.trans zero))
          exact (exact.held d known sb holding).2
        refine getReturns_exact exact born inside (by rw [here]; rfl) present ?_ (exact.placed _ sb present) awake ?_
        · exact congrArg (· + 1) count
        · rw [first]
          exact nofun
    · cases moved
      exact act_exact exact born (quiet_lawful exact born here .preparing _ (.inr (.inr mine)) (.inr rfl) rfl rfl
        (fun _ => none_result rfl) (fun _ => mine) trivial trivial nofun)
  · cases moved

theorem unpause_awake {inner : Option String} (ok : (SafeWrapper.unpause sb inner).err = none) :
    (SafeWrapper.unpause sb inner).sb.paused = false := by
  unfold SafeWrapper.unpause at ok ⊢
  cases dead : sb.dead with
  | some text => simp [dead] at ok
  | none =>
      cases paused : sb.paused with
      | false => simp [paused]
      | true =>
          cases inner with
          | some err => simp [dead,paused,SafeWrapper.destroyOnErr] at ok
          | none => simp [dead,SafeWrapper.unpauseDone]

theorem idle_unused (exact : Exact s) (present : (s.node n).sb = some sb) (free : (s.node n).sbRefCount = 0) (d : Nat)
    (known : d < s.nextCall) : ¬ (s.call d).Uses sb := by
  rintro (holding | ⟨called,result⟩)
  · exact holder_none ((exact.counts n sb present).symm.trans free) known holding
  · have moving := (exact.transit d known called sb result).1
    rw [exact.placed n sb present] at moving
    cases moving

theorem unpause_exact {inner : Option String} (exact : Exact s) (born : c < s.nextCall)
    (moved : s.unpause c inner = some t) : Exact t := by
  unfold Cache.unpause at moved
  split at moved
  · rename_i sb here
    have inside : (s.call c).stage.inside = true := by rw [here]; rfl
    have idle : (s.call c).stage.holding = none := by rw [here]; rfl
    have fits := exact.fits c born
    rw [ChildCreate.Fits,here] at fits
    obtain ⟨present,free⟩ := fits
    have count := exact.counts _ sb present
    have next : Exact (s.setSb sb (SafeWrapper.unpause (s.sb sb) inner).sb) :=
      setSb_exact exact sb _ fun d known uses => absurd uses (idle_unused exact present free d known)
    dsimp only at moved
    split at moved
    · cases moved
      exact getFails_exact next born inside idle {s.nodeOf c with sb := none} (.inl rfl) rfl _
    · rename_i ok
      cases moved
      have awake : ((s.setSb sb (SafeWrapper.unpause (s.sb sb) inner).sb).sb sb).paused = false := by
        rw [Cache.setSb]
        dsimp only
        rw [Function.update_self]
        exact unpause_awake ok
      have first := (exact.fine c born).renewed
      rw [ChildCreate.Renewed,here] at first
      refine getReturns_exact next born inside idle present ?_ (exact.placed _ sb present) awake ?_
      · exact congrArg (· + 1) count
      · change (s.call c).forceNew = true → _
        rw [first]
        exact nofun
  · cases moved

theorem prepare_exact (exact : Exact s) (born : c < s.nextCall) (moved : s.prepare c codeDir err = some t) :
    Exact t := by
  unfold Cache.prepare at moved
  split at moved
  · rename_i here
    have inside : (s.call c).stage.inside = true := by rw [here]; rfl
    have mine := exact.locked c born inside
    have making : ∀ node, node.mutex = (s.nodeOf c).mutex → node.sb = (s.nodeOf c).sb →
        node.sbRefCount = (s.nodeOf c).sbRefCount → Exact (s.act c node ((s.call c).goto .making)) := by
      intro node mutex sb count
      exact act_exact exact born (quiet_lawful exact born here .making node (.inr (.inr mine)) (.inr sb) count rfl
        (fun _ => none_result rfl) (fun _ => mutex.trans mine) trivial trivial nofun)
    split at moved
    · split at moved
      · cases moved
        exact getFails_exact exact born inside (by rw [here]; rfl) _ (.inr rfl) rfl _
      · cases moved
        exact making _ rfl rfl rfl
    · cases moved
      exact making _ rfl rfl rfl
  · cases moved

theorem getNew_exact (exact : Exact s) (born : c < s.nextCall) (inside : (s.call c).stage.inside = true)
    (idle : (s.call c).stage.holding = none) (home : s.fate sb = .placed (s.call c).node)
    (nobody : s.holders sb = 0) (awake : (s.sb sb).paused = false) : Exact (s.getNew c sb) := by
  refine getReturns_exact exact born inside idle rfl ?_ home awake (fun _ => rfl)
  rw [nobody]
  rfl

theorem unplaced_holders (exact : Exact s) (elsewhere : ∀ n, s.fate sb ≠ .placed n) : s.holders sb = 0 := by
  have idle : ∀ c, c < s.nextCall → (s.call c).holds sb = 0 := fun c born => holds_zero exact born (elsewhere _)
  exact (tally_congr idle).trans (tally_none _)

theorem make_exact (exact : Exact s) (born : c < s.nextCall) (moved : s.make tree c err = some t) : Exact t := by
  unfold Cache.make at moved
  split at moved
  · rename_i here
    have inside : (s.call c).stage.inside = true := by rw [here]; rfl
    have idle : (s.call c).stage.holding = none := by rw [here]; rfl
    have mine := exact.locked c born inside
    split at moved
    · rename_i parent _
      cases moved
      have older : c ≠ s.nextCall := Nat.ne_of_lt born
      have next := spawn_exact exact parent false (some c)
      have same : (s.spawn parent false (some c)).call c = s.call c := Function.update_of_ne older _ _
      have there : (s.spawn parent false (some c)).nodeOf c = s.nodeOf c := by
        rw [Cache.nodeOf,same]
        rfl
      have lawful := quiet_lawful next (Nat.lt_succ_of_lt born) ((congrArg ChildCreate.stage same).trans here)
        (.building s.nextCall) (s.nodeOf c) (.inr (.inr (there ▸ mine))) (.inr (by rw [there])) (by rw [there]) rfl
        (fun _ => none_result rfl) (fun _ => mine) trivial trivial (by
          intro sub equal
          cases equal
          exact ⟨Nat.lt_succ_self _,by rw [Cache.spawn]; dsimp only; rw [Function.update_self]⟩)
      rw [same] at lawful
      exact act_exact next (Nat.lt_succ_of_lt born) lawful
    · split at moved
      · cases moved
        have unused := exact.unused s.nextSb (Nat.le_refl _)
        have nobody : s.holders s.nextSb = 0 := unplaced_holders exact (by simp [unused])
        have next := mint_exact exact (.placed (s.call c).node)
        exact getNew_exact next born inside idle (Function.update_self _ _ _) nobody (by
          rw [Cache.mint]
          dsimp only
          rw [Function.update_self]
          rfl)
      · cases moved
        exact getFails_exact exact born inside idle _ (.inr rfl) rfl _
  · cases moved

theorem built_exact (exact : Exact s) (born : c < s.nextCall) (moved : s.built c = some t) : Exact t := by
  unfold Cache.built at moved
  split at moved
  · rename_i sub here
    have inside : (s.call c).stage.inside = true := by rw [here]; rfl
    have idle : (s.call c).stage.holding = none := by rw [here]; rfl
    obtain ⟨known,called⟩ := exact.building c born sub here
    split at moved
    · rename_i sb returned
      cases moved
      have other : c ≠ sub := by
        rintro rfl
        rw [here] at returned
        cases returned
      have same : (s.collect sub).call c = s.call c := Function.update_of_ne other _ _
      have gone : ((s.collect sub).call sub).stage.result = none := by
        rw [Cache.collect]
        dsimp only
        rw [Function.update_self]
        rfl
      obtain ⟨moving,awake⟩ := exact.transit sub known (by simp [called]) sb (by rw [returned]; rfl)
      have collected := collect_exact exact known returned
      have nobody : (s.collect sub).holders sb = 0 := by
        refine unplaced_holders collected fun n => ?_
        change s.fate sb ≠ _
        simp [moving]
      have next := place_exact collected moving gone (s.call c).node
      refine getNew_exact next born (by rw [← inside,← same]; rfl) (by rw [← idle,← same]; rfl) ?_ nobody awake
      refine (Function.update_self _ _ _).trans ?_
      rw [← same]
      rfl
    · rename_i err returned
      cases moved
      have other : c ≠ sub := by
        rintro rfl
        rw [here] at returned
        cases returned
      have same : (s.collect sub).call c = s.call c := Function.update_of_ne other _ _
      have there : (s.collect sub).nodeOf c = s.nodeOf c := by
        rw [Cache.nodeOf,same]
        rfl
      exact getFails_exact (collect_exact exact known returned) born (by rw [same,inside]) (by rw [same,idle]) _
        (.inr (by rw [there])) (by rw [there]) err
    · cases moved
  · cases moved

theorem created_core (node : ImportCacheNode) (isLeaf : Bool) :
    (node.created isLeaf).mutex = node.mutex ∧ (node.created isLeaf).sb = node.sb ∧
      (node.created isLeaf).sbRefCount = node.sbRefCount := by
  cases isLeaf <;> exact ⟨rfl,rfl,rfl⟩

theorem create_exact (exact : Exact s) (born : c < s.nextCall) (moved : s.create c err = some t) : Exact t := by
  unfold Cache.create at moved
  split at moved
  · rename_i sb isNew here
    have renewed := (exact.fine c born).renewed
    rw [ChildCreate.Renewed,here] at renewed
    split at moved
    · cases moved
      have next := mint_exact exact (if (s.call c).caller = none then .given else .transit c)
      obtain ⟨mutex,sameSb,count⟩ := created_core (s.nodeOf c) (s.call c).isLeaf
      refine act_exact next born (quiet_lawful next born here (.putting sb isNew (.sandbox s.nextSb)) _
        (.inl ⟨mutex,sameSb,count⟩) (.inr sameSb) count rfl ?_ nofun trivial renewed
        nofun)
      intro called z created
      cases created
      refine ⟨(Function.update_self _ _ _).trans (if_neg called),?_⟩
      dsimp only [Cache.mint]
      rw [Function.update_self]
      rfl
    · rename_i e
      cases moved
      exact act_exact exact born (quiet_lawful exact born here (.putting sb isNew (.failed e)) _ (.inl ⟨rfl,rfl,rfl⟩)
        (.inr rfl) rfl rfl (fun _ => none_result rfl) nofun trivial renewed
        nofun)
  · cases moved

theorem lockPut_exact (exact : Exact s) (born : c < s.nextCall) (moved : s.lockPut c = some t) : Exact t := by
  unfold Cache.lockPut at moved
  split at moved
  · rename_i sb isNew result here
    have renewed := (exact.fine c born).renewed
    rw [ChildCreate.Renewed,here] at renewed
    split at moved
    · rename_i free
      cases moved
      refine act_exact exact born (quiet_lawful exact born here (.dropping sb isNew result) _ (.inr (.inl free))
        (.inr rfl) rfl rfl ?_ (fun _ => rfl) trivial renewed nofun)
      intro called z created
      apply exact.transit c born called z
      rw [here]
      cases result <;> exact created
    · cases moved
  · cases moved

theorem putReturns_parts (k : ChildCreate) (isNew : Bool) (result : Result) :
    (k.putReturns isNew result).node = k.node ∧ (k.putReturns isNew result).caller = k.caller ∧
      ((k.putReturns isNew result).stage = .returned result ∨ (k.putReturns isNew result).stage = .start) := by
  unfold ChildCreate.putReturns
  split
  · exact ⟨rfl,rfl,.inl rfl⟩
  · exact ⟨rfl,rfl,.inr rfl⟩

theorem putReturns_fine (k : ChildCreate) (result : Result)
    (tries : k.i = 0 ∧ k.forceNew = false ∨ k.i = 1 ∧ k.forceNew = true) (renewed : k.forceNew = true → isNew = true)
    (matched : k.got = k.put) : (k.putReturns isNew result).Fine := by
  unfold ChildCreate.putReturns
  split
  · exact ⟨tries,trivial,by simpa [ChildCreate.goto,Stage.holding] using matched⟩
  · rename_i again
    -- An old Zygote is only used by the first iteration.
    have first : k.i = 0 := by
      rcases tries with ⟨first,_⟩ | ⟨_,forced⟩
      · exact first
      · exact absurd (Or.inr (renewed forced)) again
    exact ⟨.inr ⟨congrArg (· + 1) first,rfl⟩,trivial,by simpa [Stage.holding] using matched⟩

theorem putReturns_exact (exact : Exact s) (born : c < s.nextCall) (inside : (s.call c).stage.inside = true)
    (node : ImportCacheNode) (k : ChildCreate) (sameNode : k.node = (s.call c).node)
    (sameCaller : k.caller = (s.call c).caller)
    (keep : ∀ z, node.sb = some z → (s.nodeOf c).sb = some z ∧
      node.sbRefCount = (s.nodeOf c).sbRefCount - (s.call c).holds z)
    (carried : ∀ z, (Stage.returned result).result = some z → (s.call c).stage.result = some z)
    (tries : k.i = 0 ∧ k.forceNew = false ∨ k.i = 1 ∧ k.forceNew = true) (renewed : k.forceNew = true → isNew = true)
    (matched : k.got = k.put) : Exact (s.act c {node with mutex := none} (k.putReturns isNew result)) := by
  obtain ⟨putNode,putCaller,stage⟩ := putReturns_parts k isNew result
  have idle : (k.putReturns isNew result).stage.holding = none := by
    rcases stage with stage | stage <;> rw [stage] <;> rfl
  have outside : (k.putReturns isNew result).stage.inside = false := by
    rcases stage with stage | stage <;> rw [stage] <;> rfl
  have counts := keep_counts exact {node with mutex := none} (k.putReturns isNew result) (c := c) (by
    intro z present
    obtain ⟨before,count⟩ := keep z present
    refine ⟨before,?_⟩
    rw [holds_none idle]
    exact count.trans (Int.add_zero _).symm)
  refine act_exact exact born ⟨putNode.trans sameNode,putCaller.trans sameCaller,
    .inr (.inr (exact.locked c born inside)),fun z present => (counts z present).1,
    fun z present => (counts z present).2,?_,?_,?_,fits_outside _ _ outside,
    putReturns_fine k result tries renewed matched,?_⟩
  · intro z holding
    rw [idle] at holding
    cases holding
  · intro called z created
    rcases stage with stage | stage <;> rw [stage] at created
    · exact exact.transit c born called z (carried z created)
    · cases created
  · intro impossible
    rw [outside] at impossible
    cases impossible
  · intro sub impossible
    rw [impossible] at outside
    cases outside

theorem drop_exact (exact : Exact s) (born : c < s.nextCall) (moved : s.drop c = some t) : Exact t := by
  unfold Cache.drop at moved
  split at moved
  · rename_i sb isNew result here
    have inside : (s.call c).stage.inside = true := by rw [here]; rfl
    have holding : (s.call c).stage.holding = some sb := by rw [here]; rfl
    have mine := exact.locked c born inside
    have fine := exact.fine c born
    have renewed := fine.renewed
    rw [ChildCreate.Renewed,here] at renewed
    have matched := fine.matched
    rw [holding] at matched
    have carried : ∀ z, (Stage.returned result).result = some z → (s.call c).stage.result = some z := by
      intro z created
      rw [here]
      cases result <;> exact created
    dsimp only at moved
    split at moved
    · rename_i present
      have one := holds_self holding
      have counted : ∀ z, (s.nodeOf c).sb = some z →
          (s.nodeOf c).sbRefCount - 1 = (s.nodeOf c).sbRefCount - (s.call c).holds z := by
        intro z there
        cases present.symm.trans there
        rw [one]
      split at moved
      · rename_i zero
        cases moved
        have counts := keep_counts exact {s.nodeOf c with sbRefCount := (s.nodeOf c).sbRefCount - 1}
          {s.call c with put := (s.call c).put ++ [sb],stage := .pausing sb isNew result} (c := c) (by
            intro z there
            have idle : ({s.call c with put := (s.call c).put ++ [sb],stage := .pausing sb isNew result} :
              ChildCreate).holds z = 0 := holds_none rfl z
            rw [idle]
            exact ⟨there,(counted z there).trans (Int.add_zero _).symm⟩)
        refine act_exact exact born ⟨rfl,rfl,.inr (.inr mine),fun z there => (counts z there).1,
          fun z there => (counts z there).2,nofun,?_,fun _ => mine,⟨present,zero⟩,
          ⟨fine.tries,renewed,?_⟩,nofun⟩
        · intro called z created
          apply exact.transit c born called z
          apply carried
          cases result <;> exact created
        · rw [matched]
          exact (List.append_nil _).symm
      · split at moved
        · -- The call itself is counted, so the count cannot become negative.
          rename_i negative
          have count := exact.counts _ sb present
          have least := holds_le s born sb
          rw [one,← count] at least
          have below : (s.nodeOf c).sbRefCount - 1 < 0 := negative
          exact absurd least (by unfold Cache.nodeOf at below; omega)
        · cases moved
          exact putReturns_exact exact born inside {s.nodeOf c with sbRefCount := (s.nodeOf c).sbRefCount - 1} _ rfl rfl
            (fun z there => ⟨there,counted z there⟩) carried fine.tries renewed matched
    · rename_i replaced
      cases moved
      refine putReturns_exact exact born inside _ _ rfl rfl ?_ carried fine.tries renewed matched
      intro z there
      have other : (s.call c).holds z = 0 := by
        unfold ChildCreate.holds
        rw [if_neg]
        intro same
        rw [holding] at same
        exact replaced (Option.some.inj same ▸ there)
      exact ⟨there,by rw [other]; exact (Int.sub_zero _).symm⟩
  · cases moved

theorem pause_exact {inner : Option String} (exact : Exact s) (born : c < s.nextCall)
    (moved : s.pause c inner = some t) : Exact t := by
  unfold Cache.pause at moved
  split at moved
  · rename_i sb isNew result here
    cases moved
    have inside : (s.call c).stage.inside = true := by rw [here]; rfl
    have idle : (s.call c).stage.holding = none := by rw [here]; rfl
    have fits := exact.fits c born
    rw [ChildCreate.Fits,here] at fits
    obtain ⟨present,free⟩ := fits
    have fine := exact.fine c born
    have renewed := fine.renewed
    rw [ChildCreate.Renewed,here] at renewed
    have matched := fine.matched
    rw [idle] at matched
    -- The count is zero, so nobody is left to see the sandbox paused.
    have next : Exact (s.setSb sb (SafeWrapper.pause (s.sb sb) inner).sb) :=
      setSb_exact exact sb _ fun d known uses => absurd uses (idle_unused exact present free d known)
    refine putReturns_exact next born inside _ _ rfl rfl ?_ ?_ fine.tries renewed (matched.trans (List.append_nil _))
    · intro z there
      have unheld : ((s.setSb sb (SafeWrapper.pause (s.sb sb) inner).sb).call c).holds z = 0 := holds_none idle z
      rw [unheld]
      split at there
      · rename_i ok
        rw [if_pos ok]
        exact ⟨there,(Int.sub_zero _).symm⟩
      · cases there
    · intro z created
      change (s.call c).stage.result = some z
      rw [here]
      cases result <;> exact created
  · cases moved

theorem destroy_paused (sb : SafeWrapper.SafeSandbox) (reason : String) :
    (SafeWrapper.destroy sb reason).sb.paused = sb.paused := by
  unfold SafeWrapper.destroy
  cases sb.dead <;> rfl

theorem destroyIfPaused_paused (sb : SafeWrapper.SafeSandbox) (reason : String) :
    (SafeWrapper.destroyIfPaused sb reason).sb.paused = sb.paused := by
  unfold SafeWrapper.destroyIfPaused
  cases sb.dead with
  | some text => rfl
  | none =>
      dsimp only
      split <;> rfl

theorem destroyed_exact (exact : Exact s) (sb : Nat) (same : state.paused = (s.sb sb).paused) :
    Exact (s.setSb sb state) :=
  setSb_exact exact sb state fun _ born uses => same.trans (uses_awake exact born uses)

theorem clear_exact (exact : Exact s) (free : (s.node n).mutex = none) :
    Exact {s with node := Function.update s.node n {s.node n with sb := none}} := by
  have self : Function.update s.node n {s.node n with sb := none} n = {s.node n with sb := none} :=
    Function.update_self _ _ _
  have other : ∀ m, m ≠ n → Function.update s.node n {s.node n with sb := none} m = s.node m :=
    fun m different => Function.update_of_ne different _ _
  have present : ∀ m sb, (Function.update s.node n {s.node n with sb := none} m).sb = some sb →
      Function.update s.node n {s.node n with sb := none} m = s.node m := by
    intro m sb there
    by_cases equal : m = n
    · subst m
      rw [self] at there
      cases there
    · exact other m equal
  have elsewhere : ∀ c, c < s.nextCall → (s.call c).stage.inside = true → (s.call c).node ≠ n := by
    rintro c born inside rfl
    have mine := exact.locked c born inside
    rw [Cache.nodeOf,free] at mine
    cases mine
  refine {exact with counts := ?_,placed := ?_,locked := ?_,fits := ?_}
  · intro m sb there
    have kept := present m sb there
    dsimp only at there ⊢
    rw [kept] at there ⊢
    exact exact.counts m sb there
  · intro m sb there
    have kept := present m sb there
    dsimp only at there
    rw [kept] at there
    exact exact.placed m sb there
  · intro c born inside
    dsimp only [Cache.nodeOf]
    rw [other _ (elsewhere c born inside)]
    exact exact.locked c born inside
  · intro c born
    cases inside : (s.call c).stage.inside with
    | false => exact fits_outside _ _ inside
    | true =>
        dsimp only [Cache.nodeOf]
        rw [other _ (elsewhere c born inside)]
        exact exact.fits c born

theorem kill_exact (exact : Exact s) (moved : s.kill n = some t) : Exact t := by
  unfold Cache.kill at moved
  split at moved
  · rename_i free
    split at moved
    · rename_i sb present
      cases moved
      exact clear_exact (destroyed_exact exact sb (destroy_paused (s.sb sb) "ImportCache recursiveKill")) free
    · cases moved
      exact exact
  · cases moved

theorem doom_exact (exact : Exact s) (moved : s.doom sb = some t) : Exact t := by
  unfold Cache.doom at moved
  split at moved
  · cases moved
    have next := destroyed_exact exact sb (destroy_paused (s.sb sb) "ImportCache forceNew used")
    exact {next with}
  · cases moved

theorem evict_exact (exact : Exact s) (sb : Nat) (force : Bool) (reason : String) : Exact (s.evict sb force reason) := by
  cases force with
  | true => exact destroyed_exact exact sb (destroy_paused _ _)
  | false => exact destroyed_exact exact sb (destroyIfPaused_paused _ _)

theorem callStep_exact (exact : Exact s) (born : c < s.nextCall) (moved : callStep tree s c action = some t) :
    Exact t := by
  cases action with
  | lock _ => exact lock_exact exact born moved
  | force _ => exact force_exact exact born moved
  | look _ => exact look_exact exact born moved
  | unpause _ inner => exact unpause_exact exact born moved
  | prepare _ codeDir err => exact prepare_exact exact born moved
  | make _ err => exact make_exact exact born moved
  | built _ => exact built_exact exact born moved
  | create _ err => exact create_exact exact born moved
  | lockPut _ => exact lockPut_exact exact born moved
  | drop _ => exact drop_exact exact born moved
  | pause _ inner => exact pause_exact exact born moved
  | _ => cases moved

theorem step_exact (exact : Exact s) (moved : step tree s action = some t) : Exact t := by
  unfold step at moved
  split at moved
  · cases moved
  · split at moved
    · obtain ⟨born,moved⟩ := Option.ite_none_right_eq_some.mp moved
      exact callStep_exact exact born moved
    · cases action with
      | call node isLeaf =>
          cases moved
          exact spawn_exact exact node isLeaf none
      | kill node => exact kill_exact exact moved
      | doom sb => exact doom_exact exact moved
      | evict sb force reason =>
          cases moved
          exact evict_exact exact sb force reason
      | _ => cases moved

-- The calls of getSandboxInNode that returned `sb` and whose putSandboxInNode has
-- not run yet, read off the history.
def Cache.outstanding (s : Cache) (sb : Nat) : Int :=
  tally s.nextCall fun c => ((s.call c).got.count sb : Int) - (s.call c).put.count sb

theorem outstanding_holders (exact : Exact s) (sb : Nat) : s.outstanding sb = s.holders sb := by
  apply tally_congr
  intro c born
  rw [(exact.fine c born).matched,List.count_append]
  cases holding : (s.call c).stage.holding with
  | none => simp [ChildCreate.holds,holding]
  | some other => simp [ChildCreate.holds,holding,List.count_singleton]

theorem finished_matched (exact : Exact s) (born : c < s.nextCall) (finished : (s.call c).stage.finished = true) :
    (s.call c).got = (s.call c).put := by
  have matched := (exact.fine c born).matched
  cases stage : (s.call c).stage <;> simp_all [Stage.finished,Stage.holding]

end OpenLambda.Zygote
