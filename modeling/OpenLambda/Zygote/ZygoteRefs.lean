import OpenLambda.Foundation.Tally
import OpenLambda.Zygote.ImportCache

namespace OpenLambda.Zygote
open Foundation.Tally

def Stage.holding : Stage → Option Nat
  | .creating sb _ | .putting sb _ _ | .dropping sb _ _ => some sb
  | _ => none

def Stage.result : Stage → Option Nat
  | .putting _ _ (.sandbox sb) | .dropping _ _ (.sandbox sb) | .pausing _ _ (.sandbox sb) | .returned (.sandbox sb) =>
      some sb
  | _ => none

def Stage.inside : Stage → Bool
  | .locked | .looking | .unpausing _ | .preparing | .making | .building _ | .dropping _ _ _ | .pausing _ _ _ => true
  | _ => false

def Stage.finished : Stage → Bool
  | .returned _ | .collected => true
  | _ => false

def ChildCreate.holds (k : ChildCreate) (sb : Nat) : Int := if k.stage.holding = some sb then 1 else 0

def Cache.holders (s : Cache) (sb : Nat) : Int := tally s.nextCall fun c => (s.call c).holds sb

def ChildCreate.Fits (k : ChildCreate) (node : ImportCacheNode) : Prop :=
  match k.stage with
  | .looking => k.forceNew = true → node.sb = none
  | .unpausing sb | .pausing sb _ _ => node.sb = some sb ∧ node.sbRefCount = 0
  | _ => True

def ChildCreate.Renewed (k : ChildCreate) : Prop :=
  match k.stage with
  | .unpausing _ => k.forceNew = false
  | .creating _ isNew | .putting _ isNew _ | .dropping _ isNew _ | .pausing _ isNew _ => k.forceNew = true → isNew = true
  | _ => True

structure ChildCreate.Fine (k : ChildCreate) : Prop where
  tries : k.i = 0 ∧ k.forceNew = false ∨ k.i = 1 ∧ k.forceNew = true
  renewed : k.Renewed
  matched : k.got = k.put ++ k.stage.holding.toList

-- The reference counts are exact. The other fields are what the induction
-- needs: where each sandbox belongs, that a call inside has the mutex, and that
-- nobody pauses a Zygote somebody holds.
structure Exact (s : Cache) : Prop where
  safe : s.fault = none
  counts : ∀ n sb, (s.node n).sb = some sb → (s.node n).sbRefCount = s.holders sb
  placed : ∀ n sb, (s.node n).sb = some sb → s.fate sb = .placed n
  held : ∀ c, c < s.nextCall → ∀ sb, (s.call c).stage.holding = some sb →
    s.fate sb = .placed (s.call c).node ∧ (s.sb sb).paused = false
  transit : ∀ c, c < s.nextCall → (s.call c).caller ≠ none → ∀ sb, (s.call c).stage.result = some sb →
    s.fate sb = .transit c ∧ (s.sb sb).paused = false
  unused : ∀ sb, s.nextSb ≤ sb → s.fate sb = .unused
  locked : ∀ c, c < s.nextCall → (s.call c).stage.inside = true → (s.nodeOf c).mutex = some c
  fits : ∀ c, c < s.nextCall → (s.call c).Fits (s.nodeOf c)
  fine : ∀ c, c < s.nextCall → (s.call c).Fine
  building : ∀ c, c < s.nextCall → ∀ sub, (s.call c).stage = .building sub →
    sub < s.nextCall ∧ (s.call sub).caller = some c

theorem init_exact : Exact init := by
  constructor <;> simp [init,newNode]

def Undisturbed (s : Cache) (c : Nat) (node : ImportCacheNode) : Prop :=
  (node.mutex = (s.nodeOf c).mutex ∧ node.sb = (s.nodeOf c).sb ∧ node.sbRefCount = (s.nodeOf c).sbRefCount) ∨
    (s.nodeOf c).mutex = none ∨ (s.nodeOf c).mutex = some c

theorem act_holders (s : Cache) (born : c < s.nextCall) (node : ImportCacheNode) (k : ChildCreate) (sb : Nat) :
    (s.act c node k).holders sb = s.holders sb - (s.call c).holds sb + k.holds sb :=
  tally_update born s.call k fun _ call => call.holds sb

theorem holds_zero (exact : Exact s) (born : c < s.nextCall) (elsewhere : s.fate sb ≠ .placed (s.call c).node) :
    (s.call c).holds sb = 0 := by
  unfold ChildCreate.holds
  rw [if_neg]
  intro holding
  exact elsewhere (exact.held c born sb holding).1

theorem other_inside (exact : Exact s) (alone : Undisturbed s c node) (born : d < s.nextCall) (other : d ≠ c)
    (same : (s.call d).node = (s.call c).node) (inside : (s.call d).stage.inside = true) :
    node.mutex = (s.nodeOf c).mutex ∧ node.sb = (s.nodeOf c).sb ∧ node.sbRefCount = (s.nodeOf c).sbRefCount := by
  have mine := exact.locked d born inside
  unfold Cache.nodeOf at mine
  rw [same] at mine
  change (s.nodeOf c).mutex = some d at mine
  rcases alone with kept | free | held
  · exact kept
  · simp [free] at mine
  · rw [held] at mine
    exact absurd (Option.some.inj mine).symm other

theorem fits_outside (k : ChildCreate) (node : ImportCacheNode) (outside : k.stage.inside = false) : k.Fits node := by
  unfold ChildCreate.Fits
  cases stage : k.stage <;> simp_all [Stage.inside]

theorem fits_kept (fits : ChildCreate.Fits k old) (sb : node.sb = old.sb)
    (sbRefCount : node.sbRefCount = old.sbRefCount) : k.Fits node := by
  unfold ChildCreate.Fits at fits ⊢
  rw [sb,sbRefCount]
  exact fits

structure Lawful (s : Cache) (c : Nat) (node : ImportCacheNode) (k : ChildCreate) : Prop where
  sameNode : k.node = (s.call c).node
  sameCaller : k.caller = (s.call c).caller
  alone : Undisturbed s c node
  counts : ∀ sb, node.sb = some sb → node.sbRefCount = s.holders sb - (s.call c).holds sb + k.holds sb
  placed : ∀ sb, node.sb = some sb → s.fate sb = .placed (s.call c).node
  held : ∀ sb, k.stage.holding = some sb → s.fate sb = .placed (s.call c).node ∧ (s.sb sb).paused = false
  transit : (s.call c).caller ≠ none → ∀ sb, k.stage.result = some sb →
    s.fate sb = .transit c ∧ (s.sb sb).paused = false
  locked : k.stage.inside = true → node.mutex = some c
  fits : k.Fits node
  fine : k.Fine
  building : ∀ sub, k.stage = .building sub → sub < s.nextCall ∧ (s.call sub).caller = some c

@[simp] theorem act_call_self (s : Cache) (c : Nat) (node : ImportCacheNode) (k : ChildCreate) :
    (s.act c node k).call c = k := Function.update_self _ _ _

theorem act_call_other (s : Cache) (node : ImportCacheNode) (k : ChildCreate) (other : d ≠ c) :
    (s.act c node k).call d = s.call d := Function.update_of_ne other _ _

@[simp] theorem act_node_self (s : Cache) (c : Nat) (node : ImportCacheNode) (k : ChildCreate) :
    (s.act c node k).node (s.call c).node = node := Function.update_self _ _ _

theorem act_node_other (s : Cache) (node : ImportCacheNode) (k : ChildCreate) (other : n ≠ (s.call c).node) :
    (s.act c node k).node n = s.node n := Function.update_of_ne other _ _

theorem act_nodeOf_self (s : Cache) (node : ImportCacheNode) (same : k.node = (s.call c).node) :
    (s.act c node k).nodeOf c = node := by
  rw [Cache.nodeOf,act_call_self,same,act_node_self]

theorem act_nodeOf_other (s : Cache) (node : ImportCacheNode) (k : ChildCreate) (other : d ≠ c) :
    (s.act c node k).nodeOf d = (s.act c node k).node (s.call d).node := by
  rw [Cache.nodeOf,act_call_other s node k other]

theorem act_counts (exact : Exact s) (born : c < s.nextCall) (lawful : Lawful s c node k) (n sb : Nat)
    (present : ((s.act c node k).node n).sb = some sb) :
    ((s.act c node k).node n).sbRefCount = (s.act c node k).holders sb := by
  rw [act_holders s born]
  by_cases equal : n = (s.call c).node
  · subst n
    rw [act_node_self] at present ⊢
    exact lawful.counts sb present
  · rw [act_node_other s node k equal] at present ⊢
    -- The call is at another node, so it neither held this sandbox nor does now.
    have home := exact.placed n sb present
    have elsewhere : s.fate sb ≠ .placed (s.call c).node := by
      rw [home]
      exact fun same => equal (Fate.placed.inj same)
    have before := holds_zero exact born elsewhere
    have after : k.holds sb = 0 := by
      unfold ChildCreate.holds
      rw [if_neg]
      exact fun holding => elsewhere (lawful.held sb holding).1
    rw [exact.counts n sb present,before,after]
    omega

theorem act_caller (lawful : Lawful s c node k) (d : Nat) :
    ((s.act c node k).call d).caller = (s.call d).caller := by
  by_cases equal : d = c
  · subst d
    rw [act_call_self]
    exact lawful.sameCaller
  · rw [act_call_other s node k equal]

theorem act_exact (exact : Exact s) (born : c < s.nextCall) (lawful : Lawful s c node k) :
    Exact (s.act c node k) where
  safe := exact.safe
  counts := act_counts exact born lawful
  placed := by
    intro n sb present
    by_cases equal : n = (s.call c).node
    · subst n
      rw [act_node_self] at present
      exact lawful.placed sb present
    · rw [act_node_other s node k equal] at present
      exact exact.placed n sb present
  held := by
    intro d older sb holding
    by_cases equal : d = c
    · subst d
      rw [act_call_self] at holding ⊢
      rw [lawful.sameNode]
      exact lawful.held sb holding
    · rw [act_call_other s node k equal] at holding ⊢
      exact exact.held d older sb holding
  transit := by
    intro d older called sb result
    rw [act_caller lawful] at called
    by_cases equal : d = c
    · subst d
      rw [act_call_self] at result
      exact lawful.transit called sb result
    · rw [act_call_other s node k equal] at result
      exact exact.transit d older called sb result
  unused := exact.unused
  locked := by
    intro d older inside
    by_cases equal : d = c
    · subst d
      rw [act_call_self] at inside
      rw [act_nodeOf_self s node lawful.sameNode]
      exact lawful.locked inside
    · rw [act_call_other s node k equal] at inside
      rw [act_nodeOf_other s node k equal]
      have mine := exact.locked d older inside
      by_cases same : (s.call d).node = (s.call c).node
      · rw [same,act_node_self,(other_inside exact lawful.alone older equal same inside).1]
        unfold Cache.nodeOf at mine ⊢
        rw [← same]
        exact mine
      · rw [act_node_other s node k same]
        exact mine
  fits := by
    intro d older
    by_cases equal : d = c
    · subst d
      rw [act_nodeOf_self s node lawful.sameNode,act_call_self]
      exact lawful.fits
    · rw [act_nodeOf_other s node k equal,act_call_other s node k equal]
      have before := exact.fits d older
      by_cases same : (s.call d).node = (s.call c).node
      · rw [same,act_node_self]
        cases inside : (s.call d).stage.inside with
        | false => exact fits_outside _ _ inside
        | true =>
            obtain ⟨_,sb,sbRefCount⟩ := other_inside exact lawful.alone older equal same inside
            apply fits_kept before
            · rw [sb,Cache.nodeOf,Cache.nodeOf,same]
            · rw [sbRefCount,Cache.nodeOf,Cache.nodeOf,same]
      · rw [act_node_other s node k same]
        exact before
  fine := by
    intro d older
    by_cases equal : d = c
    · subst d
      rw [act_call_self]
      exact lawful.fine
    · rw [act_call_other s node k equal]
      exact exact.fine d older
  building := by
    intro d older sub stage
    rw [act_caller lawful]
    by_cases equal : d = c
    · subst d
      rw [act_call_self] at stage
      exact lawful.building sub stage
    · rw [act_call_other s node k equal] at stage
      exact exact.building d older sub stage

theorem recall_exact (exact : Exact s) (k : ChildCreate) (fine : k.Fine) (empty : k.stage.result = none)
    (outside : k.stage.inside = false) (idle : k.stage.holding = none) (known : ∀ c, c < n → c = d ∨ c < s.nextCall)
    (grows : s.nextCall ≤ n) (sameCaller : d < s.nextCall → k.caller = (s.call d).caller)
    (holders : ∀ sb, tally n (fun c => (Function.update s.call d k c).holds sb) = s.holders sb) :
    Exact {s with call := Function.update s.call d k,nextCall := n} := by
  have self : Function.update s.call d k d = k := Function.update_self _ _ _
  have other : ∀ c, c ≠ d → Function.update s.call d k c = s.call c :=
    fun c different => Function.update_of_ne different _ _
  have split : ∀ c, c < n → c = d ∨ c ≠ d ∧ c < s.nextCall := by
    intro c bound
    by_cases equal : c = d
    · exact .inl equal
    · exact .inr ⟨equal,(known c bound).resolve_left equal⟩
  constructor
  case safe => exact exact.safe
  case counts =>
    intro m sb present
    exact (exact.counts m sb present).trans (holders sb).symm
  case placed => exact exact.placed
  case unused => exact exact.unused
  case held =>
    intro c bound sb holding
    rcases split c bound with rfl | ⟨different,older⟩
    · dsimp only at holding
      rw [self,idle] at holding
      cases holding
    · dsimp only at holding ⊢
      rw [other c different] at holding ⊢
      exact exact.held c older sb holding
  case transit =>
    intro c bound called sb result
    rcases split c bound with rfl | ⟨different,older⟩
    · dsimp only at result
      rw [self,empty] at result
      cases result
    · dsimp only at called result
      rw [other c different] at called result
      exact exact.transit c older called sb result
  case locked =>
    intro c bound inside
    rcases split c bound with rfl | ⟨different,older⟩
    · dsimp only at inside
      rw [self,outside] at inside
      cases inside
    · dsimp only [Cache.nodeOf] at inside ⊢
      rw [other c different] at inside ⊢
      exact exact.locked c older inside
  case fits =>
    intro c bound
    rcases split c bound with rfl | ⟨different,older⟩
    · apply fits_outside
      dsimp only
      rw [self]
      exact outside
    · dsimp only [Cache.nodeOf]
      rw [other c different]
      exact exact.fits c older
  case fine =>
    intro c bound
    rcases split c bound with rfl | ⟨different,older⟩
    · dsimp only
      rw [self]
      exact fine
    · dsimp only
      rw [other c different]
      exact exact.fine c older
  case building =>
    intro c bound sub stage
    rcases split c bound with rfl | ⟨different,older⟩
    · dsimp only at stage
      rw [self] at stage
      rw [stage] at outside
      cases outside
    · dsimp only at stage ⊢
      rw [other c different] at stage
      obtain ⟨earlier,called⟩ := exact.building c older sub stage
      refine ⟨Nat.lt_of_lt_of_le earlier grows,?_⟩
      by_cases equal : sub = d
      · subst sub
        rw [self,sameCaller earlier]
        exact called
      · rw [other sub equal]
        exact called

theorem spawn_exact (exact : Exact s) (node : Nat) (isLeaf : Bool) (caller : Option Nat) :
    Exact (s.spawn node isLeaf caller) := by
  refine recall_exact exact _ ⟨.inl ⟨rfl,rfl⟩,trivial,rfl⟩ rfl rfl rfl ?_ (Nat.le_succ _) ?_ ?_
  · intro c bound
    omega
  · intro impossible
    exact absurd impossible (Nat.lt_irrefl _)
  · intro sb
    rw [tally_succ,Function.update_self]
    have same : tally s.nextCall (fun c => (Function.update s.call s.nextCall
        ⟨node,isLeaf,caller,0,false,.start,[],[]⟩ c).holds sb) = s.holders sb :=
      tally_congr fun c older => by rw [Function.update_of_ne (Nat.ne_of_lt older)]
    rw [same]
    exact Int.add_zero _

theorem collect_exact (exact : Exact s) (born : d < s.nextCall) (returned : (s.call d).stage = .returned result) :
    Exact (s.collect d) := by
  have fine := exact.fine d born
  have matched := fine.matched
  rw [returned] at matched
  refine recall_exact exact _ ⟨fine.tries,trivial,matched⟩ rfl rfl rfl ?_ (Nat.le_refl _) (fun _ => rfl) ?_
  · intro c bound
    exact .inr bound
  · intro sb
    rw [tally_update born s.call _ fun _ call => call.holds sb]
    have before : (s.call d).holds sb = 0 := by simp [ChildCreate.holds,returned,Stage.holding]
    rw [before]
    exact (Int.add_zero _).trans (Int.sub_zero _)

def ChildCreate.Uses (k : ChildCreate) (sb : Nat) : Prop :=
  k.stage.holding = some sb ∨ k.caller ≠ none ∧ k.stage.result = some sb

theorem uses_awake (exact : Exact s) (born : c < s.nextCall) (uses : (s.call c).Uses sb) : (s.sb sb).paused = false := by
  rcases uses with holding | ⟨called,result⟩
  · exact (exact.held c born sb holding).2
  · exact (exact.transit c born called sb result).2

theorem setSb_exact (exact : Exact s) (sb : Nat) (state : SafeWrapper.SafeSandbox)
    (calm : ∀ c, c < s.nextCall → (s.call c).Uses sb → state.paused = false) : Exact (s.setSb sb state) := by
  have awake : ∀ c, c < s.nextCall → ∀ other, (s.call c).Uses other → ((s.setSb sb state).sb other).paused = false := by
    intro c born other uses
    by_cases equal : other = sb
    · subst other
      dsimp only [Cache.setSb]
      rw [Function.update_self]
      exact calm c born uses
    · dsimp only [Cache.setSb]
      rw [Function.update_of_ne equal]
      exact uses_awake exact born uses
  refine {exact with held := ?_,transit := ?_}
  · intro c born other holding
    exact ⟨(exact.held c born other holding).1,awake c born other (.inl holding)⟩
  · intro c born called other result
    exact ⟨(exact.transit c born called other result).1,awake c born other (.inr ⟨called,result⟩)⟩

theorem mint_exact (exact : Exact s) (fate : Fate) : Exact (s.mint fate) := by
  have other : ∀ sb, s.fate sb ≠ .unused → sb ≠ s.nextSb := by
    rintro sb used rfl
    exact used (exact.unused _ (Nat.le_refl _))
  have kept : ∀ sb, s.fate sb ≠ .unused → (s.mint fate).fate sb = s.fate sb ∧ (s.mint fate).sb sb = s.sb sb :=
    fun sb used => ⟨Function.update_of_ne (other sb used) _ _,Function.update_of_ne (other sb used) _ _⟩
  refine {exact with placed := ?_,held := ?_,transit := ?_,unused := ?_}
  · intro n sb present
    have home := exact.placed n sb present
    rw [(kept sb (by simp [home])).1]
    exact home
  · intro c born sb holding
    obtain ⟨home,awake⟩ := exact.held c born sb holding
    obtain ⟨sameFate,sameSb⟩ := kept sb (by simp [home])
    rw [sameFate,sameSb]
    exact ⟨home,awake⟩
  · intro c born called sb result
    obtain ⟨home,awake⟩ := exact.transit c born called sb result
    obtain ⟨sameFate,sameSb⟩ := kept sb (by simp [home])
    rw [sameFate,sameSb]
    exact ⟨home,awake⟩
  · intro sb bound
    have later : sb ≠ s.nextSb := Nat.ne_of_gt bound
    change Function.update s.fate s.nextSb fate sb = .unused
    rw [Function.update_of_ne later]
    exact exact.unused sb (Nat.le_of_succ_le bound)

theorem place_exact (exact : Exact s) (moving : s.fate sb = .transit d) (gone : (s.call d).stage.result = none)
    (n : Nat) : Exact (s.place sb n) := by
  have kept : ∀ other, s.fate other ≠ .transit d → (s.place sb n).fate other = s.fate other := by
    intro other elsewhere
    apply Function.update_of_ne
    rintro rfl
    exact elsewhere moving
  refine {exact with placed := ?_,held := ?_,transit := ?_,unused := ?_}
  · intro m other present
    have home := exact.placed m other present
    rw [kept other (by simp [home])]
    exact home
  · intro c born other holding
    obtain ⟨home,awake⟩ := exact.held c born other holding
    rw [kept other (by simp [home])]
    exact ⟨home,awake⟩
  · intro c born called other result
    obtain ⟨home,awake⟩ := exact.transit c born called other result
    rw [kept other]
    · exact ⟨home,awake⟩
    · rw [home]
      intro same
      rw [Fate.transit.inj same] at result
      exact Option.some_ne_none _ (result.symm.trans gone)
  · intro other bound
    have home := exact.unused other bound
    rw [kept other (by simp [home])]
    exact home

theorem holds_none (idle : k.stage.holding = none) (sb : Nat) : ChildCreate.holds k sb = 0 := by
  simp [ChildCreate.holds,idle]

theorem holds_self (holding : k.stage.holding = some sb) : ChildCreate.holds k sb = 1 := by
  simp [ChildCreate.holds,holding]

theorem keep_counts (exact : Exact s) (node : ImportCacheNode) (k : ChildCreate)
    (keep : ∀ sb, node.sb = some sb → (s.nodeOf c).sb = some sb ∧
      node.sbRefCount = (s.nodeOf c).sbRefCount - (s.call c).holds sb + k.holds sb) (sb : Nat)
    (present : node.sb = some sb) :
    node.sbRefCount = s.holders sb - (s.call c).holds sb + k.holds sb ∧ s.fate sb = .placed (s.call c).node := by
  obtain ⟨before,count⟩ := keep sb present
  rw [count,Cache.nodeOf,exact.counts _ sb before]
  exact ⟨rfl,exact.placed _ sb before⟩

theorem quiet_lawful (exact : Exact s) (born : c < s.nextCall) (here : (s.call c).stage = stage) (next : Stage)
    (node : ImportCacheNode) (alone : Undisturbed s c node) (sb : node.sb = none ∨ node.sb = (s.nodeOf c).sb)
    (count : node.sbRefCount = (s.nodeOf c).sbRefCount) (holding : next.holding = stage.holding)
    (transit : (s.call c).caller ≠ none → ∀ sb, next.result = some sb →
      s.fate sb = .transit c ∧ (s.sb sb).paused = false)
    (locked : next.inside = true → node.mutex = some c) (fits : ((s.call c).goto next).Fits node)
    (renewed : ((s.call c).goto next).Renewed)
    (building : ∀ sub, next = .building sub → sub < s.nextCall ∧ (s.call sub).caller = some c) :
    Lawful s c node ((s.call c).goto next) := by
  have fine := exact.fine c born
  have same : ((s.call c).goto next).stage.holding = (s.call c).stage.holding := by
    rw [here]
    exact holding
  have counts := keep_counts exact node ((s.call c).goto next) (c := c) (by
    intro z present
    rcases sb with gone | kept
    · simp [gone] at present
    · refine ⟨kept ▸ present,?_⟩
      rw [count,ChildCreate.holds,ChildCreate.holds,same]
      omega)
  refine ⟨rfl,rfl,alone,fun z present => (counts z present).1,fun z present => (counts z present).2,?_,transit,locked,
    fits,⟨fine.tries,renewed,?_⟩,building⟩
  · intro z held
    rw [same] at held
    exact exact.held c born z held
  · rw [same]
    exact fine.matched

theorem none_result {fate : Nat → Prop} (empty : Stage.result stage = none) (sb : Nat)
    (result : stage.result = some sb) : fate sb := by
  rw [empty] at result
  cases result

end OpenLambda.Zygote
