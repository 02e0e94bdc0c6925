import OpenLambda.Boss.UploadFailures
import OpenLambda.Foundation.Runs

namespace OpenLambda.Boss
open OpenLambda.Common Foundation.Maps Foundation.Runs

inductive Request where
  | upload (env : StoreEnv) (funcName : String) (body : Tarball)
  | delete (env : StoreEnv) (funcName : String)
  | config (env : StoreEnv) (funcName : String)
  | list
  | deleted (key : String) (failed : Bool)

-- `current` are the functions that were in the bucket at start-up or uploaded since,
-- and not deleted. A config request that never returns keeps the lock of the entry
-- of a `hung` name, and a delete request for such a name mapLock (`stuck`).
structure Registry where
  store : LambdaStore
  current : String → Bool
  hung : List String
  stuck : Bool

def presentIn (bucket : AList fun _ : String => Tarball) (funcName : String) : Bool :=
  (bucket.lookup (keyOf funcName)).isSome

def Registry.waits (r : Registry) (funcName : String) : Bool := r.stuck || decide (funcName ∈ r.hung)

def Registry.serve (r : Registry) : Request → Option Registry
  | .upload env funcName body =>
      if r.waits funcName then some r
      else
        let served := r.store.uploadLambda env funcName body
        some {r with
          store := served.2
          current := if served.1.status = 201 then Function.update r.current funcName true else r.current}
  | .delete env funcName =>
      if r.waits funcName then some {r with stuck := true}
      else
        let served := r.store.deleteLambda env funcName
        some {r with
          store := served.2
          current := if served.1.status = 200 then Function.update r.current funcName false else r.current}
  | .config env funcName =>
      if r.waits funcName then some r
      else match r.store.retrieveLambdaConfig env funcName with
        | some served => some {r with store := served.2}
        | none => some {r with store := (r.store.getOrCreateEntry funcName).2,hung := funcName :: r.hung}
  | .list => some r
  | .deleted key failed =>
      if key ∈ r.store.deletions then some {r with store := r.store.deleteBlob key failed} else none

def Registry.Listed (r : Registry) : Prop := ∀ name ∈ r.store.listEntries, r.current name = true

-- An upload that fails and a config request are for a function that is current; with
-- mapLock held for ever no request gets anywhere.
def Registry.invites (r : Registry) : Request → Prop
  | .upload env funcName body => r.stuck = true ∨ matchesHandlerName funcName = false ∨
      (r.store.addToRegistry env funcName body).1 = none ∨ r.current funcName = true
  | .config _ funcName => r.stuck = true ∨ matchesHandlerName funcName = false ∨ r.current funcName = true
  | .delete _ _ | .list | .deleted _ _ => True

instance (r : Registry) : (request : Request) → Decidable (r.invites request)
  | .upload _ _ _ => inferInstanceAs (Decidable (_ ∨ _ ∨ _ ∨ _))
  | .config _ _ => inferInstanceAs (Decidable (_ ∨ _ ∨ _))
  | .delete _ _ | .list | .deleted _ _ => inferInstanceAs (Decidable True)

inductive Served (r : Registry) : Request → Registry → Prop where
  | uploadWaits : r.waits funcName = true → Served r (.upload env funcName body) r
  | uploadRefused : matchesHandlerName funcName = false → Served r (.upload env funcName body) r
  | uploadFailed : r.waits funcName = false → matchesHandlerName funcName = true →
      (r.store.addToRegistry env funcName body).1 = some err →
      Served r (.upload env funcName body) {r with store := (r.store.addToRegistry env funcName body).2}
  | uploaded : matchesHandlerName funcName = true → (r.store.addToRegistry env funcName body).1 = none →
      Served r (.upload env funcName body) {r with
        store := (r.store.addToRegistry env funcName body).2
        current := Function.update r.current funcName true}
  | deleteWaits : Served r (.delete env funcName) {r with stuck := true}
  | deleteRefused : Served r (.delete env funcName) r
  | removed : r.waits funcName = false → Served r (.delete env funcName) {r with
      store := r.store.removeEntry env funcName
      current := Function.update r.current funcName false}
  | configWaits : r.waits funcName = true → Served r (.config env funcName) r
  | configRefused : matchesHandlerName funcName = false → Served r (.config env funcName) r
  | configAnswered : r.waits funcName = false → matchesHandlerName funcName = true →
      r.store.getConfig env funcName = some (answer,next) → Served r (.config env funcName) {r with store := next}
  | configHangs : r.waits funcName = false → matchesHandlerName funcName = true → Served r (.config env funcName) {r with
      store := (r.store.getOrCreateEntry funcName).2
      hung := funcName :: r.hung}
  | list : Served r .list r
  | deleted : Served r (.deleted key failed) {r with store := r.store.deleteBlob key failed}

theorem upload_parts (r : Registry) (env : StoreEnv) (funcName : String) (body : Tarball) :
    ∃ t, r.serve (.upload env funcName body) = some t ∧ Served r (.upload env funcName body) t := by
  unfold Registry.serve
  dsimp only
  cases waits : r.waits funcName with
  | true => exact ⟨r,rfl,.uploadWaits waits⟩
  | false =>
      refine ⟨_,rfl,?_⟩
      unfold LambdaStore.uploadLambda validateFunctionName
      cases valid : matchesHandlerName funcName with
      | false => exact .uploadRefused valid
      | true =>
          rw [if_pos rfl]
          cases result : r.store.addToRegistry env funcName body with
          | mk error store =>
              have answer := congrArg Prod.fst result
              have after : (r.store.addToRegistry env funcName body).2 = store := congrArg Prod.snd result
              subst store
              cases error with
              | some err => exact .uploadFailed waits valid answer
              | none => exact .uploaded valid answer

theorem delete_parts (r : Registry) (env : StoreEnv) (funcName : String) :
    ∃ t, r.serve (.delete env funcName) = some t ∧ Served r (.delete env funcName) t := by
  unfold Registry.serve
  dsimp only
  cases waits : r.waits funcName with
  | true => exact ⟨_,rfl,.deleteWaits⟩
  | false =>
      refine ⟨_,rfl,?_⟩
      unfold LambdaStore.deleteLambda LambdaStore.removeFromRegistry
      cases validateFunctionName env.quote funcName with
      | some err => exact .deleteRefused
      | none =>
          cases r.store.lambdas.lookup funcName with
          | none => exact .deleteRefused
          | some entry => exact .removed waits

theorem config_parts (r : Registry) (env : StoreEnv) (funcName : String) :
    ∃ t, r.serve (.config env funcName) = some t ∧ Served r (.config env funcName) t := by
  unfold Registry.serve
  dsimp only
  cases waits : r.waits funcName with
  | true => exact ⟨r,rfl,.configWaits waits⟩
  | false =>
      unfold LambdaStore.retrieveLambdaConfig validateFunctionName
      cases valid : matchesHandlerName funcName with
      | false => exact ⟨r,rfl,.configRefused valid⟩
      | true =>
          rw [if_pos rfl]
          cases result : r.store.getConfig env funcName with
          | none => exact ⟨_,rfl,.configHangs waits valid⟩
          | some served =>
              rcases served with ⟨answer,next⟩
              cases answer with
              | error err => exact ⟨_,rfl,.configAnswered waits valid result⟩
              | ok cfg => exact ⟨_,rfl,.configAnswered waits valid result⟩

theorem serve_parts {r t : Registry} (served : r.serve request = some t) : Served r request t := by
  cases request with
  | upload env funcName body =>
      obtain ⟨next,same,parts⟩ := upload_parts r env funcName body
      cases same.symm.trans served
      exact parts
  | delete env funcName =>
      obtain ⟨next,same,parts⟩ := delete_parts r env funcName
      cases same.symm.trans served
      exact parts
  | config env funcName =>
      obtain ⟨next,same,parts⟩ := config_parts r env funcName
      cases same.symm.trans served
      exact parts
  | list => cases served; exact .list
  | deleted key failed =>
      unfold Registry.serve at served
      dsimp only at served
      split at served
      · cases served; exact .deleted
      · cases served

theorem removeEntry_keys (s : LambdaStore) (env : StoreEnv) (funcName name : String) :
    name ∈ (s.removeEntry env funcName).listEntries ↔ name ≠ funcName ∧ name ∈ s.listEntries := by
  unfold LambdaStore.removeEntry LambdaStore.listEntries
  rw [← AList.mem_keys,← AList.mem_keys]
  exact AList.mem_erase

theorem waits_parts {r : Registry} : r.waits funcName = true ↔ r.stuck = true ∨ funcName ∈ r.hung := by
  unfold Registry.waits
  rw [Bool.or_eq_true,decide_eq_true_iff]

theorem free_parts {r : Registry} (free : r.waits funcName = false) : r.stuck = false ∧ funcName ∉ r.hung := by
  unfold Registry.waits at free
  rw [Bool.or_eq_false_iff,decide_eq_false_iff_not] at free
  exact free

def Registry.Hung (r : Registry) : Prop := ∀ name ∈ r.hung, name ∈ r.store.listEntries

theorem served_hung (kept : r.Hung) (served : Served r request t) : t.Hung := by
  cases served with
  | uploadWaits | uploadRefused | deleteWaits | deleteRefused | configWaits | configRefused | list | deleted => exact kept
  | uploadFailed | uploaded =>
      intro name hung
      exact (addToRegistry_keys _ _ _ _ name).mpr (.inr (kept name hung))
  | removed free =>
      intro name hung
      refine (removeEntry_keys _ _ _ name).mpr ⟨?_,kept name hung⟩
      rintro rfl
      exact (free_parts free).2 hung
  | configAnswered _ _ answered =>
      rw [getConfig_parts answered]
      intro name hung
      exact (getOrCreate_keys _ _ name).mpr (.inr (kept name hung))
  | configHangs =>
      intro name hung
      apply (getOrCreate_keys _ _ name).mpr
      rcases List.mem_cons.mp hung with same | before
      · exact .inl same
      · exact .inr (kept name before)

theorem listed_added {r : Registry} {store : LambdaStore} (listed : r.Listed)
    (keys : ∀ name, name ∈ store.listEntries ↔ name = funcName ∨ name ∈ r.store.listEntries) :
    (∀ name ∈ store.listEntries, r.current name = true) ↔ r.current funcName = true := by
  constructor
  · intro all
    exact all funcName ((keys funcName).mpr (.inl rfl))
  · intro present name member
    rcases (keys name).mp member with rfl | before
    · exact present
    · exact listed name before

theorem served_listed (listed : r.Listed) (kept : r.Hung) (served : Served r request t) :
    t.Listed ↔ r.invites request := by
  have waiting : ∀ funcName, r.waits funcName = true → r.stuck = true ∨ r.current funcName = true := by
    intro funcName waits
    rcases waits_parts.mp waits with stuck | hung
    · exact .inl stuck
    · exact .inr (listed funcName (kept funcName hung))
  cases served with
  | uploadWaits waits =>
      refine ⟨fun _ => ?_,fun _ => listed⟩
      exact (waiting _ waits).imp id fun present => .inr (.inr present)
  | uploadRefused invalid => exact ⟨fun _ => .inr (.inl invalid),fun _ => listed⟩
  | uploadFailed free valid failed =>
      refine (listed_added listed (addToRegistry_keys _ _ _ _)).trans ?_
      simp [Registry.invites,(free_parts free).1,valid,failed]
  | uploaded valid done =>
      refine ⟨fun _ => .inr (.inr (.inl done)),fun _ => ?_⟩
      intro name member
      dsimp only
      rw [Function.update_apply]
      split
      · rfl
      · rename_i other
        exact listed name (((addToRegistry_keys _ _ _ _ name).mp member).resolve_left other)
  | deleteWaits | deleteRefused | list | deleted => exact ⟨fun _ => trivial,fun _ => listed⟩
  | removed =>
      refine ⟨fun _ => trivial,fun _ => ?_⟩
      intro name member
      obtain ⟨other,before⟩ := (removeEntry_keys _ _ _ name).mp member
      dsimp only
      rw [Function.update_of_ne other]
      exact listed name before
  | configWaits waits =>
      refine ⟨fun _ => ?_,fun _ => listed⟩
      exact (waiting _ waits).imp id .inr
  | configRefused invalid => exact ⟨fun _ => .inr (.inl invalid),fun _ => listed⟩
  | configAnswered free valid answered =>
      rw [getConfig_parts answered]
      refine (listed_added listed (getOrCreate_keys _ _)).trans ?_
      simp [Registry.invites,(free_parts free).1,valid]
  | configHangs free valid =>
      refine (listed_added listed (getOrCreate_keys _ _)).trans ?_
      simp [Registry.invites,(free_parts free).1,valid]

theorem served_scheduled (scheduled : r.store.Scheduled) (served : Served r request t) : t.store.Scheduled := by
  cases served with
  | uploadWaits | uploadRefused | deleteWaits | deleteRefused | configWaits | configRefused | list | deleted =>
      exact scheduled
  | uploadFailed | uploaded => exact addToRegistry_scheduled scheduled _ _ _
  | removed => exact removeEntry_scheduled scheduled _ _
  | configAnswered _ _ answered =>
      rw [getConfig_parts answered]
      exact created_scheduled scheduled _
  | configHangs => exact created_scheduled scheduled _

theorem unserved_invited {r : Registry} (unserved : r.serve request = none) : r.invites request := by
  cases request with
  | upload env funcName body =>
      obtain ⟨next,served,_⟩ := upload_parts r env funcName body
      cases served.symm.trans unserved
  | config env funcName =>
      obtain ⟨next,served,_⟩ := config_parts r env funcName
      cases served.symm.trans unserved
  | delete | list | deleted => trivial

theorem trimSuffix_append (suffixed : hasSuffix text ending = true) : trimSuffix text ending ++ ending = text := by
  obtain ⟨start,joined⟩ := List.isSuffixOf_iff_suffix.mp suffixed
  unfold trimSuffix
  rw [if_pos suffixed,← String.toList_inj,String.toList_append,String.toList_ofList,← joined]
  simp

theorem loadAll_listed (env : String → StoreEnv) (keys : List String) {s : LambdaStore}
    (listed : name ∈ (s.loadAll env keys).listEntries) : name ∈ s.listEntries ∨ keyOf name ∈ keys := by
  induction keys generalizing s with
  | nil => exact .inl listed
  | cons key rest ih =>
      unfold LambdaStore.loadAll at listed
      split at listed
      · rename_i suffixed
        rcases ih listed with loaded | later
        · rcases loadConfig_keys loaded with rfl | before
          · refine .inr (List.mem_cons.mpr (.inl ?_))
            exact trimSuffix_append suffixed
          · exact .inl before
        · exact .inr (List.mem_cons_of_mem _ later)
      · exact (ih listed).imp id (List.mem_cons_of_mem _)

theorem newLambdaStore_listed (started : newLambdaStore env bucket pool listing = .ok store)
    (listed : name ∈ store.listEntries) : presentIn bucket name = true := by
  unfold newLambdaStore at started
  split at started
  · cases started
  · cases started
    rcases loadAll_listed env bucket.keys listed with none | present
    · cases none
    · exact AList.lookup_isSome.mpr present

-- The stores that requests reach have their cron jobs in order.
theorem reached_scheduled (started : newLambdaStore env bucket pool listing = .ok store)
    (ran : run Registry.serve ⟨store,current,[],false⟩ requests = some t) : t.store.Scheduled :=
  run_preserves (fun r => r.store.Scheduled) (fun _ _ _ scheduled served => served_scheduled scheduled (serve_parts served))
    (newLambdaStore_scheduled started) ran

theorem reached_hung (ran : run Registry.serve ⟨store,current,[],stuck⟩ requests = some t) : t.Hung :=
  run_preserves Registry.Hung (fun _ _ _ kept served => served_hung kept (serve_parts served))
    (fun _ none => absurd none List.not_mem_nil) ran

theorem listed_current (started : newLambdaStore env bucket pool listing = .ok store) (requests : List Request) :
    (∀ early t, early <+: requests → run Registry.serve ⟨store,presentIn bucket,[],false⟩ early = some t →
      ∀ name ∈ t.store.listEntries, t.current name = true) ↔
    Meets Registry.serve Registry.invites ⟨store,presentIn bucket,[],false⟩ requests := by
  constructor
  · intro visited
    apply meets_iff_visited.mpr
    intro early request t ahead ran
    cases served : t.serve request with
    | none => exact unserved_invited served
    | some next =>
        have listed := visited early t ((List.prefix_append early [request]).trans ahead) ran
        refine (served_listed listed (reached_hung ran) (serve_parts served)).mp ?_
        exact visited (early ++ [request]) next ahead (run_trans ran (by simp [run,served]))
  · intro meets early t ahead ran
    have both : t.Listed ∧ t.Hung := by
      refine run_preserves_guarded (fun r => r.Listed ∧ r.Hung) ?_ ?_ (meets_early meets ahead) ran
      · rintro r request next ⟨listed,kept⟩ invited served
        have parts := serve_parts served
        exact ⟨(served_listed listed kept parts).mpr invited,served_hung kept parts⟩
      · exact ⟨fun name member => newLambdaStore_listed started member,fun _ hung => absurd hung List.not_mem_nil⟩
    exact both.1

def listedRequests : List Request :=
  [.upload plainEnv "f" (cronTarball []),.config plainEnv "f",.list,.delete plainEnv "f",.list]

theorem listed_current_served : ∃ t,
    run Registry.serve ⟨emptyStore ∅ false,presentIn ∅,[],false⟩ listedRequests = some t ∧
      ∀ name ∈ t.store.listEntries, t.current name = true := by
  have started : newLambdaStore (fun _ => plainEnv) ∅ false none = .ok (emptyStore ∅ false) := rfl
  have meets : Meets Registry.serve Registry.invites ⟨emptyStore ∅ false,presentIn ∅,[],false⟩ listedRequests := by
    decide +kernel
  obtain ⟨t,ran,_⟩ : ∃ t, run Registry.serve ⟨emptyStore ∅ false,presentIn ∅,[],false⟩ listedRequests = some t ∧
      t.stuck = false := run_seen (by decide +kernel)
  exact ⟨t,ran,(listed_current started listedRequests).mpr meets listedRequests t List.prefix_rfl ran⟩

theorem phantom_listed : newLambdaStore (fun _ => plainEnv) ∅ false none = .ok (emptyStore ∅ false) ∧
    (∃ t, run Registry.serve ⟨emptyStore ∅ false,presentIn ∅,[],false⟩ [.config plainEnv "f",.list] = some t ∧
      t.store.listEntries = ["f"] ∧ t.current "f" = false) ∧
    ∃ t, run Registry.serve ⟨emptyStore ∅ false,presentIn ∅,[],false⟩
        [.upload plainEnv "f" ⟨some "gzip: invalid header",[],none⟩,.list] = some t ∧
      t.store.listEntries = ["f"] ∧ t.current "f" = false :=
  ⟨rfl,run_seen (by decide +kernel),run_seen (by decide +kernel)⟩

end OpenLambda.Boss
