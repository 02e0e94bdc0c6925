import OpenLambda.Common.LambdaConfig
import OpenLambda.Foundation.Runs
import Mathlib.Logic.Function.Basic

namespace OpenLambda.Lambda
open Foundation.Runs

-- One version of the key in the blob store. A time is the ns since Go's zero
-- Time, so 0 is the version of an entry whose attributes could not be read.
structure Blob (β : Type) where
  modTime : Nat
  content : β
  deriving DecidableEq, Repr

structure CacheEntry where
  version : Nat
  path : String
  deriving DecidableEq, Repr

-- What Pull reads besides the store: the name of the function, Conf.Registry,
-- the directory of dirMaker, and how fmt prints %q.
structure Registry where
  name : String
  url : String
  root : String
  quote : String → String

def Registry.key (reg : Registry) : String := reg.name ++ ".tar.gz"

def Registry.dir (reg : Registry) (id : Nat) : String :=
  reg.root ++ "/" ++ id.repr ++ (if reg.name = "" then "" else "-" ++ reg.name)

def notFound404 (reg : Registry) : String :=
  "lambda " ++ reg.quote reg.name ++ " not found in blob store (bucket=" ++ reg.quote reg.url ++ ", key=" ++
    reg.quote reg.key ++ ")"

inductive PullPc (β : Type) where
  | idle
  | attributes
  | reading (attrs : Option Nat)
  | copying (attrs : Option Nat) (content : β)
  | making (attrs : Option Nat) (content : β) (dir : String)
  | extracting (attrs : Option Nat) (content : β) (dir : String)
  | returned (result : Except String String)

def PullPc.calling : PullPc β → Bool
  | .idle | .returned _ => false
  | _ => true

-- HandlerPuller for one name, with the store and the directories. `current` is
-- what the store holds under the key and `uploads` all it ever held; `seen` are
-- the versions that were current at some moment of the last call of Pull.
structure Puller (β : Type) where
  current : Option (Blob β)
  uploads : List (Blob β)
  dirCache : Option CacheEntry
  nextDirId : Nat
  dirs : String → Option β
  removed : List String
  pc : PullPc β
  seen : List (Blob β)

def Puller.init : Puller β := ⟨none,[],none,1000,fun _ => none,[],.idle,[]⟩

def Puller.removeAll (p : Puller β) (gone : List String) : Puller β :=
  {p with dirs := fun dir => if dir ∈ gone then none else p.dirs dir,removed := p.removed ++ gone}

def Puller.finish (p : Puller β) (result : Except String String) : Puller β := {p with pc := .returned result}

def Puller.reset (p : Puller β) : Puller β := {p with dirCache := none}

def Puller.putCache (p : Puller β) (version : Nat) (path : String) : Puller β :=
  let cleaned := match p.dirCache with
    | some old => if old.path ≠ path then p.removeAll [old.path] else p
    | none => p
  {cleaned with dirCache := some ⟨version,path⟩}

inductive PullAction (β : Type) where
  | upload (blob : Blob β)
  | delete
  | otherDir
  | call
  | reset
  | attributes (err : Option String)
  | read (err : Option String)
  | copy (err : Option String)
  | mkdir (err : Option String)
  | extract (err : Option (String × String))

-- Modification times grow with every upload.
def Puller.upload (p : Puller β) (blob : Blob β) : Option (Puller β) :=
  if p.uploads.all fun older => decide (older.modTime < blob.modTime) then
    some {p with
      current := some blob
      uploads := p.uploads ++ [blob]
      seen := if p.pc.calling then p.seen ++ [blob] else p.seen}
  else none

def Puller.call (reg : Registry) (p : Puller β) : Puller β :=
  {p with
    seen := p.current.toList
    pc := match Common.validateFunctionName reg.quote reg.name with
      | some err => .returned (.error err)
      | none => .attributes}

def Puller.attributes (p : Puller β) (err : Option String) : Puller β :=
  match err,p.current with
  | none,some blob => match p.dirCache.filter fun entry => entry.version == blob.modTime with
      | some entry => p.finish (.ok entry.path)
      | none => {p with pc := .reading (some blob.modTime)}
  | _,_ => {p with pc := .reading none}

def Puller.read (reg : Registry) (p : Puller β) (attrs : Option Nat) (err : Option String) : Puller β :=
  match err,p.current with
  | none,some blob => {p with pc := .copying attrs blob.content}
  | none,none => p.finish (.error (notFound404 reg))
  | some err,_ => p.finish (.error err)

def Puller.store (p : Puller β) (attrs : Option Nat) (content : β) (dir : String) : Puller β :=
  ({p with dirs := Function.update p.dirs dir (some content)}.putCache (attrs.getD 0) dir).finish (.ok dir)

def pullStep (reg : Registry) (p : Puller β) : PullAction β → Option (Puller β)
  | .upload blob => p.upload blob
  | .delete => some {p with current := none}
  | .otherDir => some {p with nextDirId := p.nextDirId + 1}
  | .call => if p.pc.calling then none else some (p.call reg)
  | .reset => if p.pc.calling then none else some p.reset
  | .attributes err => match p.pc with
      | .attributes => some (p.attributes err)
      | _ => none
  | .read err => match p.pc with
      | .reading attrs => some (p.read reg attrs err)
      | _ => none
  | .copy err => match p.pc,err with
      | .copying attrs content,none =>
          some {p with
            nextDirId := p.nextDirId + 1
            pc := .making attrs content (reg.dir (p.nextDirId + 1))}
      | .copying _ _,some err => some (p.finish (.error err))
      | _,_ => none
  | .mkdir err => match p.pc,err with
      | .making attrs content dir,none => some {p with pc := .extracting attrs content dir}
      | .making _ _ _,some err => some (p.finish (.error err))
      | _,_ => none
  | .extract err => match p.pc,err with
      | .extracting attrs content dir,none => some (p.store attrs content dir)
      | .extracting _ _ _,some (err,output) =>
          some (p.finish (.error ("tar extract failed: " ++ err ++ " :: " ++ output)))
      | _,_ => none

inductive PullTurn (reg : Registry) (p : Puller β) : PullAction β → Puller β → Prop where
  | uploaded : (∀ older ∈ p.uploads, older.modTime < blob.modTime) →
      PullTurn reg p (.upload blob) {p with
        current := some blob
        uploads := p.uploads ++ [blob]
        seen := if p.pc.calling then p.seen ++ [blob] else p.seen}
  | deleted : PullTurn reg p .delete {p with current := none}
  | otherDir : PullTurn reg p .otherDir {p with nextDirId := p.nextDirId + 1}
  | refused : p.pc.calling = false →
      PullTurn reg p .call {p with seen := p.current.toList,pc := .returned (.error err)}
  | called : p.pc.calling = false → PullTurn reg p .call {p with seen := p.current.toList,pc := .attributes}
  | reset : p.pc.calling = false → PullTurn reg p .reset p.reset
  | hit : p.pc = .attributes → p.current = some blob → p.dirCache = some entry → entry.version = blob.modTime →
      PullTurn reg p (.attributes none) (p.finish (.ok entry.path))
  | missed : p.pc = .attributes → p.current = some blob →
      PullTurn reg p (.attributes none) {p with pc := .reading (some blob.modTime)}
  | untagged : p.pc = .attributes → PullTurn reg p (.attributes err) {p with pc := .reading none}
  | read : p.pc = .reading attrs → p.current = some blob →
      PullTurn reg p (.read none) {p with pc := .copying attrs blob.content}
  | copied : p.pc = .copying attrs content →
      PullTurn reg p (.copy none) {p with
        nextDirId := p.nextDirId + 1
        pc := .making attrs content (reg.dir (p.nextDirId + 1))}
  | made : p.pc = .making attrs content dir →
      PullTurn reg p (.mkdir none) {p with pc := .extracting attrs content dir}
  | extracted : p.pc = .extracting attrs content dir → PullTurn reg p (.extract none) (p.store attrs content dir)
  | failed : p.pc.calling = true → PullTurn reg p action (p.finish (.error err))

theorem pullStep_turn (moved : pullStep reg p action = some q) : PullTurn reg p action q := by
  cases action with
  | upload blob =>
      simp only [pullStep,Puller.upload] at moved
      split at moved
      · rename_i newer
        cases moved
        exact .uploaded (by simpa using newer)
      · cases moved
  | delete =>
      cases moved
      exact .deleted
  | otherDir =>
      cases moved
      exact .otherDir
  | call =>
      simp only [pullStep] at moved
      split at moved
      · cases moved
      · rename_i outside
        have free : p.pc.calling = false := by simpa using outside
        cases moved
        unfold Puller.call
        split
        · exact .refused free
        · exact .called free
  | reset =>
      simp only [pullStep] at moved
      split at moved
      · cases moved
      · rename_i outside
        cases moved
        exact .reset (by simpa using outside)
  | attributes err =>
      simp only [pullStep] at moved
      split at moved
      · rename_i here
        cases moved
        unfold Puller.attributes
        split
        · rename_i blob present
          split
          · rename_i entry found
            obtain ⟨cached,same⟩ := Option.filter_eq_some_iff.mp found
            exact .hit here present cached (by simpa using same)
          · exact .missed here present
        · exact .untagged here
      · cases moved
  | read err =>
      simp only [pullStep] at moved
      split at moved
      · rename_i attrs here
        cases moved
        unfold Puller.read
        split
        · rename_i present
          exact .read here present
        · exact .failed (by rw [here]; rfl)
        · exact .failed (by rw [here]; rfl)
      · cases moved
  | copy err =>
      simp only [pullStep] at moved
      split at moved
      · rename_i here
        cases moved
        exact .copied here
      · rename_i here
        cases moved
        exact .failed (by rw [here]; rfl)
      · cases moved
  | mkdir err =>
      simp only [pullStep] at moved
      split at moved
      · rename_i here
        cases moved
        exact .made here
      · rename_i here
        cases moved
        exact .failed (by rw [here]; rfl)
      · cases moved
  | extract err =>
      simp only [pullStep] at moved
      split at moved
      · rename_i here
        cases moved
        exact .extracted here
      · rename_i here
        cases moved
        exact .failed (by rw [here]; rfl)
      · cases moved

theorem dir_injective (reg : Registry) (same : reg.dir a = reg.dir b) : a = b := by
  unfold Registry.dir at same
  rw [String.append_left_inj,String.append_right_inj,Nat.repr_eq_ofList_toDigits,Nat.repr_eq_ofList_toDigits] at same
  have digits := String.ofList_injective same
  rw [← Nat.ofDigitChars_ten_toDigits (n := a),digits,Nat.ofDigitChars_ten_toDigits]

theorem dir_nonempty (reg : Registry) (id : Nat) : reg.dir id ≠ "" := by
  intro empty
  have length := congrArg String.length empty
  simp [Registry.dir] at length

def Puller.Made (reg : Registry) (p : Puller β) (dir : String) : Prop := ∃ id, id ≤ p.nextDirId ∧ dir = reg.dir id

def Puller.Read (p : Puller β) (attrs : Option Nat) (content : β) : Prop :=
  ∃ blob ∈ p.uploads, blob ∈ p.seen ∧ blob.content = content ∧ attrs.getD 0 ≤ blob.modTime

def Puller.Call (reg : Registry) (p : Puller β) : Prop :=
  match p.pc with
  | .reading attrs => ∀ version, attrs = some version → ∃ blob ∈ p.uploads, blob.modTime = version
  | .copying attrs content => p.Read attrs content
  | .making attrs content dir | .extracting attrs content dir =>
      p.Read attrs content ∧ p.Made reg dir ∧ ∀ entry, p.dirCache = some entry → entry.path ≠ dir
  | .returned (.ok dir) => ∃ blob ∈ p.seen, p.dirs dir = some blob.content
  | _ => True

-- The tag of a cache entry is never newer than its content, so that a tag that is
-- still current proves the content current.
structure Tagged (reg : Registry) (p : Puller β) : Prop where
  unique : ∀ a ∈ p.uploads, ∀ b ∈ p.uploads, a.modTime = b.modTime → a = b
  newest : ∀ blob, p.current = some blob → blob ∈ p.uploads ∧ ∀ older ∈ p.uploads, older.modTime ≤ blob.modTime
  cached : ∀ entry, p.dirCache = some entry → p.Made reg entry.path ∧
    ∃ blob ∈ p.uploads, p.dirs entry.path = some blob.content ∧ entry.version ≤ blob.modTime
  watched : p.pc.calling = true → ∀ blob, p.current = some blob → blob ∈ p.seen
  call : p.Call reg

theorem init_tagged (reg : Registry) : Tagged reg (Puller.init : Puller β) where
  unique := nofun
  newest := nofun
  cached := nofun
  watched := nofun
  call := trivial

theorem read_later {p q : Puller β} (read : p.Read attrs content) (uploads : ∀ blob ∈ p.uploads, blob ∈ q.uploads)
    (seen : ∀ blob ∈ p.seen, blob ∈ q.seen) : q.Read attrs content := by
  obtain ⟨blob,member,during,same,newer⟩ := read
  exact ⟨blob,uploads blob member,seen blob during,same,newer⟩

theorem made_later {p q : Puller β} (made : p.Made reg dir) (later : p.nextDirId ≤ q.nextDirId) : q.Made reg dir := by
  obtain ⟨id,below,same⟩ := made
  exact ⟨id,Nat.le_trans below later,same⟩

theorem call_later {p q : Puller β} (call : p.Call reg) (pc : q.pc = p.pc) (uploads : ∀ blob ∈ p.uploads, blob ∈ q.uploads)
    (seen : ∀ blob ∈ p.seen, blob ∈ q.seen) (dirCache : ∀ entry, q.dirCache = some entry → p.dirCache = some entry)
    (dirs : q.dirs = p.dirs) (later : p.nextDirId ≤ q.nextDirId) : q.Call reg := by
  unfold Puller.Call at call ⊢
  rw [pc]
  cases here : p.pc with
  | reading attrs =>
      rw [here] at call
      intro version same
      obtain ⟨blob,member,stamp⟩ := call version same
      exact ⟨blob,uploads blob member,stamp⟩
  | copying attrs content =>
      rw [here] at call
      exact read_later call uploads seen
  | making attrs content dir | extracting attrs content dir =>
      rw [here] at call
      obtain ⟨read,made,other⟩ := call
      exact ⟨read_later read uploads seen,made_later made later,fun entry cached => other entry (dirCache entry cached)⟩
  | returned result =>
      rw [here] at call
      cases result with
      | error err => trivial
      | ok dir =>
          obtain ⟨blob,during,holds⟩ := call
          exact ⟨blob,seen blob during,by rw [dirs]; exact holds⟩
  | idle | attributes => trivial

theorem upload_tagged {p : Puller β} (tagged : Tagged reg p) (newer : ∀ older ∈ p.uploads, older.modTime < blob.modTime) :
    Tagged reg {p with
      current := some blob
      uploads := p.uploads ++ [blob]
      seen := if p.pc.calling then p.seen ++ [blob] else p.seen} where
  unique := by
    intro a first b second same
    rcases List.mem_append.mp first with old | new
    · rcases List.mem_append.mp second with old' | new'
      · exact tagged.unique a old b old' same
      · cases List.mem_singleton.mp new'
        exact absurd same (Nat.ne_of_lt (newer a old))
    · cases List.mem_singleton.mp new
      rcases List.mem_append.mp second with old' | new'
      · exact absurd same.symm (Nat.ne_of_lt (newer b old'))
      · exact (List.mem_singleton.mp new').symm
  newest := by
    intro current same
    cases same
    refine ⟨by simp,?_⟩
    intro older member
    rcases List.mem_append.mp member with old | new
    · exact Nat.le_of_lt (newer older old)
    · exact Nat.le_of_eq (by rw [List.mem_singleton.mp new])
  cached := by
    intro entry found
    obtain ⟨made,content,member,facts⟩ := tagged.cached entry found
    exact ⟨made,content,List.mem_append_left _ member,facts⟩
  watched := by
    intro during current same
    cases same
    dsimp only at during ⊢
    simp [during]
  call := by
    refine call_later tagged.call rfl ?_ ?_ (fun _ same => same) rfl (Nat.le_refl _)
    · intro _ member
      exact List.mem_append_left _ member
    · intro _ member
      dsimp only
      split
      · exact List.mem_append_left _ member
      · exact member

theorem progress_tagged {p : Puller β} (tagged : Tagged reg p) (pc : PullPc β) (next : Nat)
    (during : pc.calling = true → p.pc.calling = true) (later : p.nextDirId ≤ next)
    (call : Puller.Call reg {p with nextDirId := next,pc := pc}) :
    Tagged reg {p with nextDirId := next,pc := pc} where
  unique := tagged.unique
  newest := tagged.newest
  cached := fun entry found => ⟨made_later (tagged.cached entry found).1 later,(tagged.cached entry found).2⟩
  watched := fun inside => tagged.watched (during inside)
  call := call

theorem store_eq (p : Puller β) (attrs : Option Nat) (content : β) (dir : String)
    (other : ∀ entry, p.dirCache = some entry → entry.path ≠ dir) :
    p.store attrs content dir =
      {p.removeAll (p.dirCache.map (·.path)).toList with
        dirs := fun path => if path ∈ (p.dirCache.map (·.path)).toList then none else
          Function.update p.dirs dir (some content) path
        dirCache := some ⟨attrs.getD 0,dir⟩
        pc := .returned (.ok dir)} := by
  cases cached : p.dirCache with
  | none => simp [Puller.store,Puller.putCache,Puller.removeAll,Puller.finish,cached]
  | some old => simp [Puller.store,Puller.putCache,Puller.removeAll,Puller.finish,cached,other old cached]

theorem store_seen (p : Puller β) (attrs : Option Nat) (content : β) (dir : String) :
    (p.store attrs content dir).seen = p.seen := by
  simp only [Puller.store,Puller.finish,Puller.putCache]
  split
  · split <;> rfl
  · rfl

theorem extract_tagged {p : Puller β} (tagged : Tagged reg p) (here : p.pc = .extracting attrs content dir) :
    Tagged reg (p.store attrs content dir) := by
  have call := tagged.call
  rw [Puller.Call,here] at call
  obtain ⟨⟨blob,member,during,rfl,newer⟩,made,other⟩ := call
  have kept : dir ∉ (p.dirCache.map (·.path)).toList := by
    cases cached : p.dirCache with
    | none => simp
    | some old => simpa using (other old cached).symm
  have holds : (if dir ∈ (p.dirCache.map (·.path)).toList then none else
      Function.update p.dirs dir (some blob.content) dir) = some blob.content := by simp [kept]
  rw [store_eq p _ _ _ other]
  constructor
  · exact tagged.unique
  · exact tagged.newest
  · intro entry found
    cases found
    exact ⟨made,blob,member,holds,newer⟩
  · nofun
  · exact ⟨blob,during,holds⟩

theorem hit_tagged {p : Puller β} (tagged : Tagged reg p) (here : p.pc = .attributes) (present : p.current = some blob)
    (cached : p.dirCache = some entry) (same : entry.version = blob.modTime) :
    Tagged reg (p.finish (.ok entry.path)) := by
  obtain ⟨_,older,member,holds,tag⟩ := tagged.cached entry cached
  obtain ⟨there,newest⟩ := tagged.newest blob present
  have equal : older = blob := tagged.unique older member blob there (Nat.le_antisymm (newest older member) (same ▸ tag))
  subst older
  have seen := tagged.watched (by rw [here]; rfl) blob present
  exact progress_tagged tagged _ p.nextDirId nofun (Nat.le_refl _) ⟨blob,seen,holds⟩

theorem pullTurn_tagged {p : Puller β} (tagged : Tagged reg p) (turn : PullTurn reg p action q) : Tagged reg q := by
  cases turn with
  | uploaded newer => exact upload_tagged tagged newer
  | deleted =>
      refine {tagged with newest := nofun,watched := fun _ => nofun,call := ?_}
      exact call_later tagged.call rfl (fun _ => id) (fun _ => id) (fun _ => id) rfl (Nat.le_refl _)
  | otherDir =>
      refine progress_tagged tagged p.pc _ id (Nat.le_succ _) ?_
      exact call_later tagged.call rfl (fun _ => id) (fun _ => id) (fun _ => id) rfl (Nat.le_succ _)
  | refused => exact {tagged with watched := nofun,call := trivial}
  | called =>
      refine {tagged with watched := ?_,call := trivial}
      intro _ blob present
      have same : p.current = some blob := present
      simp [same]
  | reset =>
      refine {tagged with cached := nofun,call := ?_}
      exact call_later tagged.call rfl (fun _ => id) (fun _ => id) nofun rfl (Nat.le_refl _)
  | hit here present cached same => exact hit_tagged tagged here present cached same
  | missed here present =>
      refine progress_tagged tagged _ p.nextDirId (fun _ => by rw [here]; rfl) (Nat.le_refl _) ?_
      intro version same
      cases same
      exact ⟨_,(tagged.newest _ present).1,rfl⟩
  | untagged here => exact progress_tagged tagged _ p.nextDirId (fun _ => by rw [here]; rfl) (Nat.le_refl _) nofun
  | @read attrs blob here present =>
      have call := tagged.call
      rw [Puller.Call,here] at call
      obtain ⟨member,newest⟩ := tagged.newest blob present
      have seen := tagged.watched (by rw [here]; rfl) blob present
      refine progress_tagged tagged _ p.nextDirId (fun _ => by rw [here]; rfl) (Nat.le_refl _) ⟨blob,member,seen,rfl,?_⟩
      -- the attributes were read before, so their time is that of an older upload
      cases attrs with
      | none => exact Nat.zero_le _
      | some version =>
          obtain ⟨older,there,rfl⟩ := call version rfl
          exact newest older there
  | copied here =>
      have call := tagged.call
      rw [Puller.Call,here] at call
      refine progress_tagged tagged _ _ (fun _ => by rw [here]; rfl) (Nat.le_succ _) ⟨call,⟨_,Nat.le_refl _,rfl⟩,?_⟩
      intro entry cached same
      obtain ⟨⟨id,below,path⟩,_⟩ := tagged.cached entry cached
      have equal := dir_injective reg (path.symm.trans same)
      omega
  | made here =>
      have call := tagged.call
      rw [Puller.Call,here] at call
      exact progress_tagged tagged _ p.nextDirId (fun _ => by rw [here]; rfl) (Nat.le_refl _) call
  | extracted here => exact extract_tagged tagged here
  | failed => exact progress_tagged tagged _ p.nextDirId nofun (Nat.le_refl _) trivial

-- The last call of Pull in the schedule, and for every version in `seen` a
-- moment of that call when the store held it.
def Watched (reg : Registry) (actions : List (PullAction β)) (p : Puller β) : Prop :=
  ∃ before during, actions = before ++ .call :: during ∧ .call ∉ during ∧
    ∀ blob ∈ p.seen, ∃ early, early <+: during ∧ ∃ q, run (pullStep reg) Puller.init (before ++ .call :: early) = some q ∧
      q.pc.calling = true ∧ q.current = some blob

theorem watched_more {p q : Puller β} (watched : Watched reg actions p) (other : action ≠ .call)
    (ran : run (pullStep reg) Puller.init (actions ++ [action]) = some q)
    (seen : ∀ blob ∈ q.seen, blob ∈ p.seen ∨ q.pc.calling = true ∧ q.current = some blob) :
    Watched reg (actions ++ [action]) q := by
  obtain ⟨before,during,rfl,last,moments⟩ := watched
  refine ⟨before,during ++ [action],by simp,by simpa [last] using other.symm,?_⟩
  intro blob member
  rcases seen blob member with old | ⟨calling,current⟩
  · obtain ⟨early,ahead,moment⟩ := moments blob old
    exact ⟨early,ahead.trans (List.prefix_append _ _),moment⟩
  · exact ⟨during ++ [action],List.prefix_refl _,q,by simpa using ran,calling,current⟩

def PullPc.failed : PullPc β → Bool
  | .idle | .returned (.error _) => true
  | _ => false

theorem calling_sound {pc : PullPc β} (calling : pc.calling = true) : pc.failed = false := by
  cases pc <;> first | rfl | cases calling

theorem reached_watched {p : Puller β} (ran : run (pullStep reg) Puller.init actions = some p) :
    p.pc.failed = true ∨ Watched reg actions p := by
  refine run_history (fun actions p => p.pc.failed = true ∨ Watched reg actions p) (.inl rfl) ?_ ran
  intro early p action q reached known moved
  have ran := run_trans reached (show run (pullStep reg) p [action] = some q by simp [run,moved])
  have inside : p.pc.calling = true → Watched reg early p := by
    intro calling
    rcases known with failed | watched
    · rw [calling_sound calling] at failed
      cases failed
    · exact watched
  cases pullStep_turn moved with
  | uploaded =>
      refine known.imp id fun watched => watched_more watched (by simp) ran ?_
      intro blob member
      dsimp only at member
      split at member
      · rename_i calling
        rcases List.mem_append.mp member with old | new
        · exact .inl old
        · exact .inr ⟨calling,by rw [List.mem_singleton.mp new]⟩
      · exact .inl member
  | deleted | otherDir | reset => exact known.imp id fun watched => watched_more watched (by simp) ran fun _ => .inl
  | refused => exact .inl rfl
  | called =>
      refine .inr ⟨early,[],rfl,List.not_mem_nil,?_⟩
      intro blob member
      exact ⟨[],List.prefix_refl _,_,ran,rfl,by simpa using member⟩
  | failed => exact .inl rfl
  | hit here | missed here | untagged here | read here | copied here | made here =>
      exact .inr (watched_more (inside (by rw [here]; rfl)) (by simp) ran fun _ => .inl)
  | extracted here =>
      refine .inr (watched_more (inside (by rw [here]; rfl)) (by simp) ran ?_)
      intro blob member
      rw [store_seen] at member
      exact .inl member

theorem pull_current {p : Puller β} (ran : run (pullStep reg) Puller.init actions = some p)
    (back : p.pc = .returned (.ok dir)) :
    ∃ before during early q blob, actions = before ++ .call :: during ∧ .call ∉ during ∧ early <+: during ∧
      run (pullStep reg) Puller.init (before ++ .call :: early) = some q ∧ q.pc.calling = true ∧
      q.current = some blob ∧ p.dirs dir = some blob.content := by
  have tagged : Tagged reg p := run_preserves (Tagged reg)
    (fun _ _ _ tagged moved => pullTurn_tagged tagged (pullStep_turn moved)) (init_tagged reg) ran
  have call := tagged.call
  rw [Puller.Call,back] at call
  obtain ⟨blob,seen,holds⟩ := call
  rcases reached_watched ran with failed | ⟨before,during,split,last,moments⟩
  · rw [back] at failed
    cases failed
  · obtain ⟨early,ahead,q,reached,calling,current⟩ := moments blob seen
    exact ⟨before,during,early,q,blob,split,last,ahead,reached,calling,current,holds⟩

def echo : Registry := ⟨"echo","file:///registry","/worker/code",String.quote⟩

def download : List (PullAction String) := [.read none,.copy none,.mkdir none,.extract none]

def racingUploads : List (PullAction String) :=
  [.upload ⟨1,"one"⟩,.call,.attributes none,.upload ⟨2,"two"⟩] ++ download ++
    [.call,.attributes none] ++ download ++ [.upload ⟨3,"three"⟩,.call,.attributes (some "timeout")] ++ download ++
    [.call,.attributes none] ++ download ++ [.call,.attributes none]

def PullPc.pulled : PullPc β → Option String
  | .returned (.ok dir) => some dir
  | _ => none

theorem pull_current_racing :
    ∃ p, run (pullStep echo) Puller.init racingUploads = some p ∧ p.pc = .returned (.ok "/worker/code/1004-echo") ∧
      ∃ blob : Blob String, p.dirs "/worker/code/1004-echo" = some blob.content := by
  have seen : (run (pullStep echo) Puller.init racingUploads).map
      (fun p => p.pc.pulled) = some (some "/worker/code/1004-echo") := by decide +kernel
  obtain ⟨p,ran,fact⟩ := Option.map_eq_some_iff.mp seen
  have back : p.pc = .returned (.ok "/worker/code/1004-echo") := by
    unfold PullPc.pulled at fact
    split at fact
    · rename_i dir here
      cases fact
      exact here
    · cases fact
  obtain ⟨_,_,_,_,blob,_,_,_,_,_,_,holds⟩ := pull_current ran back
  exact ⟨p,ran,back,blob,holds⟩

end OpenLambda.Lambda
