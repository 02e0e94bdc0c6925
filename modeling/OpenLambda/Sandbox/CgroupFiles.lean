import OpenLambda.Foundation.Lines
import OpenLambda.Foundation.Numerals

namespace OpenLambda.CgroupFiles
open Foundation.Lines Foundation.Numerals

-- A Go string may hold any bytes, and so may a file.
abbrev Bytes := List UInt8

def newline : UInt8 := 0x0a
def space : UInt8 := 0x20

def spaceRunes : List Bytes :=
  [[0x09],[0x0a],[0x0b],[0x0c],[0x0d],[0x20],[0xc2,0x85],[0xc2,0xa0],[0xe1,0x9a,0x80]] ++
  (List.range 11).map (fun i => [0xe2,0x80,0x80 + UInt8.ofNat i]) ++
  [[0xe2,0x80,0xa8],[0xe2,0x80,0xa9],[0xe2,0x80,0xaf],[0xe2,0x81,0x9f],[0xe3,0x80,0x80]]

def trimLeft (runes : List Bytes) : Nat → Bytes → Bytes
  | 0,s => s
  | left + 1,s => match runes.find? (·.isPrefixOf s) with
      | none => s
      | some rune => trimLeft runes left (s.drop rune.length)

def trimSpace (s : Bytes) : Bytes :=
  let front := trimLeft spaceRunes s.length s
  (trimLeft (spaceRunes.map List.reverse) front.length front.reverse).reverse

inductive ReadErr where
  | seek (err : String)
  | read (key : Bytes) (err : String)
  | parse (num : Bytes) (err : NumErr)
  | noKey (key body : Bytes)
  deriving DecidableEq, Repr

-- A call returns, or it panics at an index that the slice does not have.
inductive Outcome where
  | returned (result : Except ReadErr Int64)
  | panicked (index length : Nat)
  deriving DecidableEq, Repr

structure File where
  seek : Option String
  readAll : Except String Bytes

def valueOf (key line : Bytes) : Option Bytes :=
  match line.splitOn space with
  | [name,value] => if name = key then some value else none
  | _ => none

def parseValue (value : Bytes) : Except ReadErr Int64 :=
  match parseInt ofBytes (trimSpace value) with
  | .error err => .error (.parse (trimSpace value) err)
  | .ok val => .ok val

-- for i := 0; i <= len(lines); i++, with the number of rounds that are left.
def scanLines (body key : Bytes) (lines : List Bytes) : Nat → Nat → Outcome
  | 0,_ => .returned (.error (.noKey key body))
  | left + 1,i => match lines[i]? with
      | none => .panicked i lines.length
      | some line => match valueOf key line with
          | some value => .returned (parseValue value)
          | none => scanLines body key lines left (i + 1)

def tryReadIntKVFromFile (file : File) (key : Bytes) : Outcome :=
  match file.seek with
  | some err => .returned (.error (.seek err))
  | none => match file.readAll with
      | .error err => .returned (.error (.read key err))
      | .ok body =>
          let lines := body.splitOn newline
          scanLines body key lines (lines.length + 1) 0

def Entry (key value line : Bytes) : Prop := line = key ++ space :: value ∧ space ∉ value

structure ReadsKey (lines : List Bytes) (key : Bytes) (outcome : Outcome) : Prop where
  first : ∀ before line after value, lines = before ++ line :: after → Entry key value line →
    (∀ other ∈ before, ∀ val, ¬Entry key val other) →
    (∀ n, parseInt ofBytes (trimSpace value) = .ok n → outcome = .returned (.ok n)) ∧
    (∀ err, parseInt ofBytes (trimSpace value) = .error err → ∃ reason, outcome = .returned (.error reason))
  absent : (∀ line ∈ lines, ∀ value, ¬Entry key value line) → ∃ reason, outcome = .returned (.error reason)
  inside : ∀ index length, outcome ≠ .panicked index length

theorem valueOf_parts : valueOf key line = some value ↔ Entry key value line ∧ space ∉ key := by
  have parts : valueOf key line = some value ↔ line.splitOn space = [key,value] := by
    unfold valueOf
    split
    · rename_i name val cut
      rw [cut]
      simp
    · rename_i other
      exact ⟨nofun,fun cut => absurd cut (other key value)⟩
  rw [parts,splitOn_pair,Entry]
  exact ⟨fun ⟨same,name,val⟩ => ⟨⟨same,val⟩,name⟩,fun ⟨⟨same,val⟩,name⟩ => ⟨same,name,val⟩⟩

theorem scanLines_found (body : Bytes) (rounds : left + i = lines.length + 1)
    (found : (lines.drop i).findSome? (valueOf key) = some value) :
    scanLines body key lines left i = .returned (parseValue value) := by
  induction left generalizing i with
  | zero =>
      rw [List.drop_eq_nil_of_le (by omega)] at found
      cases found
  | succ left ih =>
      rw [scanLines]
      cases line : lines[i]? with
      | none =>
          rw [List.drop_eq_nil_of_le (List.getElem?_eq_none_iff.mp line)] at found
          cases found
      | some text =>
          obtain ⟨bound,rfl⟩ := List.getElem?_eq_some_iff.mp line
          rw [List.drop_eq_getElem_cons bound,List.findSome?_cons] at found
          dsimp only
          cases val : valueOf key lines[i] with
          | some other =>
              rw [val] at found
              cases found
              rfl
          | none =>
              rw [val] at found
              exact ih (by omega) found

theorem scanLines_absent (body : Bytes) (rounds : left + i = lines.length + 1) (inside : i ≤ lines.length)
    (absent : (lines.drop i).findSome? (valueOf key) = none) :
    scanLines body key lines left i = .panicked lines.length lines.length := by
  induction left generalizing i with
  | zero => omega
  | succ left ih =>
      rw [scanLines]
      cases line : lines[i]? with
      | none =>
          have last : i = lines.length := Nat.le_antisymm inside (List.getElem?_eq_none_iff.mp line)
          rw [last]
      | some text =>
          obtain ⟨bound,rfl⟩ := List.getElem?_eq_some_iff.mp line
          rw [List.drop_eq_getElem_cons bound,List.findSome?_cons] at absent
          dsimp only
          cases val : valueOf key lines[i] with
          | some other =>
              rw [val] at absent
              cases absent
          | none =>
              rw [val] at absent
              exact ih (by omega) bound absent

theorem read_lines (key : Bytes) (seeks : file.seek = none) (reads : file.readAll = .ok body) :
    tryReadIntKVFromFile file key =
      scanLines body key (body.splitOn newline) ((body.splitOn newline).length + 1) 0 := by
  rw [tryReadIntKVFromFile,seeks,reads]

theorem read_found (seeks : file.seek = none) (reads : file.readAll = .ok body)
    (found : (body.splitOn newline).findSome? (valueOf key) = some value) :
    tryReadIntKVFromFile file key = .returned (parseValue value) := by
  rw [read_lines key seeks reads]
  exact scanLines_found body rfl found

theorem read_absent (seeks : file.seek = none) (reads : file.readAll = .ok body)
    (absent : (body.splitOn newline).findSome? (valueOf key) = none) : tryReadIntKVFromFile file key =
      .panicked (body.splitOn newline).length (body.splitOn newline).length := by
  rw [read_lines key seeks reads]
  exact scanLines_absent body rfl (Nat.zero_le _) absent

theorem panic_parts (panics : tryReadIntKVFromFile file key = .panicked index length) :
    ∃ body, file.readAll = .ok body ∧ (body.splitOn newline).findSome? (valueOf key) = none := by
  cases seeks : file.seek with
  | some err =>
      rw [tryReadIntKVFromFile,seeks] at panics
      cases panics
  | none => cases reads : file.readAll with
      | error err =>
          rw [tryReadIntKVFromFile,seeks,reads] at panics
          cases panics
      | ok body =>
          refine ⟨body,rfl,?_⟩
          cases found : (body.splitOn newline).findSome? (valueOf key) with
          | none => rfl
          | some value => cases (read_found seeks reads found).symm.trans panics

theorem parseValue_ok (parsed : parseInt ofBytes (trimSpace value) = .ok n) : parseValue value = .ok n := by
  rw [parseValue,parsed]

theorem parseValue_error (failed : parseInt ofBytes (trimSpace value) = .error err) :
    parseValue value = .error (.parse (trimSpace value) err) := by
  rw [parseValue,failed]

theorem first_value (plain : space ∉ key) (cut : lines = before ++ line :: after) (entry : Entry key value line)
    (none : ∀ other ∈ before, ∀ val, ¬Entry key val other) : lines.findSome? (valueOf key) = some value := by
  refine List.findSome?_eq_some_iff.mpr ⟨before,line,after,cut,valueOf_parts.mpr ⟨entry,plain⟩,?_⟩
  intro other member
  cases val : valueOf key other with
  | none => rfl
  | some text => exact absurd (valueOf_parts.mp val).1 (none other member text)

theorem key_read (seeks : file.seek = none) (reads : file.readAll = .ok body) :
    ReadsKey (body.splitOn newline) key (tryReadIntKVFromFile file key) ↔
      space ∉ key ∧ ∃ line ∈ body.splitOn newline, ∃ value, Entry key value line := by
  constructor
  · intro holds
    cases found : (body.splitOn newline).findSome? (valueOf key) with
    | none => exact absurd (read_absent seeks reads found) (holds.inside _ _)
    | some value =>
        obtain ⟨before,line,after,cut,val,_⟩ := List.findSome?_eq_some_iff.mp found
        obtain ⟨entry,plain⟩ := valueOf_parts.mp val
        refine ⟨plain,line,?_,value,entry⟩
        rw [cut]
        exact List.mem_append_right _ List.mem_cons_self
  · rintro ⟨plain,line,member,value,entry⟩
    obtain ⟨val,found⟩ : ∃ val, (body.splitOn newline).findSome? (valueOf key) = some val := by
      refine Option.isSome_iff_exists.mp (List.findSome?_isSome_iff.mpr ⟨line,member,?_⟩)
      rw [valueOf_parts.mpr ⟨entry,plain⟩]
      rfl
    have result := read_found seeks reads found
    refine ⟨?_,?_,?_⟩
    · intro before first after text cut here none
      cases found.symm.trans (first_value plain cut here none)
      refine ⟨?_,?_⟩
      · intro n parsed
        rw [result,parseValue_ok parsed]
      · intro err failed
        exact ⟨_,result.trans (congrArg Outcome.returned (parseValue_error failed))⟩
    · intro absent
      exact absurd entry (absent line member value)
    · intro index length panics
      cases result.symm.trans panics

def bytes (text : String) : Bytes := text.toUTF8.data.toList

def readable (text : String) : File := ⟨none,.ok (bytes text)⟩

theorem key_read_frozen : tryReadIntKVFromFile (readable "populated 1\nfrozen 0\n") (bytes "frozen") =
    .returned (.ok 0) := by
  have plain : space ∉ bytes "frozen" := by decide +kernel
  have entry : Entry (bytes "frozen") (bytes "0") (bytes "frozen 0") := ⟨by decide +kernel,by decide +kernel⟩
  have holds : ReadsKey _ (bytes "frozen") (tryReadIntKVFromFile (readable "populated 1\nfrozen 0\n") _) :=
    (key_read rfl rfl).mpr ⟨plain,_,by decide +kernel,_,entry⟩
  have other : ∀ line ∈ [bytes "populated 1"], ∀ val, ¬Entry (bytes "frozen") val line := by
    intro line member val here
    have same := valueOf_parts.mpr ⟨here,plain⟩
    rw [List.mem_singleton.mp member] at same
    exact absurd same (by rw [show valueOf (bytes "frozen") (bytes "populated 1") = none by decide +kernel]; nofun)
  exact (holds.first [bytes "populated 1"] _ [[]] _ (by decide +kernel) entry other).1 0 (by decide +kernel)

-- The memory.events of a kernel that does not count oom_kill.
theorem key_missing_panics :
    tryReadIntKVFromFile (readable "low 0\nhigh 0\nmax 0\noom 0\n") (bytes "oom_kill") = .panicked 5 5 ∧
    ¬ReadsKey ((bytes "low 0\nhigh 0\nmax 0\noom 0\n").splitOn newline) (bytes "oom_kill")
      (tryReadIntKVFromFile (readable "low 0\nhigh 0\nmax 0\noom 0\n") (bytes "oom_kill")) := by
  have panics : tryReadIntKVFromFile (readable "low 0\nhigh 0\nmax 0\noom 0\n") (bytes "oom_kill") =
      .panicked 5 5 := by decide +kernel
  exact ⟨panics,fun holds => holds.inside 5 5 panics⟩

-- What the fault means for whoever freezes or kills a cgroup and waits for cgroup.events:
-- in each round, the time since the start, what unix.Poll says and what is in the file.
structure Round where
  elapsed : Int
  pollErr : Option String
  interrupted : Bool
  events : File

inductive Waited where
  | waiting
  | done
  | timedOut
  | pollFailed (err : String)
  | failed (reason : ReadErr)
  | panicked (index length : Nat)
  deriving DecidableEq, Repr

def writeEventAndWait (timeout : Int) (event : Bytes) (eventState : Int64) : List Round → Waited
  | [] => .waiting
  | round :: rest =>
      if timeout - round.elapsed < 0 then .timedOut
      else match round.pollErr, round.interrupted with
        | some err,false => .pollFailed err
        | _,_ => match tryReadIntKVFromFile round.events event with
            | .panicked index length => .panicked index length
            | .returned (.error reason) => .failed reason
            | .returned (.ok state) =>
                if state = eventState then .done else writeEventAndWait timeout event eventState rest

theorem round_parts (timeout : Int) (event : Bytes) (eventState : Int64) (round : Round) (rest : List Round) :
    writeEventAndWait timeout event eventState (round :: rest) = .timedOut ∨
    (∃ err, writeEventAndWait timeout event eventState (round :: rest) = .pollFailed err) ∨
    (∃ index length, tryReadIntKVFromFile round.events event = .panicked index length ∧
      writeEventAndWait timeout event eventState (round :: rest) = .panicked index length) ∨
    (∃ reason, tryReadIntKVFromFile round.events event = .returned (.error reason) ∧
      writeEventAndWait timeout event eventState (round :: rest) = .failed reason) ∨
    ∃ state, tryReadIntKVFromFile round.events event = .returned (.ok state) ∧
      writeEventAndWait timeout event eventState (round :: rest) =
        if state = eventState then .done else writeEventAndWait timeout event eventState rest := by
  rw [writeEventAndWait]
  split
  · exact .inl rfl
  · split
    · exact .inr (.inl ⟨_,rfl⟩)
    · cases read : tryReadIntKVFromFile round.events event with
      | panicked index length => exact .inr (.inr (.inl ⟨index,length,rfl,rfl⟩))
      | returned result => cases result with
          | error reason => exact .inr (.inr (.inr (.inl ⟨reason,rfl,rfl⟩)))
          | ok state => exact .inr (.inr (.inr (.inr ⟨state,rfl,rfl⟩)))

theorem done_read (done : writeEventAndWait timeout event eventState rounds = .done) :
    ∃ round ∈ rounds, tryReadIntKVFromFile round.events event = .returned (.ok eventState) := by
  induction rounds with
  | nil => cases done
  | cons round rest ih =>
      rcases round_parts timeout event eventState round rest with late | ⟨_,failed⟩ | ⟨_,_,_,panics⟩ | ⟨_,_,failed⟩ |
        ⟨state,read,next⟩
      · cases late.symm.trans done
      · cases failed.symm.trans done
      · cases panics.symm.trans done
      · cases failed.symm.trans done
      · rw [next] at done
        split at done
        · rename_i same
          subst same
          exact ⟨round,List.mem_cons_self,read⟩
        · obtain ⟨other,member,last⟩ := ih done
          exact ⟨other,List.mem_cons_of_mem _ member,last⟩

theorem wait_no_panic (listed : ∀ round ∈ rounds, ∀ body, round.events.readAll = .ok body →
      ∃ value, (body.splitOn newline).findSome? (valueOf event) = some value) :
    ∀ index length, writeEventAndWait timeout event eventState rounds ≠ .panicked index length := by
  intro index length
  induction rounds with
  | nil => exact nofun
  | cons round rest ih =>
      obtain ⟨here,others⟩ := List.forall_mem_cons.mp listed
      rcases round_parts timeout event eventState round rest with late | ⟨_,failed⟩ | ⟨_,_,read,_⟩ | ⟨_,_,failed⟩ |
        ⟨state,_,next⟩
      · rw [late]
        exact nofun
      · rw [failed]
        exact nofun
      · obtain ⟨body,reads,absent⟩ := panic_parts read
        obtain ⟨value,found⟩ := here body reads
        cases absent.symm.trans found
      · rw [failed]
        exact nofun
      · rw [next]
        split
        · exact nofun
        · exact ih others

end OpenLambda.CgroupFiles
