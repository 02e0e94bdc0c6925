import OpenLambda.Foundation.Lines
import OpenLambda.Lambda.Instance
import OpenLambda.Packages.Normalization
import Mathlib.Data.List.TakeWhile

namespace OpenLambda.Requirements
open Foundation.Lines Common Imports Sandbox
open Lambda (FunctionMeta)

inductive Opened where
  | notExist
  | failed (err : String)
  | folder
  | file (content : String)
  deriving DecidableEq, Repr

-- A code directory: what LoadLambdaConfig returns for it, which paths os.Stat finds
-- and what is there to read.
structure CodeDir where
  path : String
  config : Except String LambdaConfig
  stat : String → Bool
  openFile : String → Opened

def pythonEntryFile (config : LambdaConfig) : String := (config.environment.lookup "OL_ENTRY_FILE").getD "f.py"

def runtimeOf (dir : CodeDir) (config : LambdaConfig) : Except String RuntimeType :=
  if dir.stat (filepathJoin dir.path (pythonEntryFile config)) then .ok .python
  else if dir.stat (filepathJoin dir.path "f.bin") then .ok .native
  else .error ("cannot determine runtime: no " ++ pythonEntryFile config ++ " or f.bin found in " ++ dir.path)

def maxScanTokenSize : Nat := 64 * 1024

def pkgOf (line : List Char) : List Char := (line.filter (· ≠ ' ')).takeWhile (· ≠ '#')

def addLine (inst : Installer) (installs : List String) (line : List Char) : List String :=
  if pkgOf line ≠ [] then installs ++ [inst.normalizePkg (String.ofList (pkgOf line))] else installs

def scanInstalls (inst : Installer) (content : String) : List String :=
  (scanned maxScanTokenSize content.toList).foldl (addLine inst) []

-- A folder can be opened, but its first read ends the scan. Nobody asks the scanner
-- why it has ended.
def parseRequirements (inst : Installer) : Opened → Except String (List String)
  | .notExist | .folder => .ok []
  | .failed err => .error err
  | .file content => .ok (scanInstalls inst content)

def parseMeta (inst : Installer) (dir : CodeDir) : Except String FunctionMeta :=
  match dir.config with
  | .error err => .error ("failed to parse lambda configuration file: " ++ err)
  | .ok config => match runtimeOf dir config with
      | .error err => .error err
      | .ok .native => .ok ⟨config,{SandboxMeta.empty with runtime := .native}⟩
      | .ok .python => match parseRequirements inst (dir.openFile (filepathJoin dir.path "requirements.txt")) with
          | .error err => .error err
          | .ok installs => .ok ⟨config,{SandboxMeta.empty with installs := installs}⟩

theorem parseMeta_python (parsed : parseMeta inst dir = .ok fn) (python : fn.sandbox.runtime = .python) :
    parseRequirements inst (dir.openFile (filepathJoin dir.path "requirements.txt")) = .ok fn.sandbox.installs := by
  unfold parseMeta at parsed
  split at parsed
  · cases parsed
  · split at parsed
    · cases parsed
    · cases parsed
      cases python
    · split at parsed
      · cases parsed
      · rename_i read
        cases parsed
        exact read

def installOf (inst : Installer) (line : List Char) : Option String :=
  if pkgOf line ≠ [] then some (inst.normalizePkg (String.ofList (pkgOf line))) else none

theorem scan_lines (inst : Installer) (lines : List (List Char)) (installs : List String) :
    lines.foldl (addLine inst) installs = installs ++ lines.filterMap (installOf inst) := by
  induction lines generalizing installs with
  | nil => exact (List.append_nil _).symm
  | cons line rest ih =>
      rw [List.foldl_cons,ih,List.filterMap_cons,addLine,installOf]
      split
      · rw [List.append_assoc]
        rfl
      · rfl

theorem scanInstalls_lines (inst : Installer) (content : String) : scanInstalls inst content =
    ((content.toList.splitOn '\n').takeWhile (fits maxScanTokenSize)).filterMap (installOf inst ∘ dropCR) := by
  rw [scanInstalls,scan_lines,List.nil_append]
  exact scanned_filterMap _ _ _ rfl

structure Blanks where
  chars : List Char
  blank : ∀ c ∈ chars, c = ' ' ∨ c = '\t'

structure Word where
  chars : List Char
  nonempty : chars ≠ []
  plain : ∀ c ∈ chars, c ∉ [' ','\t','\r','#']

structure Pinned where
  name : Word
  beforeEquals : Blanks
  afterEquals : Blanks
  version : Word
  behind : Blanks

def Pinned.text (pinned : Pinned) : List Char :=
  pinned.name.chars ++ (pinned.beforeEquals.chars ++ '=' :: '=' :: (pinned.afterEquals.chars ++
    (pinned.version.chars ++ pinned.behind.chars)))

def Pinned.spec (pinned : Pinned) : List Char := pinned.name.chars ++ '=' :: '=' :: pinned.version.chars

-- A line of requirements.txt: blank, a comment or a pinned spec. A line may end
-- with a carriage return.
structure Line where
  lead : Blanks
  pinned : Option Pinned
  comment : Option (List Char)
  cr : Bool

def Line.body (line : Line) : List Char := line.lead.chars ++ (line.pinned.map Pinned.text).getD []

def Line.remark (line : Line) : List Char := (line.comment.map ('#' :: ·)).getD [] ++ if line.cr then ['\r'] else []

def Line.text (line : Line) : List Char := line.body ++ line.remark

def Line.spec (inst : Installer) (line : Line) : Option String :=
  line.pinned.map fun pinned => inst.normalizePkg (String.ofList pinned.spec)

def specs (inst : Installer) (lines : List Line) : List String := lines.filterMap (Line.spec inst)

def Line.fits (line : Line) : Bool := Foundation.Lines.fits maxScanTokenSize line.text

-- No tab before the comment of a line that is read, and no requirement from the
-- first line on that is longer than the scanner allows.
structure Readable (lines : List Line) : Prop where
  noTab : ∀ line ∈ lines.takeWhile Line.fits, '\t' ∉ line.body
  noneLeft : ∀ line ∈ lines.dropWhile Line.fits, line.pinned = none

theorem Blanks.outside (blanks : Blanks) (member : c ∈ blanks.chars) : c ≠ '#' ∧ c ≠ '\r' := by
  rcases blanks.blank c member with rfl | rfl
  · decide
  · decide

theorem Word.outside (word : Word) (member : c ∈ word.chars) : c ≠ '#' ∧ c ≠ '\r' := by
  have plain := word.plain c member
  refine ⟨?_,?_⟩
  · rintro rfl
    exact plain (by decide)
  · rintro rfl
    exact plain (by decide)

theorem body_outside (line : Line) (member : c ∈ line.body) : c ≠ '#' ∧ c ≠ '\r' := by
  rcases List.mem_append.mp member with lead | rest
  · exact line.lead.outside lead
  · cases spec : line.pinned with
    | none =>
        rw [spec] at rest
        cases rest
    | some pinned =>
        rw [spec] at rest
        simp only [Option.map_some,Option.getD_some,Pinned.text,List.mem_append,List.mem_cons] at rest
        rcases rest with name | before | rfl | rfl | after | version | behind
        · exact pinned.name.outside name
        · exact pinned.beforeEquals.outside before
        · decide
        · decide
        · exact pinned.afterEquals.outside after
        · exact pinned.version.outside version
        · exact pinned.behind.outside behind

theorem remark_cases (line : Line) : line.remark = [] ∨ line.remark = ['\r'] ∨ ∃ rest, line.remark = '#' :: rest := by
  unfold Line.remark
  cases line.comment with
  | some text => exact .inr (.inr ⟨_,rfl⟩)
  | none => cases line.cr with
      | false => exact .inl rfl
      | true => exact .inr (.inl rfl)

theorem line_pkg (line : Line) : pkgOf (dropCR line.text) = line.body.filter (· ≠ ' ') := by
  have noHash : ∀ c ∈ line.body.filter (· ≠ ' '), decide (c ≠ '#') = true := by
    intro c member
    exact decide_eq_true (body_outside line (List.mem_of_mem_filter member)).1
  have alone : pkgOf line.body = line.body.filter (· ≠ ' ') := List.takeWhile_eq_self_iff.mpr noHash
  unfold Line.text
  rcases remark_cases line with none | cr | ⟨rest,comment⟩
  · rw [none,List.append_nil,dropCR_keeps,alone]
    intro last
    exact (body_outside line (List.mem_of_getLast? last)).2 rfl
  · rw [cr,dropCR_cr,alone]
  · obtain ⟨more,front⟩ := dropCR_front (by decide : '#' ≠ '\r') rest
    rw [comment,dropCR_append _ (List.cons_ne_nil _ _),front,pkgOf,List.filter_append,List.filter_cons_of_pos (by decide),
      List.takeWhile_append_of_pos noHash,List.takeWhile_cons_of_neg (by decide),List.append_nil]

theorem Blanks.filtered (blanks : Blanks) (noTab : '\t' ∉ blanks.chars) : blanks.chars.filter (· ≠ ' ') = [] := by
  refine List.filter_eq_nil_iff.mpr ?_
  intro c member
  rcases blanks.blank c member with rfl | rfl
  · decide
  · exact absurd member noTab

theorem Word.filtered (word : Word) : word.chars.filter (· ≠ ' ') = word.chars := by
  refine List.filter_eq_self.mpr ?_
  intro c member
  refine decide_eq_true ?_
  rintro rfl
  exact word.plain _ member (by decide)

theorem body_filtered (line : Line) (noTab : '\t' ∉ line.body) :
    line.body.filter (· ≠ ' ') = (line.pinned.map Pinned.spec).getD [] := by
  unfold Line.body at noTab ⊢
  rw [List.mem_append,not_or] at noTab
  rw [List.filter_append,line.lead.filtered noTab.1,List.nil_append]
  cases spec : line.pinned with
  | none => rfl
  | some pinned =>
      rw [spec] at noTab
      simp only [Option.map_some,Option.getD_some,Pinned.text,List.mem_append,List.mem_cons,not_or] at noTab
      obtain ⟨_,_,before,_,_,after,_,behind⟩ := noTab
      simp only [Option.map_some,Option.getD_some,Pinned.text,Pinned.spec,List.filter_append,pinned.name.filtered,
        pinned.beforeEquals.filtered before,pinned.afterEquals.filtered after,pinned.version.filtered,
        pinned.behind.filtered behind,List.nil_append,List.append_nil,List.filter_cons_of_pos (p := (· ≠ ' ')) (a := '=') (by decide)]

theorem line_install (inst : Installer) (line : Line) (noTab : '\t' ∉ line.body) :
    installOf inst (dropCR line.text) = line.spec inst := by
  unfold installOf Line.spec
  rw [line_pkg,body_filtered line noTab]
  cases line.pinned with
  | none => rfl
  | some pinned =>
      refine if_pos ?_
      exact fun empty => pinned.name.nonempty (List.append_eq_nil_iff.mp empty).1

section Tabs

variable {inst : Installer} {lower : Char → Char} (lowers : LowerCase inst.toLower lower)
include lowers

theorem tab_kept (pkg : List Char) : '\t' ∈ (inst.normalizePkg (String.ofList pkg)).toList ↔ '\t' ∈ pkg :=
  normalizePkg_sign lowers (by decide) (by decide) (by decide) pkg

theorem tab_installed (line : Line) (tab : '\t' ∈ line.body) :
    ∃ pkg, installOf inst (dropCR line.text) = some pkg ∧ '\t' ∈ pkg.toList := by
  have left : '\t' ∈ line.body.filter (· ≠ ' ') := List.mem_filter.mpr ⟨tab,by decide⟩
  refine ⟨inst.normalizePkg (String.ofList (line.body.filter (· ≠ ' '))),?_,(tab_kept lowers _).mpr left⟩
  rw [installOf,line_pkg]
  exact if_pos (List.ne_nil_of_mem left)

theorem spec_noTab (line : Line) (spec : line.spec inst = some pkg) : '\t' ∉ pkg.toList := by
  obtain ⟨pinned,_,rfl⟩ := Option.map_eq_some_iff.mp spec
  rw [tab_kept lowers,Pinned.spec]
  simp only [List.mem_append,List.mem_cons,not_or]
  exact ⟨fun name => pinned.name.plain _ name (by decide),by decide,by decide,
    fun version => pinned.version.plain _ version (by decide)⟩

end Tabs

theorem installs_are_specs {inst : Installer} (lowers : LowerCase inst.toLower lower) (lines : List Line)
    (found : dir.openFile (filepathJoin dir.path "requirements.txt") = .file content)
    (cut : content.toList.splitOn '\n' = lines.map Line.text) (parsed : parseMeta inst dir = .ok fn)
    (python : fn.sandbox.runtime = .python) : fn.sandbox.installs = specs inst lines ↔ Readable lines := by
  have read := parseMeta_python parsed python
  rw [found] at read
  have installs : fn.sandbox.installs =
      (lines.takeWhile Line.fits).filterMap fun line => installOf inst (dropCR line.text) := by
    rw [← Except.ok.inj read,scanInstalls_lines,cut,List.takeWhile_map,List.filterMap_map]
    rfl
  have parts : specs inst lines = specs inst (lines.takeWhile Line.fits) ++ specs inst (lines.dropWhile Line.fits) := by
    unfold specs
    rw [← List.filterMap_append,List.takeWhile_append_dropWhile]
  have clear : (∀ line ∈ lines.takeWhile Line.fits, '\t' ∉ line.body) →
      fn.sandbox.installs = specs inst (lines.takeWhile Line.fits) := by
    intro noTab
    rw [installs]
    exact List.filterMap_congr fun line member => line_install inst line (noTab line member)
  rw [parts]
  constructor
  · intro same
    have noTab : ∀ line ∈ lines.takeWhile Line.fits, '\t' ∉ line.body := by
      intro line member tab
      obtain ⟨pkg,installed,inside⟩ := tab_installed lowers line tab
      have listed : pkg ∈ fn.sandbox.installs := by
        rw [installs]
        exact List.mem_filterMap.mpr ⟨line,member,installed⟩
      rw [same,← parts] at listed
      obtain ⟨other,_,spec⟩ := List.mem_filterMap.mp listed
      exact spec_noTab lowers other spec inside
    refine ⟨noTab,?_⟩
    rw [clear noTab,List.self_eq_append_right] at same
    intro line member
    exact Option.map_eq_none_iff.mp (List.filterMap_eq_nil_iff.mp same line member)
  · rintro ⟨noTab,noneLeft⟩
    have none : specs inst (lines.dropWhile Line.fits) = [] := by
      refine List.filterMap_eq_nil_iff.mpr ?_
      intro line member
      rw [Line.spec,noneLeft line member]
      rfl
    rw [clear noTab,none,List.append_nil]

def pythonDir (content : String) : CodeDir := ⟨"/code",.ok loadDefaultLambdaConfig,fun _ => true,fun _ => .file content⟩

def installsOf (result : Except String FunctionMeta) : Option (List String) :=
  result.toOption.map fun fn => fn.sandbox.installs

theorem installsOf_parts (inst : Installer) (content : String) :
    ∃ fn, parseMeta inst (pythonDir content) = .ok fn ∧ fn.sandbox.runtime = .python ∧
      fn.sandbox.installs = scanInstalls inst content := ⟨_,rfl,rfl,rfl⟩

def spaces (n : Nat) : Blanks := ⟨List.replicate n ' ',fun _ member => .inl (List.eq_of_mem_replicate member)⟩

def numpyLine : Line where
  lead := spaces 0
  pinned := some
    ⟨⟨"NumPy".toList,by decide,by simp⟩,spaces 1,spaces 1,⟨"1.24.0".toList,by decide,by simp⟩,spaces 2⟩
  comment := some " via pandas".toList
  cr := true

theorem installs_are_specs_numpy :
    ∃ fn, parseMeta flaskInstaller (pythonDir "    # direct\nNumPy == 1.24.0  # via pandas\r\n") = .ok fn ∧
      fn.sandbox.installs = ["numpy==1.24.0"] := by
  obtain ⟨fn,parsed,python,_⟩ := installsOf_parts flaskInstaller "    # direct\nNumPy == 1.24.0  # via pandas\r\n"
  let lines : List Line := [⟨spaces 4,none,some " direct".toList,false⟩,numpyLine,⟨spaces 0,none,none,false⟩]
  refine ⟨fn,parsed,?_⟩
  have names : specs flaskInstaller lines = ["numpy==1.24.0"] := by decide +kernel
  rw [← names]
  exact (installs_are_specs ascii_lowers lines rfl (by decide +kernel) parsed python).mpr
    ⟨by decide +kernel,by decide +kernel⟩

def longComment (n : Nat) : String := String.ofList (List.replicate n '#' ++ '\n' :: "six==1.16.0".toList)

theorem longComment_lines (n : Nat) :
    (longComment n).toList.splitOn '\n' = [List.replicate n '#',"six==1.16.0".toList] := by
  have other : ∀ c ∈ List.replicate n '#', (c == '\n') = false := by
    intro c member
    rw [List.eq_of_mem_replicate member]
    rfl
  rw [longComment,String.toList_ofList]
  exact (List.splitOnP_append_cons_of_forall_mem other '\n' rfl _).trans rfl

theorem longComment_installs (inst : Installer) (long : maxScanTokenSize ≤ n) : scanInstalls inst (longComment n) = [] := by
  have tooLong : ¬fits maxScanTokenSize (List.replicate n '#') = true := by
    rw [fits,byteSize_replicate,decide_eq_true_iff,Nat.not_lt]
    exact Nat.le_mul_of_pos_right n (by decide) |>.trans' long
  rw [scanInstalls_lines,longComment_lines,List.takeWhile_cons_of_neg tooLong]
  rfl

theorem requirements_misread :
    installsOf (parseMeta flaskInstaller (pythonDir "six==1.16.0\n\t# via python-dateutil\n")) =
      some ["six==1.16.0","\t"] ∧
    installsOf (parseMeta flaskInstaller (pythonDir (longComment 65536))) = some [] := by
  refine ⟨by decide +kernel,?_⟩
  obtain ⟨fn,parsed,_,installs⟩ := installsOf_parts flaskInstaller (longComment 65536)
  rw [longComment_installs flaskInstaller (by decide)] at installs
  rw [parsed]
  exact congrArg some installs

end OpenLambda.Requirements
