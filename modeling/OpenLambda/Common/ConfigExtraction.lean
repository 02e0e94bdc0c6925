import OpenLambda.Common.LambdaConfig
import OpenLambda.Foundation.FileTrees
import Mathlib.Data.List.Induction

namespace OpenLambda.Common
open Foundation.Paths Foundation.FileTrees

def filepathClean (name : String) : String := String.ofList (clean name.toList)

structure Member (β : Type) where
  name : String
  content : Option β

structure Archive (β : Type) where
  gzip : Option String
  members : List (Member β)
  broken : Option String

-- What is not in the repository: the YAML decoder, applied to the defaults; the
-- error of reading a directory; and the error of the command tar.
structure Tools (β : Type) where
  decode : β → Except String LambdaConfig
  isDirectory : String
  tar : Archive β → Option String

-- In the archive a directory reads as an empty file.
def Member.config (tools : Tools β) (m : Member β) : Except String LambdaConfig :=
  match m.content with
  | some content => tools.decode content
  | none => .error "EOF"

def Archive.tarball (tools : Tools β) (archive : Archive β) : Tarball where
  gzip := archive.gzip
  entries := archive.members.map fun m => ⟨filepathClean m.name,m.config tools⟩
  broken := archive.broken

def Member.found (m : Member β) : Found β :=
  match m.content with
  | some content => .file (.ok content)
  | none => .folder

abbrev Directory (β : Type) := List Part → Found β

-- tar strips '/' and './' from the front of a name.
def stripFront : List Char → List Char
  | '/' :: rest => stripFront rest
  | '.' :: '/' :: rest => stripFront rest
  | text => text

def Member.place (m : Member β) : List Part := resolve false (split (stripFront m.name.toList))

-- A member is written over what was there; the directories above it are made.
def Directory.write (dir : Directory β) (m : Member β) : Directory β := fun path =>
  if path = m.place then m.found
  else match dir path with
    | .notExist => if path.isPrefixOf m.place then .folder else .notExist
    | found => found

def written (members : List (Member β)) : Directory β := members.foldl Directory.write fun _ => .notExist

def extract (tools : Tools β) (archive : Archive β) : Except String (Directory β) :=
  match tools.tar archive with
  | some err => .error ("tar extract failed: " ++ err)
  | none => .ok (written archive.members)

def Directory.find (dir : Directory β) (name : String) : Found β := dir (resolve false (split name.toList))

def decoded (tools : Tools β) (failure : String) (content : β) : Except String LambdaConfig :=
  match tools.decode content with
  | .error err => .error (failure ++ err)
  | .ok config => match checkLambdaConfig config with
      | some err => .error err
      | none => .ok config

def configOf (tools : Tools β) : Found β → Except String LambdaConfig
  | .notExist => .ok loadDefaultLambdaConfig
  | .failed err | .file (.error err) => .error ("failed to open config file: " ++ err)
  | .folder => .error ("failed to parse YAML file: " ++ tools.isDirectory)
  | .file (.ok content) => decoded tools "failed to parse YAML file: " content

-- `codeDir` is what lies below the directory under a name.
def loadLambdaConfig (tools : Tools β) (codeDir : String → Found β) : Except String LambdaConfig :=
  configOf tools (codeDir lambdaConfigFilename)

def configPath : List Part := [lambdaConfigFilename.toList]

theorem find_config (dir : Directory β) : dir.find lambdaConfigFilename = dir configPath := rfl

theorem stripFront_place (text : List Char) : resolve false (split (stripFront text)) = resolve false (split text) := by
  fun_induction stripFront text with
  | case1 rest ih => rw [ih,resolve_slash]
  | case2 rest ih => rw [ih,resolve_here]
  | case3 text _ _ => rfl

theorem clean_config (m : Member β) :
    filepathClean m.name = lambdaConfigFilename ↔ rooted m.name.toList = false ∧ m.place = configPath := by
  unfold filepathClean Member.place configPath
  rw [stripFront_place,← clean_eq_name (by decide) (by decide)]
  constructor
  · intro same
    rw [← same,String.toList_ofList]
  · intro same
    rw [same,String.ofList_toList]

def Member.isConfig (m : Member β) : Bool := m.place = configPath

def Member.isRelativeConfig (m : Member β) : Bool := !rooted m.name.toList && m.isConfig

def setting (tools : Tools β) : Option (Member β) → Except String LambdaConfig
  | some m => m.config tools
  | none => .ok loadDefaultLambdaConfig

theorem find_tarball (tools : Tools β) (archive : Archive β) :
    (archive.tarball tools).entries.find? (fun entry => entry.name = lambdaConfigFilename) =
      (archive.members.find? Member.isRelativeConfig).map fun m => ⟨filepathClean m.name,m.config tools⟩ := by
  unfold Archive.tarball
  rw [List.find?_map]
  congr 2
  funext m
  simp only [Function.comp_apply,clean_config,Member.isRelativeConfig,Member.isConfig]
  simp

theorem extracted_setting {tools : Tools β} {archive : Archive β}
    (uploaded : extractConfigFromTarGz (archive.tarball tools) = .ok config) :
    setting tools (archive.members.find? Member.isRelativeConfig) = .ok config := by
  unfold extractConfigFromTarGz at uploaded
  split at uploaded
  · cases uploaded
  · rw [find_tarball] at uploaded
    cases found : archive.members.find? Member.isRelativeConfig with
    | none =>
        simp only [found,Option.map_none] at uploaded
        split at uploaded
        · cases uploaded
        · cases uploaded
          rfl
    | some m =>
        simp only [found,Option.map_some] at uploaded
        split at uploaded
        · cases uploaded
        · rename_i parsed
          split at uploaded
          · cases uploaded
          · cases uploaded
            exact parsed

def lastConfig (members : List (Member β)) : Option (Member β) := (members.filter Member.isConfig).getLast?

theorem written_snoc (early : List (Member β)) (m : Member β) : written (early ++ [m]) = (written early).write m := by
  simp [written]

theorem lastConfig_snoc (early : List (Member β)) (m : Member β) :
    lastConfig (early ++ [m]) = if m.isConfig then some m else lastConfig early := by
  unfold lastConfig
  rw [List.filter_append]
  cases here : m.isConfig <;> simp [here]

theorem found_exists (m : Member β) : m.found ≠ .notExist := by
  intro missing
  unfold Member.found at missing
  split at missing <;> cases missing

-- The last member at the path of the config file decides. Without one there is
-- nothing, or a directory that was made for members below it.
theorem written_config (members : List (Member β)) :
    (∀ m, lastConfig members = some m → written members configPath = m.found) ∧
      (lastConfig members = none → ∀ content, written members configPath ≠ .file content) := by
  induction members using List.reverseRecOn with
  | nil => simp [lastConfig,written]
  | append_singleton early m ih =>
      rw [lastConfig_snoc,written_snoc]
      unfold Directory.write
      by_cases here : configPath = m.place
      · have config : m.isConfig = true := by simp [Member.isConfig,here]
        rw [if_pos config,if_pos here]
        refine ⟨fun last same => by cases same; rfl,fun none => by cases none⟩
      · have other : m.isConfig = false := by simpa [Member.isConfig] using fun same => here same.symm
        simp only [other,Bool.false_eq_true,if_false,if_neg here]
        refine ⟨?_,?_⟩
        · intro last same
          rw [ih.1 last same]
          split
          · rename_i missing
            exact absurd missing (found_exists last)
          · rfl
        · intro none content
          have before := ih.2 none
          split
          · split <;> simp
          · exact before content

theorem loaded_setting {tools : Tools β} {members : List (Member β)}
    (loaded : loadLambdaConfig tools (written members).find = .ok config) :
    setting tools (lastConfig members) = .ok config := by
  obtain ⟨here,nowhere⟩ := written_config members
  rw [loadLambdaConfig,find_config] at loaded
  cases last : lastConfig members with
  | none =>
      cases found : written members configPath with
      | notExist => rwa [found] at loaded
      | failed | folder =>
          rw [found] at loaded
          cases loaded
      | file content => exact absurd found (nowhere last content)
  | some m =>
      rw [here m last] at loaded
      cases content : m.content with
      | none =>
          simp only [Member.found,content,configOf] at loaded
          cases loaded
      | some bytes =>
          simp only [Member.found,content,configOf,decoded] at loaded
          simp only [setting,Member.config,content]
          split at loaded
          · cases loaded
          · rename_i parsed
            split at loaded
            · cases loaded
            · cases loaded
              exact parsed

theorem upload_config_is_runtime (tools : Tools β) (archive : Archive β)
    (uploaded : extractConfigFromTarGz (archive.tarball tools) = .ok upload)
    (extracted : extract tools archive = .ok codeDir) (loaded : loadLambdaConfig tools codeDir.find = .ok runtime) :
    upload = runtime ↔
      setting tools (archive.members.find? Member.isRelativeConfig) = setting tools (lastConfig archive.members) := by
  unfold extract at extracted
  split at extracted
  · cases extracted
  · cases extracted
    rw [extracted_setting uploaded,loaded_setting loaded]
    exact ⟨congrArg Except.ok,Except.ok.inj⟩

def plainTools : Tools LambdaConfig := ⟨.ok,"is a directory",fun _ => none⟩

def getOnly : LambdaConfig := ⟨⟨[⟨"GET"⟩],[],[]⟩,[],true⟩

def oneConfig : Archive LambdaConfig := ⟨none,[⟨"f.py",some loadDefaultLambdaConfig⟩,⟨"./ol.yaml",some getOnly⟩],none⟩

theorem upload_config_is_runtime_one : ∃ codeDir,
    extractConfigFromTarGz (oneConfig.tarball plainTools) = .ok getOnly ∧ extract plainTools oneConfig = .ok codeDir ∧
      loadLambdaConfig plainTools codeDir.find = .ok getOnly ∧
      setting plainTools (oneConfig.members.find? Member.isRelativeConfig) =
        setting plainTools (lastConfig oneConfig.members) := by
  have uploaded : extractConfigFromTarGz (oneConfig.tarball plainTools) = .ok getOnly := by decide +kernel
  have loaded : loadLambdaConfig plainTools (written oneConfig.members).find = .ok getOnly := by decide +kernel
  exact ⟨_,uploaded,rfl,loaded,(upload_config_is_runtime plainTools oneConfig uploaded rfl loaded).mp rfl⟩

def twoConfigs : Archive LambdaConfig :=
  ⟨none,[⟨"ol.yaml",some getOnly⟩,⟨"ol.yaml",some loadDefaultLambdaConfig⟩],none⟩

def absoluteConfig : Archive LambdaConfig := ⟨none,[⟨"/ol.yaml",some getOnly⟩],none⟩

theorem upload_config_is_other :
    (∃ codeDir, extractConfigFromTarGz (twoConfigs.tarball plainTools) = .ok getOnly ∧
      extract plainTools twoConfigs = .ok codeDir ∧ loadLambdaConfig plainTools codeDir.find = .ok loadDefaultLambdaConfig) ∧
    (∃ codeDir, extractConfigFromTarGz (absoluteConfig.tarball plainTools) = .ok loadDefaultLambdaConfig ∧
      extract plainTools absoluteConfig = .ok codeDir ∧ loadLambdaConfig plainTools codeDir.find = .ok getOnly) ∧
    loadDefaultLambdaConfig ≠ getOnly :=
  ⟨⟨written twoConfigs.members,by decide +kernel,rfl,by decide +kernel⟩,
    ⟨written absoluteConfig.members,by decide +kernel,rfl,by decide +kernel⟩,by decide⟩

end OpenLambda.Common
