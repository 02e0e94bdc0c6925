import OpenLambda.Common.ConfigExtraction
import OpenLambda.Common.Config
import OpenLambda.Foundation.FileTrees
import OpenLambda.Foundation.Maps
import OpenLambda.Lambda.Requirements

namespace OpenLambda.Admin
open Foundation.Paths Foundation.FileTrees Foundation.Maps Common Requirements

structure World (β : Type) where
  funcDir : String
  source : FileList β
  formed : source.Formed
  find : String → Found β
  mounted : ∀ name way, (∀ part ∈ way, Plain part) →
    located (below funcDir.toList name.toList) = ((located funcDir.toList).1,(located funcDir.toList).2 ++ way) →
    find (filepathJoin funcDir name) = (FileTree.folder source).find way

def World.dir (world : World β) (path name : String) : Found β := world.find (filepathJoin path name)

def requirementsFilename : String := "requirements.txt"

-- The local files that replace ol.yaml and requirements.txt, in the order in which
-- a range over the map produces them.
structure Overrides where
  entries : List (String × String)
  keys : ∀ entry ∈ entries, entry.1 = lambdaConfigFilename ∨ entry.1 = requirementsFilename
  distinct : (entries.map Prod.fst).Nodup

def configDir (funcDir : String) (overrides : Overrides) : String :=
  match overrides.entries.lookup lambdaConfigFilename with
  | some configOverride => filepathDir configOverride
  | none => funcDir

def relPath (way : List Part) : String := String.ofList (join way)

def addFile (quote : String → String) (funcDir : String) (overrides : Overrides) (visit : List Part × Info β) :
    Except String (List (Member β)) :=
  match visit.2 with
  | .folder => .ok []
  | .special mode _ => .error ("cannot archive non-regular file " ++ quote (filepathJoin funcDir (relPath visit.1)) ++
      " (mode: " ++ mode ++ ")")
  | .regular content =>
      if overrides.entries.lookup (relPath visit.1) ≠ none then .ok []
      else match content with
        | .error err => .error ("unable to open file: " ++ err)
        | .ok content => .ok [⟨relPath visit.1,some content⟩]

def addOverride (tools : Tools β) (find : String → Found β) (entry : String × String) : Except String (List (Member β)) :=
  match find entry.2 with
  | .notExist => .error ("unable to stat override file " ++ entry.2 ++ ": no such file or directory")
  | .failed err => .error ("unable to stat override file " ++ entry.2 ++ ": " ++ err)
  | .folder => .error ("error copying override file " ++ entry.2 ++ ": " ++ tools.isDirectory)
  | .file (.error err) => .error ("unable to open override file " ++ entry.2 ++ ": " ++ err)
  | .file (.ok content) => .ok [⟨entry.1,some content⟩]

def addAll (add : α → Except String (List (Member β))) : List α → Except String (List (Member β))
  | [] => .ok []
  | a :: rest => match add a with
      | .error err => .error err
      | .ok members => match addAll add rest with
          | .error err => .error err
          | .ok more => .ok (members ++ more)

def createTarGz (tools : Tools β) (quote : String → String) (world : World β) (overrides : Overrides) :
    Except String (Archive β) :=
  match loadLambdaConfig tools (world.dir (configDir world.funcDir overrides)) with
  | .error err => .error ("failed to parse config in " ++ configDir world.funcDir overrides ++ ": " ++ err)
  | .ok lambdaConfig => match world.find (filepathJoin world.funcDir (pythonEntryFile lambdaConfig)) with
      | .notExist =>
          .error ("required file " ++ pythonEntryFile lambdaConfig ++ " not found in " ++ world.funcDir)
      | _ => match addAll (addFile quote world.funcDir overrides) ((FileTree.folder world.source).walk []) with
          | .error err => .error err
          | .ok files => match addAll (addOverride tools world.find) overrides.entries with
              | .error err => .error err
              | .ok added => .ok ⟨none,files ++ added,none⟩

def expected (world : World β) (overrides : Overrides) (name : String) : Option β :=
  match overrides.entries.lookup name with
  | some localPath => (world.find localPath).content
  | none => ((FileTree.folder world.source).find (split name.toList)).content

def entryWay (config : LambdaConfig) : List Part := resolve false (split (pythonEntryFile config).toList)

structure Complete (tools : Tools β) (world : World β) (overrides : Overrides) (archive : Archive β) : Prop where
  distinct : (archive.members.map Member.name).Nodup
  contents : ∀ m, m ∈ archive.members ↔ ∃ content, m.content = some content ∧ expected world overrides m.name = some content
  entry : ∃ config, extractConfigFromTarGz (archive.tarball tools) = .ok config ∧
    ∃ m ∈ archive.members, m.place = entryWay config

-- The config file that goes into the archive: the override, not what lies beside it.
def shippedFile (world : World β) (overrides : Overrides) : Found β :=
  match overrides.entries.lookup lambdaConfigFilename with
  | some configOverride => world.find configOverride
  | none => (FileTree.folder world.source).find configPath

def shippedOf (tools : Tools β) (found : Found β) : Except String LambdaConfig :=
  match found.content with
  | some content => decoded tools ("failed to parse " ++ lambdaConfigFilename ++ ": ") content
  | none => .ok loadDefaultLambdaConfig

def shippedConfig (tools : Tools β) (world : World β) (overrides : Overrides) : Except String LambdaConfig :=
  shippedOf tools (shippedFile world overrides)

def EntryThere (tools : Tools β) (world : World β) (overrides : Overrides) : Prop :=
  ∃ config, shippedConfig tools world overrides = .ok config ∧
    (overrides.entries.lookup (relPath (entryWay config)) ≠ none ∨
      ∃ content, (FileTree.folder world.source).find (entryWay config) = .file content)

theorem addAll_cons {add : α → Except String (List (Member β))} (added : addAll add (a :: rest) = .ok members) :
    ∃ first more, add a = .ok first ∧ addAll add rest = .ok more ∧ members = first ++ more := by
  rw [addAll] at added
  split at added
  · cases added
  · rename_i first here
    split at added
    · cases added
    · rename_i more later
      exact ⟨first,more,here,later,(Except.ok.inj added).symm⟩

theorem addAll_mem {add : α → Except String (List (Member β))} (added : addAll add list = .ok members) :
    (∀ a ∈ list, ∃ some, add a = .ok some) ∧ ∀ m, m ∈ members ↔ ∃ a ∈ list, ∃ some, add a = .ok some ∧ m ∈ some := by
  induction list generalizing members with
  | nil =>
      cases added
      simp
  | cons a rest ih =>
      obtain ⟨first,more,here,later,rfl⟩ := addAll_cons added
      obtain ⟨each,all⟩ := ih later
      refine ⟨List.forall_mem_cons.mpr ⟨⟨first,here⟩,each⟩,?_⟩
      intro m
      rw [List.mem_append,all]
      constructor
      · rintro (now | ⟨b,member,some,ok,inside⟩)
        · exact ⟨a,List.mem_cons_self,first,here,now⟩
        · exact ⟨b,List.mem_cons_of_mem _ member,some,ok,inside⟩
      · rintro ⟨b,member,some,ok,inside⟩
        rcases List.mem_cons.mp member with rfl | later
        · cases here.symm.trans ok
          exact .inl inside
        · exact .inr ⟨b,later,some,ok,inside⟩

theorem addAll_names {add : α → Except String (List (Member β))} (name : α → String)
    (each : ∀ a some, add a = .ok some → (some.map Member.name).Sublist [name a])
    (added : addAll add list = .ok members) : (members.map Member.name).Sublist (list.map name) := by
  induction list generalizing members with
  | nil =>
      cases added
      exact List.Sublist.refl _
  | cons a rest ih =>
      obtain ⟨first,more,here,later,rfl⟩ := addAll_cons added
      rw [List.map_append]
      exact (each a first here).append (ih later)

theorem relPath_split (some : way ≠ []) (plain : ∀ part ∈ way, Plain part) : split (relPath way).toList = way := by
  rw [relPath,String.toList_ofList]
  exact split_join way some fun part member => (plain part member).2.2.2

theorem split_relPath (name : String) : relPath (split name.toList) = name := by
  rw [relPath,join_split,String.ofList_toList]

theorem relPath_injective (first : ∀ part ∈ way, Plain part) (second : ∀ part ∈ other, Plain part)
    (same : relPath way = relPath other) : way = other := by
  have top : ∀ way, (∀ part ∈ way, Plain part) → relPath [] = relPath way → way = [] := by
    intro way plain same
    apply Classical.byContradiction
    intro some
    have parts := relPath_split some plain
    rw [← same] at parts
    exact (plain [] (parts ▸ List.mem_singleton.mpr rfl)).1 rfl
  by_cases none : way = []
  · subst none
    exact (top other second same).symm
  · by_cases others : other = []
    · subst others
      exact top way first same.symm
    · rw [← relPath_split none first,same,relPath_split others second]

theorem addFile_parts (added : addFile quote funcDir overrides (way,info) = .ok members) :
    (∀ mode content, info ≠ .special mode content) ∧
      (members = [] ∧ (info = .folder ∨ overrides.entries.lookup (relPath way) ≠ none) ∨
        ∃ content, info = .regular (.ok content) ∧ overrides.entries.lookup (relPath way) = none ∧
          members = [⟨relPath way,some content⟩]) := by
  unfold addFile at added
  dsimp only at added
  split at added
  · cases added
    exact ⟨nofun,.inl ⟨rfl,.inl rfl⟩⟩
  · cases added
  · split at added
    · rename_i overridden
      cases added
      exact ⟨nofun,.inl ⟨rfl,.inr overridden⟩⟩
    · rename_i own
      split at added
      · cases added
      · cases added
        exact ⟨nofun,.inr ⟨_,rfl,not_not.mp own,rfl⟩⟩

theorem addOverride_parts (added : addOverride tools find entry = .ok members) :
    ∃ content, find entry.2 = .file (.ok content) ∧ members = [⟨entry.1,some content⟩] := by
  unfold addOverride at added
  split at added
  · cases added
  · cases added
  · cases added
  · cases added
  · rename_i content found
    cases added
    exact ⟨content,found,rfl⟩

theorem createTarGz_parts (packed : createTarGz tools quote world overrides = .ok archive) :
    ∃ lambdaConfig files added, loadLambdaConfig tools (world.dir (configDir world.funcDir overrides)) = .ok lambdaConfig ∧
      world.find (filepathJoin world.funcDir (pythonEntryFile lambdaConfig)) ≠ .notExist ∧
      addAll (addFile quote world.funcDir overrides) ((FileTree.folder world.source).walk []) = .ok files ∧
      addAll (addOverride tools world.find) overrides.entries = .ok added ∧ archive = ⟨none,files ++ added,none⟩ := by
  unfold createTarGz at packed
  split at packed
  · cases packed
  · rename_i lambdaConfig loaded
    split at packed
    · cases packed
    · rename_i there
      split at packed
      · cases packed
      · rename_i files walked
        split at packed
        · cases packed
        · rename_i added copied
          cases packed
          exact ⟨lambdaConfig,files,added,loaded,there,walked,copied,rfl⟩

theorem walked_parts (world : World β) (visited : (way,info) ∈ (FileTree.folder world.source).walk []) :
    (∀ part ∈ way, Plain part) ∧ (FileTree.folder world.source).find way = info.shown := by
  obtain ⟨rel,same,plain,found⟩ := FileTree.walk_found [] info way (.folder world.source) world.formed visited
  rw [List.nil_append] at same
  subst same
  exact ⟨plain,found⟩

theorem visited_parts (world : World β) (visited : (way,info) ∈ (FileTree.folder world.source).walk [])
    (file : info ≠ .folder) : way ≠ [] ∧ (∀ part ∈ way, Plain part) ∧ (FileTree.folder world.source).find way = info.shown := by
  obtain ⟨plain,found⟩ := walked_parts world visited
  refine ⟨?_,plain,found⟩
  rintro rfl
  cases info with
  | folder => exact file rfl
  | regular | special => cases found

section Packed
variable {tools : Tools β} {world : World β} {archive : Archive β}

theorem added_expected (added : addFile quote world.funcDir overrides (way,info) = .ok members)
    (visited : (way,info) ∈ (FileTree.folder world.source).walk []) (inside : m ∈ members) :
    ∃ content, m.content = some content ∧ expected world overrides m.name = some content := by
  rcases (addFile_parts added).2 with ⟨rfl,_⟩ | ⟨content,rfl,own,rfl⟩
  · cases inside
  · cases List.mem_singleton.mp inside
    obtain ⟨some,plain,found⟩ := visited_parts world visited nofun
    refine ⟨content,rfl,?_⟩
    rw [expected,own]
    dsimp only
    rw [relPath_split some plain,found]
    rfl

theorem override_expected (added : addOverride tools world.find (name,localPath) = .ok members)
    (entry : (name,localPath) ∈ overrides.entries) (inside : m ∈ members) :
    ∃ content, m.content = some content ∧ expected world overrides m.name = some content := by
  obtain ⟨content,found,rfl⟩ := addOverride_parts added
  cases List.mem_singleton.mp inside
  refine ⟨content,rfl,?_⟩
  rw [expected,lookup_of_mem overrides.distinct entry]
  dsimp only
  rw [found]
  rfl

theorem members_expected (packed : createTarGz tools quote world overrides = .ok archive) (m : Member β) :
    m ∈ archive.members ↔ ∃ content, m.content = some content ∧ expected world overrides m.name = some content := by
  obtain ⟨_,files,added,_,_,walked,copied,rfl⟩ := createTarGz_parts packed
  obtain ⟨walks,fileMembers⟩ := addAll_mem walked
  obtain ⟨copies,overrideMembers⟩ := addAll_mem copied
  change m ∈ files ++ added ↔ _
  rw [List.mem_append,fileMembers,overrideMembers]
  constructor
  · rintro (⟨⟨way,info⟩,visited,members,ok,inside⟩ | ⟨⟨name,localPath⟩,entry,members,ok,inside⟩)
    · exact added_expected ok visited inside
    · exact override_expected ok entry inside
  · rintro ⟨content,full,wanted⟩
    obtain ⟨name,contents⟩ := m
    cases full
    unfold expected at wanted
    split at wanted
    · rename_i localPath overridden
      have entry := mem_of_lookup overridden
      obtain ⟨members,ok⟩ := copies _ entry
      obtain ⟨other,found,rfl⟩ := addOverride_parts ok
      refine .inr ⟨_,entry,_,ok,List.mem_singleton.mpr ?_⟩
      rw [found] at wanted
      cases wanted
      rfl
    · rename_i own
      obtain ⟨info,visited,shown⟩ := FileTree.found_walk [] (split name.toList) (.ok content) _ (content_file wanted)
      obtain ⟨members,ok⟩ := walks _ visited
      obtain ⟨regular,either⟩ := addFile_parts ok
      rw [List.nil_append,split_relPath] at either
      refine .inl ⟨_,visited,members,ok,?_⟩
      rcases either with ⟨_,rfl | overridden⟩ | ⟨other,rfl,_,rfl⟩
      · cases shown
      · exact absurd own overridden
      · cases shown
        exact List.mem_singleton.mpr rfl

theorem addFile_names (visit : List Part × Info β) (members : List (Member β))
    (added : addFile quote funcDir overrides visit = .ok members) : (members.map Member.name).Sublist [relPath visit.1] := by
  rcases (addFile_parts added).2 with ⟨rfl,_⟩ | ⟨content,_,_,rfl⟩
  · exact List.nil_sublist _
  · exact List.Sublist.refl _

theorem addOverride_names (entry : String × String) (members : List (Member β))
    (added : addOverride tools find entry = .ok members) : (members.map Member.name).Sublist [entry.1] := by
  obtain ⟨content,_,rfl⟩ := addOverride_parts added
  exact List.Sublist.refl _

theorem names_nodup (packed : createTarGz tools quote world overrides = .ok archive) :
    (archive.members.map Member.name).Nodup := by
  obtain ⟨_,files,added,_,_,walked,copied,rfl⟩ := createTarGz_parts packed
  change ((files ++ added).map Member.name).Nodup
  rw [List.map_append,List.nodup_append]
  refine ⟨?_,?_,?_⟩
  · refine (addAll_names (fun visit => relPath visit.1) addFile_names walked).nodup ?_
    have ways := FileTree.walk_nodup [] (.folder world.source) world.formed
    have plain : ∀ way ∈ ((FileTree.folder world.source).walk []).map Prod.fst, ∀ part ∈ way, Plain part := by
      intro way member
      obtain ⟨⟨_,info⟩,visited,rfl⟩ := List.mem_map.mp member
      exact (walked_parts world visited).1
    have injective := ways.map_on fun way here other there => relPath_injective (plain way here) (plain other there)
    rwa [List.map_map] at injective
  · exact (addAll_names Prod.fst addOverride_names copied).nodup overrides.distinct
  · -- a path that is overridden is skipped on the walk
    intro name inside other outside same
    subst same
    obtain ⟨m,file,rfl⟩ := List.mem_map.mp inside
    obtain ⟨⟨way,info⟩,_,members,ok,member⟩ := ((addAll_mem walked).2 m).mp file
    rcases (addFile_parts ok).2 with ⟨rfl,_⟩ | ⟨content,_,own,rfl⟩
    · cases member
    · cases List.mem_singleton.mp member
      obtain ⟨⟨key,localPath⟩,entry,rfl⟩ := List.mem_map.mp ((addAll_names Prod.fst addOverride_names copied).subset outside)
      cases own.symm.trans (lookup_of_mem overrides.distinct entry)

theorem found_plain (found : (FileTree.folder world.source).find way = .file content) : ∀ part ∈ way, Plain part := by
  obtain ⟨info,visited,_⟩ := FileTree.found_walk [] way content _ found
  exact (walked_parts world visited).1

theorem key_plain (overrides : Overrides) (overridden : overrides.entries.lookup name = some localPath) :
    split name.toList = [name.toList] ∧ Plain name.toList := by
  rcases overrides.keys _ (mem_of_lookup overridden) with same | same
  · rw [show name = _ from same]
    decide
  · rw [show name = _ from same]
    decide

theorem expected_plain (wanted : expected world overrides name = some content) : ∀ part ∈ split name.toList, Plain part := by
  unfold expected at wanted
  split at wanted
  · rename_i localPath overridden
    obtain ⟨single,plain⟩ := key_plain overrides overridden
    rw [single]
    exact List.forall_mem_singleton.mpr plain
  · exact found_plain (content_file wanted)

theorem place_split (m : Member β) (plain : ∀ part ∈ split m.name.toList, Plain part) : m.place = split m.name.toList := by
  rw [Member.place,stripFront_place,resolve_plain false plain]

theorem plain_unrooted (plain : ∀ part ∈ split text, Plain part) : rooted text = false := by
  cases text with
  | nil => rfl
  | cons c rest =>
      by_cases slash : c = '/'
      · subst slash
        rw [split_slash] at plain
        exact absurd rfl (plain [] List.mem_cons_self).1
      · simpa [rooted] using slash

theorem config_name (packed : createTarGz tools quote world overrides = .ok archive) (member : m ∈ archive.members) :
    m.isRelativeConfig = true ↔ m.name = lambdaConfigFilename := by
  obtain ⟨content,_,wanted⟩ := (members_expected packed m).mp member
  have plain := expected_plain wanted
  have place := place_split m plain
  unfold Member.isRelativeConfig Member.isConfig
  rw [plain_unrooted plain,place,Bool.not_false,Bool.true_and,decide_eq_true_iff]
  constructor
  · intro same
    have name := split_relPath m.name
    rw [same] at name
    exact name.symm
  · intro same
    rw [same]
    decide

theorem find_config (packed : createTarGz tools quote world overrides = .ok archive) :
    archive.members.find? Member.isRelativeConfig =
      (expected world overrides lambdaConfigFilename).map fun content => ⟨lambdaConfigFilename,some content⟩ := by
  cases found : archive.members.find? Member.isRelativeConfig with
  | none =>
      cases wanted : expected world overrides lambdaConfigFilename with
      | none => rfl
      | some content =>
          have member := (members_expected packed ⟨lambdaConfigFilename,some content⟩).mpr ⟨content,rfl,wanted⟩
          exact absurd ((config_name packed member).mpr rfl) (List.find?_eq_none.mp found _ member)
  | some m =>
      have member := List.mem_of_find?_eq_some found
      have name := (config_name packed member).mp (List.find?_some found)
      obtain ⟨content,full,wanted⟩ := (members_expected packed m).mp member
      rw [name] at wanted
      rw [wanted]
      obtain ⟨_,_⟩ := m
      cases name
      cases full
      rfl

theorem shipped_expected (world : World β) (overrides : Overrides) :
    (shippedFile world overrides).content = expected world overrides lambdaConfigFilename := by
  have single : split lambdaConfigFilename.toList = configPath := by decide
  unfold shippedFile expected
  rw [single]
  cases overrides.entries.lookup lambdaConfigFilename with
  | none => rfl
  | some => rfl

theorem extracted_shipped (packed : createTarGz tools quote world overrides = .ok archive) :
    extractConfigFromTarGz (archive.tarball tools) = shippedConfig tools world overrides := by
  have whole : archive.gzip = none ∧ archive.broken = none := by
    obtain ⟨_,_,_,_,_,_,_,rfl⟩ := createTarGz_parts packed
    exact ⟨rfl,rfl⟩
  unfold extractConfigFromTarGz shippedConfig shippedOf
  rw [find_tarball,find_config packed,shipped_expected]
  rw [show (archive.tarball tools).gzip = none from whole.1,show (archive.tarball tools).broken = none from whole.2]
  cases expected world overrides lambdaConfigFilename with
  | none => rfl
  | some => rfl

theorem override_read (packed : createTarGz tools quote world overrides = .ok archive)
    (overridden : overrides.entries.lookup name = some localPath) : ∃ content, expected world overrides name = some content := by
  obtain ⟨_,_,_,_,_,_,copied,_⟩ := createTarGz_parts packed
  obtain ⟨members,ok⟩ := (addAll_mem copied).1 _ (mem_of_lookup overridden)
  obtain ⟨content,found,_⟩ := addOverride_parts ok
  refine ⟨content,?_⟩
  rw [expected,overridden]
  dsimp only
  rw [found]
  rfl

theorem file_read (packed : createTarGz tools quote world overrides = .ok archive)
    (found : (FileTree.folder world.source).find way = .file content) :
    ∃ bytes, expected world overrides (relPath way) = some bytes := by
  cases overridden : overrides.entries.lookup (relPath way) with
  | some localPath => exact override_read packed overridden
  | none =>
      obtain ⟨_,_,_,_,_,walked,_,_⟩ := createTarGz_parts packed
      obtain ⟨info,visited,shown⟩ := FileTree.found_walk [] way content _ found
      obtain ⟨members,ok⟩ := (addAll_mem walked).1 _ visited
      rw [List.nil_append] at ok
      rcases (addFile_parts ok).2 with ⟨_,rfl | skipped⟩ | ⟨bytes,rfl,_,_⟩
      · cases shown
      · exact absurd overridden skipped
      · cases shown
        have some : way ≠ [] := by
          rintro rfl
          cases found
        refine ⟨bytes,?_⟩
        rw [expected,overridden]
        dsimp only
        rw [relPath_split some (found_plain found),found]
        rfl

theorem entry_member (packed : createTarGz tools quote world overrides = .ok archive) (config : LambdaConfig) :
    (∃ m ∈ archive.members, m.place = entryWay config) ↔
      overrides.entries.lookup (relPath (entryWay config)) ≠ none ∨
        ∃ content, (FileTree.folder world.source).find (entryWay config) = .file content := by
  constructor
  · rintro ⟨m,member,place⟩
    obtain ⟨content,_,wanted⟩ := (members_expected packed m).mp member
    rw [place_split m (expected_plain wanted)] at place
    rw [← place,split_relPath]
    unfold expected at wanted
    split at wanted
    · rename_i overridden
      exact .inl (by rw [overridden]; exact nofun)
    · exact .inr ⟨_,content_file wanted⟩
  · intro there
    have wanted : ∃ content, expected world overrides (relPath (entryWay config)) = some content := by
      rcases there with overridden | ⟨content,found⟩
      · obtain ⟨localPath,same⟩ := Option.ne_none_iff_exists'.mp overridden
        exact override_read packed same
      · exact file_read packed found
    obtain ⟨content,same⟩ := wanted
    refine ⟨⟨relPath (entryWay config),some content⟩,(members_expected packed _).mpr ⟨content,rfl,same⟩,?_⟩
    have plain := expected_plain same
    have some : entryWay config ≠ [] := by
      intro none
      rw [none,relPath,String.toList_ofList] at plain
      exact (plain [] (List.mem_singleton.mpr rfl)).1 rfl
    rw [place_split ⟨relPath (entryWay config),Option.some content⟩ plain]
    dsimp only
    rw [relPath,String.toList_ofList]
    exact split_join (entryWay config) some (resolved_plain false _)

theorem packed_complete (packed : createTarGz tools quote world overrides = .ok archive) :
    Complete tools world overrides archive ↔ EntryThere tools world overrides := by
  have extracted := extracted_shipped packed
  constructor
  · intro complete
    obtain ⟨config,read,there⟩ := complete.entry
    exact ⟨config,extracted.symm.trans read,(entry_member packed config).mp there⟩
  · rintro ⟨config,shipped,there⟩
    exact ⟨names_nodup packed,members_expected packed,config,extracted.trans shipped,(entry_member packed config).mpr there⟩

end Packed

def findIn (funcDir : String) (source : FileList β) (outside : String → Found β) (path : String) : Found β :=
  if (located path.toList).1 = (located funcDir.toList).1 ∧ (located funcDir.toList).2 <+: (located path.toList).2 then
    (FileTree.folder source).find ((located path.toList).2.drop (located funcDir.toList).2.length)
  else outside path

def mount (funcDir : String) (source : FileList β) (formed : source.Formed) (outside : String → Found β) : World β where
  funcDir := funcDir
  source := source
  formed := formed
  find := findIn funcDir source outside
  mounted := by
    intro name way _ place
    unfold findIn filepathJoin
    rw [String.toList_ofList,place,if_pos ⟨rfl,List.prefix_append _ _⟩,List.drop_left]

def sourceFile : FileList LambdaConfig := .cons "f.py".toList (.file (.ok loadDefaultLambdaConfig)) .nil

theorem sourceFile_formed : sourceFile.Formed := by
  refine ⟨by decide,?_,trivial,trivial⟩
  exact List.not_mem_nil

def appConfig : LambdaConfig := ⟨⟨[⟨"*"⟩],[],[]⟩,[("OL_ENTRY_FILE","app.py")],true⟩

def beside (config : LambdaConfig) : World LambdaConfig :=
  mount "fn" sourceFile sourceFile_formed fun path => if path = "conf/my.yaml" then .file (.ok config) else .notExist

def ownConfig : Overrides where
  entries := [(lambdaConfigFilename,"conf/my.yaml")]
  keys := List.forall_mem_singleton.mpr (.inl rfl)
  distinct := List.nodup_singleton _

theorem packed_complete_own : ∃ archive, createTarGz plainTools id (beside loadDefaultLambdaConfig) ownConfig = .ok archive ∧
    Complete plainTools (beside loadDefaultLambdaConfig) ownConfig archive := by
  have packed : createTarGz plainTools id (beside loadDefaultLambdaConfig) ownConfig = .ok _ := rfl
  exact ⟨_,packed,(packed_complete packed).mpr ⟨loadDefaultLambdaConfig,rfl,.inr ⟨_,rfl⟩⟩⟩

theorem packed_without_entry : ∃ archive, createTarGz plainTools id (beside appConfig) ownConfig = .ok archive ∧
    extractConfigFromTarGz (archive.tarball plainTools) = .ok appConfig ∧ pythonEntryFile appConfig = "app.py" ∧
    archive.members.map Member.name = ["f.py","ol.yaml"] ∧ ¬Complete plainTools (beside appConfig) ownConfig archive := by
  have packed : createTarGz plainTools id (beside appConfig) ownConfig = .ok _ := rfl
  have read : extractConfigFromTarGz (Archive.tarball plainTools _) = .ok appConfig := (extracted_shipped packed).trans rfl
  refine ⟨_,packed,read,rfl,rfl,?_⟩
  intro complete
  obtain ⟨config,again,there⟩ := complete.entry
  cases read.symm.trans again
  rcases (entry_member packed appConfig).mp there with overridden | ⟨content,found⟩
  · exact overridden rfl
  · cases found

section Checked
variable {tools : Tools β} {world : World β} {archive : Archive β}

theorem mounted_name (world : World β) (plain : Plain name.toList) :
    world.find (filepathJoin world.funcDir name) = (FileTree.folder world.source).find [name.toList] :=
  world.mounted name [name.toList] (List.forall_mem_singleton.mpr plain) (below_plain _ plain)

theorem decoded_ok {failure : String} (ok : decoded tools failure content = .ok config) (other : String) :
    decoded tools other content = .ok config := by
  unfold decoded at ok ⊢
  split at ok
  · cases ok
  · exact ok

theorem config_shipped {found : Found β} (read : configOf tools found = .ok config) : shippedOf tools found = .ok config := by
  cases found with
  | notExist => exact read
  | failed | folder => cases read
  | file content => cases content with
      | error => cases read
      | ok => exact decoded_ok read _

theorem loaded_shipped (own : ∀ configOverride, overrides.entries.lookup lambdaConfigFilename = some configOverride →
      world.find (filepathJoin (filepathDir configOverride) lambdaConfigFilename) = world.find configOverride)
    (loaded : loadLambdaConfig tools (world.dir (configDir world.funcDir overrides)) = .ok lambdaConfig) :
    shippedConfig tools world overrides = .ok lambdaConfig := by
  apply config_shipped
  unfold loadLambdaConfig World.dir configDir at loaded
  unfold shippedFile
  cases overridden : overrides.entries.lookup lambdaConfigFilename with
  | none =>
      rw [overridden] at loaded
      dsimp only at loaded
      rwa [mounted_name world (by decide)] at loaded
  | some configOverride =>
      rw [overridden] at loaded
      dsimp only at loaded
      rwa [own configOverride overridden] at loaded

-- Where the check of createTarGz is enough: the override is the ol.yaml of its own
-- directory, and the entry file is not in a directory and not one itself.
theorem entry_checked (packed : createTarGz tools quote world overrides = .ok archive)
    (own : ∀ configOverride, overrides.entries.lookup lambdaConfigFilename = some configOverride →
      world.find (filepathJoin (filepathDir configOverride) lambdaConfigFilename) = world.find configOverride)
    (simple : ∀ config, shippedConfig tools world overrides = .ok config → Plain (pythonEntryFile config).toList ∧
      (FileTree.folder world.source).find [(pythonEntryFile config).toList] ≠ .folder) :
    EntryThere tools world overrides := by
  obtain ⟨lambdaConfig,_,_,loaded,there,_,_,_⟩ := createTarGz_parts packed
  have shipped := loaded_shipped own loaded
  obtain ⟨plain,file⟩ := simple lambdaConfig shipped
  have single : entryWay lambdaConfig = [(pythonEntryFile lambdaConfig).toList] := by
    rw [entryWay,split_part _ plain.2.2.2,resolve_plain false (List.forall_mem_singleton.mpr plain)]
  rw [mounted_name world plain] at there
  refine ⟨lambdaConfig,shipped,.inr ?_⟩
  rw [single]
  cases found : (FileTree.folder world.source).find [(pythonEntryFile lambdaConfig).toList] with
  | notExist => exact absurd found there
  | failed err => exact absurd found (FileList.find_name _ err world.source)
  | folder => exact absurd found file
  | file content => exact ⟨content,rfl⟩

end Checked

end OpenLambda.Admin
