import OpenLambda.Foundation.Paths
import OpenLambda.Lambda.Requirements

namespace OpenLambda.Packages
open Foundation.Lines Foundation.Paths Common Imports Requirements

def scratchDir (pkgsDir name : String) : String := filepathJoin pkgsDir name

def packageNames (inst : Installer) (installs : List String) : List String := installs.map inst.normalizePkg

-- The packages of all lambdas share a directory, so that the other package need
-- not be one of the same lambda.
structure Contained (inst : Installer) (pkgsDir : String) (names : List String) (name : String) : Prop where
  under : DirectlyUnder pkgsDir.toList (scratchDir pkgsDir name).toList
  distinct : ∀ other, inst.normalizePkg other = other → other ∈ names ∨ Plain other.toList → other ≠ name →
    scratchDir pkgsDir other ≠ scratchDir pkgsDir name

theorem scratchDir_chars (pkgsDir name : String) : (scratchDir pkgsDir name).toList = below pkgsDir.toList name.toList :=
  String.toList_ofList

theorem plain_under (pkgsDir : String) (plain : Plain name.toList) :
    DirectlyUnder pkgsDir.toList (scratchDir pkgsDir name).toList := by
  rw [scratchDir_chars]
  exact ⟨name.toList,plain,below_plain _ plain⟩

theorem plain_distinct (pkgsDir : String) (first : Plain one.toList) (second : Plain two.toList) (different : one ≠ two) :
    scratchDir pkgsDir one ≠ scratchDir pkgsDir two := by
  intro same
  have place := congrArg (located ∘ String.toList) same
  simp only [Function.comp_apply,scratchDir_chars] at place
  rw [below_plain _ first,below_plain _ second] at place
  have last := List.append_cancel_left (Prod.mk.inj place).2
  exact different (String.toList_injective (List.singleton_inj.mp last))

theorem contained_plain {inst : Installer} (lowers : LowerCase inst.toLower lower) (normal : inst.normalizePkg name = name)
    (contained : Contained inst pkgsDir names name) : Plain name.toList := by
  by_contra odd
  have under := contained.under
  rw [scratchDir_chars] at under
  obtain ⟨part,member,plain,same⟩ := under_parts under
  have other : String.ofList part ≠ name := by
    rintro rfl
    rw [String.toList_ofList] at odd
    exact odd plain
  refine contained.distinct (String.ofList part) ?_ (.inr ?_) other ?_
  · exact normalizePkg_piece lowers normal (split_chars _ part member)
  · rwa [String.toList_ofList]
  · apply String.toList_injective
    rw [scratchDir_chars,scratchDir_chars,String.toList_ofList,same]

theorem plain_contained (pkgsDir : String) (plain : ∀ name ∈ names, Plain name.toList) (member : name ∈ names) :
    Contained inst pkgsDir names name := by
  refine ⟨plain_under pkgsDir (plain name member),?_⟩
  intro other _ known different
  exact plain_distinct pkgsDir (known.elim (plain other) id) (plain name member) different

theorem map_fixed {f : Char → Char} (fixed : ∀ c ∈ text, ∀ d, f d = c ↔ d = c) : List.map f pkg = text ↔ pkg = text := by
  induction text generalizing pkg with
  | nil => exact List.map_eq_nil_iff
  | cons c text ih =>
      obtain ⟨first,others⟩ := List.forall_mem_cons.mp fixed
      cases pkg with
      | nil => exact ⟨(fun same => by cases same),(fun same => by cases same)⟩
      | cons d pkg => rw [List.map_cons,List.cons.injEq,List.cons.injEq,first d,ih others]

theorem plain_normalized {inst : Installer} (lowers : LowerCase inst.toLower lower) (pkg : List Char) :
    Plain (inst.normalizePkg (String.ofList pkg)).toList ↔ Plain pkg := by
  have dot : ∀ c, normalizeChar lower c = '.' ↔ c = '.' := normalizeChar_sign lowers (by decide) (by decide) (by decide)
  have dots : ∀ text : List Char, (∀ c ∈ text, c = '.') → (pkg.map (normalizeChar lower) = text ↔ pkg = text) := by
    intro text all
    refine map_fixed fun c member d => ?_
    rw [all c member]
    exact dot d
  have slash : '/' ∈ (inst.normalizePkg (String.ofList pkg)).toList ↔ '/' ∈ pkg :=
    normalizePkg_sign lowers (by decide) (by decide) (by decide) pkg
  rw [normalizePkg_chars lowers,String.toList_ofList] at slash ⊢
  simp only [Plain,ne_eq,List.map_eq_nil_iff,dots here (by simp [here]),dots up (by simp [up]),slash]

theorem packages_contained {inst : Installer} (lowers : LowerCase inst.toLower lower) (pkgsDir : String)
    (found : dir.openFile (filepathJoin dir.path "requirements.txt") = .file content)
    (parsed : parseMeta inst dir = .ok fn) (python : fn.sandbox.runtime = .python) :
    (∀ name ∈ packageNames inst fn.sandbox.installs,
      Contained inst pkgsDir (packageNames inst fn.sandbox.installs) name) ↔
    ∀ line ∈ scanned maxScanTokenSize content.toList, pkgOf line = [] ∨ Plain (pkgOf line) := by
  have read := parseMeta_python parsed python
  rw [found] at read
  have names : packageNames inst fn.sandbox.installs =
      (scanned maxScanTokenSize content.toList).filterMap (installOf inst) := by
    rw [← Except.ok.inj read,packageNames,scanInstalls,scan_lines,List.nil_append,List.map_filterMap]
    refine List.filterMap_congr fun line _ => ?_
    unfold installOf
    split
    · rw [Option.map_some,normalizePkg_again lowers]
    · rfl
  have plain : ∀ line, pkgOf line ≠ [] → installOf inst line = some (inst.normalizePkg (String.ofList (pkgOf line))) :=
    fun line some => if_pos some
  rw [names]
  constructor
  · intro contained line member
    by_cases empty : pkgOf line = []
    · exact .inl empty
    · right
      rw [← plain_normalized lowers]
      exact contained_plain lowers (normalizePkg_again lowers _)
        (contained _ (List.mem_filterMap.mpr ⟨line,member,plain line empty⟩))
  · intro lines name member
    refine plain_contained pkgsDir ?_ member
    intro other listed
    obtain ⟨line,source,install⟩ := List.mem_filterMap.mp listed
    have some : pkgOf line ≠ [] := by
      intro empty
      rw [installOf,if_neg (not_not.mpr empty)] at install
      cases install
    rw [plain line some] at install
    cases install
    rw [plain_normalized lowers]
    exact (lines line source).resolve_left some

theorem packages_contained_pair :
    ∃ fn, parseMeta flaskInstaller (pythonDir "Flask == 2.0 # web\nclick\n") = .ok fn ∧
      packageNames flaskInstaller fn.sandbox.installs = ["flask==2.0","click"] ∧
      ∀ name ∈ packageNames flaskInstaller fn.sandbox.installs,
        Contained flaskInstaller "/ol/packages" (packageNames flaskInstaller fn.sandbox.installs) name := by
  obtain ⟨fn,parsed,python,installs⟩ := installsOf_parts flaskInstaller "Flask == 2.0 # web\nclick\n"
  refine ⟨fn,parsed,?_,?_⟩
  · rw [installs]
    decide +kernel
  · exact (packages_contained ascii_lowers "/ol/packages" rfl parsed python).mpr (by decide +kernel)

theorem packages_escape :
    installsOf (parseMeta flaskInstaller (pythonDir "..\n./six\nsix\n")) = some ["..","./six","six"] ∧
    packageNames flaskInstaller ["..","./six","six"] = ["..","./six","six"] ∧
    scratchDir "/ol/lambda/packages" ".." = "/ol/lambda" ∧
    scratchDir "/ol/lambda/packages" "./six" = scratchDir "/ol/lambda/packages" "six" := by
  decide +kernel

end OpenLambda.Packages
