import KafkaCli.Lib.Text
import Mathlib.Data.List.Destutter
import Mathlib.Data.List.Sort
import Mathlib.Data.String.Basic

/-!
# The server configuration

What the storage tool reads from the server's properties: the roles of the process, the
directories of its logs, and which of them holds the metadata log.
-/

namespace KafkaCli.Storage

open Text

/-- Properties that are only looked up. -/
abbrev Properties := String → Option String

/-- The elements of a comma-separated list, without the empty ones. -/
def commaList (value : String) : List String := ((split value ',').map trim).filter (· ≠ "")

/-- A path with one more component. -/
def joinPath (directory name : String) : String :=
  if directory = "" then name
  else if endsWith directory "/" then directory ++ name
  else directory ++ "/" ++ name

def processRoles (props : Properties) : List String :=
  (props "process.roles").elim [] commaList

/-- The configured directories, in the order they are given. -/
def configuredDirectories (props : Properties) : List String :=
  let directories := ((props "log.dirs").or (props "log.dir")).elim [] commaList
  match props "metadata.log.dir" with
  | none => directories
  | some metadata =>
    if trim metadata ≠ "" ∧ trim metadata ∉ directories then directories ++ [trim metadata]
    else directories

/-- Sort, then drop what repeats the element before it. -/
def sortDedup (directories : List String) : List String :=
  (directories.insertionSort (· ≤ ·)).destutter (· ≠ ·)

def logDirectories (props : Properties) : List String := sortDedup (configuredDirectories props)

/-- The directory of the metadata log, as `storage_format` finds it. -/
def metadataLogDir (props : Properties) : Option String :=
  (((props "metadata.log.dir").map trim).filter (· ≠ "")).or (logDirectories props).head?

/-- The directory is the one that a controller's bootstrap artifacts are written to. -/
def isBootstrapDirectory (props : Properties) (directory : String) : Bool :=
  "controller" ∈ processRoles props ∧ metadataLogDir props = some directory

/-- The directory that `storage_format` writes the bootstrap artifacts to. -/
def bootstrapDirectory (props : Properties) : Option String :=
  (logDirectories props).find? (isBootstrapDirectory props)

/-! ## The list of directories -/

theorem mem_commaList {value directory : String} :
    directory ∈ commaList value ↔
      directory ≠ "" ∧ ∃ piece ∈ split value ',', trim piece = directory := by
  simp [commaList, and_comm]

theorem trim_of_mem_commaList {value directory : String} (h : directory ∈ commaList value) :
    trim directory = directory := by
  obtain ⟨-, piece, -, rfl⟩ := mem_commaList.1 h
  exact trim_trim piece

/-- A configured directory has a name without white space around it. -/
theorem solid_of_mem_configured {props : Properties} {directory : String}
    (h : directory ∈ configuredDirectories props) :
    directory ≠ "" ∧ trim directory = directory := by
  have hlist : ∀ value : Option String, directory ∈ value.elim [] commaList →
      directory ≠ "" ∧ trim directory = directory := by
    intro value hmem
    cases value with
    | none => exact absurd hmem List.not_mem_nil
    | some value => exact ⟨(mem_commaList.1 hmem).1, trim_of_mem_commaList hmem⟩
  unfold configuredDirectories at h
  cases hmetadata : props "metadata.log.dir" with
  | none =>
    simp only [hmetadata] at h
    exact hlist _ h
  | some metadata =>
    simp only [hmetadata] at h
    split_ifs at h with hnew
    · rcases List.mem_append.1 h with h | h
      · exact hlist _ h
      · rw [List.mem_singleton] at h
        exact h ▸ ⟨hnew.1, trim_trim metadata⟩
    · exact hlist _ h

theorem mem_destutter'_ne {x : String} {l : List String} {first : String} :
    x ∈ l.destutter' (· ≠ ·) first ↔ x = first ∨ x ∈ l := by
  induction l generalizing first with
  | nil => simp
  | cons y l ih =>
    by_cases hy : first = y
    · rw [List.destutter'_cons_neg _ (by simpa using hy), ih, List.mem_cons, hy]
      tauto
    · rw [List.destutter'_cons_pos _ hy, List.mem_cons, ih, List.mem_cons]

theorem mem_sortDedup {directory : String} {l : List String} :
    directory ∈ sortDedup l ↔ directory ∈ l := by
  rw [sortDedup, ← List.mem_insertionSort (· ≤ ·) (l := l)]
  cases l.insertionSort (· ≤ ·) with
  | nil => rfl
  | cons first rest => rw [List.destutter_cons', mem_destutter'_ne, List.mem_cons]

theorem head?_destutter' (l : List String) (first : String) :
    (l.destutter' (· ≠ ·) first).head? = some first := by
  induction l with
  | nil => rfl
  | cons y l ih =>
    rw [List.destutter'_cons]
    split_ifs
    · rfl
    · exact ih

/-- The first directory of the sorted list is the least one. -/
theorem head?_sortDedup {directory : String} {l : List String} :
    (sortDedup l).head? = some directory ↔ directory ∈ l ∧ ∀ other ∈ l, directory ≤ other := by
  have hsorted := List.pairwise_insertionSort (· ≤ ·) l
  have hmem : ∀ x, x ∈ l.insertionSort (· ≤ ·) ↔ x ∈ l := fun x => List.mem_insertionSort _
  simp only [← hmem, sortDedup]
  cases hl : l.insertionSort (· ≤ ·) with
  | nil => simp
  | cons first rest =>
    rw [hl, List.pairwise_cons] at hsorted
    rw [List.destutter_cons', head?_destutter', Option.some.injEq]
    refine ⟨?_, ?_⟩
    · intro h
      subst h
      exact ⟨List.mem_cons_self, List.forall_mem_cons.2 ⟨le_refl _, hsorted.1⟩⟩
    · intro ⟨hdirectory, hleast⟩
      refine le_antisymm ?_ (hleast first List.mem_cons_self)
      rcases List.mem_cons.1 hdirectory with heq | hrest
      · exact heq.ge
      · exact hsorted.1 directory hrest

/-- A metadata directory of its own is one of the configured directories. -/
theorem trim_mem_configured {props : Properties} {metadata : String}
    (hmetadata : props "metadata.log.dir" = some metadata) (hne : trim metadata ≠ "") :
    trim metadata ∈ configuredDirectories props := by
  simp only [configuredDirectories, hmetadata]
  split_ifs with hnew
  · exact List.mem_append_right _ (List.mem_singleton_self _)
  · by_contra hmem
    exact hnew ⟨hne, hmem⟩

theorem mem_logDirectories {props : Properties} {directory : String} :
    directory ∈ logDirectories props ↔ directory ∈ configuredDirectories props :=
  mem_sortDedup

theorem metadataLogDir_of_some {props : Properties} {metadata : String}
    (hmetadata : props "metadata.log.dir" = some metadata) :
    metadataLogDir props =
      if trim metadata ≠ "" then some (trim metadata) else (logDirectories props).head? := by
  rw [metadataLogDir, hmetadata, Option.map_some, Option.filter_some]
  split_ifs <;> simp_all

theorem metadataLogDir_of_none {props : Properties} (hmetadata : props "metadata.log.dir" = none) :
    metadataLogDir props = (logDirectories props).head? := by
  simp [metadataLogDir, hmetadata]

theorem metadataLogDir_mem {props : Properties} {directory : String}
    (h : metadataLogDir props = some directory) : directory ∈ logDirectories props := by
  cases hmetadata : props "metadata.log.dir" with
  | none =>
    rw [metadataLogDir_of_none hmetadata] at h
    exact List.mem_of_mem_head? h
  | some metadata =>
    rw [metadataLogDir_of_some hmetadata] at h
    split_ifs at h with hne
    · cases h
      exact mem_logDirectories.2 (trim_mem_configured hmetadata hne)
    · exact List.mem_of_mem_head? h

/-- A controller's artifacts are written to the directory of the metadata log. -/
theorem bootstrapDirectory_eq {props : Properties} (hrole : "controller" ∈ processRoles props) :
    bootstrapDirectory props = metadataLogDir props := by
  cases hdir : metadataLogDir props with
  | none => simp [bootstrapDirectory, isBootstrapDirectory, hdir]
  | some directory =>
    have hmem := metadataLogDir_mem hdir
    have hall : ∀ x, isBootstrapDirectory props x = true ↔ directory = x := by
      intro x
      simp [isBootstrapDirectory, hrole, hdir]
    cases hfind : bootstrapDirectory props with
    | none =>
      have hnot := List.find?_eq_none.1 hfind directory hmem
      exact absurd ((hall directory).2 rfl) hnot
    | some found =>
      rw [(hall found).1 (List.find?_some hfind)]

end KafkaCli.Storage
