import Mathlib.Data.List.Infix
import Mathlib.Logic.Function.Basic
import Mathlib.Order.Defs.Unbundled

/-!
# Trees of files

A path is the list of its components from the root. A `Tree` says what is at each path; that
everything lies in a directory is part of it. The operations are those of an operating system,
with the errors that the shape of the tree gives rise to.

Three relations say how an operation changes a tree.

* `Keeps may` — nothing disappears or changes kind, and only files at a path with `may` change
  their contents.
* `OnlyDirectories may` — the trees differ in new directories only, at paths with `may`.
* `NewFiles may` — only at paths with `may` there is a file where there was none.
-/

namespace KafkaCli.FileTree

/-- The components of a path, from the root. -/
abbrev Path := List String

inductive Node
  | directory
  | file (bytes : List UInt8)
  deriving DecidableEq, Repr

inductive IoError
  | notFound | alreadyExists | notADirectory | isADirectory
  deriving DecidableEq, Repr

def IoError.text : IoError → String
  | .notFound => "No such file or directory (os error 2)"
  | .alreadyExists => "File exists (os error 17)"
  | .notADirectory => "Not a directory (os error 20)"
  | .isADirectory => "Is a directory (os error 21)"

/-- What is at each path. The root is a directory, and so is the parent of every path at which
there is something. -/
@[ext] structure Tree where
  node : Path → Option Node
  root : node [] = some .directory
  parent : ∀ path name, node (path ++ [name]) ≠ none → node path = some .directory

namespace Tree

/-- The tree of an empty root directory. -/
def empty : Tree where
  node path := if path = [] then some .directory else none
  root := rfl
  parent path name h := by simp at h

def exists? (tree : Tree) (path : Path) : Bool := (tree.node path).isSome

def isDirectory (tree : Tree) (path : Path) : Bool := tree.node path = some .directory

def isFile (tree : Tree) (path : Path) : Bool := (tree.node path).any (· ≠ .directory)

/-- The contents of a file. -/
def read (tree : Tree) (path : Path) : Except IoError (List UInt8) :=
  match tree.node path with
  | some (.file bytes) => .ok bytes
  | some .directory => .error .isADirectory
  | none => .error .notFound

/-- Whatever has something below it is a directory. -/
theorem node_of_prefix {tree : Tree} {path longer : Path} (h : path <+: longer)
    (hnode : tree.node longer ≠ none) : path = longer ∨ tree.node path = some .directory := by
  induction longer using List.reverseRecOn with
  | nil => exact .inl (List.prefix_nil.1 h)
  | append_singleton longer name ih =>
    rcases List.prefix_concat_iff.1 h with heq | hunder
    · exact .inl heq
    · have hdir := tree.parent longer name hnode
      rcases ih hunder (by simp [hdir]) with heq | hpath
      · exact .inr (heq ▸ hdir)
      · exact .inr hpath

/-! ## Creating directories -/

/-- The directories from the root to a path are made where there is nothing. -/
def withDirectories (tree : Tree) (path : Path)
    (h : ∀ q, q <+: path → tree.isFile q = false) : Tree where
  node q := if q <+: path ∧ tree.node q = none then some .directory else tree.node q
  root := by simp [tree.root]
  parent q name hnode := by
    by_cases hq : q <+: path ∧ tree.node q = none
    · rw [if_pos hq]
    · rw [if_neg hq]
      by_cases hnew : q ++ [name] <+: path ∧ tree.node (q ++ [name]) = none
      · have hunder : q <+: path := (List.prefix_append q [name]).trans hnew.1
        have hfile := h q hunder
        cases hqnode : tree.node q with
        | none => exact absurd ⟨hunder, hqnode⟩ hq
        | some node =>
          rw [isFile, hqnode] at hfile
          simpa using hfile
      · rw [if_neg hnew] at hnode
        exact tree.parent q name hnode

/-- Make a directory and those above it. -/
def createDirAll (tree : Tree) (path : Path) : Except IoError Tree :=
  if h : ∀ q ∈ path.inits, tree.isFile q = false then
    .ok (tree.withDirectories path fun q hq => h q ((List.mem_inits q path).2 hq))
  else if tree.isFile path then .error .alreadyExists
  else .error .notADirectory

theorem createDirAll_ok {tree tree' : Tree} {path : Path} (h : tree.createDirAll path = .ok tree') :
    (∀ q, q <+: path → tree.isFile q = false) ∧
      ∀ q, tree'.node q =
        if q <+: path ∧ tree.node q = none then some .directory else tree.node q := by
  unfold createDirAll at h
  split_ifs at h with hfiles
  cases h
  exact ⟨fun q hq => hfiles q ((List.mem_inits q path).2 hq), fun q => rfl⟩

/-- A directory that was made is there. -/
theorem isDirectory_of_createDirAll {tree tree' : Tree} {path : Path}
    (h : tree.createDirAll path = .ok tree') : tree'.node path = some .directory := by
  obtain ⟨hfiles, hnode⟩ := createDirAll_ok h
  rw [hnode]
  cases hpath : tree.node path with
  | none => simp
  | some node =>
    have hfile := hfiles path List.prefix_rfl
    rw [isFile, hpath] at hfile
    simpa using hfile

/-! ## Writing files -/

/-- A file with these contents, in a directory that is there. -/
def withFile (tree : Tree) (path : Path) (bytes : List UInt8)
    (hparent : tree.node path.dropLast = some .directory)
    (hpath : tree.node path ≠ some .directory) : Tree where
  node := Function.update tree.node path (some (.file bytes))
  root := by
    rw [Function.update_of_ne, tree.root]
    intro hroot
    exact hpath (hroot ▸ tree.root)
  parent q name hnode := by
    by_cases hname : q ++ [name] = path
    · have hq : q = path.dropLast := by rw [← hname, List.dropLast_concat]
      have hne : q ≠ path := fun heq => by
        have hlength := congrArg List.length (heq.trans hname.symm)
        simp at hlength
      rw [Function.update_of_ne hne, hq, hparent]
    · rw [Function.update_of_ne hname] at hnode
      have hdir := tree.parent q name hnode
      have hne : q ≠ path := fun heq => hpath (heq ▸ hdir)
      rw [Function.update_of_ne hne, hdir]

/-- Make a file or replace the contents of one. -/
def writeFile (tree : Tree) (path : Path) (bytes : List UInt8) : Except IoError Tree :=
  if hpath : tree.node path = some .directory then .error .isADirectory
  else if hparent : tree.node path.dropLast = some .directory then
    .ok (tree.withFile path bytes hparent hpath)
  else if tree.isFile path.dropLast then .error .notADirectory
  else .error .notFound

theorem writeFile_ok {tree tree' : Tree} {path : Path} {bytes : List UInt8}
    (h : tree.writeFile path bytes = .ok tree') :
    tree.node path ≠ some .directory ∧
      tree'.node = Function.update tree.node path (some (.file bytes)) := by
  unfold writeFile at h
  split_ifs at h with hpath hparent
  cases h
  exact ⟨hpath, rfl⟩

theorem writeFile_eq_ok {tree : Tree} {path : Path} {name : String} (bytes : List UInt8)
    (hparent : tree.node path = some .directory) (hnone : tree.node (path ++ [name]) = none) :
    ∃ tree', tree.writeFile (path ++ [name]) bytes = .ok tree' := by
  unfold writeFile
  rw [dif_neg (by simp [hnone]), dif_pos (by rwa [List.dropLast_concat])]
  exact ⟨_, rfl⟩

/-! ## How trees change -/

/-- Nothing disappears or changes kind, and only files at a path with `may` change. -/
def Keeps (may : Path → Prop) (tree tree' : Tree) : Prop :=
  ∀ path node, tree.node path = some node →
    tree'.node path = some node ∨
      (may path ∧ node ≠ .directory ∧ ∃ bytes, tree'.node path = some (.file bytes))

instance (may : Path → Prop) : IsPreorder Tree (Keeps may) where
  refl _ _ _ h := .inl h
  trans tree₁ tree₂ tree₃ h₁ h₂ path node hnode := by
    rcases h₁ path node hnode with h | ⟨hmay, hne, bytes, h⟩
    · exact h₂ path node h
    · rcases h₂ path _ h with h' | ⟨-, -, h'⟩
      · exact .inr ⟨hmay, hne, bytes, h'⟩
      · exact .inr ⟨hmay, hne, h'⟩

/-- The trees differ in new directories only, at paths with `may`. -/
def OnlyDirectories (may : Path → Prop) (tree tree' : Tree) : Prop :=
  ∀ path, tree'.node path = tree.node path ∨
    (tree.node path = none ∧ tree'.node path = some .directory ∧ may path)

instance (may : Path → Prop) : IsPreorder Tree (OnlyDirectories may) where
  refl _ _ := .inl rfl
  trans tree₁ tree₂ tree₃ h₁ h₂ path := by
    rcases h₁ path with h | ⟨hnone, hdir, hmay⟩
    · rw [← h]
      exact h₂ path
    · rcases h₂ path with h | ⟨hnone', -, -⟩
      · exact .inr ⟨hnone, h.trans hdir, hmay⟩
      · rw [hdir] at hnone'
        cases hnone'

theorem Keeps.mono {may may' : Path → Prop} {tree tree' : Tree} (h : Keeps may tree tree')
    (hmay : ∀ path, may path → may' path) : Keeps may' tree tree' := by
  intro path node hnode
  rcases h path node hnode with hsame | ⟨hpath, hrest⟩
  · exact .inl hsame
  · exact .inr ⟨hmay path hpath, hrest⟩

/-- What may not change keeps its contents. -/
theorem Keeps.node_eq {may : Path → Prop} {tree tree' : Tree} (h : Keeps may tree tree')
    {path : Path} {node : Node} (hnode : tree.node path = some node) (hmay : ¬ may path) :
    tree'.node path = some node := by
  rcases h path node hnode with hsame | ⟨hpath, -⟩
  · exact hsame
  · exact absurd hpath hmay

theorem Keeps.isDirectory {may : Path → Prop} {tree tree' : Tree} (h : Keeps may tree tree')
    {path : Path} (hnode : tree.node path = some .directory) :
    tree'.node path = some .directory := by
  rcases h path _ hnode with hsame | ⟨-, hne, -⟩
  · exact hsame
  · exact absurd rfl hne

theorem OnlyDirectories.keeps {may may' : Path → Prop} {tree tree' : Tree}
    (h : OnlyDirectories may tree tree') : Keeps may' tree tree' := by
  intro path node hnode
  rcases h path with hsame | ⟨hnone, -⟩
  · exact .inl (hsame.trans hnode)
  · rw [hnode] at hnone
    cases hnone

theorem OnlyDirectories.mono {may may' : Path → Prop} {tree tree' : Tree}
    (h : OnlyDirectories may tree tree') (hmay : ∀ path, may path → may' path) :
    OnlyDirectories may' tree tree' := by
  intro path
  rcases h path with hsame | ⟨hnone, hdir, hpath⟩
  · exact .inl hsame
  · exact .inr ⟨hnone, hdir, hmay path hpath⟩

/-- New directories only, also from any tree on the way. -/
theorem OnlyDirectories.of_keeps {may may' may'' : Path → Prop} {tree tree₁ tree' : Tree}
    (h : OnlyDirectories may tree tree') (h₁ : OnlyDirectories may' tree tree₁)
    (h₂ : Keeps may'' tree₁ tree') : OnlyDirectories may tree₁ tree' := by
  intro path
  rcases h₁ path with hsame₁ | ⟨-, hdir₁, -⟩
  · rw [hsame₁]
    exact h path
  · exact .inl ((h₂.isDirectory hdir₁).trans hdir₁.symm)

theorem onlyDirectories_of_createDirAll {tree tree' : Tree} {path : Path}
    (h : tree.createDirAll path = .ok tree') : OnlyDirectories (· <+: path) tree tree' := by
  intro q
  rw [(createDirAll_ok h).2 q]
  split_ifs with hnew
  · exact .inr ⟨hnew.2, rfl, hnew.1⟩
  · exact .inl rfl

theorem keeps_of_writeFile {tree tree' : Tree} {path : Path} {bytes : List UInt8}
    (h : tree.writeFile path bytes = .ok tree') : Keeps (· = path) tree tree' := by
  obtain ⟨hpath, hnode'⟩ := writeFile_ok h
  intro q node hnode
  by_cases hq : q = path
  · subst hq
    refine .inr ⟨rfl, fun hdir => hpath (hdir ▸ hnode), bytes, ?_⟩
    rw [hnode', Function.update_self]
  · refine .inl ?_
    rw [hnode', Function.update_of_ne hq, hnode]

/-- A file was there before, or its path has `may`. -/
def NewFiles (may : Path → Prop) (tree tree' : Tree) : Prop :=
  ∀ path, tree'.isFile path = true → tree.isFile path = true ∨ may path

instance (may : Path → Prop) : IsPreorder Tree (NewFiles may) where
  refl _ _ h := .inl h
  trans tree₁ tree₂ tree₃ h₁ h₂ path hfile := by
    rcases h₂ path hfile with hfile₂ | hmay
    · exact h₁ path hfile₂
    · exact .inr hmay

theorem OnlyDirectories.newFiles {may may' : Path → Prop} {tree tree' : Tree}
    (h : OnlyDirectories may tree tree') : NewFiles may' tree tree' := by
  intro path hfile
  rcases h path with hsame | ⟨-, hdir, -⟩
  · rw [isFile, hsame] at hfile
    exact .inl hfile
  · rw [isFile, hdir] at hfile
    simp at hfile

theorem newFiles_of_writeFile {tree tree' : Tree} {path : Path} {bytes : List UInt8}
    {may : Path → Prop} (h : tree.writeFile path bytes = .ok tree') (hmay : may path) :
    NewFiles may tree tree' := by
  intro q hfile
  by_cases hq : q = path
  · exact .inr (hq ▸ hmay)
  · rw [isFile, (writeFile_ok h).2, Function.update_of_ne hq] at hfile
    exact .inl hfile

end Tree

end KafkaCli.FileTree
