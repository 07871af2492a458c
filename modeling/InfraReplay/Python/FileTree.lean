import InfraReplay.Common.Dict

/-!
# A tree of directories and files

What `pathlib` does to the files of one machine. A path is the list of its parts, the innermost
first, so that the parent of a path is its tail, and the empty path is the root of the tree. In a
`FileTree` every node lies in a directory.

There are no links, no permissions and no limits on the length of a name, and a name holds no `NUL`:
an operation fails only over what is there or is missing on its path (`OsError`). A caller that has
limits checks them first (`OsError.nameTooLong`).
-/

namespace Python

/-- The kinds of `OSError` that a path can give. -/
inductive OsError where
  | fileNotFound
  | fileExists
  | notADirectory
  | isADirectory
  | nameTooLong
  deriving DecidableEq

/-- `os.strerror`. -/
def OsError.text : OsError → String
  | .fileNotFound => "No such file or directory"
  | .fileExists => "File exists"
  | .notADirectory => "Not a directory"
  | .isADirectory => "Is a directory"
  | .nameTooLong => "File name too long"

/-- What a path names. -/
inductive FileNode (α : Type) where
  | dir
  | file (data : α)

namespace FileNode

variable {α : Type}

def isDir : FileNode α → Bool
  | dir => true
  | file _ => false

theorem isDir_iff {node : FileNode α} : node.isDir = true ↔ node = dir := by
  cases node <;> simp [isDir]

end FileNode

/-- The node of a path, where the root is always there. -/
def nodeIn {α : Type} (nodes : Dict (List String) (FileNode α)) : List String → Option (FileNode α)
  | [] => some .dir
  | part :: parent => nodes.get? (part :: parent)

/-- Directories and files under their paths, each in a directory. -/
structure FileTree (α : Type) where
  nodes : Dict (List String) (FileNode α)
  closed : ∀ part parent node, nodeIn nodes (part :: parent) = some node →
    nodeIn nodes parent = some .dir

namespace FileTree

variable {α : Type} (t : FileTree α) {t' : FileTree α} {path : List String}

/-- Nothing but the root. -/
def empty : FileTree α where
  nodes := []
  closed _ _ _ h := nomatch h

def node? (path : List String) : Option (FileNode α) := nodeIn t.nodes path

/-- `Path.is_dir`. -/
def isDir (path : List String) : Bool := (t.node? path).any FileNode.isDir

/-- `Path.is_file`. -/
def isFile (path : List String) : Bool := (t.node? path).any fun node => !node.isDir

/-- The bytes of the file at a path. -/
def file? (path : List String) : Option α :=
  match t.node? path with
  | some (.file data) => some data
  | _ => none

/-- Look a path up from the root on. -/
def resolve : List String → Except OsError (FileNode α)
  | [] => .ok .dir
  | part :: parent =>
    match resolve parent with
    | .error e => .error e
    | .ok (.file _) => .error .notADirectory
    | .ok .dir =>
      match t.node? (part :: parent) with
      | none => .error .fileNotFound
      | some node => .ok node

variable {t}

@[simp]
theorem node?_nil : t.node? [] = some .dir := rfl

theorem isDir_iff : t.isDir path = true ↔ t.node? path = some .dir := by
  unfold isDir
  cases t.node? path with
  | none => simp
  | some node => simp [FileNode.isDir_iff]

theorem isFile_iff : t.isFile path = true ↔ ∃ data, t.node? path = some (.file data) := by
  unfold isFile
  cases t.node? path with
  | none => simp
  | some node => cases node <;> simp [FileNode.isDir]

/-- Where there is no file, there is nothing or a directory. -/
theorem node?_of_not_isFile (h : t.isFile path = false) :
    t.node? path = none ∨ t.node? path = some .dir := by
  cases hnode : t.node? path with
  | none => exact .inl rfl
  | some node =>
    cases node with
    | dir => exact .inr rfl
    | file data =>
      rw [isFile_iff.mpr ⟨data, hnode⟩] at h
      cases h

/-- The file at a path is the node there. -/
theorem file?_eq_some_iff {data : α} :
    t.file? path = some data ↔ t.node? path = some (.file data) := by
  rw [file?]
  cases t.node? path with
  | none => simp
  | some node => cases node <;> simp

theorem isFile_eq_isSome : t.isFile path = (t.file? path).isSome := by
  rw [isFile, file?]
  cases t.node? path with
  | none => rfl
  | some node => cases node <;> rfl

/-- An empty tree has no file. -/
theorem file?_empty (path : List String) : (empty : FileTree α).file? path = none := by
  cases path <;> rfl

/-- A path is not above its own parent. -/
theorem not_suffix_parent (part : String) (parent : List String) : ¬part :: parent <:+ parent := by
  intro hsuffix
  have hlength := hsuffix.length_le
  rw [List.length_cons] at hlength
  omega

/-- A node lies in a directory. -/
theorem node?_parent {part : String} {parent : List String} {node : FileNode α}
    (h : t.node? (part :: parent) = some node) : t.node? parent = some .dir :=
  t.closed part parent node h

/-- Every path above a directory is that of a directory. -/
theorem node?_dir_of_suffix {above : List String} (h : t.node? path = some .dir)
    (hsuffix : above <:+ path) : t.node? above = some .dir := by
  induction path with
  | nil =>
    rw [List.suffix_nil.mp hsuffix]
    exact h
  | cons part parent ih =>
    rcases List.suffix_cons_iff.mp hsuffix with rfl | hsuffix
    · exact h
    · exact ih (node?_parent h) hsuffix

/-- Looking a path up finds its node. -/
theorem resolve_eq_ok_iff {node : FileNode α} :
    t.resolve path = .ok node ↔ t.node? path = some node := by
  induction path generalizing node with
  | nil => simp [resolve]
  | cons part parent ih =>
    rw [resolve]
    constructor
    · intro h
      split at h
      · cases h
      · cases h
      · split at h
        · cases h
        · next hnode => rw [hnode, Except.ok.inj h]
    · intro h
      rw [ih.mpr (node?_parent h), h]

/-! ### Putting a node into a directory -/

/-- The nodes after one of them is set. -/
theorem nodeIn_set (nodes : Dict (List String) (FileNode α)) (part : String)
    (parent path : List String) (node : FileNode α) :
    nodeIn (nodes.set (part :: parent) node) path =
      if path = part :: parent then some node else nodeIn nodes path := by
  cases path with
  | nil => rw [nodeIn, if_neg (List.cons_ne_nil _ _).symm, nodeIn]
  | cons part' parent' =>
    rw [nodeIn, Dict.get?_set, nodeIn]
    exact if_congr eq_comm rfl rfl

variable (t) in
/-- The tree with a node in a directory, in place of a file or of nothing. -/
def insert (part : String) (parent : List String) (node : FileNode α)
    (hparent : t.isDir parent = true) (hfree : t.isDir (part :: parent) = false) : FileTree α where
  nodes := t.nodes.set (part :: parent) node
  closed part' parent' node' h := by
    rw [nodeIn_set] at h ⊢
    -- nothing lies in a node that is not a directory
    have hne : ∀ node', t.node? (part' :: parent') = some node' → parent' ≠ part :: parent := by
      rintro node' hnode' rfl
      rw [isDir_iff.mpr (node?_parent hnode')] at hfree
      cases hfree
    have hself : parent ≠ part :: parent := (List.cons_ne_self part parent).symm
    split_ifs at h with heq
    · rw [(List.cons.inj heq).2, if_neg hself]
      exact isDir_iff.mp hparent
    · rw [if_neg (hne node' h)]
      exact node?_parent h

/-- Making a node changes its own path only. -/
theorem node?_insert {part : String} {parent : List String} {node : FileNode α}
    {hparent : t.isDir parent = true} {hfree : t.isDir (part :: parent) = false}
    (path : List String) :
    (t.insert part parent node hparent hfree).node? path =
      if path = part :: parent then some node else t.node? path :=
  nodeIn_set t.nodes part parent path node

/-! ### The operations -/

variable (t)

/-- What is raised when a node cannot be put where the path leads, if a directory is there. -/
def blocked (parent : List String) (taken : OsError) : OsError :=
  match t.resolve parent with
  | .error e => e
  | .ok (.file _) => .notADirectory
  | .ok .dir => taken

/-- `os.mkdir`. -/
def osMkdir : List String → Except OsError (FileTree α)
  | [] => .error .fileExists
  | part :: parent =>
    if h : t.isDir parent = true ∧ t.node? (part :: parent) = none then
      .ok (t.insert part parent .dir h.1 (by simp [isDir, h.2]))
    else .error (t.blocked parent .fileExists)

/-- `Path.mkdir(exist_ok=True)`. -/
def mkdir (path : List String) : Except OsError (FileTree α) :=
  match t.osMkdir path with
  | .ok t' => .ok t'
  | .error .fileNotFound => .error .fileNotFound
  | .error e => if t.isDir path = true then .ok t else .error e

/-- `Path.mkdir(parents=True, exist_ok=True)`. -/
def mkdirs : List String → Except OsError (FileTree α)
  | [] => t.mkdir []
  | part :: parent =>
    match t.mkdir (part :: parent) with
    | .error .fileNotFound =>
      match mkdirs parent with
      | .error e => .error e
      | .ok t' => t'.mkdir (part :: parent)
    | result => result

/-- `Path.write_bytes`. -/
def writeBytes (data : α) : List String → Except OsError (FileTree α)
  | [] => .error .isADirectory
  | part :: parent =>
    if h : t.isDir parent = true ∧ t.isDir (part :: parent) = false then
      .ok (t.insert part parent (.file data) h.1 h.2)
    else .error (t.blocked parent .isADirectory)

variable {t}

/-! ### What they do -/

/-- `mkdir` succeeds on a free path below a directory, and makes that directory only. -/
theorem osMkdir_eq_ok (h : t.osMkdir path = .ok t') :
    t.node? path = none ∧ t.node? path.tail = some .dir ∧
      ∀ p, t'.node? p = if p = path then some .dir else t.node? p := by
  cases path with
  | nil => cases h
  | cons part parent =>
    rw [osMkdir] at h
    split_ifs at h with hfree
    cases h
    exact ⟨hfree.2, isDir_iff.mp hfree.1, node?_insert⟩

/-- A directory is there afterwards, where it was before or where nothing was. -/
theorem mkdir_eq_ok (h : t.mkdir path = .ok t') :
    (t.node? path = none ∨ t.node? path = some .dir) ∧ t.node? path.tail = some .dir ∧
      ∀ p, t'.node? p = if p = path then some .dir else t.node? p := by
  rw [mkdir] at h
  split at h
  · next hmade =>
    cases h
    obtain ⟨hnone, hparent, hnodes⟩ := osMkdir_eq_ok hmade
    exact ⟨.inl hnone, hparent, hnodes⟩
  · cases h
  · split_ifs at h with hdir
    cases h
    rw [isDir_iff] at hdir
    -- `FileExistsError` on a directory is passed over (`exist_ok`)
    refine ⟨.inr hdir, ?_, fun p => ?_⟩
    · cases path with
      | nil => rfl
      | cons part parent => exact node?_parent hdir
    · split_ifs with heq
      · rw [heq, hdir]
      · rfl

/-- Nothing is new but directories, on the way to the path and where nothing was. -/
theorem mkdirs_eq_ok (h : t.mkdirs path = .ok t') :
    (∀ p, p <:+ path → t.node? p = none ∨ t.node? p = some .dir) ∧
      ∀ p, t'.node? p = if p <:+ path then some .dir else t.node? p := by
  induction path generalizing t' with
  | nil =>
    obtain ⟨hnode, -, hnodes⟩ := mkdir_eq_ok h
    refine ⟨fun p hp => ?_, fun p => ?_⟩
    · rwa [List.suffix_nil.mp hp]
    · rw [hnodes]
      exact if_congr List.suffix_nil.symm rfl rfl
  | cons part parent ih =>
    -- the parent is made first where it is missing
    obtain ⟨t₁, habove, hmade, hlast⟩ : ∃ t₁ : FileTree α,
        (∀ p, p <:+ parent → t.node? p = none ∨ t.node? p = some .dir) ∧
          (∀ p, t₁.node? p = if p <:+ parent then some .dir else t.node? p) ∧
            t₁.mkdir (part :: parent) = .ok t' := by
      rw [mkdirs] at h
      split at h
      · split at h
        · cases h
        · next t₁ hparent => exact ⟨t₁, (ih hparent).1, (ih hparent).2, h⟩
      · obtain ⟨-, hparent, -⟩ := mkdir_eq_ok h
        have hdirs : ∀ p, p <:+ parent → t.node? p = some .dir :=
          fun p hp => node?_dir_of_suffix hparent hp
        refine ⟨t, fun p hp => .inr (hdirs p hp), fun p => ?_, h⟩
        split_ifs with hp
        · exact hdirs p hp
        · rfl
    obtain ⟨hnode, -, hnodes⟩ := mkdir_eq_ok hlast
    rw [hmade, if_neg (not_suffix_parent part parent)] at hnode
    refine ⟨fun p hp => ?_, fun p => ?_⟩
    · rcases List.suffix_cons_iff.mp hp with rfl | hp
      · exact hnode
      · exact habove p hp
    · rw [hnodes, hmade, ← ite_or]
      exact if_congr List.suffix_cons_iff.symm rfl rfl

/-- A file that is written holds the data, and no other node changes. -/
theorem writeBytes_eq_ok {data : α} (h : t.writeBytes data path = .ok t') :
    t.node? path ≠ some .dir ∧
      ∀ p, t'.node? p = if p = path then some (.file data) else t.node? p := by
  cases path with
  | nil => cases h
  | cons part parent =>
    rw [writeBytes] at h
    split_ifs at h with hfree
    cases h
    refine ⟨fun hdir => ?_, node?_insert⟩
    rw [isDir_iff.mpr hdir] at hfree
    cases hfree.2

/-! ### When they succeed -/

/-- Where no file is in the way, a path that leads nowhere is just missing. -/
theorem resolve_of_node?_eq_none (hfile : ∀ p, p <:+ path → t.isFile p = false)
    (h : t.node? path = none) : t.resolve path = .error .fileNotFound := by
  induction path with
  | nil => cases h
  | cons part parent ih =>
    have habove : ∀ p, p <:+ parent → t.isFile p = false :=
      fun p hp => hfile p (hp.trans (List.suffix_cons part parent))
    rw [resolve]
    -- the first directory that is missing is what is reported
    rcases node?_of_not_isFile (habove parent List.suffix_rfl) with hparent | hparent
    · rw [ih habove hparent]
    · rw [resolve_eq_ok_iff.mpr hparent]
      simp only [h]

/-- A directory can be made below another, unless a file has its name. -/
theorem exists_mkdir {part : String} {parent : List String}
    (hparent : t.node? parent = some .dir) (hfile : t.isFile (part :: parent) = false) :
    ∃ t', t.mkdir (part :: parent) = .ok t' := by
  rcases node?_of_not_isFile hfile with hnode | hnode
  · have hmade : t.osMkdir (part :: parent) = .ok _ := dif_pos ⟨isDir_iff.mpr hparent, hnode⟩
    exact ⟨_, by rw [mkdir, hmade]⟩
  · -- `exist_ok`
    have htaken : t.osMkdir (part :: parent) = .error .fileExists := by
      rw [osMkdir, dif_neg (by simp [hnode]), blocked, resolve_eq_ok_iff.mpr hparent]
    exact ⟨t, by simp only [mkdir, htaken, isDir_iff.mpr hnode, if_pos]⟩

/-- The directories of a path can be made, unless one of them is a file. -/
theorem exists_mkdirs (hfile : ∀ p, p <:+ path → t.isFile p = false) :
    ∃ t', t.mkdirs path = .ok t' := by
  induction path with
  | nil => exact ⟨t, rfl⟩
  | cons part parent ih =>
    have habove : ∀ p, p <:+ parent → t.isFile p = false :=
      fun p hp => hfile p (hp.trans (List.suffix_cons part parent))
    have hself : t.isFile (part :: parent) = false := hfile _ List.suffix_rfl
    rcases node?_of_not_isFile (habove parent List.suffix_rfl) with hparent | hparent
    · -- the parent is made first
      obtain ⟨t₁, hmade⟩ := ih habove
      obtain ⟨-, hnodes⟩ := mkdirs_eq_ok hmade
      have hself₁ : t₁.isFile (part :: parent) = false := by
        rwa [isFile, hnodes, if_neg (not_suffix_parent part parent)]
      obtain ⟨t', hlast⟩ := exists_mkdir (by rw [hnodes, if_pos List.suffix_rfl]) hself₁
      have hmissing : t.mkdir (part :: parent) = .error .fileNotFound := by
        have hraised : t.osMkdir (part :: parent) = .error .fileNotFound := by
          rw [osMkdir, dif_neg (by simp [isDir, hparent]), blocked,
            resolve_of_node?_eq_none habove hparent]
        rw [mkdir, hraised]
      exact ⟨t', by simp only [mkdirs, hmissing, hmade, hlast]⟩
    · obtain ⟨t', hmade⟩ := exists_mkdir hparent hself
      exact ⟨t', by rw [mkdirs, hmade]⟩

/-- A file can be written in a directory, unless a directory has its name. -/
theorem exists_writeBytes {part : String} {parent : List String} (data : α)
    (hparent : t.node? parent = some .dir) (hdir : t.node? (part :: parent) ≠ some .dir) :
    ∃ t', t.writeBytes data (part :: parent) = .ok t' := by
  have hfree : t.isDir (part :: parent) = false := by
    rw [← Bool.not_eq_true, isDir_iff]
    exact hdir
  exact ⟨_, dif_pos ⟨isDir_iff.mpr hparent, hfree⟩⟩

end FileTree

end Python
