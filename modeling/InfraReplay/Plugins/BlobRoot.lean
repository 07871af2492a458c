import InfraReplay.Errors
import InfraReplay.Plugins.StorageFs
import InfraReplay.Python.Value
import Mathlib.Data.List.Infix

/-!
# The files below the blob root

`put_blob` as one step, on the tree of files below the root. It makes the directories above a file
and writes the file, within what the file system takes (`FileLimits`); a call that raises half way
may leave directories behind. A call returns exactly when the file system takes the path and
nothing is in its way (`put_isOk_iff`), and only a call that returns changes a document
(`put_eq_ok`, `put_eq_error`).
-/

namespace InfraReplay

open Python

/-- What the file system takes. -/
structure FileLimits where
  /-- The name of a file or of a directory. -/
  name : String → Bool
  /-- A path below the root, as a whole. -/
  path : List String → Bool

/-- The bytes of a name. -/
def byteLength (part : String) : ℕ := part.toList.foldl (fun n c => n + c.utf8Size) 0

/-- Linux: names of at most 255 bytes, and paths of less than 4096 with the root before them. -/
def FileLimits.linux (root : String) : FileLimits where
  name part := decide (byteLength part ≤ 255)
  path parts :=
    decide (parts.foldl (fun n part => n + 1 + byteLength part) (byteLength root) < 4096)

/-- A name with a `NUL` in it, which no system call takes. -/
def hasNul (part : String) : Bool := part.toList.any fun c => decide (c = '\x00')

/-- The files below the root. A path is the list of its parts, the outermost first. -/
structure BlobRoot where
  tree : FileTree Value
  limits : FileLimits

namespace BlobRoot

/-- Nothing below the default root. -/
def empty : BlobRoot where
  tree := .empty
  limits := .linux "data/blobs"

/-- The document in a file. -/
def file? (b : BlobRoot) (path : List String) : Option Value := b.tree.file? path.reverse

/-- `path.parent.mkdir(parents=True, exist_ok=True)`: the directories down to the first name that is
refused are made, unless a file is among them. -/
def makeDirs (b : BlobRoot) (path : List String) : Except Error Unit × BlobRoot :=
  if path.any hasNul then (.error (.valueError "mkdir: embedded null character in path"), b)
  else if b.limits.path path = false then (.error (.osError .nameTooLong), b)
  else
    match b.tree.mkdirs (path.takeWhile b.limits.name).reverse with
    | .ok t =>
      (if path.all b.limits.name then .ok () else .error (.osError .nameTooLong),
        { b with tree := t })
    -- the file is above the name that would be refused
    | .error e => (.error (.osError (if path.all b.limits.name then e else .notADirectory)), b)

/-- `path.write_bytes(data)`. -/
def writeFile (b : BlobRoot) (path : List String) (document : Value) :
    Except Error Unit × BlobRoot :=
  if path.any hasNul then (.error (.valueError "embedded null byte"), b)
  else if (b.limits.path path && path.all b.limits.name) = false then
    (.error (.osError .nameTooLong), b)
  else
    match b.tree.writeBytes document path.reverse with
    | .ok t => (.ok (), { b with tree := t })
    | .error e => (.error (.osError e), b)

/-- `put_blob`: the locator is the path of the file. -/
def put (b : BlobRoot) (key : String) (document : Value) : Except Error (List String) × BlobRoot :=
  match pathFor key with
  | none => (.error (.unsafeKey key), b)
  | some path =>
    match b.makeDirs path.dropLast with
    | (.error e, b') => (.error e, b')
    | (.ok (), b') =>
      match b'.writeFile path document with
      | (.error e, b'') => (.error e, b'')
      | (.ok (), b'') => (.ok path, b'')

/-- The file system takes the path, no file is in the place of a directory above it, and no
directory in its own. -/
def takes (b : BlobRoot) (path : List String) : Bool :=
  path.all (fun part => !hasNul part && b.limits.name part) &&
    b.limits.path path.dropLast && b.limits.path path &&
    path.dropLast.inits.all (fun above => (b.file? above).isNone) &&
    !b.tree.isDir path.reverse

/-- The key is safe, and its file can be put. -/
def takesKey (b : BlobRoot) (key : String) : Bool := (pathFor key).any b.takes

/-- Neither file would have to be a directory for the other. -/
def clear (path other : List String) : Bool :=
  decide (path = other) || !(decide (path <+: other) || decide (other <+: path))

/-- The files of the two keys, where they have one. -/
def clearKeys (key other : String) : Bool :=
  (pathFor key).all fun path => (pathFor other).all (clear path)

/-! ### One call -/

variable {b b' : BlobRoot} {path : List String} {key : String} {document : Value}

/-- An empty root has no file. -/
theorem file?_empty (path : List String) : empty.file? path = none := FileTree.file?_empty _

/-- Directories are no files. -/
theorem file?_of_mkdirs {t t' : FileTree Value} {dirs : List String}
    (h : t.mkdirs dirs = .ok t') (p : List String) : t'.file? p = t.file? p := by
  obtain ⟨habove, hnodes⟩ := FileTree.mkdirs_eq_ok h
  rw [FileTree.file?, hnodes, FileTree.file?]
  split_ifs with hp
  · rcases habove p hp with hnode | hnode <;> rw [hnode]
  · rfl

/-- An exception of an operation on files. -/
def FileError (e : Error) : Prop := (∃ e', e = .osError e') ∨ ∃ message, e = .valueError message

/-- Directories are made when the path and its names are taken and no file is among them; or it
raises, and no document changes. -/
theorem makeDirs_cases (b : BlobRoot) (path : List String) :
    (∃ t, path.any hasNul = false ∧ b.limits.path path = true ∧ path.all b.limits.name = true ∧
      b.tree.mkdirs path.reverse = .ok t ∧ b.makeDirs path = (.ok (), { b with tree := t })) ∨
    ∃ e b', b.makeDirs path = (.error e, b') ∧ FileError e ∧ b'.limits = b.limits ∧
      ∀ p, b'.file? p = b.file? p := by
  rw [makeDirs]
  by_cases hnul : path.any hasNul = true
  · rw [if_pos hnul]
    exact .inr ⟨_, b, rfl, .inr ⟨_, rfl⟩, rfl, fun p => rfl⟩
  rw [if_neg hnul]
  by_cases hpath : b.limits.path path = false
  · rw [if_pos hpath]
    exact .inr ⟨_, b, rfl, .inl ⟨_, rfl⟩, rfl, fun p => rfl⟩
  rw [if_neg hpath]
  cases hmade : b.tree.mkdirs (path.takeWhile b.limits.name).reverse with
  | error e => exact .inr ⟨_, b, rfl, .inl ⟨_, rfl⟩, rfl, fun p => rfl⟩
  | ok t =>
    by_cases hnames : path.all b.limits.name = true
    · rw [List.takeWhile_eq_self_iff.mpr (List.all_eq_true.mp hnames)] at hmade
      refine .inl ⟨t, by simpa using hnul, by simpa using hpath, hnames, hmade, ?_⟩
      simp only [hnames, if_true]
    · -- the directories down to the refused name are left behind
      refine .inr ⟨_, { b with tree := t }, ?_, .inl ⟨.nameTooLong, rfl⟩, rfl,
        fun p => file?_of_mkdirs hmade _⟩
      simp only [if_neg hnames]

/-- Where the path and its names are taken, it is up to the tree. -/
theorem makeDirs_of_fits (hnul : path.any hasNul = false) (hpath : b.limits.path path = true)
    (hnames : path.all b.limits.name = true) :
    b.makeDirs path =
      match b.tree.mkdirs path.reverse with
      | .ok t => (.ok (), { b with tree := t })
      | .error e => (.error (.osError e), b) := by
  rw [makeDirs, if_neg (by simp [hnul]), if_neg (by simp [hpath]),
    List.takeWhile_eq_self_iff.mpr (List.all_eq_true.mp hnames)]
  simp only [hnames, if_true]

/-- A file is written when the path is taken and leads to it; or it raises and changes nothing. -/
theorem writeFile_cases (b : BlobRoot) (path : List String) (document : Value) :
    (∃ t, path.any hasNul = false ∧ b.limits.path path = true ∧ path.all b.limits.name = true ∧
      b.tree.writeBytes document path.reverse = .ok t ∧
      b.writeFile path document = (.ok (), { b with tree := t })) ∨
    ∃ e, b.writeFile path document = (.error e, b) ∧ FileError e := by
  rw [writeFile]
  by_cases hnul : path.any hasNul = true
  · rw [if_pos hnul]
    exact .inr ⟨_, rfl, .inr ⟨_, rfl⟩⟩
  rw [if_neg hnul]
  by_cases hlimits : (b.limits.path path && path.all b.limits.name) = false
  · rw [if_pos hlimits]
    exact .inr ⟨_, rfl, .inl ⟨_, rfl⟩⟩
  rw [if_neg hlimits]
  rw [Bool.not_eq_false, Bool.and_eq_true] at hlimits
  cases hwritten : b.tree.writeBytes document path.reverse with
  | error e => exact .inr ⟨_, rfl, .inl ⟨_, rfl⟩⟩
  | ok t => exact .inl ⟨t, by simpa using hnul, hlimits.1, hlimits.2, rfl, rfl⟩

/-- When its names fit, a write does what the file tree does. -/
theorem writeFile_of_fits (hnul : path.any hasNul = false) (hpath : b.limits.path path = true)
    (hnames : path.all b.limits.name = true) :
    b.writeFile path document =
      match b.tree.writeBytes document path.reverse with
      | .ok t => (.ok (), { b with tree := t })
      | .error e => (.error (.osError e), b) := by
  rw [writeFile, if_neg (by simp [hnul]), if_neg (by simp [hpath, hnames])]

/-- The document of a file that was written. -/
theorem file?_of_writeBytes {t t' : FileTree Value}
    (h : t.writeBytes document path.reverse = .ok t') (p : List String) :
    t'.file? p.reverse = if p = path then some document else t.file? p.reverse := by
  rw [FileTree.file?, (FileTree.writeBytes_eq_ok h).2]
  by_cases hp : p = path
  · rw [if_pos hp, if_pos (by rw [hp])]
  · rw [if_neg hp, if_neg fun hreverse => hp (List.reverse_injective hreverse)]
    rfl

/-- The two halves of a call: the directories are made and the file is written, or the call raises
and no document changes. -/
theorem put_cases (b : BlobRoot) (key : String) (document : Value) :
    (∃ path t t', pathFor key = some path ∧ path.any hasNul = false ∧
      path.all b.limits.name = true ∧ b.limits.path path.dropLast = true ∧
      b.limits.path path = true ∧ b.tree.mkdirs path.dropLast.reverse = .ok t ∧
      t.writeBytes document path.reverse = .ok t' ∧
      b.put key document = (.ok path, { b with tree := t' })) ∨
    ∃ e b', b.put key document = (.error e, b') ∧ (e = .unsafeKey key ∨ FileError e) ∧
      b'.limits = b.limits ∧ ∀ p, b'.file? p = b.file? p := by
  rw [put]
  cases hpath : pathFor key with
  | none => exact .inr ⟨_, b, rfl, .inl rfl, rfl, fun p => rfl⟩
  | some path =>
    -- first the directories, then the file; each of the two may be refused
    rcases makeDirs_cases b path.dropLast with
      ⟨t, -, habove, -, hmade, hdirs⟩ | ⟨e, b', hdirs, he, hlimits, hfiles⟩
    · rcases writeFile_cases { b with tree := t } path document with
        ⟨t', hnul, hwhole, hnames, hbytes, hwritten⟩ | ⟨e, hwritten, he⟩
      · refine .inl ⟨path, t, t', rfl, hnul, hnames, habove, hwhole, hmade, hbytes, ?_⟩
        simp only [hdirs, hwritten]
      · refine .inr ⟨e, { b with tree := t }, ?_, .inr he, rfl, fun p => file?_of_mkdirs hmade _⟩
        simp only [hdirs, hwritten]
    · refine .inr ⟨e, b', ?_, .inr he, hlimits, hfiles⟩
      simp only [hdirs]

/-- A call that returns sets one document. -/
theorem put_eq_ok (h : b.put key document = (.ok path, b')) :
    pathFor key = some path ∧ ∀ p, b'.file? p = if p = path then some document else b.file? p := by
  rcases put_cases b key document with
    ⟨path', t, t', hpath, -, -, -, -, hmade, hbytes, hput⟩ | ⟨e, b₁, hput, -⟩
  · rw [hput] at h
    obtain ⟨hok, rfl⟩ := Prod.mk.inj h
    obtain rfl := Except.ok.inj hok
    refine ⟨hpath, fun p => ?_⟩
    rw [file?, file?_of_writeBytes hbytes, file?_of_mkdirs hmade]
    rfl
  · rw [hput] at h
    cases (Prod.mk.inj h).1

/-- A call that raises changes no document. -/
theorem put_eq_error {e : Error} (h : b.put key document = (.error e, b')) :
    (e = .unsafeKey key ∨ FileError e) ∧ ∀ p, b'.file? p = b.file? p := by
  rcases put_cases b key document with
    ⟨path, t, t', -, -, -, -, -, -, -, hput⟩ | ⟨e', b₁, hput, he, -, hfiles⟩
  · rw [hput] at h
    cases (Prod.mk.inj h).1
  · rw [hput] at h
    obtain ⟨heq, rfl⟩ := Prod.mk.inj h
    exact ⟨Except.error.inj heq ▸ he, hfiles⟩

/-- The limits do not change. -/
theorem limits_put (b : BlobRoot) (key : String) (document : Value) :
    (b.put key document).2.limits = b.limits := by
  rcases put_cases b key document with
    ⟨path, t, t', -, -, -, -, -, -, -, hput⟩ | ⟨e, b₁, hput, -, hlimits, -⟩
  · rw [hput]
  · rw [hput]
    exact hlimits

/-! ### When a call returns -/

/-- The parts of a path, down to its file. -/
private theorem forall_inits_iff {t : FileTree Value} {dirs : List String} :
    (∀ p, p <:+ dirs.reverse → t.isFile p = false) ↔
      ∀ above ∈ dirs.inits, t.file? above.reverse = none := by
  simp only [FileTree.isFile_eq_isSome, Option.isSome_eq_false_iff, Option.isNone_iff_eq_none,
    List.mem_inits]
  constructor
  · exact fun h above habove => h _ (List.reverse_suffix.mpr habove)
  · intro h p hp
    have hnone := h p.reverse (List.reverse_suffix.mp (by rwa [List.reverse_reverse]))
    rwa [List.reverse_reverse] at hnone

/-- A root takes a path when its names fit, no file stands in the way and no directory at the end.
-/
theorem takes_iff : b.takes path = true ↔
    path.any hasNul = false ∧ path.all b.limits.name = true ∧ b.limits.path path.dropLast = true ∧
      b.limits.path path = true ∧
      (∀ p, p <:+ path.dropLast.reverse → b.tree.isFile p = false) ∧
      b.tree.node? path.reverse ≠ some .dir := by
  have hdir : (!b.tree.isDir path.reverse) = true ↔ b.tree.node? path.reverse ≠ some .dir := by
    rw [Bool.not_eq_true', ← Bool.not_eq_true, FileTree.isDir_iff]
  rw [forall_inits_iff, takes, Bool.and_eq_true, Bool.and_eq_true, Bool.and_eq_true,
    Bool.and_eq_true, hdir]
  simp only [List.all_eq_true, List.any_eq_false, Bool.and_eq_true, Bool.not_eq_true',
    Option.isNone_iff_eq_none, forall_and, and_assoc, Bool.not_eq_true, file?]

/-- A root takes a key when it takes the key's path. -/
theorem takesKey_iff : b.takesKey key = true ↔ ∃ path, pathFor key = some path ∧
    b.takes path = true := by
  rw [takesKey, Option.any_eq_true]

/-- A path that is taken has a file name. -/
theorem ne_nil_of_takes (h : b.takes path = true) : path ≠ [] := by
  rintro rfl
  exact (takes_iff.mp h).2.2.2.2.2 rfl

/-- A call returns where the file system takes the path and nothing is in the way. -/
theorem exists_put (hpath : pathFor key = some path) (h : b.takes path = true) (document : Value) :
    ∃ b', b.put key document = (.ok path, b') := by
  obtain ⟨init, name, rfl⟩ := (List.eq_nil_or_concat path).resolve_left (ne_nil_of_takes h)
  rw [List.concat_eq_append] at hpath h
  obtain ⟨hnul, hnames, habove, hwhole, hfile, hdir⟩ := takes_iff.mp h
  rw [List.dropLast_concat] at habove hfile
  have hreverse : (init ++ [name]).reverse = name :: init.reverse := by simp
  rw [hreverse] at hdir
  -- the directories are made
  obtain ⟨t, hmade⟩ := FileTree.exists_mkdirs hfile
  obtain ⟨-, hnodes⟩ := FileTree.mkdirs_eq_ok hmade
  have hdirs : b.makeDirs init = (.ok (), { b with tree := t }) := by
    rw [makeDirs_of_fits _ habove, hmade]
    · rw [List.all_append, Bool.and_eq_true] at hnames
      exact hnames.1
    · rw [List.any_append, Bool.or_eq_false_iff] at hnul
      exact hnul.1
  -- and the file is written into the last of them
  have hparent : t.node? init.reverse = some .dir := by
    rw [hnodes]
    exact if_pos List.suffix_rfl
  have hfree : t.node? (name :: init.reverse) ≠ some .dir := by
    rwa [hnodes, if_neg (FileTree.not_suffix_parent name init.reverse)]
  obtain ⟨t', hwritten⟩ := FileTree.exists_writeBytes document hparent hfree
  rw [← hreverse] at hwritten
  have hfile' := @writeFile_of_fits { b with tree := t } _ document hnul hwhole hnames
  rw [hwritten] at hfile'
  refine ⟨{ b with tree := t' }, ?_⟩
  rw [put, List.concat_eq_append, hpath]
  simp only [List.dropLast_concat, hdirs, hfile']

/-- Where a call returns, the path could be taken. -/
theorem takes_of_put (h : b.put key document = (.ok path, b')) : b.takes path = true := by
  rcases put_cases b key document with
    ⟨path', t, t', -, hnul, hnames, habove, hwhole, hmade, hbytes, hput⟩ | ⟨e, b₁, hput, -⟩
  · rw [hput] at h
    obtain rfl := Except.ok.inj (Prod.mk.inj h).1
    obtain ⟨hfree, hnodes⟩ := FileTree.mkdirs_eq_ok hmade
    refine takes_iff.mpr ⟨hnul, hnames, habove, hwhole, fun p hp => ?_, fun hnode => ?_⟩
    · rw [FileTree.isFile_eq_isSome, FileTree.file?]
      rcases hfree p hp with hnode | hnode <;> rw [hnode] <;> rfl
    · -- a directory there would have stayed one
      refine (FileTree.writeBytes_eq_ok hbytes).1 ?_
      rw [hnodes]
      split_ifs
      · rfl
      · exact hnode
  · rw [hput] at h
    cases (Prod.mk.inj h).1

/-- What is below the root after a call that returns. -/
theorem node?_put (h : b.put key document = (.ok path, b')) (p : List String) :
    b'.tree.node? p = if p = path.reverse then some (.file document)
      else if p <:+ path.dropLast.reverse then some .dir else b.tree.node? p := by
  rcases put_cases b key document with
    ⟨path', t, t', -, -, -, -, -, hmade, hbytes, hput⟩ | ⟨e, b₁, hput, -⟩
  · rw [hput] at h
    obtain ⟨hok, rfl⟩ := Prod.mk.inj h
    obtain rfl := Except.ok.inj hok
    rw [(FileTree.writeBytes_eq_ok hbytes).2, (FileTree.mkdirs_eq_ok hmade).2]
  · rw [hput] at h
    cases (Prod.mk.inj h).1

/-- Two paths are clear of each other when they are one or neither begins the other. -/
theorem clear_iff {other : List String} :
    clear path other = true ↔ path = other ∨ ¬path <+: other ∧ ¬other <+: path := by
  simp [clear]

/-- Being clear of each other is symmetric. -/
theorem clearKeys_comm (key other : String) : clearKeys key other = clearKeys other key := by
  have hcomm : ∀ p q, clear p q = clear q p := by
    intro p q
    rw [Bool.eq_iff_iff, clear_iff, clear_iff, eq_comm, and_comm]
  rw [clearKeys, clearKeys]
  cases pathFor key <;> cases pathFor other <;> simp [hcomm]

/-- A key is clear of itself: its file is overwritten. -/
theorem clearKeys_self (key : String) : clearKeys key key = true := by
  rw [clearKeys]
  cases pathFor key with
  | none => rfl
  | some path => exact clear_iff.mpr (.inl rfl)

/-- Paths of one length. -/
theorem clear_of_length_eq {other : List String} (h : path.length = other.length) :
    clear path other = true := by
  refine clear_iff.mpr (or_iff_not_imp_left.mpr fun hne => ⟨fun hp => ?_, fun hp => ?_⟩)
  · exact hne (hp.eq_of_length h)
  · exact hne (hp.eq_of_length h.symm).symm

/-- A path that was taken still is after a call for another that is clear of it. -/
theorem takes_put {other : List String} (h : b.put key document = (.ok path, b'))
    (hother : b.takes other = true) (hclear : clear path other = true) :
    b'.takes other = true := by
  have hlimits : b'.limits = b.limits := by
    have hkept := limits_put b key document
    rwa [h] at hkept
  obtain ⟨hnul, hnames, habove, hwhole, hfree, hdir⟩ := takes_iff.mp hother
  have hsuffix : ∀ {p q : List String}, p.reverse <:+ q.reverse → p <+: q :=
    List.reverse_suffix.mp
  refine takes_iff.mpr ⟨hnul, hlimits ▸ hnames, hlimits ▸ habove, hlimits ▸ hwhole,
    fun p hp => ?_, ?_⟩
  · -- the file that was written is not above the other
    have hp' : p ≠ path.reverse := by
      rintro rfl
      have hbegins : path <+: other.dropLast := hsuffix hp
      rcases clear_iff.mp hclear with rfl | ⟨habove, -⟩
      · have hne := ne_nil_of_takes hother
        have hle := hbegins.length_le
        rw [List.length_dropLast] at hle
        exact hne (List.length_eq_zero_iff.mp (by omega))
      · exact habove (hbegins.trans (List.dropLast_prefix other))
    have hold := hfree p hp
    rw [FileTree.isFile] at hold ⊢
    rw [node?_put h, if_neg hp']
    split_ifs
    · rfl
    · exact hold
  · rw [node?_put h]
    split_ifs with heq habove
    · exact fun hdir' => by cases hdir'
    · -- nor is the other one of the directories above it
      have hbegins : other <+: path.dropLast := hsuffix habove
      rcases clear_iff.mp hclear with rfl | ⟨-, hbelow⟩
      · exact absurd rfl heq
      · exact absurd (hbegins.trans (List.dropLast_prefix path)) hbelow
    · exact hdir

/-- So is a key. -/
theorem takesKey_put {other : String} (h : b.put key document = (.ok path, b'))
    (hother : b.takesKey other = true) (hclear : clearKeys key other = true) :
    b'.takesKey other = true := by
  obtain ⟨path', hpath', htakes⟩ := takesKey_iff.mp hother
  rw [clearKeys, (put_eq_ok h).1, hpath', Option.all_some, Option.all_some] at hclear
  exact takesKey_iff.mpr ⟨path', hpath', takes_put h htakes hclear⟩

/-- **When `put_blob` returns.** -/
theorem put_isOk_iff (b : BlobRoot) (key : String) (document : Value) :
    (∃ path b', b.put key document = (.ok path, b')) ↔ b.takesKey key = true := by
  rw [takesKey_iff]
  constructor
  · rintro ⟨path, b', h⟩
    exact ⟨path, (put_eq_ok h).1, takes_of_put h⟩
  · rintro ⟨path, hpath, h⟩
    exact ⟨path, exists_put hpath h document⟩

end BlobRoot

end InfraReplay
