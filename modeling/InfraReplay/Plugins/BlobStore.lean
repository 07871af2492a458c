import InfraReplay.Common.Machine
import InfraReplay.Common.Prog
import InfraReplay.Plugins.BlobRoot

/-!
# The files of the blob store

`put_blob` and `get_blob` of `FilesystemStoragePlugin` as tasks over the file tree of the machine.
A task that raises before its first step has not touched the tree. The claim of `_path_for`, "keep
them inside the root", is `blobs_below_root`; the files below the root hold what a dictionary from
the segments of a key to its last bytes holds (`Shows`).

The root is a list of parts, links and `..` in it resolved, and the bytes are of any type. The
locator stands for its path. Names and paths have no limits here: `BlobRoot.put` adds them, and
within them it does what the two steps of `put_blob` do one after the other (`put_eq_run`).
-/

namespace InfraReplay

open Python

/-- What the storage plugin raises. -/
inductive BlobError where
  | raised (e : Error)
  | os (e : OsError)

def BlobError.toError : BlobError → Error
  | raised e => e
  | os e => .osError e

namespace BlobStore

variable {α : Type}

/-! ### The code -/

/-- `key.strip("/")`. -/
def stripped (key : String) : List Char := (key.toList.dropWhile (· = '/')).rdropWhile (· = '/')

/-- `safe.is_absolute()`. -/
def isAbsolute (safe : List Char) : Bool := decide (safe.head? = some '/')

/-- `_path_for`, where `root / safe` is the list of parts, the innermost first. -/
def pathBelow (root : List String) (key : String) : Except BlobError (List String) :=
  if isAbsolute (stripped key) = true ∨ ".." ∈ pathParts key then
    throw (.raised (.unsafeKey key))
  else return (root ++ pathParts key).reverse

/-- One operation on the tree. -/
def change (operation : FileTree α → Except OsError (FileTree α)) :
    Prog (FileTree α) BlobError Unit :=
  Prog.tx fun t =>
    match operation t with
    | .ok t' => .ok ((), t')
    | .error e => .error (.os e)

/-- `put_blob`. -/
def putBlob (root : List String) (key : String) (data : α) :
    Prog (FileTree α) BlobError (List String) :=
  match pathBelow root key with
  | .error e => throw e
  | .ok path => do
    change fun t => t.mkdirs path.tail
    change fun t => t.writeBytes data path
    return path

/-- A segment of the stripped key is `..`. -/
def Unsafe (key : String) : Prop :=
  ".." ∈ ((stripped key).splitOn '/').map String.ofList

instance (key : String) : Decidable (Unsafe key) := List.instDecidableMemOfLawfulBEq _ _

/-- The segments of a text without the empty ones and `.`. -/
def segments (text : List Char) : List String :=
  ((text.splitOn '/').map String.ofList).filter fun part => part ≠ "" ∧ part ≠ "."

/-- A slash separates the segments of what stands before it and after it. -/
theorem segments_append (text text' : List Char) :
    segments (text ++ '/' :: text') = segments text ++ segments text' := by
  rw [segments, List.splitOn_append_cons_self, List.map_append, List.filter_append]
  rfl

theorem segments_nil : segments [] = [] := by
  simp [segments]

/-- Leading slashes make no segment. -/
theorem segments_dropWhile (text : List Char) :
    segments (text.dropWhile (· = '/')) = segments text := by
  induction text with
  | nil => rfl
  | cons c text ih =>
    by_cases hc : c = '/'
    · subst hc
      have hcons : segments ('/' :: text) = segments text := by
        rw [← List.nil_append ('/' :: text), segments_append, segments_nil, List.nil_append]
      rw [List.dropWhile_cons_of_pos (by simp), ih, hcons]
    · rw [List.dropWhile_cons_of_neg (by simpa using hc)]

/-- Nor do trailing ones. -/
theorem segments_rdropWhile (text : List Char) :
    segments (text.rdropWhile (· = '/')) = segments text := by
  induction text using List.reverseRecOn with
  | nil => rfl
  | append_singleton text c ih =>
    by_cases hc : c = '/'
    · subst hc
      rw [List.rdropWhile_concat_pos _ _ _ (by simp), ih, segments_append, segments_nil,
        List.append_nil]
    · rw [List.rdropWhile_concat_neg _ _ _ (by simpa using hc)]

/-- Stripping a key drops empty segments only. -/
theorem pathParts_eq_idSegments (key : String) : pathParts key = idSegments key := by
  show segments (stripped key) = segments key.toList
  rw [stripped, segments_rdropWhile, segments_dropWhile]

/-- A key is unsafe when it has a segment `..`. -/
theorem unsafe_iff (key : String) : Unsafe key ↔ ".." ∈ idSegments key := by
  rw [← pathParts_eq_idSegments, pathParts, List.mem_filter]
  exact (and_iff_left (by decide)).symm

/-- A stripped key does not start with a slash. -/
theorem isAbsolute_stripped (key : String) : isAbsolute (stripped key) = false := by
  refine decide_eq_false fun hhead => ?_
  obtain ⟨rest, hrest⟩ : ∃ rest, stripped key = '/' :: rest := by
    cases hkey : stripped key with
    | nil => simp [hkey] at hhead
    | cons c rest => exact ⟨rest, by simpa [hkey] using hhead⟩
  -- what is left of the stripping from the left starts in the same way
  obtain ⟨more, hmore⟩ : stripped key <+: key.toList.dropWhile (· = '/') :=
    List.rdropWhile_prefix _ _
  have hleft := List.head?_dropWhile_not (fun c => decide (c = '/')) key.toList
  rw [← hmore, hrest] at hleft
  simp at hleft

/-- An unsafe key has no path. -/
theorem pathBelow_refused (root : List String) {key : String} (h : Unsafe key) :
    pathBelow root key = .error (.raised (.unsafeKey key)) := by
  rw [unsafe_iff, ← pathParts_eq_idSegments] at h
  exact if_pos (.inr h)

/-- A safe key has its segments below the root. -/
theorem pathBelow_of_safe (root : List String) {key : String} (h : ¬Unsafe key) :
    pathBelow root key = .ok (root ++ idSegments key).reverse := by
  rw [unsafe_iff, ← pathParts_eq_idSegments] at h
  rw [pathBelow, isAbsolute_stripped, if_neg (by simpa using h), pathParts_eq_idSegments]
  rfl

/-- An unsafe key is refused before the first step. -/
theorem putBlob_refused (root : List String) {key : String} (h : Unsafe key) (data : α) :
    putBlob root key data = throw (.raised (.unsafeKey key)) := by
  unfold putBlob
  rw [pathBelow_refused root h]

variable {root : List String} {key : String} {t t' : FileTree α}

/-- Nothing but the file of a path is written, and nothing is new but directories above it. -/
structure WritesOnly (path : List String) (data : α) (t t' : FileTree α) : Prop where
  file : t'.node? path = t.node? path ∨ t'.node? path = some (.file data)
  others : ∀ p, p ≠ path → t'.node? p = t.node? p ∨
    p <:+ path ∧ t.node? p = none ∧ t'.node? p = some .dir

/-- A change of the file tree raises what the operating system does. -/
theorem change_run (operation : FileTree α → Except OsError (FileTree α)) (t : FileTree α) :
    (change operation).run t =
      match operation t with
      | .ok t' => (.ok (), t')
      | .error e => (.error (.os e), t) := by
  unfold change
  cases h : operation t with
  | ok t' => exact Prog.run_tx_ok (by simp only [h])
  | error e => exact Prog.run_tx_error (by simp only [h])

/-- The file of a key. -/
def fileOf (root : List String) (key : String) : List String := (root ++ idSegments key).reverse

/-- `put` makes the directories and then writes the file, and raises what fails first. -/
theorem run_putBlob (hsafe : ¬Unsafe key) (data : α) (t : FileTree α) :
    (putBlob root key data).run t =
      match t.mkdirs (fileOf root key).tail with
      | .error e => (.error (.os e), t)
      | .ok t₁ =>
        match t₁.writeBytes data (fileOf root key) with
        | .error e => (.error (.os e), t₁)
        | .ok t' => (.ok (fileOf root key), t') := by
  unfold putBlob
  rw [pathBelow_of_safe root hsafe]
  simp only [fileOf, Prog.run_bind, change_run]
  cases t.mkdirs (root ++ idSegments key).reverse.tail with
  | error e => rfl
  | ok t₁ =>
    simp only
    cases t₁.writeBytes data (root ++ idSegments key).reverse <;> rfl

/-- What `get_blob` makes of the bytes of a file, if there is one. -/
def found (key : String) : Option α → Except BlobError α
  | some data => .ok data
  | none => .error (.raised (.keyError key))

/-- Making the directories of a path touches no other file. -/
theorem WritesOnly.of_mkdirs {path : List String} {data : α} (h : t.mkdirs path.tail = .ok t') :
    WritesOnly path data t t' := by
  obtain ⟨habove, hnodes⟩ := FileTree.mkdirs_eq_ok h
  -- each node is as before, or it is a new directory above the path
  have hnode : ∀ p, t'.node? p = t.node? p ∨
      p <:+ path.tail ∧ t.node? p = none ∧ t'.node? p = some .dir := by
    intro p
    by_cases hp : p <:+ path.tail
    · have hdir : t'.node? p = some .dir := by rw [hnodes, if_pos hp]
      rcases habove p hp with hnone | hsome
      · exact .inr ⟨hp, hnone, hdir⟩
      · exact .inl (hdir.trans hsome.symm)
    · exact .inl (by rw [hnodes, if_neg hp])
  refine ⟨(hnode path).imp_right fun h => ?_, fun p _ => ?_⟩
  · cases path with
    | nil => cases h.2.1
    | cons part parent => exact absurd h.1 (FileTree.not_suffix_parent part parent)
  · exact (hnode p).imp_right fun h => ⟨h.1.trans (List.tail_suffix path), h.2⟩

/-- Nor does writing the file after that. -/
theorem WritesOnly.write {path : List String} {data : α} {t₁ : FileTree α}
    (hmade : WritesOnly path data t t₁) (h : t₁.writeBytes data path = .ok t') :
    WritesOnly path data t t' := by
  obtain ⟨-, hnodes⟩ := FileTree.writeBytes_eq_ok h
  refine ⟨.inr (by rw [hnodes, if_pos rfl]), fun p hp => ?_⟩
  rw [hnodes, if_neg hp]
  exact hmade.others p hp

/-- Whether it returns or raises, `put_blob` writes the file of its key only. -/
theorem writesOnly_putBlob (hsafe : ¬Unsafe key) (data : α) (t : FileTree α) :
    WritesOnly (fileOf root key) data t ((putBlob root key data).run t).2 := by
  rw [run_putBlob hsafe]
  cases hmade : t.mkdirs (fileOf root key).tail with
  | error e => exact ⟨.inl rfl, fun p _ => .inl rfl⟩
  | ok t₁ =>
    have honly : WritesOnly (fileOf root key) data t t₁ := .of_mkdirs hmade
    simp only
    cases hwritten : t₁.writeBytes data (fileOf root key) with
    | error e => exact honly
    | ok t' => exact honly.write hwritten

/-- A call returns where no file is in the place of a directory, nor a directory in that of the
file. -/
theorem exists_run_putBlob (hsafe : ¬Unsafe key) (data : α)
    (habove : ∀ p, p <:+ (fileOf root key).tail → t.isFile p = false)
    (hdir : t.node? (fileOf root key) ≠ some .dir) :
    ∃ t', (putBlob root key data).run t = (.ok (fileOf root key), t') := by
  obtain ⟨t₁, hmade⟩ := FileTree.exists_mkdirs habove
  obtain ⟨-, hnodes⟩ := FileTree.mkdirs_eq_ok hmade
  cases hpath : fileOf root key with
  | nil =>
    rw [hpath] at hdir
    exact absurd rfl hdir
  | cons part parent =>
    rw [hpath] at hdir hnodes
    -- the directory above the file has been made, and nothing was made below it
    have hparent : t₁.node? parent = some .dir := by
      rw [hnodes]
      exact if_pos List.suffix_rfl
    have hfree : t₁.node? (part :: parent) ≠ some .dir := by
      rwa [hnodes, List.tail_cons, if_neg (FileTree.not_suffix_parent part parent)]
    obtain ⟨t', hwritten⟩ := FileTree.exists_writeBytes data hparent hfree
    refine ⟨t', ?_⟩
    rw [run_putBlob hsafe, hmade]
    simp only [hpath, hwritten]

/-! ### What the files below the root hold -/

/-- The files at and below the root are the entries of a dictionary. -/
def Shows (root : List String) (t : FileTree α) (blobs : Dict (List String) α) : Prop :=
  ∀ parts, t.file? (root ++ parts).reverse = blobs.get? parts

/-- A `put_blob` that returns sets the entry of its key. -/
theorem Shows.putBlob {blobs : Dict (List String) α} (hshows : Shows root t blobs)
    {data : α} {path : List String} (h : (putBlob root key data).run t = (.ok path, t')) :
    Shows root t' (blobs.set (idSegments key) data) := by
  have hsafe : ¬Unsafe key := by
    intro hrefused
    rw [putBlob_refused root hrefused] at h
    cases h
  have honly : WritesOnly (fileOf root key) data t _ := writesOnly_putBlob hsafe data t
  rw [h] at honly
  -- it has returned, so both operations succeeded
  have hwritten : t'.node? (fileOf root key) = some (.file data) := by
    rw [run_putBlob hsafe] at h
    split at h
    · cases h
    · split at h
      · cases h
      · next hwritten =>
        cases h
        rw [(FileTree.writeBytes_eq_ok hwritten).2, if_pos rfl]
  intro parts
  rw [Dict.get?_set]
  by_cases hparts : idSegments key = parts
  · subst hparts
    rw [if_pos rfl, ← fileOf, FileTree.file?_eq_some_iff, hwritten]
  · rw [if_neg hparts, ← hshows parts]
    -- another key has another file, and directories are not files
    have hne : (root ++ parts).reverse ≠ fileOf root key := by
      intro heq
      exact hparts (List.append_cancel_left (List.reverse_injective heq)).symm
    rcases honly.others _ hne with hsame | ⟨-, hnone, hdir⟩
    · rw [FileTree.file?, hsame, FileTree.file?]
    · rw [FileTree.file?, hdir, FileTree.file?, hnone]

/-- The names and the path of a key, and of the directory its file is in, are taken. -/
def Fits (b : BlobRoot) (path : List String) : Prop :=
  path.any hasNul = false ∧ path.all b.limits.name = true ∧
    b.limits.path path.dropLast = true ∧ b.limits.path path = true

/-- Within the limits of the file system, a document is put below the root by the two steps of
`put_blob`. -/
theorem put_eq_run (b : BlobRoot) (key : String) (document : Value)
    (hfits : Fits b (pathParts key)) :
    b.put key document =
      match (BlobStore.putBlob [] key document).run b.tree with
      | (.ok path, t) => (.ok path.reverse, { b with tree := t })
      | (.error e, t) => (.error e.toError, { b with tree := t }) := by
  obtain ⟨hnul, hnames, habove, hwhole⟩ := hfits
  by_cases hunsafe : Unsafe key
  · have hnone : pathFor key = none := by
      rw [unsafe_iff, ← pathParts_eq_idSegments] at hunsafe
      exact if_pos hunsafe
    rw [putBlob_refused [] hunsafe, BlobRoot.put, hnone]
    rfl
  · have hpath : pathFor key = some (pathParts key) := by
      rw [unsafe_iff, ← pathParts_eq_idSegments] at hunsafe
      exact if_neg hunsafe
    have hfile : fileOf [] key = (pathParts key).reverse := by
      rw [fileOf, List.nil_append, pathParts_eq_idSegments]
    -- what fits the file fits the directories above it
    have hnul' : (pathParts key).dropLast.any hasNul = false :=
      List.any_eq_false.mpr fun part hpart =>
        List.any_eq_false.mp hnul part (List.mem_of_mem_dropLast hpart)
    have hnames' : (pathParts key).dropLast.all b.limits.name = true :=
      List.all_eq_true.mpr fun part hpart =>
        List.all_eq_true.mp hnames part (List.mem_of_mem_dropLast hpart)
    rw [run_putBlob hunsafe, BlobRoot.put, hpath, hfile, List.tail_reverse]
    simp only [BlobRoot.makeDirs_of_fits hnul' habove hnames']
    cases b.tree.mkdirs (pathParts key).dropLast.reverse with
    | error e => rfl
    | ok t =>
      simp only [BlobRoot.writeFile_of_fits (b := { b with tree := t }) hnul hwhole hnames]
      cases t.writeBytes document (pathParts key).reverse with
      | error e => rfl
      | ok t' => simp only [List.reverse_reverse]

/-- One call of `put_blob` that returns. -/
def put (root : List String) (t : FileTree α) (call : String × α) : Option (FileTree α) :=
  match (putBlob root call.1 call.2).run t with
  | (.ok _, t') => some t'
  | (.error _, _) => none

/-- Calls that return set their entries, one after the other. -/
theorem Shows.run {blobs : Dict (List String) α} (hshows : Shows root t blobs)
    {calls : List (String × α)} (h : Machine.run (put root) t calls = some t') :
    Shows root t'
      (calls.foldl (fun blobs call => blobs.set (idSegments call.1) call.2) blobs) := by
  induction calls generalizing t blobs with
  | nil => exact Option.some.inj h ▸ hshows
  | cons call calls ih =>
    obtain ⟨t₁, hput, hrest⟩ := Machine.run_cons_eq_some.mp h
    refine ih ?_ hrest
    unfold put at hput
    split at hput
    · next hrun =>
      cases hput
      exact hshows.putBlob hrun
    · cases hput

end BlobStore

end InfraReplay
