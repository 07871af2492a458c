import Mathlib.Data.List.DropRight

/-!
# The filesystem blob store

Only where a blob goes matters here: `pathFor` is the guard that keeps a key inside the root, and
two keys name the same file when they have the same parts.
-/

namespace InfraReplay

/-- `Path(key.strip("/")).parts`: empty parts and `.` are dropped. -/
def pathParts (key : String) : List String :=
  let stripped := (key.toList.dropWhile (· = '/')).rdropWhile (· = '/')
  ((stripped.splitOn '/').map String.ofList).filter fun part => part ≠ "" ∧ part ≠ "."

/-- `_path_for`: the file of a key below the root, or `none` for an unsafe key. -/
def pathFor (key : String) : Option (List String) :=
  if ".." ∈ pathParts key then none else some (pathParts key)

/-- `_SNAPSHOT_KEY.format(rid=recording_id)`. -/
def snapshotKey (recordingId : String) : String :=
  "recordings/" ++ recordingId ++ "/recording.json"

/-- The path segments of a recording id, without the empty ones and `.`. -/
def idSegments (recordingId : String) : List String :=
  ((recordingId.toList.splitOn '/').map String.ofList).filter fun part => part ≠ "" ∧ part ≠ "."

/-- The snapshot file depends on the segments of the id only. -/
theorem pathParts_snapshotKey (recordingId : String) :
    pathParts (snapshotKey recordingId) =
      "recordings" :: (idSegments recordingId ++ ["recording.json"]) := by
  have hkey : (snapshotKey recordingId).toList =
      "recordings".toList ++ '/' :: (recordingId.toList ++ '/' :: "recording.json".toList) := by
    simp [snapshotKey]
  have hstripped : ((snapshotKey recordingId).toList.dropWhile (· = '/')).rdropWhile (· = '/') =
      (snapshotKey recordingId).toList := by
    -- the key starts with an `r` and ends with an `n`
    have hfirst : (snapshotKey recordingId).toList.dropWhile (· = '/') =
        (snapshotKey recordingId).toList := by
      rw [hkey]
      rfl
    have hlast : (snapshotKey recordingId).toList =
        ("recordings".toList ++ '/' :: (recordingId.toList ++ '/' :: "recording.jso".toList)) ++
          ['n'] := by
      rw [hkey]
      simp
    rw [hfirst, hlast, List.rdropWhile_concat_neg _ _ _ (by decide)]
  unfold pathParts
  dsimp only
  have hdirectory : "recordings".toList.splitOn '/' = ["recordings".toList] := by decide
  have hfile : "recording.json".toList.splitOn '/' = ["recording.json".toList] := by decide
  rw [hstripped, hkey, List.splitOn_append_cons_self, List.splitOn_append_cons_self, hdirectory,
    hfile]
  simp [idSegments]

/-- Ids with different segments have different snapshot files. -/
theorem pathParts_snapshotKey_inj {recordingId recordingId' : String} :
    pathParts (snapshotKey recordingId) = pathParts (snapshotKey recordingId') ↔
      idSegments recordingId = idSegments recordingId' := by
  rw [pathParts_snapshotKey, pathParts_snapshotKey, List.cons_inj_right,
    List.append_cancel_right_eq]

theorem pathFor_eq_some {key : String} {path : List String} (h : pathFor key = some path) :
    pathParts key = path := by
  rw [pathFor] at h
  split_ifs at h
  exact Option.some.inj h

/-- A recording id that is one path segment has its own snapshot file. -/
theorem pathFor_snapshotKey {recordingId : String} (hslash : '/' ∉ recordingId.toList)
    (hne : recordingId ≠ "" ∧ recordingId ≠ "." ∧ recordingId ≠ "..") :
    pathFor (snapshotKey recordingId) = some ["recordings", recordingId, "recording.json"] := by
  have hsegments : idSegments recordingId = [recordingId] := by
    rw [idSegments, List.splitOn_eq_singleton hslash]
    simp [hne.1, hne.2.1]
  rw [pathFor, pathParts_snapshotKey, hsegments, if_neg]
  · rfl
  · simp [hne.2.2.symm]

example : pathFor (snapshotKey "rec_1") = some ["recordings", "rec_1", "recording.json"] := by
  decide

example : pathFor (snapshotKey "../../etc") = none := by decide

end InfraReplay
