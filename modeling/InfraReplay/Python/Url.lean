import InfraReplay.Python.Text

/-!
# Where a URL leads

The origin of a URL: its scheme, and the host and port of its authority. The authority is the text
between `://` and the first `/`, `?` or `#`; the host and the port are what follows its last `@`.
Origins are compared as they are written, so a default port that is spelled out counts as another.
-/

namespace Python

/-- A character that ends an authority. -/
def isUrlDelimiter (c : Char) : Bool := c = '/' || c = '?' || c = '#'

/-- What stands before and after the first `://`. -/
def splitScheme : List Char → Option (List Char × List Char)
  | [] => none
  | c :: cs =>
    if "://".toList.isPrefixOf (c :: cs) then some ([], cs.drop 2)
    else (splitScheme cs).map fun p => (c :: p.1, p.2)

/-- Text without a colon, up to the first colon. -/
theorem splitScheme_append {scheme : List Char} (h : ':' ∉ scheme) (rest : List Char) :
    splitScheme (scheme ++ ':' :: rest) =
      if "//".toList.isPrefixOf rest then some (scheme, rest.drop 2)
      else (splitScheme rest).map fun p => (scheme ++ ':' :: p.1, p.2) := by
  induction scheme with
  | nil =>
    show (if "//".toList.isPrefixOf rest then _ else _) = _
    rfl
  | cons c scheme ih =>
    have hne : c ≠ ':' := fun heq => h (by simp [heq])
    have hmem : ':' ∉ scheme := fun hmem => h (by simp [hmem])
    -- the separator cannot start at a character that is no colon
    have hprefix : "://".toList.isPrefixOf (c :: (scheme ++ ':' :: rest)) = false := by
      show ((':' == c) && _) = false
      rw [beq_false_of_ne hne.symm, Bool.false_and]
    rw [List.cons_append, splitScheme, hprefix, if_neg Bool.false_ne_true, ih hmem]
    split_ifs
    · rfl
    · simp [Option.map_map, Function.comp_def]

theorem splitScheme_of_scheme {scheme : List Char} (h : ':' ∉ scheme) (rest : List Char) :
    splitScheme (scheme ++ ':' :: '/' :: '/' :: rest) = some (scheme, rest) := by
  rw [splitScheme_append h]
  rfl

end Python
