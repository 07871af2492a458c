import Mathlib.Data.List.Basic

/-!
# Lists that only grow

`l.Grows R l'` says that every element of `l` is still at its place in `l'`, as something that `R`
relates to it. It is a preorder when `R` is one, appending and rewriting in place satisfy it, and
what `R` keeps makes a prefix (`Grows.map_prefix`).
-/

namespace List

variable {α β : Type} {R : α → α → Prop} {l l' l'' : List α}

/-- Every element is still at its place, up to `R`. -/
def Grows (R : α → α → Prop) (l l' : List α) : Prop :=
  ∀ (i : ℕ) (a : α), l[i]? = some a → ∃ b, l'[i]? = some b ∧ R a b

theorem Grows.refl (hrefl : ∀ a, R a a) (l : List α) : l.Grows R l :=
  fun _ a h => ⟨a, h, hrefl a⟩

theorem Grows.trans (htrans : ∀ a b c, R a b → R b c → R a c) (h : l.Grows R l')
    (h' : l'.Grows R l'') : l.Grows R l'' := by
  intro i a ha
  obtain ⟨b, hb, hab⟩ := h i a ha
  obtain ⟨c, hc, hbc⟩ := h' i b hb
  exact ⟨c, hc, htrans a b c hab hbc⟩

/-- Appending. -/
theorem Grows.append (hrefl : ∀ a, R a a) (l new : List α) : l.Grows R (l ++ new) := by
  intro i a ha
  obtain ⟨hlt, -⟩ := List.getElem?_eq_some_iff.mp ha
  exact ⟨a, (List.getElem?_append_left hlt).trans ha, hrefl a⟩

/-- Rewriting in place. -/
theorem Grows.map {f : α → α} (hf : ∀ a, R a (f a)) (l : List α) : l.Grows R (l.map f) := by
  intro i a ha
  exact ⟨f a, by rw [List.getElem?_map, ha, Option.map_some], hf a⟩

/-- An element is still there. -/
theorem Grows.exists_mem (h : l.Grows R l') {a : α} (ha : a ∈ l) : ∃ b ∈ l', R a b := by
  obtain ⟨i, hi⟩ := List.mem_iff_getElem?.mp ha
  obtain ⟨b, hb, hab⟩ := h i a hi
  exact ⟨b, List.mem_of_getElem? hb, hab⟩

/-- What `R` keeps is a prefix of what it is later. -/
theorem Grows.map_prefix {f : α → β} (hf : ∀ a b, R a b → f b = f a) (h : l.Grows R l') :
    l.map f <+: l'.map f := by
  rw [List.prefix_iff_getElem?]
  intro i hi
  rw [List.length_map] at hi
  obtain ⟨b, hb, hab⟩ := h i l[i] (List.getElem?_eq_getElem hi)
  rw [List.getElem?_map, hb, List.getElem_map, Option.map_some, hf _ b hab]

end List
