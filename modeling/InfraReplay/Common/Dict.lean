import Mathlib.Data.List.Induction
import Mathlib.Data.List.Nodup
import Mathlib.Data.List.Perm.Basic

/-!
# Insertion-ordered dictionaries

A Python `dict` as the list of its items in insertion order. Assignment to a key that is present
replaces the value in place; assignment to a new key appends. `Dict.ofPairs` is a comprehension
over pairs (the last value of a repeated key wins), and `Dict.collect` is the grouping idiom
`d.setdefault(key(a), []).append(a)`.

The order in which keys first appear is `List.firstSeen`; `Dict.collect_eq` says that grouping
lists the groups in that order and keeps the order of the elements inside each.
-/

namespace List

/-- A list with one more element at its end has no duplicates exactly when that one is new. -/
theorem nodup_append_singleton {α : Type} {l : List α} {a : α} :
    (l ++ [a]).Nodup ↔ l.Nodup ∧ a ∉ l := by
  rw [← concat_eq_append, nodup_concat, and_comm]

/-- The `i`-th element that passes a test has `i` of them before it. -/
theorem getElem?_filter_eq_some_iff {α : Type} {p : α → Bool} {l : List α} {i : ℕ} {a : α} :
    (l.filter p)[i]? = some a ↔
      ∃ pre post, l = pre ++ a :: post ∧ p a ∧ pre.countP p = i := by
  constructor
  · intro h
    obtain ⟨hi, rfl⟩ := getElem?_eq_some_iff.mp h
    have hsplit : l.filter p =
        (l.filter p).take i ++ (l.filter p)[i] :: (l.filter p).drop (i + 1) := by simp
    obtain ⟨l₁, l₂, hl, hfirst, hrest⟩ := filter_eq_append_iff.mp hsplit
    obtain ⟨mid, post, rfl, hmid, hp, -⟩ := filter_eq_cons_iff.mp hrest
    refine ⟨l₁ ++ mid, post, by simpa using hl, hp, ?_⟩
    -- nothing passes between the elements before and this one
    rw [countP_append, countP_eq_zero.mpr hmid, countP_eq_length_filter, hfirst, length_take]
    omega
  · rintro ⟨pre, post, rfl, hp, rfl⟩
    rw [filter_append, filter_cons_of_pos hp, countP_eq_length_filter]
    simp

/-- Blocks of one label each: picking a label picks its block. -/
theorem filter_flatMap_label {ι α β : Type} [DecidableEq β] {cs : List ι} {f : ι → List α}
    (label : ι → β) {key : α → β}
    (hkey : ∀ c ∈ cs, ∀ a ∈ f c, key a = label c)
    (hlabel : cs.Pairwise fun c c' => label c ≠ label c') {c : ι} (hc : c ∈ cs) :
    ((cs.flatMap f).filter fun a => key a = label c) = f c := by
  obtain ⟨pre, post, rfl⟩ := append_of_mem hc
  rw [pairwise_append, pairwise_cons] at hlabel
  obtain ⟨-, ⟨hpost, -⟩, hpre⟩ := hlabel
  -- the blocks before and after carry other labels
  have hpre_nil : ((pre.flatMap f).filter fun a => key a = label c) = [] := by
    refine filter_eq_nil_iff.mpr fun a ha => ?_
    obtain ⟨c', hc', ha⟩ := mem_flatMap.mp ha
    rw [hkey c' (by simp [hc']) a ha]
    simpa using hpre c' hc' c (by simp)
  have hpost_nil : ((post.flatMap f).filter fun a => key a = label c) = [] := by
    refine filter_eq_nil_iff.mpr fun a ha => ?_
    obtain ⟨c', hc', ha⟩ := mem_flatMap.mp ha
    rw [hkey c' (by simp [hc']) a ha]
    simpa using (hpost c' hc').symm
  have hself : ((f c).filter fun a => key a = label c) = f c :=
    filter_eq_self.mpr fun a ha => decide_eq_true (hkey c (by simp) a ha)
  rw [flatMap_append, flatMap_cons, filter_append, filter_append, hpre_nil, hpost_nil, hself,
    nil_append, append_nil]

variable {α β : Type} [DecidableEq α] [DecidableEq β]

/-- The distinct elements of `l`, in the order of their first occurrence. -/
def firstSeen (l : List α) : List α :=
  l.foldl (fun seen a => if a ∈ seen then seen else seen ++ [a]) []

@[simp]
theorem firstSeen_nil : ([] : List α).firstSeen = [] := rfl

/-- One more element counts when it has not been seen. -/
theorem firstSeen_append_singleton (l : List α) (a : α) :
    (l ++ [a]).firstSeen = if a ∈ l.firstSeen then l.firstSeen else l.firstSeen ++ [a] := by
  rw [firstSeen, foldl_append]
  rfl

/-- What has been seen is what is in the list. -/
@[simp]
theorem mem_firstSeen {l : List α} {a : α} : a ∈ l.firstSeen ↔ a ∈ l := by
  induction l using List.reverseRecOn with
  | nil => simp
  | append_singleton l b ih =>
    rw [firstSeen_append_singleton]
    split_ifs with hb
    · have hbl : b ∈ l.firstSeen → a = b → a ∈ l := fun h hab => ih.mp (hab ▸ h)
      simpa [ih] using hbl hb
    · simp [ih]

/-- Nothing is seen for the first time twice. -/
theorem nodup_firstSeen (l : List α) : l.firstSeen.Nodup := by
  induction l using List.reverseRecOn with
  | nil => simp
  | append_singleton l b ih =>
    rw [firstSeen_append_singleton]
    split_ifs with hb
    · exact ih
    · exact nodup_append_singleton.mpr ⟨ih, hb⟩

/-- Later elements do not move the ones already seen. -/
theorem firstSeen_isPrefix (l l' : List α) : l.firstSeen <+: (l ++ l').firstSeen := by
  induction l' using List.reverseRecOn with
  | nil => simp
  | append_singleton l' b ih =>
    rw [← append_assoc, firstSeen_append_singleton]
    split_ifs
    · exact ih
    · exact ih.trans (prefix_append _ _)

/-- The position of a seen element is settled once it has been seen. -/
theorem idxOf_firstSeen_append {l l' : List α} {a : α} (h : a ∈ l) :
    (l ++ l').firstSeen.idxOf a = l.firstSeen.idxOf a :=
  ((firstSeen_isPrefix l l').idxOf_eq_of_mem (mem_firstSeen.mpr h)).symm

/-- A run of one new element adds it once. -/
theorem firstSeen_append_const {l l' : List α} {a : α} (ha : a ∉ l) (hne : l' ≠ [])
    (hl' : ∀ b ∈ l', b = a) : (l ++ l').firstSeen = l.firstSeen ++ [a] := by
  induction l' using List.reverseRecOn with
  | nil => exact absurd rfl hne
  | append_singleton l' b ih =>
    have hb : b = a := hl' b (by simp)
    subst hb
    rw [← append_assoc, firstSeen_append_singleton]
    by_cases hnil : l' = []
    · -- the first of the run is new, the others have been seen
      subst hnil
      simp [ha]
    · rw [ih hnil fun c hc => hl' c (by simp [hc]), if_pos (by simp)]

/-- What is seen before the first `b` stands before it. -/
theorem mem_of_idxOf_firstSeen_lt {pre post : List α} {a b : α} (hb : b ∉ pre)
    (h : (pre ++ b :: post).firstSeen.idxOf a < (pre ++ b :: post).firstSeen.idxOf b) :
    a ∈ pre := by
  by_contra ha
  have hsplit : pre ++ b :: post = (pre ++ [b]) ++ post := by simp
  have hseen : (pre ++ [b]).firstSeen = pre.firstSeen ++ [b] := by
    rw [firstSeen_append_singleton, if_neg (mt mem_firstSeen.mp hb)]
  have hidx : (pre ++ b :: post).firstSeen.idxOf b = pre.firstSeen.length := by
    rw [hsplit, idxOf_firstSeen_append (by simp), hseen,
      idxOf_append_of_notMem (mt mem_firstSeen.mp hb), idxOf_cons_self, Nat.add_zero]
  -- `a` is not among what the prefix has seen
  obtain ⟨rest, hrest⟩ := firstSeen_isPrefix pre (b :: post)
  rw [hidx, ← hrest, idxOf_append_of_notMem (mt mem_firstSeen.mp ha)] at h
  omega

/-- Renaming the elements injectively renames the list of first occurrences. -/
theorem firstSeen_map {f : α → β} {l : List α} (hf : ∀ a ∈ l, ∀ b ∈ l, f a = f b → a = b) :
    (l.map f).firstSeen = l.firstSeen.map f := by
  induction l using List.reverseRecOn with
  | nil => rfl
  | append_singleton l b ih =>
    have hl : ∀ a ∈ l, ∀ c ∈ l, f a = f c → a = c := fun a ha c hc =>
      hf a (by simp [ha]) c (by simp [hc])
    -- `f b` has been seen among the images exactly when `b` has been seen
    have hmem : f b ∈ l.firstSeen.map f ↔ b ∈ l.firstSeen := by
      constructor
      · intro h
        obtain ⟨a, ha, hab⟩ := mem_map.mp h
        rwa [← hf a (by simp [mem_firstSeen.mp ha]) b (by simp) hab]
      · exact mem_map_of_mem
    rw [map_append, map_singleton, firstSeen_append_singleton, firstSeen_append_singleton, ih hl]
    by_cases hb : b ∈ l.firstSeen
    · rw [if_pos hb, if_pos (hmem.mpr hb)]
    · rw [if_neg hb, if_neg (mt hmem.mp hb), map_append, map_singleton]

/-- Reordering a list reorders its first occurrences. -/
theorem Perm.firstSeen {l l' : List α} (h : l.Perm l') : l.firstSeen.Perm l'.firstSeen :=
  (perm_ext_iff_of_nodup (nodup_firstSeen l) (nodup_firstSeen l')).mpr fun a => by
    simp [h.mem_iff]

end List

/-- The items of a dictionary in insertion order. -/
abbrev Dict (κ ν : Type) := List (κ × ν)

namespace Dict

variable {κ ν α : Type} [DecidableEq κ] {d : Dict κ ν} {k k' : κ} {v : ν}

/-- The keys in insertion order. -/
def keys (d : Dict κ ν) : List κ := d.map Prod.fst

/-- `d.get(k)`. -/
def get? (d : Dict κ ν) (k : κ) : Option ν := d.lookup k

/-- `d[k] = v`. -/
def set : Dict κ ν → κ → ν → Dict κ ν
  | [], k, v => [(k, v)]
  | (k', v') :: d, k, v => if k' = k then (k, v) :: d else (k', v') :: set d k v

/-- `{k: v for k, v in pairs}`. -/
def ofPairs (pairs : List (κ × ν)) : Dict κ ν :=
  pairs.foldl (fun d p => d.set p.1 p.2) []

@[simp]
theorem get?_nil : get? ([] : Dict κ ν) k = none := rfl

omit [DecidableEq κ] in
@[simp]
theorem keys_nil : keys ([] : Dict κ ν) = [] := rfl

/-- The first entry answers for its own key. -/
theorem get?_cons (k' : κ) (v : ν) (d : Dict κ ν) :
    get? ((k', v) :: d) k = if k' = k then some v else get? d k := by
  by_cases h : k' = k
  · subst h
    simp [get?]
  · have hne : (k == k') = false := by simpa using Ne.symm h
    simp [get?, List.lookup_cons, h, hne]

/-- A new key goes to the end. -/
theorem set_of_notMem (h : k ∉ d.keys) (v : ν) : d.set k v = d ++ [(k, v)] := by
  induction d with
  | nil => rfl
  | cons p d ih =>
    obtain ⟨k', v'⟩ := p
    have hne : k' ≠ k := fun hk => h (by simp [keys, hk])
    have hd : k ∉ keys d := fun hk => h (by simp [keys] at hk ⊢; exact Or.inr hk)
    simp [set, hne, ih hd]

/-- Assigning to a present key keeps the key list. -/
theorem keys_set_of_mem (h : k ∈ d.keys) (v : ν) : (d.set k v).keys = d.keys := by
  induction d with
  | nil => simp at h
  | cons p d ih =>
    obtain ⟨k', v'⟩ := p
    by_cases hk : k' = k
    · subst hk
      simp [set, keys]
    · have hd : k ∈ keys d := by simpa [keys, Ne.symm hk] using h
      simpa [set, hk, keys] using ih hd

/-- A dictionary with distinct keys stays one when a key is set. -/
theorem nodup_keys_set (h : d.keys.Nodup) (k : κ) (v : ν) : (d.set k v).keys.Nodup := by
  by_cases hk : k ∈ d.keys
  · rwa [keys_set_of_mem hk]
  · rw [set_of_notMem hk, keys, List.map_append, List.map_singleton]
    exact List.nodup_append_singleton.mpr ⟨h, hk⟩

/-- The key that was set answers the new value, every other key what it did. -/
theorem get?_set (d : Dict κ ν) (k k' : κ) (v : ν) :
    (d.set k v).get? k' = if k = k' then some v else d.get? k' := by
  induction d with
  | nil => simp [set, get?_cons]
  | cons p d ih =>
    obtain ⟨k₀, v₀⟩ := p
    by_cases h₀ : k₀ = k
    · subst h₀
      by_cases hk : k₀ = k' <;> simp [set, get?_cons, hk]
    · simp only [set, h₀, if_false, get?_cons, ih]
      by_cases hk : k₀ = k'
      · subst hk
        simp [Ne.symm h₀]
      · simp [hk]

/-- An item after an assignment is the new one or an old one. -/
theorem mem_set {p : κ × ν} (h : p ∈ d.set k v) : p = (k, v) ∨ p ∈ d := by
  induction d with
  | nil => simpa [set] using h
  | cons q d ih =>
    obtain ⟨k', v'⟩ := q
    rw [set] at h
    split_ifs at h
    · rcases List.mem_cons.mp h with rfl | h
      · exact .inl rfl
      · exact .inr (List.mem_cons_of_mem _ h)
    · rcases List.mem_cons.mp h with rfl | h
      · exact .inr (by simp)
      · exact (ih h).imp_right (List.mem_cons_of_mem _)

/-- A lookup fails on the keys that are not there. -/
theorem get?_eq_none_iff : d.get? k = none ↔ k ∉ d.keys := by
  induction d with
  | nil => simp
  | cons p d ih =>
    obtain ⟨k', v'⟩ := p
    by_cases hk : k' = k
    · simp [get?_cons, keys, hk]
    · have : (k ∈ keys ((k', v') :: d)) ↔ k ∈ keys d := by simp [keys, Ne.symm hk]
      rw [get?_cons, if_neg hk, ih, this]

/-- Looking up a key finds an item of the dictionary. -/
theorem mem_of_get?_eq_some (h : d.get? k = some v) : (k, v) ∈ d := by
  induction d with
  | nil => simp at h
  | cons p d ih =>
    obtain ⟨k', v'⟩ := p
    rw [get?_cons] at h
    split_ifs at h with hk
    · simp only [Option.some.injEq] at h
      simp [hk, h]
    · exact List.mem_cons_of_mem _ (ih h)

/-- A key that answers is a key of the dictionary. -/
theorem mem_keys_of_get?_eq_some (h : d.get? k = some v) : k ∈ d.keys :=
  List.mem_map_of_mem (f := Prod.fst) (mem_of_get?_eq_some h)

/-- Every key of the dictionary answers. -/
theorem exists_get?_of_mem_keys (h : k ∈ d.keys) : ∃ v, d.get? k = some v :=
  Option.ne_none_iff_exists'.mp (mt get?_eq_none_iff.mp (not_not.mpr h))

/-- With distinct keys, the items are exactly what lookups find. -/
theorem get?_eq_some_iff (hd : d.keys.Nodup) : d.get? k = some v ↔ (k, v) ∈ d := by
  refine ⟨mem_of_get?_eq_some, fun hmem => ?_⟩
  induction d with
  | nil => simp at hmem
  | cons p d ih =>
    obtain ⟨k', v'⟩ := p
    simp only [keys, List.map_cons, List.nodup_cons] at hd
    rw [get?_cons]
    rcases List.mem_cons.mp hmem with heq | hmem
    · simp only [Prod.mk.injEq] at heq
      simp [heq.1, heq.2]
    · -- the first item has another key, since that key does not come again
      have hne : k' ≠ k := by
        rintro rfl
        exact hd.1 (List.mem_map_of_mem (f := Prod.fst) hmem)
      simpa [hne] using ih hd.2 hmem

/-- With distinct keys, the items of a key are what a lookup finds. -/
theorem map_snd_filter_key (hd : d.keys.Nodup) (k : κ) :
    (d.filter fun p => p.1 = k).map Prod.snd = (d.get? k).toList := by
  induction d with
  | nil => rfl
  | cons p d ih =>
    obtain ⟨k', v⟩ := p
    simp only [keys, List.map_cons, List.nodup_cons] at hd
    rw [get?_cons]
    by_cases hk : k' = k
    · -- no later item has this key
      subst hk
      have hrest : (d.filter fun p => p.1 = k') = [] := by
        refine List.filter_eq_nil_iff.mpr fun p hp hpk => hd.1 ?_
        exact of_decide_eq_true hpk ▸ List.mem_map_of_mem (f := Prod.fst) hp
      simp [hrest]
    · simp [hk, ih hd.2]

/-- One more pair sets its key last. -/
theorem ofPairs_append_singleton (pairs : List (κ × ν)) (p : κ × ν) :
    ofPairs (pairs ++ [p]) = (ofPairs pairs).set p.1 p.2 := by
  simp [ofPairs]

/-- A dictionary that is built from pairs has distinct keys. -/
theorem nodup_keys_ofPairs (pairs : List (κ × ν)) : (ofPairs pairs).keys.Nodup := by
  induction pairs using List.reverseRecOn with
  | nil => simp [ofPairs]
  | append_singleton pairs p ih =>
    rw [ofPairs_append_singleton]
    exact nodup_keys_set ih _ _

/-- An item of a comprehension over pairs is one of the pairs. -/
theorem mem_of_mem_ofPairs {pairs : List (κ × ν)} {p : κ × ν} (h : p ∈ ofPairs pairs) :
    p ∈ pairs := by
  induction pairs using List.reverseRecOn with
  | nil => exact h
  | append_singleton pairs q ih =>
    rw [ofPairs_append_singleton] at h
    rw [List.mem_append, List.mem_singleton]
    exact (mem_set h).symm.imp_left ih

/-- A comprehension over pairs with distinct keys lists the pairs. -/
theorem ofPairs_eq_self {pairs : List (κ × ν)} (h : (pairs.map Prod.fst).Nodup) :
    ofPairs pairs = pairs := by
  induction pairs using List.reverseRecOn with
  | nil => rfl
  | append_singleton pairs p ih =>
    rw [List.map_append, List.map_singleton, List.nodup_append_singleton] at h
    have hp : p.1 ∉ keys pairs := h.2
    rw [ofPairs_append_singleton, ih h.1, set_of_notMem hp]

/-- The last of the pairs with a key is the one that is looked up. -/
theorem get?_ofPairs (pairs : List (κ × ν)) (k : κ) :
    (ofPairs pairs).get? k = (pairs.reverse.find? fun p => p.1 = k).map Prod.snd := by
  induction pairs using List.reverseRecOn with
  | nil => rfl
  | append_singleton pairs p ih =>
    rw [ofPairs_append_singleton, get?_set, ih, List.reverse_append, List.reverse_singleton,
      List.singleton_append, List.find?_cons]
    by_cases hk : p.1 = k
    · simp [hk]
    · simp [hk]

/-- A list indexed by distinct keys: an entry is found under its own key. -/
theorem get?_ofPairs_index {key : ν → κ} {l : List ν} (h : (l.map key).Nodup) {k : κ} {v : ν} :
    (ofPairs (l.map fun a => (key a, a))).get? k = some v ↔ v ∈ l ∧ key v = k := by
  have hkeys : ((l.map fun a => (key a, a)).map Prod.fst).Nodup := by
    simpa [Function.comp_def] using h
  rw [ofPairs_eq_self hkeys, get?_eq_some_iff hkeys]
  constructor
  · intro hmem
    obtain ⟨a, ha, hpair⟩ := List.mem_map.mp hmem
    obtain ⟨rfl, rfl⟩ := Prod.mk.inj hpair
    exact ⟨ha, rfl⟩
  · rintro ⟨ha, rfl⟩
    exact List.mem_map.mpr ⟨v, ha, rfl⟩

/-- A dictionary with its values changed. -/
theorem get?_map {ν' : Type} (f : κ → ν → ν') (d : Dict κ ν) (k : κ) :
    get? (d.map fun p => (p.1, f p.1 p.2)) k = (d.get? k).map (f k) := by
  induction d with
  | nil => rfl
  | cons p d ih =>
    obtain ⟨k', v⟩ := p
    rw [List.map_cons, get?_cons, ih, get?_cons]
    split_ifs with hk
    · rw [hk]
      rfl
    · rfl

/-- A dictionary without the items whose keys fail a test. -/
theorem get?_filter (q : κ → Bool) (d : Dict κ ν) (k : κ) :
    get? (d.filter fun p => q p.1) k = if q k = true then d.get? k else none := by
  induction d with
  | nil => simp
  | cons p d ih =>
    obtain ⟨k', v⟩ := p
    by_cases hk : k' = k
    · subst hk
      by_cases hq : q k' = true
      · simp [hq, get?_cons]
      · simp [hq, ih]
    · by_cases hq : q k' = true
      · simp [hq, get?_cons, hk, ih]
      · simp [hq, get?_cons, hk, ih]

/-! ### Grouping -/

/-- `for a in l: d.setdefault(key(a), []).append(a)`. -/
def collect (key : α → κ) (l : List α) : Dict κ (List α) :=
  l.foldl (fun d a => d.set (key a) ((d.get? (key a)).getD [] ++ [a])) []

/-- One more element goes to the end of its group. -/
theorem collect_append_singleton (key : α → κ) (l : List α) (a : α) :
    collect key (l ++ [a]) =
      (collect key l).set (key a) (((collect key l).get? (key a)).getD [] ++ [a]) := by
  simp [collect]

/-- Putting one more element into its group adds it to the elements of all groups. -/
private theorem flatten_values_set (d : Dict κ (List α)) (k : κ) (a : α) :
    ((d.set k ((d.get? k).getD [] ++ [a])).map Prod.snd).flatten.Perm
      ((d.map Prod.snd).flatten ++ [a]) := by
  induction d with
  | nil => simp [set]
  | cons p d ih =>
    obtain ⟨k', v⟩ := p
    by_cases hk : k' = k
    · -- the element goes to the end of this group, in front of the later groups
      subst hk
      simp only [set, if_true, get?_cons, Option.getD_some, List.map_cons, List.flatten_cons,
        List.append_assoc]
      exact List.Perm.append_left v List.perm_append_comm
    · simp only [set, hk, if_false, get?_cons, List.map_cons, List.flatten_cons,
        List.append_assoc]
      exact ih.append_left v

/-- Grouping keeps every element. -/
theorem flatten_collect_perm (key : α → κ) (l : List α) :
    ((collect key l).map Prod.snd).flatten.Perm l := by
  induction l using List.reverseRecOn with
  | nil => simp [collect]
  | append_singleton l a ih =>
    rw [collect_append_singleton]
    exact (flatten_values_set _ _ a).trans (ih.append_right [a])

/-- Looking up a key in a dictionary built key by key. -/
theorem get?_map_self {ks : List κ} {f : κ → ν} :
    get? (ks.map fun k => (k, f k)) k = if k ∈ ks then some (f k) else none := by
  induction ks with
  | nil => simp
  | cons k' ks ih =>
    rw [List.map_cons, get?_cons, ih]
    by_cases hk : k' = k
    · simp [hk]
    · simp [hk, Ne.symm hk]

/-- Assigning to a present key of a dictionary built key by key changes that entry only. -/
private theorem set_map_self {ks : List κ} (hnd : ks.Nodup) (hk : k ∈ ks) (f : κ → ν) (v : ν) :
    set (ks.map fun k => (k, f k)) k v =
      ks.map fun k' => (k', if k' = k then v else f k') := by
  induction ks with
  | nil => simp at hk
  | cons k' ks ih =>
    rw [List.nodup_cons] at hnd
    by_cases hkk : k' = k
    · subst hkk
      simp only [List.map_cons, set, if_true, List.cons.injEq, true_and]
      refine List.map_congr_left fun b hb => ?_
      rw [if_neg]
      rintro rfl
      exact hnd.1 hb
    · have hmem : k ∈ ks := by simpa [Ne.symm hkk] using hk
      simp [set, hkk, ih hnd.2 hmem]

/-- The groups come in the order their keys first appear, and each group lists its members in the
order they came. -/
theorem collect_eq (key : α → κ) (l : List α) :
    collect key l = (l.map key).firstSeen.map fun k => (k, l.filter fun a => key a = k) := by
  induction l using List.reverseRecOn with
  | nil => rfl
  | append_singleton l a ih =>
    rw [collect_append_singleton, ih, List.map_append, List.map_singleton,
      List.firstSeen_append_singleton, get?_map_self]
    by_cases ha : key a ∈ (l.map key).firstSeen
    · -- `a` joins the group of its key, and the other groups are as before
      rw [if_pos ha, if_pos ha, Option.getD_some, set_map_self (List.nodup_firstSeen _) ha]
      refine List.map_congr_left fun k _ => ?_
      by_cases hk : k = key a
      · simp [hk]
      · simp [hk, Ne.symm hk]
    · -- `a` opens a group of its own, behind the others
      have hkeys : key a ∉ keys ((l.map key).firstSeen.map
          fun k => (k, l.filter fun a => key a = k)) := by
        simpa [keys, Function.comp_def] using ha
      have hne : ∀ b ∈ l, key b ≠ key a := by
        intro b hb hba
        exact ha (by simpa using ⟨b, hb, hba⟩)
      rw [if_neg ha, if_neg ha, set_of_notMem hkeys, List.map_append, Option.getD_none]
      congr 1
      · refine List.map_congr_left fun k hk => ?_
        have hka : key a ≠ k := fun h => ha (h ▸ hk)
        simp [hka]
      · simpa using hne

/-- Each key has one group. -/
theorem nodup_keys_collect (key : α → κ) (l : List α) : (collect key l).keys.Nodup := by
  rw [collect_eq, keys, List.map_map]
  simpa [Function.comp_def] using List.nodup_firstSeen (l.map key)

/-- A group has the elements of its key. -/
theorem eq_of_mem_collect {key : α → κ} {l : List α} {p : κ × List α} (hp : p ∈ collect key l)
    {a : α} (ha : a ∈ p.2) : key a = p.1 := by
  rw [collect_eq] at hp
  obtain ⟨k, -, rfl⟩ := List.mem_map.mp hp
  exact of_decide_eq_true (List.mem_filter.mp ha).2

/-- The group of a key lists the elements of the key in the order they came. -/
theorem flatMap_filter_collect (key : α → κ) (l : List α) (k : κ) :
    ((collect key l).filter fun p => p.1 = k).flatMap Prod.snd =
      l.filter fun a => key a = k := by
  rw [List.flatMap_def, map_snd_filter_key (nodup_keys_collect key l), collect_eq, get?_map_self]
  split_ifs with hk
  · simp
  · -- no element has the key
    refine (List.filter_eq_nil_iff.mpr fun a ha hak => hk ?_).symm
    exact List.mem_firstSeen.mpr (of_decide_eq_true hak ▸ List.mem_map_of_mem ha)

end Dict
