import RedisPvxsIoc.Foundations.Effect
import Mathlib.Data.List.Nodup
import Mathlib.Order.Lattice

/-!
# Finite Maps with Ordered Keys

`FinMap κ α` is an association list whose keys are strictly increasing; the order is a
field of the structure, so two maps with the same look-ups are equal and an iteration
visits the keys in order.  It stands for ordered maps as well as for hash maps whose
iteration order nobody observes.

## Main definitions

- `FinMap.find?`, `FinMap.insert`, `FinMap.emplace`, `FinMap.erase`, `FinMap.keys`
- `FinMap.Adds`

## Main results

- `FinMap.find?_insert`, `FinMap.find?_emplace`, `FinMap.find?_erase`
- `FinMap.mem_entries`, `FinMap.mem_keys_ofList`, `FinMap.ext_find?`
- `FinMap.foldlM_adds_iff`
-/

namespace RedisPvxsIoc.Foundations

/-- A finite map, stored as an association list with strictly increasing keys. -/
structure FinMap (κ : Type*) (α : Type*) [LinearOrder κ] where
  entries : List (κ × α)
  sorted : (entries.map Prod.fst).Pairwise (· < ·)

namespace FinMap

variable {κ : Type*} {α : Type*} [LinearOrder κ]

instance [DecidableEq α] : DecidableEq (FinMap κ α) := fun a b =>
  decidable_of_iff (a.entries = b.entries) (by cases a; cases b; simp)

/-! ## Operations on association lists -/

/-- Insert into a sorted association list, replacing the value of an existing key. -/
def insertList (k : κ) (v : α) : List (κ × α) → List (κ × α)
  | [] => [(k, v)]
  | (k', v') :: rest =>
    if k < k' then (k, v) :: (k', v') :: rest
    else if k = k' then (k, v) :: rest
    else (k', v') :: insertList k v rest

variable {k x : κ} {v : α}

variable {l : List (κ × α)}

theorem mem_keys_insertList :
    x ∈ (insertList k v l).map Prod.fst ↔ x = k ∨ x ∈ l.map Prod.fst := by
  induction l with
  | nil => simp [insertList]
  | cons p rest ih =>
    obtain ⟨k', v'⟩ := p
    unfold insertList
    split_ifs with hlt heq
    · simp
    · subst heq
      simp
    · simp only [List.map_cons, List.mem_cons, ih]
      tauto

theorem sorted_insertList (k : κ) (v : α) (h : (l.map Prod.fst).Pairwise (· < ·)) :
    ((insertList k v l).map Prod.fst).Pairwise (· < ·) := by
  induction l with
  | nil => simp [insertList]
  | cons p rest ih =>
    obtain ⟨k', v'⟩ := p
    obtain ⟨hhead, htail⟩ := List.pairwise_cons.mp h
    unfold insertList
    split_ifs with hlt heq
    · refine List.pairwise_cons.mpr ⟨?_, h⟩
      intro x hx
      rcases List.mem_cons.mp hx with rfl | hx
      · exact hlt
      · exact lt_trans hlt (hhead x hx)
    · subst heq
      exact h
    · refine List.pairwise_cons.mpr ⟨?_, ih htail⟩
      intro x hx
      rcases mem_keys_insertList.mp hx with rfl | hx
      · exact lt_of_le_of_ne (not_lt.mp hlt) (Ne.symm heq)
      · exact hhead x hx

/-! ## The map operations -/

/-- The map without entries. -/
def empty : FinMap κ α := ⟨[], List.Pairwise.nil⟩

instance : EmptyCollection (FinMap κ α) := ⟨empty⟩

instance : Inhabited (FinMap κ α) := ⟨empty⟩

/-- The value stored under a key. -/
def find? (m : FinMap κ α) (k : κ) : Option α :=
  (m.entries.find? fun p => p.1 = k).map Prod.snd

/-- Store a value under a key, replacing what was there. -/
def insert (m : FinMap κ α) (k : κ) (v : α) : FinMap κ α :=
  ⟨insertList k v m.entries, sorted_insertList k v m.sorted⟩

/-- Remove a key. -/
def erase (m : FinMap κ α) (k : κ) : FinMap κ α :=
  ⟨m.entries.filter fun p => p.1 ≠ k, m.sorted.sublist (List.filter_sublist.map _)⟩

/-- Whether a key is present. -/
def contains (m : FinMap κ α) (k : κ) : Bool := (m.find? k).isSome

/-- Store a value unless the key is present already. -/
def emplace (m : FinMap κ α) (k : κ) (v : α) : FinMap κ α :=
  if m.contains k then m else m.insert k v

/-- The keys in increasing order. -/
def keys (m : FinMap κ α) : List κ := m.entries.map Prod.fst

/-- The number of entries. -/
def size (m : FinMap κ α) : Nat := m.entries.length

/-- Change every value, keeping the keys. -/
def mapValues {β : Type*} (f : α → β) (m : FinMap κ α) : FinMap κ β :=
  ⟨m.entries.map fun p => (p.1, f p.2), by
    rw [List.map_map]
    exact m.sorted⟩

/-- Emplace the pairs of a list from left to right. -/
def ofList (l : List (κ × α)) : FinMap κ α :=
  l.foldl (fun m p => m.emplace p.1 p.2) ∅

/-! ## Look-ups -/

@[simp] theorem find?_empty (k : κ) : (∅ : FinMap κ α).find? k = none := rfl

@[simp] theorem entries_empty : (∅ : FinMap κ α).entries = [] := rfl

private theorem find?_insertList (k : κ) (v : α) (x : κ) (l : List (κ × α)) :
    ((insertList k v l).find? fun p => p.1 = x).map Prod.snd =
      if x = k then some v else (l.find? fun p => p.1 = x).map Prod.snd := by
  induction l with
  | nil =>
    by_cases hx : k = x
    · simp [insertList, hx]
    · simp [insertList, hx, Ne.symm hx]
  | cons p rest ih =>
    obtain ⟨k', v'⟩ := p
    by_cases hx : x = k
    · -- the inserted key itself: it is met before any other entry with that key
      subst hx
      by_cases hlt : x < k'
      · simp [insertList, hlt]
      · by_cases heq : x = k'
        · simp [insertList, heq]
        · have hne : k' ≠ x := Ne.symm heq
          simpa [insertList, hlt, heq, hne] using ih
    · have hkx : k ≠ x := Ne.symm hx
      by_cases hlt : k < k'
      · simp [insertList, hlt, hx, hkx]
      · by_cases heq : k = k'
        · subst heq
          simp [insertList, hx, hkx]
        · by_cases hk' : k' = x
          · subst hk'
            simp [insertList, hlt, heq, hx]
          · simpa [insertList, hlt, heq, hx, hk'] using ih

theorem find?_insert (m : FinMap κ α) (k x : κ) (v : α) :
    (m.insert k v).find? x = if x = k then some v else m.find? x :=
  find?_insertList k v x m.entries

@[simp] theorem find?_insert_self (m : FinMap κ α) (k : κ) (v : α) :
    (m.insert k v).find? k = some v := by
  simp [find?_insert]

theorem find?_insert_ne (m : FinMap κ α) (v : α) (h : x ≠ k) :
    (m.insert k v).find? x = m.find? x := by
  simp [find?_insert, h]

theorem find?_erase (m : FinMap κ α) (k x : κ) :
    (m.erase k).find? x = if x = k then none else m.find? x := by
  obtain ⟨l, hsorted⟩ := m
  unfold find? erase
  induction l with
  | nil => simp
  | cons p rest ih =>
    obtain ⟨k', v'⟩ := p
    have hrest := ih (List.pairwise_cons.mp hsorted).2
    by_cases hk' : k' = k
    · subst hk'
      by_cases hx : x = k'
      · simp [hx]
      · simpa [hx, Ne.symm hx] using hrest
    · by_cases hx : k' = x
      · subst hx
        simp [hk']
      · simpa [hk', hx] using hrest

@[simp] theorem find?_erase_self (m : FinMap κ α) (k : κ) : (m.erase k).find? k = none := by
  simp [find?_erase]

@[simp] theorem find?_mapValues {β : Type*} (f : α → β) (m : FinMap κ α) (k : κ) :
    (m.mapValues f).find? k = (m.find? k).map f := by
  simp only [find?, mapValues, List.find?_map, Option.map_map]
  rfl

theorem contains_iff (m : FinMap κ α) (k : κ) : m.contains k = true ↔ ∃ v, m.find? k = some v := by
  simp [contains, Option.isSome_iff_exists]

theorem find?_emplace (m : FinMap κ α) (k x : κ) (v : α) :
    (m.emplace k v).find? x = if x = k then some ((m.find? k).getD v) else m.find? x := by
  unfold emplace contains
  cases hk : m.find? k with
  | none => simp [find?_insert]
  | some w =>
    by_cases hx : x = k
    · subst hx
      simp [hk]
    · simp [hx]

/-! ## Entries and keys -/

theorem keys_nodup (m : FinMap κ α) : m.keys.Nodup :=
  m.sorted.imp fun h => ne_of_lt h

theorem mem_entries (m : FinMap κ α) :
    (k, v) ∈ m.entries ↔ m.find? k = some v := by
  obtain ⟨l, hsorted⟩ := m
  unfold find?
  induction l with
  | nil => simp
  | cons p rest ih =>
    obtain ⟨k', v'⟩ := p
    obtain ⟨hhead, htail⟩ := List.pairwise_cons.mp hsorted
    by_cases hk : k' = k
    · subst hk
      have hnot : (k', v) ∉ rest := by
        intro hmem
        exact lt_irrefl k' (hhead k' (List.mem_map_of_mem (f := Prod.fst) hmem))
      simp [hnot, eq_comm]
    · simpa [hk, Ne.symm hk] using ih htail

theorem mem_keys (m : FinMap κ α) : k ∈ m.keys ↔ ∃ v, m.find? k = some v := by
  simp only [keys, List.mem_map, Prod.exists, exists_and_right, exists_eq_right, mem_entries]

theorem mem_keys_insert (m : FinMap κ α) :
    x ∈ (m.insert k v).keys ↔ x ∈ m.keys ∨ x = k := by
  rw [or_comm]
  exact mem_keys_insertList

theorem mem_keys_emplace (m : FinMap κ α) :
    x ∈ (m.emplace k v).keys ↔ x = k ∨ x ∈ m.keys := by
  rw [mem_keys, mem_keys, find?_emplace]
  by_cases hx : x = k
  · subst hx
    simp
  · simp [hx]

/-- `emplace` of a key that is not there. -/
theorem find?_emplace_new (m : FinMap κ α) (hnew : k ∉ m.keys) (v : α) (x : κ) :
    (m.emplace k v).find? x = if x = k then some v else m.find? x := by
  have hnone : m.find? k = none := by
    cases hfind : m.find? k with
    | none => rfl
    | some v' => exact absurd (m.mem_keys.mpr ⟨v', hfind⟩) hnew
  rw [find?_emplace, hnone, Option.getD_none]

theorem mem_keys_iff_contains (m : FinMap κ α) : k ∈ m.keys ↔ m.contains k = true := by
  rw [mem_keys, contains_iff]

@[simp] theorem length_keys (m : FinMap κ α) : m.keys.length = m.size := by
  simp [keys, size]

/-- Emplacing a list leaves the first value of every key. -/
private theorem find?_foldl_emplace (l : List (κ × α)) (m : FinMap κ α) (k : κ) :
    (l.foldl (fun m p => m.emplace p.1 p.2) m).find? k =
      (m.find? k).or ((l.find? fun p => p.1 = k).map Prod.snd) := by
  induction l generalizing m with
  | nil => simp
  | cons p rest ih =>
    rw [List.foldl_cons, ih, find?_emplace]
    by_cases hk : k = p.1
    · subst hk
      cases m.find? p.1 <;> simp
    · have hne : ¬ p.1 = k := fun h => hk h.symm
      simp [hk, hne]

theorem find?_ofList (l : List (κ × α)) (k : κ) :
    (ofList l).find? k = (l.find? fun p => p.1 = k).map Prod.snd := by
  rw [ofList, find?_foldl_emplace, find?_empty, Option.none_or]

theorem mem_keys_ofList (l : List (κ × α)) :
    k ∈ (ofList l).keys ↔ k ∈ l.map Prod.fst := by
  rw [mem_keys, find?_ofList]
  constructor
  · rintro ⟨v, hv⟩
    obtain ⟨p, hp, -⟩ := Option.map_eq_some_iff.mp hv
    have hkey : p.1 = k := by simpa using List.find?_some hp
    exact List.mem_map.mpr ⟨p, List.mem_of_find?_eq_some hp, hkey⟩
  · intro hmem
    obtain ⟨p, hp, hkey⟩ := List.mem_map.mp hmem
    cases hfind : l.find? fun p => p.1 = k with
    | none =>
      have := List.find?_eq_none.mp hfind p hp
      simp [hkey] at this
    | some q => exact ⟨q.2, rfl⟩

/-- With distinct keys every pair of the list is found. -/
theorem find?_ofList_of_mem (hnodup : (l.map Prod.fst).Nodup) (hmem : (k, v) ∈ l) :
    (ofList l).find? k = some v := by
  rw [find?_ofList]
  induction l with
  | nil => cases hmem
  | cons p rest ih =>
    rw [List.map_cons, List.nodup_cons] at hnodup
    rcases List.mem_cons.mp hmem with rfl | hrest
    · simp
    · have hne : ¬ p.1 = k := by
        intro hkey
        exact hnodup.1 (List.mem_map.mpr ⟨(k, v), hrest, hkey.symm⟩)
      simpa [hne] using ih hnodup.2 hrest

theorem mem_of_find?_ofList (h : (ofList l).find? k = some v) : (k, v) ∈ l := by
  rw [find?_ofList] at h
  obtain ⟨p, hp, rfl⟩ := Option.map_eq_some_iff.mp h
  have hkey : p.1 = k := by simpa using List.find?_some hp
  rw [← hkey]
  exact List.mem_of_find?_eq_some hp

/-- Maps with the same look-ups are equal: the sorted representation is canonical. -/
theorem ext_find? {m m' : FinMap κ α} (h : ∀ k, m.find? k = m'.find? k) : m = m' := by
  have hmem : ∀ p, p ∈ m.entries ↔ p ∈ m'.entries := by
    rintro ⟨k, v⟩
    rw [mem_entries, mem_entries, h]
  have hlt : ∀ m : FinMap κ α, m.entries.Pairwise fun p q => p.1 < q.1 :=
    fun m => List.pairwise_map.mp m.sorted
  have hnodup : ∀ m : FinMap κ α, m.entries.Nodup :=
    fun m => List.Nodup.of_map Prod.fst m.keys_nodup
  have hperm := (List.perm_ext_iff_of_nodup (hnodup m) (hnodup m')).mpr hmem
  have heq : m.entries = m'.entries :=
    hperm.eq_of_pairwise (fun p q _ _ hpq hqp => absurd hqp (lt_asymm hpq)) (hlt m) (hlt m')
  cases m
  cases m'
  cases heq
  rfl

/-! ## Adding a list of new keys -/

/-- `m'` is `m` with the entries of `l`, whose keys are new and distinct. -/
structure Adds (m : FinMap κ α) (l : List (κ × α)) (m' : FinMap κ α) : Prop where
  fresh : ∀ p ∈ l, p.1 ∉ m.keys
  distinct : (l.map Prod.fst).Nodup
  find : ∀ k v, m'.find? k = some v ↔ m.find? k = some v ∨ (k, v) ∈ l

section Adds

variable {m m' m'' : FinMap κ α} {l l' : List (κ × α)}

theorem Adds.mem_keys (h : Adds m l m') : k ∈ m'.keys ↔ k ∈ m.keys ∨ k ∈ l.map Prod.fst := by
  simp only [FinMap.mem_keys, h.find, exists_or, List.mem_map, Prod.exists, exists_and_right,
    exists_eq_right]

theorem Adds.unique (h : Adds m l m') (h' : Adds m l m'') : m' = m'' := by
  refine ext_find? fun k => ?_
  apply Option.ext
  intro v
  rw [h.find, h'.find]

theorem adds_nil (m : FinMap κ α) : Adds m [] m := ⟨by simp, List.nodup_nil, by simp⟩

/-- Look-ups when the first of some new entries has been inserted. -/
theorem find?_insert_or_mem {p : κ × α} (hnew : p.1 ∉ m.keys) (hnot : p.1 ∉ l.map Prod.fst) :
    ((m.insert p.1 p.2).find? k = some v ∨ (k, v) ∈ l) ↔
      (m.find? k = some v ∨ (k, v) ∈ p :: l) := by
  rw [find?_insert, List.mem_cons]
  by_cases hk : k = p.1
  · subst hk
    have hnone : m.find? p.1 ≠ some v := fun hfind => hnew (m.mem_keys.mpr ⟨v, hfind⟩)
    have hrest : (p.1, v) ∉ l := fun hmem => hnot (List.mem_map.mpr ⟨_, hmem, rfl⟩)
    simp [hnone, hrest, Prod.ext_iff, eq_comm]
  · simp [hk, Prod.ext_iff]

theorem adds_cons {p : κ × α} :
    Adds m (p :: l) m' ↔ p.1 ∉ m.keys ∧ Adds (m.insert p.1 p.2) l m' := by
  constructor
  · intro h
    obtain ⟨hnot, hdistinct⟩ := List.nodup_cons.mp h.distinct
    have hnew := h.fresh p List.mem_cons_self
    refine ⟨hnew, ?_, hdistinct, ?_⟩
    · intro q hq hmem
      rcases (m.mem_keys_insert).mp hmem with hold | heq
      · exact h.fresh q (List.mem_cons_of_mem _ hq) hold
      · exact hnot (heq ▸ List.mem_map_of_mem hq)
    · intro k v
      rw [h.find]
      exact (find?_insert_or_mem hnew hnot).symm
  · rintro ⟨hnew, h⟩
    have hnot : p.1 ∉ l.map Prod.fst := by
      intro hmem
      obtain ⟨q, hq, heq⟩ := List.mem_map.mp hmem
      exact h.fresh q hq (m.mem_keys_insert.mpr (.inr heq))
    refine ⟨?_, List.nodup_cons.mpr ⟨hnot, h.distinct⟩, ?_⟩
    · intro q hq
      rcases List.mem_cons.mp hq with rfl | hq
      · exact hnew
      · exact fun hmem => h.fresh q hq (m.mem_keys_insert.mpr (.inl hmem))
    · intro k v
      rw [h.find]
      exact find?_insert_or_mem hnew hnot

theorem adds_append : Adds m (l ++ l') m'' ↔ ∃ m', Adds m l m' ∧ Adds m' l' m'' := by
  induction l generalizing m with
  | nil =>
    constructor
    · intro h
      exact ⟨m, adds_nil m, h⟩
    · rintro ⟨m', h, h'⟩
      rwa [(adds_nil m).unique h]
  | cons p l ih =>
    simp only [List.cons_append, adds_cons, ih]
    constructor
    · rintro ⟨hnew, m', h, h'⟩
      exact ⟨m', ⟨hnew, h⟩, h'⟩
    · rintro ⟨m', ⟨hnew, h⟩, h'⟩
      exact ⟨hnew, m', h, h'⟩

/-- Emplacing entries whose keys are new and distinct. -/
theorem adds_emplace (hfresh : ∀ p ∈ l, p.1 ∉ m.keys) (hdistinct : (l.map Prod.fst).Nodup) :
    Adds m l (l.foldl (fun acc p => acc.emplace p.1 p.2) m) := by
  induction l generalizing m with
  | nil => exact adds_nil m
  | cons p l ih =>
    obtain ⟨hnot, hrest⟩ := List.nodup_cons.mp hdistinct
    have hnew := hfresh p List.mem_cons_self
    have hemplace : m.emplace p.1 p.2 = m.insert p.1 p.2 := by
      unfold emplace
      rw [if_neg]
      exact fun hmem => hnew (m.mem_keys_iff_contains.mpr hmem)
    rw [List.foldl_cons, hemplace, adds_cons]
    refine ⟨hnew, ih ?_ hrest⟩
    intro q hq hmem
    rcases m.mem_keys_insert.mp hmem with hold | heq
    · exact hfresh q (List.mem_cons_of_mem _ hq) hold
    · exact hnot (heq ▸ List.mem_map_of_mem hq)

/-- A loop each turn of which adds some entries adds all of them. -/
theorem foldlM_adds_iff {κ α ξ ε : Type} [LinearOrder κ]
    {f : FinMap κ α → ξ → Except ε (FinMap κ α)} {found : ξ → Prop}
    {entries : ξ → List (κ × α)}
    (hf : ∀ acc x acc', f acc x = .ok acc' ↔ found x ∧ acc.Adds (entries x) acc')
    (l : List ξ) (m m' : FinMap κ α) :
    l.foldlM f m = .ok m' ↔ (∀ x ∈ l, found x) ∧ m.Adds (l.flatMap entries) m' := by
  induction l generalizing m with
  | nil =>
    constructor
    · intro h
      cases h
      exact ⟨by simp, adds_nil _⟩
    · rintro ⟨-, h⟩
      rw [h.unique (adds_nil m)]
      rfl
  | cons x l ih =>
    rw [List.foldlM_cons, bind_eq_ok, List.flatMap_cons, adds_append, List.forall_mem_cons]
    constructor
    · rintro ⟨mid, hx, hrest⟩
      obtain ⟨hfound, hadds⟩ := (hf _ _ _).mp hx
      obtain ⟨hall, hadds'⟩ := (ih mid).mp hrest
      exact ⟨⟨hfound, hall⟩, mid, hadds, hadds'⟩
    · rintro ⟨⟨hfound, hall⟩, mid, hadds, hadds'⟩
      exact ⟨mid, (hf _ _ _).mpr ⟨hfound, hadds⟩, (ih mid).mpr ⟨hall, hadds'⟩⟩

end Adds

end FinMap

end RedisPvxsIoc.Foundations
