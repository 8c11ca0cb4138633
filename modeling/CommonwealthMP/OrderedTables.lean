import Mathlib.Data.List.AList

/-! # Hash tables with an iteration order

A table is a finite map together with the order in which a loop visits its entries. Where
a new entry is put, and whether the others are rehashed, is the container's choice; a
`Placement` is any such choice. Updating or erasing an entry keeps the order of the rest. -/
namespace OrderedTables

abbrev Table (K V : Type*) := AList fun _ : K => V

/-- Where the container puts a new entry: any rearrangement of the entries with the new one. -/
structure Placement (K V : Type*) where
  place : List (Σ _ : K, V) → (Σ _ : K, V) → List (Σ _ : K, V)
  perm : ∀ l e, (place l e).Perm (e :: l)

def Placement.front (K V : Type*) : Placement K V := ⟨fun l e => e :: l, fun _ _ => .refl _⟩

namespace Table
variable {K V : Type*} [DecidableEq K]

def values {K V : Type*} (m : Table K V) : List V := m.entries.map (·.2)

def modifyEntry (k : K) (f : V → V) (e : Σ _ : K, V) : Σ _ : K, V := if e.1 = k then ⟨e.1, f e.2⟩ else e

@[simp] theorem modifyEntry_fst (k : K) (f : V → V) (e : Σ _ : K, V) : (modifyEntry k f e).1 = e.1 := by
  unfold modifyEntry
  split <;> rfl

theorem keys_map_modifyEntry (k : K) (f : V → V) (l : List (Σ _ : K, V)) :
    (l.map (modifyEntry k f)).keys = l.keys := by
  simp [List.keys, Function.comp_def]

def modify (k : K) (f : V → V) (m : Table K V) : Table K V :=
  ⟨m.entries.map (modifyEntry k f), by
    have h := m.nodupKeys
    rw [List.NodupKeys] at h ⊢
    rwa [keys_map_modifyEntry]⟩

def emplace (p : Placement K V) (k : K) (v : V) (m : Table K V) : Table K V :=
  if h : k ∈ m then m
  else ⟨p.place m.entries ⟨k, v⟩, by
    rw [List.perm_nodupKeys (p.perm _ _)]
    exact List.nodupKeys_cons.mpr ⟨h, m.nodupKeys⟩⟩

theorem mem_entries {k : K} {v : V} {m : Table K V} : ⟨k, v⟩ ∈ m.entries ↔ m.lookup k = some v :=
  (AList.mem_lookup_iff (a := k) (b := v) (s := m)).symm

theorem mem_values {v : V} {m : Table K V} : v ∈ m.values ↔ ∃ k, m.lookup k = some v := by
  simp only [values, List.mem_map]
  constructor
  · rintro ⟨⟨k, w⟩, he, rfl⟩
    exact ⟨k, mem_entries.mp he⟩
  · rintro ⟨k, hk⟩
    exact ⟨⟨k, v⟩, mem_entries.mpr hk, rfl⟩

theorem lookup_mem_values {k : K} {v : V} {m : Table K V} (h : m.lookup k = some v) : v ∈ m.values :=
  mem_values.mpr ⟨k, h⟩

theorem nodup_map_values {α : Type*} {f : V → α} {m : Table K V}
    (hf : ∀ k k' v v', m.lookup k = some v → m.lookup k' = some v' → f v = f v' → k = k') : (m.values.map f).Nodup := by
  have hn : m.entries.Nodup := m.nodupKeys.nodup
  rw [values, List.map_map]
  refine hn.map_on ?_
  rintro ⟨k, v⟩ he ⟨k', v'⟩ he' hff
  obtain rfl := hf k k' v v' (mem_entries.mp he) (mem_entries.mp he') hff
  exact m.nodupKeys.eq_of_mk_mem he he' ▸ rfl

theorem values_eq_nil {m : Table K V} : m.values = [] ↔ ∀ k, m.lookup k = none := by
  simp only [List.eq_nil_iff_forall_not_mem, mem_values, not_exists, Option.eq_none_iff_forall_ne_some]
  exact forall_comm

theorem dlookup_map_modifyEntry (k : K) (f : V → V) (l : List (Σ _ : K, V)) (a : K) :
    (l.map (modifyEntry k f)).dlookup a = if a = k then (l.dlookup a).map f else l.dlookup a := by
  induction l with
  | nil => simp
  | cons e l ih =>
    obtain ⟨b, v⟩ := e
    by_cases hb : b = k
    · subst hb
      by_cases ha : a = b
      · subst ha
        simp [modifyEntry]
      · simp [modifyEntry, ha, List.dlookup_cons_ne, ih]
    · by_cases ha : a = b
      · subst ha
        simp [modifyEntry, hb]
      · simp [modifyEntry, hb, ha, List.dlookup_cons_ne, ih]

theorem lookup_modify (k : K) (f : V → V) (m : Table K V) (a : K) :
    (m.modify k f).lookup a = if a = k then (m.lookup a).map f else m.lookup a :=
  dlookup_map_modifyEntry k f m.entries a

@[simp] theorem lookup_modify_self (k : K) (f : V → V) (m : Table K V) :
    (m.modify k f).lookup k = (m.lookup k).map f := by
  simp [lookup_modify]

theorem lookup_modify_ne {k a : K} (f : V → V) (m : Table K V) (h : a ≠ k) :
    (m.modify k f).lookup a = m.lookup a := by
  simp [lookup_modify, h]

@[simp] theorem mem_modify {k a : K} {f : V → V} {m : Table K V} : a ∈ m.modify k f ↔ a ∈ m := by
  rw [AList.mem_keys, AList.mem_keys]
  exact iff_of_eq (congrArg (a ∈ ·) (keys_map_modifyEntry k f m.entries))

theorem modifyEntry_eq_self {k : K} {f : V → V} {l : List (Σ _ : K, V)} (h : ∀ v, ⟨k, v⟩ ∈ l → f v = v) :
    l.map (modifyEntry k f) = l := by
  refine (List.map_congr_left (g := id) fun e hmem => ?_).trans (List.map_id _)
  obtain ⟨a, v⟩ := e
  rw [modifyEntry]
  split
  · rename_i ha
    dsimp only at ha
    subst ha
    rw [h v hmem, id]
  · rfl

theorem modify_modify (k : K) (f g : V → V) (m : Table K V) : (m.modify k f).modify k g = m.modify k (g ∘ f) := by
  refine AList.ext ?_
  change (m.entries.map (modifyEntry k f)).map (modifyEntry k g) = m.entries.map (modifyEntry k (g ∘ f))
  rw [List.map_map]
  refine List.map_congr_left fun e _ => ?_
  by_cases he : e.1 = k <;> simp [modifyEntry, he]

theorem modify_congr {k : K} {f g : V → V} {m : Table K V} (h : ∀ v, m.lookup k = some v → f v = g v) :
    m.modify k f = m.modify k g := by
  refine AList.ext (List.map_congr_left fun e hmem => ?_)
  obtain ⟨a, v⟩ := e
  rw [modifyEntry, modifyEntry]
  split
  · rename_i ha
    dsimp only at ha
    subst ha
    rw [h v (mem_entries.mp hmem)]
  · rfl

theorem modify_eq_self {k : K} {f : V → V} {m : Table K V} (h : ∀ v, m.lookup k = some v → f v = v) :
    m.modify k f = m :=
  AList.ext (modifyEntry_eq_self fun v hv => h v (mem_entries.mp hv))

theorem kerase_map_modifyEntry (k : K) (f : V → V) {l : List (Σ _ : K, V)} (hl : l.NodupKeys) :
    (l.map (modifyEntry k f)).kerase k = l.kerase k := by
  induction l with
  | nil => rfl
  | cons e l ih =>
    obtain ⟨hk, hl⟩ := List.nodupKeys_cons.mp hl
    by_cases he : k = e.1
    · subst he
      rw [List.map_cons, List.kerase_cons_eq (by simp), List.kerase_cons_eq rfl]
      exact modifyEntry_eq_self fun v hv => absurd (List.mem_keys_of_mem hv) hk
    · rw [List.map_cons, List.kerase_cons_ne (by simpa using he), List.kerase_cons_ne he, ih hl, modifyEntry,
        if_neg (Ne.symm he)]

@[simp] theorem erase_modify (k : K) (f : V → V) (m : Table K V) : (m.modify k f).erase k = m.erase k :=
  AList.ext (kerase_map_modifyEntry k f m.nodupKeys)

theorem emplace_of_mem (p : Placement K V) {k : K} (v : V) {m : Table K V} (h : k ∈ m) :
    m.emplace p k v = m := dif_pos h

theorem entries_emplace (p : Placement K V) {k : K} (v : V) {m : Table K V} (h : k ∉ m) :
    (m.emplace p k v).entries = p.place m.entries ⟨k, v⟩ := by
  rw [emplace, dif_neg h]

theorem lookup_emplace (p : Placement K V) {k : K} (v : V) {m : Table K V} (h : k ∉ m) (a : K) :
    (m.emplace p k v).lookup a = if a = k then some v else m.lookup a := by
  have hp : (m.emplace p k v).entries.Perm (m.insert k v).entries := by
    rw [entries_emplace p v h, AList.entries_insert_of_notMem h]
    exact p.perm _ _
  rw [AList.perm_lookup hp]
  by_cases ha : a = k
  · subst ha
    simp
  · simp [ha, AList.lookup_insert_ne]

theorem lookup_emplace_ne (p : Placement K V) {k a : K} (v : V) (m : Table K V) (h : a ≠ k) :
    (m.emplace p k v).lookup a = m.lookup a := by
  by_cases hm : k ∈ m
  · rw [emplace_of_mem p v hm]
  · rw [lookup_emplace p v hm, if_neg h]

theorem exists_lookup_emplace (p : Placement K V) (k : K) (v : V) (m : Table K V) : ∃ v', (m.emplace p k v).lookup k = some v' := by
  by_cases hm : k ∈ m
  · rw [emplace_of_mem p v hm]
    exact Option.isSome_iff_exists.mp (AList.lookup_isSome.mpr hm)
  · rw [lookup_emplace p v hm, if_pos rfl]
    exact ⟨v, rfl⟩

theorem lookup_insert (k : K) (v : V) (m : Table K V) (a : K) :
    (m.insert k v).lookup a = if a = k then some v else m.lookup a := by
  by_cases ha : a = k
  · subst ha
    simp
  · simp [ha, AList.lookup_insert_ne]

theorem lookup_erase (k : K) (m : Table K V) (a : K) :
    (m.erase k).lookup a = if a = k then none else m.lookup a := by
  by_cases ha : a = k
  · subst ha
    simp
  · simp [ha, AList.lookup_erase_ne]

def size {K V : Type*} (m : Table K V) : ℕ := m.entries.length

theorem size_emplace (p : Placement K V) {k : K} (v : V) {m : Table K V} (h : k ∉ m) :
    (m.emplace p k v).size = m.size + 1 := by
  rw [size, entries_emplace p v h, (p.perm _ _).length_eq, List.length_cons, size]

@[simp] theorem size_modify (k : K) (f : V → V) (m : Table K V) : (m.modify k f).size = m.size := by
  simp [size, modify]

theorem size_emplace_le (p : Placement K V) (k : K) (v : V) (m : Table K V) : (m.emplace p k v).size ≤ m.size + 1 := by
  by_cases h : k ∈ m
  · rw [emplace_of_mem p v h]
    exact Nat.le_succ _
  · exact le_of_eq (size_emplace p v h)

/-- A table with more entries has a new key. -/
theorem exists_new_key {m m' : Table K V} (h : m.size < m'.size) : ∃ k, k ∈ m' ∧ k ∉ m := by
  by_contra hnone
  push Not at hnone
  have hsub : m'.keys ⊆ m.keys := fun k hk => hnone k hk
  have hlen := (List.subperm_of_subset m'.keys_nodup hsub).length_le
  simp only [AList.keys, List.keys, List.length_map] at hlen
  exact absurd h (not_lt.mpr hlen)

omit [DecidableEq K] in
/-- A table whose keys are all images of the keys of another has no more entries than that. -/
theorem size_le_of_keys {L W : Type*} [DecidableEq L] {m : Table K V} {n : Table L W} {key : L → K}
    (h : ∀ k ∈ m, ∃ l ∈ n, k = key l) : m.size ≤ n.size := by
  have hsub : m.keys ⊆ n.keys.map key := by
    intro k hk
    obtain ⟨l, hl, rfl⟩ := h k hk
    exact List.mem_map_of_mem hl
  have hlen := (List.subperm_of_subset m.keys_nodup hsub).length_le
  simp only [AList.keys, List.keys, List.length_map] at hlen
  exact hlen

end Table
end OrderedTables
