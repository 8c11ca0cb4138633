import CommonwealthMP.QuotedText
import CommonwealthMP.PlayerRecords

/-! # The ban file

The ban file is a list of quoted keys. It is read by a search for quotation marks and written without
escapes, so it is read back because every banned key is sanitized. -/
namespace CommonwealthMP
open ByteLayout

/-- Sanitizing the key leaves it, and it is not empty. -/
structure SaneKey (key : Bytes) : Prop where
  nonempty : key ≠ []
  fixed : sanitizePlayerKey key [] = key

theorem sanitizePlayerKey_of_kept {key : Bytes} (hkept : ∀ c ∈ key, (isAlnum c || c == 45 || c == 95) = true)
    (hne : key ≠ []) (hlen : key.length ≤ kPlayerKeyMax) (fallback : Bytes) : sanitizePlayerKey key fallback = key := by
  rw [sanitizePlayerKey, List.filter_eq_self.mpr hkept, if_neg hne, List.take_of_length_le hlen]

/-- A second pass changes nothing, the cut included. -/
theorem sane_sanitizePlayerKey {raw fallback : Bytes} (hf : fallback = [] ∨ SaneKey fallback)
    (h : sanitizePlayerKey raw fallback ≠ []) : SaneKey (sanitizePlayerKey raw fallback) := by
  refine ⟨h, ?_⟩
  by_cases hout : raw.filter (fun c => isAlnum c || c == 45 || c == 95) = []
  · have he : sanitizePlayerKey raw fallback = fallback := by rw [sanitizePlayerKey, if_pos hout]
    rw [he] at h ⊢
    exact (hf.resolve_left h).fixed
  · have he : sanitizePlayerKey raw fallback =
        (raw.filter fun c => isAlnum c || c == 45 || c == 95).take kPlayerKeyMax := by
      rw [sanitizePlayerKey, if_neg hout]
    rw [he] at h ⊢
    refine sanitizePlayerKey_of_kept (fun c hc => ?_) h (List.length_take_le _ _) []
    exact (List.mem_filter.mp (List.mem_of_mem_take hc)).2

theorem sane_player : SaneKey (ascii "player") := ⟨by decide, by decide⟩

theorem sane_key (raw : Bytes) : SaneKey (sanitizePlayerKey raw (ascii "player")) :=
  sane_sanitizePlayerKey (.inr sane_player) (sanitizePlayerKey_ne_nil raw)

theorem SaneKey.length_le {key : Bytes} (h : SaneKey key) : key.length ≤ 31 := by
  have hfixed := h.fixed
  rw [sanitizePlayerKey] at hfixed
  split at hfixed
  · exact absurd hfixed.symm h.nonempty
  · rw [← hfixed]
    exact List.length_take_le _ _

theorem SaneKey.noMark {key : Bytes} (h : SaneKey key) : 34 ∉ key := by
  intro hmem
  rw [← h.fixed] at hmem
  rw [sanitizePlayerKey] at hmem
  split at hmem
  · exact absurd hmem List.not_mem_nil
  · exact absurd (List.mem_filter.mp (List.mem_of_mem_take hmem)).2 (by decide)

/-- The next quoted word, and what follows it. -/
def scanQuoted (text : Bytes) : Option (Bytes × Bytes) :=
  (QuotedText.afterMark 34 text).bind fun rest =>
    (QuotedText.upTo 34 rest).map fun word => (word, rest.drop (word.length + 1))

theorem afterMark_length_lt {c : UInt8} {text rest : Bytes} (h : QuotedText.afterMark c text = some rest) :
    rest.length < text.length := by
  induction text with
  | nil => cases h
  | cons a text ih =>
    rw [QuotedText.afterMark] at h
    rw [List.length_cons]
    split at h
    · rw [Option.some.inj h]
      exact Nat.lt_succ_self _
    · exact Nat.lt_succ_of_lt (ih h)

theorem scanQuoted_length_lt {text word rest : Bytes} (h : scanQuoted text = some (word, rest)) :
    rest.length < text.length := by
  obtain ⟨mid, hmid, h⟩ := Option.bind_eq_some_iff.mp h
  obtain ⟨_, -, h⟩ := Option.map_eq_some_iff.mp h
  rw [← (Prod.mk.inj h).2, List.length_drop]
  exact (Nat.sub_le _ _).trans_lt (afterMark_length_lt hmid)

def loadBansFrom (bans : List Bytes) (text : Bytes) : List Bytes :=
  match _hscan : scanQuoted text with
  | none => bans
  | some (word, rest) =>
    let key := sanitizePlayerKey word []
    loadBansFrom (if key = [] then bans else bans.insert key) rest
termination_by text.length
decreasing_by exact scanQuoted_length_lt _hscan

/-- `load_bans`; there may be no file. -/
def loadBans : Option Bytes → List Bytes
  | none => []
  | some text => loadBansFrom [] text

/-- The bans that `main` starts with: the file's, and those of the configuration. -/
def startBans (file : Option Bytes) (banKeys : List Bytes) : List Bytes :=
  banKeys.foldl (fun bans banKey => bans.insert (sanitizePlayerKey banKey (ascii "player"))) (loadBans file)

theorem sane_insert {bans : List Bytes} (h : ∀ k ∈ bans, SaneKey k) {key : Bytes} (hkey : SaneKey key) :
    ∀ k ∈ bans.insert key, SaneKey k := by
  intro k hk
  rcases List.mem_insert_iff.mp hk with rfl | hk
  · exact hkey
  · exact h k hk

theorem sane_loadBansFrom {bans : List Bytes} (h : ∀ k ∈ bans, SaneKey k) (text : Bytes) :
    ∀ k ∈ loadBansFrom bans text, SaneKey k := by
  fun_induction loadBansFrom bans text with
  | case1 bans text _ => exact h
  | case2 bans text word rest _ key ih =>
    apply ih
    split
    · exact h
    · rename_i hne
      exact sane_insert h (sane_sanitizePlayerKey (.inl rfl) hne)

theorem sane_loadBans (file : Option Bytes) : ∀ k ∈ loadBans file, SaneKey k := by
  cases file with
  | none => exact fun k hk => absurd hk List.not_mem_nil
  | some text => exact sane_loadBansFrom (fun k hk => absurd hk List.not_mem_nil) text

theorem sane_startBans (file : Option Bytes) (banKeys : List Bytes) : ∀ k ∈ startBans file banKeys, SaneKey k := by
  unfold startBans
  induction banKeys using List.reverseRecOn with
  | nil => exact sane_loadBans file
  | append_singleton banKeys banKey ih =>
    rw [List.foldl_append, List.foldl_cons, List.foldl_nil]
    exact sane_insert ih (sane_key banKey)

/-- The loop of `persist_bans`, with its `first` flag. -/
def banLines : Bool → List Bytes → Bytes
  | _, [] => []
  | first, key :: keys => (if first then [] else ascii ",\n") ++ ascii "  \"" ++ key ++ ascii "\"" ++ banLines false keys

/-- What `persist_bans` writes when the set yields its keys in this order. -/
def persistBans (keys : List Bytes) : Bytes := ascii "[\n" ++ banLines true keys ++ ascii "\n]\n"

theorem loadBansFrom_quoted {s key : Bytes} (hs : 34 ∉ s) (hkey : SaneKey key) (bans : List Bytes) (rest : Bytes) :
    loadBansFrom bans (s ++ 34 :: (key ++ 34 :: rest)) = loadBansFrom (bans.insert key) rest := by
  have hscan : scanQuoted (s ++ 34 :: (key ++ 34 :: rest)) = some (key, rest) := by
    rw [scanQuoted, QuotedText.afterMark_append hs, Option.bind_some, QuotedText.upTo_append hkey.noMark, Option.map_some]
    simp
  rw [loadBansFrom]
  split
  · rename_i hnone
    rw [hscan] at hnone
    cases hnone
  · rename_i word rest' hsome
    rw [hscan] at hsome
    obtain ⟨rfl, rfl⟩ := Prod.mk.inj (Option.some.inj hsome)
    rw [hkey.fixed]
    dsimp only
    rw [if_neg hkey.nonempty]

theorem loadBansFrom_unquoted {s : Bytes} (hs : 34 ∉ s) (bans : List Bytes) : loadBansFrom bans s = bans := by
  have hscan : scanQuoted s = none := by rw [scanQuoted, QuotedText.afterMark_eq_none hs, Option.bind_none]
  rw [loadBansFrom]
  split
  · rfl
  · rename_i word rest hsome
    rw [hscan] at hsome
    cases hsome

theorem loadBansFrom_banLines {keys : List Bytes} (h : ∀ k ∈ keys, SaneKey k) (first : Bool) {s : Bytes} (hs : 34 ∉ s)
    (bans : List Bytes) :
    loadBansFrom bans (s ++ (banLines first keys ++ ascii "\n]\n")) = keys.foldl (fun bans key => bans.insert key) bans := by
  induction keys generalizing first s bans with
  | nil =>
    refine loadBansFrom_unquoted ?_ bans
    rw [List.mem_append, not_or]
    exact ⟨hs, by cases first <;> decide⟩
  | cons key keys ih =>
    have hpre : 34 ∉ s ++ ((if first then [] else ascii ",\n") ++ ascii "  ") := by
      rw [List.mem_append, not_or]
      exact ⟨hs, by cases first <;> decide⟩
    have htext : s ++ (banLines first (key :: keys) ++ ascii "\n]\n") =
        (s ++ ((if first then [] else ascii ",\n") ++ ascii "  ")) ++
          34 :: (key ++ 34 :: ([] ++ (banLines false keys ++ ascii "\n]\n"))) := by
      rw [banLines, show ascii "  \"" = ascii "  " ++ [34] from rfl, show ascii "\"" = [34] from rfl]
      simp only [List.append_assoc, List.cons_append, List.nil_append]
    rw [htext, loadBansFrom_quoted hpre (h key List.mem_cons_self),
      ih (fun k hk => h k (List.mem_cons_of_mem _ hk)) false List.not_mem_nil, List.foldl_cons]

theorem mem_foldl_insert {keys bans : List Bytes} {k : Bytes} :
    k ∈ keys.foldl (fun bans key => bans.insert key) bans ↔ k ∈ bans ∨ k ∈ keys := by
  induction keys generalizing bans with
  | nil => simp
  | cons key keys ih =>
    rw [List.foldl_cons, ih, List.mem_insert_iff, List.mem_cons]
    tauto

/-- What was written is read, in every order. -/
theorem mem_loadBans_persistBans {keys : List Bytes} (h : ∀ k ∈ keys, SaneKey k) {k : Bytes} :
    k ∈ loadBans (some (persistBans keys)) ↔ k ∈ keys := by
  have hload : loadBans (some (persistBans keys)) = keys.foldl (fun bans key => bans.insert key) [] := by
    rw [loadBans, persistBans, List.append_assoc]
    exact loadBansFrom_banLines h true (by decide) []
  rw [hload, mem_foldl_insert]
  simp

end CommonwealthMP
