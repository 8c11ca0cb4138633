import CommonwealthMP.SessionFolder

/-! # Player records through a restart

A record is written with its key and name between quotation marks as they are, and read
back by the first quoted stretch that equals a field's name. The reader's answer for each
field is computed here for every key and name. -/
namespace CommonwealthMP
open ByteLayout Binary32 OrderedTables QuotedText

/-- The quoted name of a field, the colon and a printed number. -/
def numberField (name number rest : Bytes) : Bytes := 34 :: (name ++ 34 :: 58 :: 32 :: (number ++ rest))

/-- The quoted name of a field, the colon and a quoted value. -/
def textField (name value rest : Bytes) : Bytes := 34 :: (name ++ 34 :: 58 :: 32 :: 34 :: (value ++ 34 :: rest))

/-- The comma, line break and indentation between two fields. -/
def nextField (rest : Bytes) : Bytes := 44 :: 10 :: 32 :: 32 :: rest

def numberFields : List (Bytes × Bytes) → Bytes
  | [] => []
  | [f] => numberField f.1 f.2 [10, 125, 10]
  | f :: g :: l => numberField f.1 f.2 (nextField (numberFields (g :: l)))

def poseNumbers (fmt : NumberText) (rec_ : PlayerRec) : List (Bytes × Bytes) :=
  [(ascii "havePose", decimal (if rec_.havePose then 1 else 0)),
    (ascii "locationFormId", decimal rec_.locationFormId.toNat), (ascii "x", fmt.print rec_.x),
    (ascii "y", fmt.print rec_.y), (ascii "z", fmt.print rec_.z), (ascii "yaw", fmt.print rec_.yaw)]

def poseFields (fmt : NumberText) (rec_ : PlayerRec) : Bytes := numberFields (poseNumbers fmt rec_)

theorem playerJson_eq (fmt : NumberText) (rec_ : PlayerRec) :
    playerJson fmt rec_ = [123, 10, 32, 32] ++ textField (ascii "key") rec_.key (nextField
      (textField (ascii "name") rec_.name (nextField (poseFields fmt rec_)))) := by
  have hopen : ascii "\x7b\n" = [123, 10] := by decide
  have hclose : ascii "\n\x7d\n" = [10, 125, 10] := by decide
  have hcomma : ascii ",\n" = [44, 10] := by decide
  have hindent : ascii "  " = [32, 32] := by decide
  have hcolon : ascii ": " = [58, 32] := by decide
  simp only [playerJson, jsonField, quoted, poseFields, poseNumbers, numberFields, textField, numberField, nextField, hopen, hclose, hcomma,
    hindent, hcolon, List.append_assoc, List.cons_append, List.nil_append]

/-- The name of a field: no quotation mark, comma or colon in it. -/
structure FieldName (w : Bytes) : Prop where
  mark : 34 ∉ w
  comma : 44 ∉ w
  colon : 58 ∉ w

theorem after_numberField {w name number rest : Bytes} (hw : FieldName w) (hn : 34 ∉ name)
    (hchars : ∀ c ∈ number, NumberChar c) (hrest : rest.head? = some 34) :
    after (quoted 34 w) (numberField name number (nextField rest)) =
      if name = w then some (58 :: 32 :: (number ++ nextField rest)) else after (quoted 34 w) rest := by
  obtain ⟨rest, rfl⟩ := List.head?_eq_some_iff.mp hrest
  have hnumber : 34 ∉ number := fun h => (numberChar_plain (hchars 34 h)).2.2.1 rfl
  have hstretch : (34 : UInt8) ∉ 58 :: 32 :: (number ++ [44, 10, 32, 32]) := by simp [hnumber]
  have hne : 58 :: 32 :: (number ++ [44, 10, 32, 32]) ≠ w := by
    rintro rfl
    exact hw.colon List.mem_cons_self
  have htail : 58 :: 32 :: (number ++ nextField (34 :: rest)) =
      (58 :: 32 :: (number ++ [44, 10, 32, 32])) ++ 34 :: rest := by simp [nextField]
  rw [numberField, after_quoted_mark hw.mark hn]
  split
  · rfl
  · rw [htail, after_quoted_mark hw.mark hstretch, if_neg hne]

theorem after_textField {w name value rest : Bytes} (hw : FieldName w) (hn : 34 ∉ name) (hv : 34 ∉ value)
    (hrest : rest.head? = some 34) :
    after (quoted 34 w) (textField name value (nextField rest)) =
      if name = w then some (58 :: 32 :: 34 :: (value ++ 34 :: nextField rest))
      else if value = w then some (nextField rest)
      else after (quoted 34 w) rest := by
  obtain ⟨rest, rfl⟩ := List.head?_eq_some_iff.mp hrest
  have hcolon : ([58, 32] : Bytes) ≠ w := by
    rintro rfl
    exact hw.colon List.mem_cons_self
  have hcomma : ([44, 10, 32, 32] : Bytes) ≠ w := by
    rintro rfl
    exact hw.comma List.mem_cons_self
  rw [textField, after_quoted_mark hw.mark hn]
  split
  · rfl
  · change after (quoted 34 w) (34 :: ([58, 32] ++ 34 :: (value ++ 34 :: nextField (34 :: rest)))) = _
    rw [after_quoted_mark hw.mark (by decide), if_neg hcolon, after_quoted_mark hw.mark hv]
    split
    · rfl
    · change after (quoted 34 w) (34 :: ([44, 10, 32, 32] ++ 34 :: rest)) = _
      rw [after_quoted_mark hw.mark (by decide), if_neg hcomma]

theorem after_numberFields {w number : Bytes} (hw : FieldName w) {l : List (Bytes × Bytes)}
    (hl : ∀ f ∈ l, 34 ∉ f.1 ∧ ∀ c ∈ f.2, NumberChar c) (h : l.lookup w = some number) :
    ∃ rest, EndsNumber rest ∧ after (quoted 34 w) (numberFields l) = some (58 :: 32 :: (number ++ rest)) := by
  induction l with
  | nil => simp at h
  | cons f l ih =>
    obtain ⟨hf, hchars⟩ := hl f List.mem_cons_self
    have hlookup : (f :: l).lookup w = if w = f.1 then some f.2 else l.lookup w := by
      rw [List.lookup_cons]
      by_cases hfw : w = f.1
      · simp [hfw]
      · rw [if_neg hfw, beq_false_of_ne hfw]
    rw [hlookup] at h
    cases l with
    | nil =>
      refine ⟨[10, 125, 10], ⟨10, _, rfl, Or.inr rfl⟩, ?_⟩
      by_cases hfw : w = f.1
      · obtain rfl := Option.some.inj ((if_pos hfw).symm.trans h)
        rw [numberFields, numberField, after_quoted_mark hw.mark hf, if_pos hfw.symm]
      · simp [hfw] at h
    | cons g l =>
      by_cases hfw : w = f.1
      · obtain rfl := Option.some.inj ((if_pos hfw).symm.trans h)
        refine ⟨nextField (numberFields (g :: l)), ⟨44, _, rfl, Or.inl rfl⟩, ?_⟩
        rw [numberFields, after_numberField hw hf hchars (by cases l <;> rfl), if_pos hfw.symm]
      · rw [if_neg hfw] at h
        obtain ⟨rest, hrest, hafter⟩ := ih (fun x hx => hl x (List.mem_cons_of_mem _ hx)) h
        refine ⟨rest, hrest, ?_⟩
        rw [numberFields, after_numberField hw hf hchars (by cases l <;> rfl), if_neg (Ne.symm hfw), hafter]

theorem poseNumbers_plain (fmt : NumberText) (rec_ : PlayerRec) :
    ∀ f ∈ poseNumbers fmt rec_, 34 ∉ f.1 ∧ ∀ c ∈ f.2, NumberChar c := by
  have hdec (n : ℕ) : ∀ c ∈ decimal n, NumberChar c := fun c hc => numberChar_of_isDigit (decimal_isDigit hc)
  intro f hf
  simp only [poseNumbers, List.mem_cons, List.not_mem_nil, or_false] at hf
  rcases hf with rfl | rfl | rfl | rfl | rfl | rfl
  · exact ⟨by dsimp only; decide, hdec _⟩
  · exact ⟨by dsimp only; decide, hdec _⟩
  all_goals exact ⟨by dsimp only; decide, fmt.print_chars _⟩

section Record
variable (fmt : NumberText) (rec_ : PlayerRec)

/-- The key is read back from every text: its field is the first. -/
theorem jsonQuoted_key (hk : 34 ∉ rec_.key) : jsonQuoted (playerJson fmt rec_) (ascii "key") = rec_.key := by
  refine jsonQuoted_of_after [] (nextField (textField (ascii "name") rec_.name (nextField (poseFields fmt rec_))))
    List.not_mem_nil hk ?_
  rw [playerJson_eq, after_quoted_append (by decide), textField, after_quoted_mark (by decide) (by decide), if_pos rfl]
  rfl

theorem after_playerJson {w : Bytes} (hk : 34 ∉ rec_.key) (hn : 34 ∉ rec_.name) (hw : FieldName w)
    (hkey : ascii "key" ≠ w) (hname : ascii "name" ≠ w) :
    after (quoted 34 w) (playerJson fmt rec_) =
      if rec_.key = w then
        some (nextField (textField (ascii "name") rec_.name (nextField (poseFields fmt rec_))))
      else if rec_.name = w then some (nextField (poseFields fmt rec_))
      else after (quoted 34 w) (poseFields fmt rec_) := by
  rw [playerJson_eq, after_quoted_append (by decide), after_textField hw (by decide) hk rfl, if_neg hkey,
    after_textField hw (by decide) hn rfl, if_neg hname]

/-- The name is read back unless it has a quotation mark, also under a key that reads `name`. -/
theorem jsonQuoted_name (hk : 34 ∉ rec_.key) (hn : 34 ∉ rec_.name) :
    jsonQuoted (playerJson fmt rec_) (ascii "name") = rec_.name := by
  have hw : FieldName (ascii "name") := ⟨by decide, by decide, by decide⟩
  by_cases h : rec_.key = ascii "name"
  · refine jsonQuoted_of_after ([44, 10, 32, 32] ++ quoted 34 (ascii "name")) (nextField (poseFields fmt rec_)) (by decide)
      hn ?_
    rw [playerJson_eq, after_quoted_append (by decide), after_textField hw (by decide) hk rfl, if_neg (by decide), if_pos h]
    simp [nextField, textField, quoted]
  · refine jsonQuoted_of_after [] (nextField (poseFields fmt rec_)) List.not_mem_nil hn ?_
    rw [playerJson_eq, after_quoted_append (by decide), after_textField hw (by decide) hk rfl, if_neg (by decide),
      if_neg h, textField, after_quoted_mark (by decide) (by decide), if_pos rfl]
    rfl

/-- `havePose` as the writer prints it. -/
def poseBit (b : Bool) : UInt32 := if b then 1 else 0

theorem poseBit_toNat (b : Bool) : (poseBit b).toNat = if b then 1 else 0 := by cases b <;> rfl

/-- A number is read back unless the key or the name reads as its field: under such a key
the reader stops at the name and falls back, under such a name it reads `havePose`. -/
theorem jsonNumber_playerJson {w number : Bytes} {d : fmt.Double} (fallback : fmt.Double)
    (hk : 34 ∉ rec_.key) (hn : 34 ∉ rec_.name) (hw : FieldName w) (hkey : ascii "key" ≠ w)
    (hname : ascii "name" ≠ w) (hd : fmt.Reads number d) (h : (poseNumbers fmt rec_).lookup w = some number) :
    jsonNumber fmt (playerJson fmt rec_) w fallback =
      if rec_.key = w then fallback else if rec_.name = w then fmt.ofUInt (poseBit rec_.havePose) else d := by
  have hafter := after_playerJson fmt rec_ hk hn hw hkey hname
  split
  · rename_i hkw
    rw [if_pos hkw] at hafter
    refine jsonNumber_of_quote fmt fallback ([44, 10, 32, 32] ++ quoted 34 (ascii "name"))
      (rec_.name ++ 34 :: nextField (poseFields fmt rec_)) (by decide) (hafter.trans ?_)
    simp [nextField, textField, quoted]
  · rename_i hkw
    rw [if_neg hkw] at hafter
    split
    · rename_i hnw
      rw [if_pos hnw] at hafter
      have hbit := fmt.reads_decimal (poseBit rec_.havePose)
      rw [poseBit_toNat] at hbit
      refine jsonNumber_of_after fmt fallback ([44, 10, 32, 32] ++ quoted 34 (ascii "havePose"))
        (nextField (numberFields (poseNumbers fmt rec_).tail)) (by decide) hbit ⟨44, _, rfl, Or.inl rfl⟩
        (hafter.trans ?_)
      simp [poseFields, poseNumbers, numberFields, numberField, nextField, quoted]
    · rename_i hnw
      rw [if_neg hnw] at hafter
      obtain ⟨rest, hrest, hown⟩ := after_numberFields hw (poseNumbers_plain fmt rec_) h
      exact jsonNumber_of_after fmt fallback [] rest List.not_mem_nil hd hrest (hafter.trans hown)

/-- What the reader takes for a field that was written as `own`. -/
def fieldValue {α : Type*} (w : Bytes) (fallback fromName own : α) : α :=
  if rec_.key = w then fallback else if rec_.name = w then fromName else own

theorem fieldValue_eq_own {α : Type*} (w : Bytes) (fallback fromName own : α) :
    fieldValue rec_ w fallback fromName own = own ↔
      (rec_.key = w → own = fallback) ∧ (rec_.key ≠ w → rec_.name = w → own = fromName) := by
  unfold fieldValue
  by_cases hk : rec_.key = w
  · simp [hk, eq_comm]
  · by_cases hn : rec_.name = w
    · simp [hk, hn, eq_comm]
    · simp [hk, hn]

theorem apply_fieldValue {α β : Type*} (f : α → β) (w : Bytes) (fallback fromName own : α) :
    f (fieldValue rec_ w fallback fromName own) = fieldValue rec_ w (f fallback) (f fromName) (f own) := by
  unfold fieldValue
  split
  · rfl
  · split <;> rfl

/-- `havePose` read as a coordinate. -/
def poseFloat (b : Bool) : F32 := if b then ⟨0x3F800000⟩ else ⟨0⟩

theorem toFloat_poseBit (b : Bool) : fmt.toFloat (fmt.ofUInt (poseBit b)) = poseFloat b := by
  rw [fmt.toFloat_ofUInt]
  cases b <;> decide +kernel

/-- The record that is read back: the field names of the text stand for themselves, and a
key or a name that reads like one is taken for it. -/
def readBack (folder : SessionFolder) : PlayerRec where
  key := rec_.key
  name := rec_.name
  havePose := fieldValue rec_ (ascii "havePose") false rec_.havePose rec_.havePose
  locationFormId := fieldValue rec_ (ascii "locationFormId") kCommonwealthWorldspace (poseBit rec_.havePose)
    rec_.locationFormId
  x := fieldValue rec_ (ascii "x") kSanctuaryX (poseFloat rec_.havePose) (fmt.asPrinted rec_.x)
  y := fieldValue rec_ (ascii "y") kSanctuaryY (poseFloat rec_.havePose) (fmt.asPrinted rec_.y)
  z := fieldValue rec_ (ascii "z") kSanctuaryZ (poseFloat rec_.havePose) (fmt.asPrinted rec_.z)
  yaw := fieldValue rec_ (ascii "yaw") ⟨0⟩ (poseFloat rec_.havePose) (fmt.asPrinted rec_.yaw)
  appearance := folder.readBin (rec_.key ++ ascii ".appearance.bin")
  inventory := folder.readBin (rec_.key ++ ascii ".inventory.bin")

theorem float_playerJson {w : Bytes} (v : F32) (fallback : fmt.Double) (hk : 34 ∉ rec_.key) (hn : 34 ∉ rec_.name)
    (hw : FieldName w) (hkey : ascii "key" ≠ w) (hname : ascii "name" ≠ w)
    (h : (poseNumbers fmt rec_).lookup w = some (fmt.print v)) :
    fmt.toFloat (jsonNumber fmt (playerJson fmt rec_) w fallback) =
      fieldValue rec_ w (fmt.toFloat fallback) (poseFloat rec_.havePose) (fmt.asPrinted v) := by
  obtain ⟨d, hd, hprinted⟩ := fmt.reads_print v
  have hread := jsonNumber_playerJson fmt rec_ fallback hk hn hw hkey hname hd h
  rw [hread, ← toFloat_poseBit fmt, ← hprinted]
  exact apply_fieldValue rec_ fmt.toFloat w fallback (fmt.ofUInt (poseBit rec_.havePose)) d

theorem loadPlayer_playerJson (folder : SessionFolder) (file : Bytes) (hk : 34 ∉ rec_.key) (hne : rec_.key ≠ [])
    (hn : 34 ∉ rec_.name) : loadPlayer fmt folder file (playerJson fmt rec_) = readBack fmt rec_ folder := by
  have hpose := jsonNumber_playerJson fmt rec_ (fmt.ofUInt 0) hk hn (w := ascii "havePose")
    ⟨by decide, by decide, by decide⟩ (by decide) (by decide) (fmt.reads_decimal (poseBit rec_.havePose)) (by
      rw [poseBit_toNat]
      rfl)
  have hlocation := jsonNumber_playerJson fmt rec_ (fmt.ofUInt kCommonwealthWorldspace) hk hn
    (w := ascii "locationFormId") ⟨by decide, by decide, by decide⟩ (by decide) (by decide)
    (fmt.reads_decimal rec_.locationFormId) rfl
  have hx := float_playerJson fmt rec_ rec_.x (fmt.ofFloat kSanctuaryX) hk hn (w := ascii "x")
    ⟨by decide, by decide, by decide⟩ (by decide) (by decide) rfl
  have hy := float_playerJson fmt rec_ rec_.y (fmt.ofFloat kSanctuaryY) hk hn (w := ascii "y")
    ⟨by decide, by decide, by decide⟩ (by decide) (by decide) rfl
  have hz := float_playerJson fmt rec_ rec_.z (fmt.ofFloat kSanctuaryZ) hk hn (w := ascii "z")
    ⟨by decide, by decide, by decide⟩ (by decide) (by decide) rfl
  have hyaw := float_playerJson fmt rec_ rec_.yaw (fmt.ofUInt 0) hk hn (w := ascii "yaw")
    ⟨by decide, by decide, by decide⟩ (by decide) (by decide) rfl
  have hzero : fmt.toFloat (fmt.ofUInt 0) = ⟨0⟩ := toFloat_poseBit fmt false
  rw [fmt.toFloat_ofFloat kSanctuaryX (by decide +kernel)] at hx
  rw [fmt.toFloat_ofFloat kSanctuaryY (by decide +kernel)] at hy
  rw [fmt.toFloat_ofFloat kSanctuaryZ (by decide +kernel)] at hz
  rw [hzero] at hyaw
  have hbit (b : Bool) : fmt.nonzero (fmt.ofUInt (poseBit b)) = b := by
    rw [fmt.nonzero_ofUInt]
    cases b <;> decide
  have hflag := (congrArg fmt.nonzero hpose).trans
    (apply_fieldValue rec_ fmt.nonzero (ascii "havePose") (fmt.ofUInt 0) _ _)
  have hform := (congrArg fmt.toUInt hlocation).trans
    (apply_fieldValue rec_ fmt.toUInt (ascii "locationFormId") (fmt.ofUInt kCommonwealthWorldspace) _ _)
  rw [hbit, fmt.nonzero_ofUInt] at hflag
  simp only [fmt.toUInt_ofUInt] at hform
  simp only [loadPlayer, jsonQuoted_key fmt rec_ hk, jsonQuoted_name fmt rec_ hk hn, hx, hy, hz, hyaw, hflag, hform,
    if_neg hne, readBack]
  rfl

end Record

theorem mem_sanitizePlayerKey {raw : Bytes} {c : UInt8} (h : c ∈ sanitizePlayerKey raw (ascii "player")) :
    isAlnum c = true ∨ c = 45 ∨ c = 95 := by
  unfold sanitizePlayerKey at h
  dsimp only at h
  split at h
  · have hall : (ascii "player").all isAlnum = true := by decide
    exact Or.inl (List.all_eq_true.mp hall c h)
  · have hkept := (List.mem_filter.mp (List.mem_of_mem_take h)).2
    simpa [or_assoc] using hkept

theorem sanitizePlayerKey_ne_nil (raw : Bytes) : sanitizePlayerKey raw (ascii "player") ≠ [] := by
  unfold sanitizePlayerKey
  dsimp only
  split
  · decide
  · rename_i h
    simp [List.take_eq_nil_iff, h, kPlayerKeyMax]

/-- A set of records under distinct keys made from the keys of hellos. Names are any bytes. -/
structure Roster where
  records : List PlayerRec
  sanitized : ∀ r ∈ records, ∃ raw, r.key = sanitizePlayerKey raw (ascii "player")
  distinct : (records.map (·.key)).Nodup

namespace Roster
variable (roster : Roster)

theorem key_notMem {r : PlayerRec} (hr : r ∈ roster.records) {c : UInt8} (hc : isAlnum c = false)
    (hdash : c ≠ 45) (hline : c ≠ 95) : c ∉ r.key := by
  intro h
  obtain ⟨raw, hraw⟩ := roster.sanitized r hr
  rcases mem_sanitizePlayerKey (hraw ▸ h) with hal | hal | hal
  · exact Bool.false_ne_true (hc.symm.trans hal)
  · exact hdash hal
  · exact hline hal

theorem key_ne_nil {r : PlayerRec} (hr : r ∈ roster.records) : r.key ≠ [] := by
  obtain ⟨raw, hraw⟩ := roster.sanitized r hr
  exact hraw ▸ sanitizePlayerKey_ne_nil raw

theorem key_mark {r : PlayerRec} (hr : r ∈ roster.records) : 34 ∉ r.key :=
  roster.key_notMem hr (by decide) (by decide) (by decide)

theorem key_dot {r : PlayerRec} (hr : r ∈ roster.records) : 46 ∉ r.key :=
  roster.key_notMem hr (by decide) (by decide) (by decide)

theorem eq_of_key {r r' : PlayerRec} (hr : r ∈ roster.records) (hr' : r' ∈ roster.records) (h : r.key = r'.key) :
    r = r' := List.inj_on_of_nodup_map roster.distinct hr hr' h

end Roster

section Files
variable (fmt : NumberText)

def recordFile (r : PlayerRec) (name : Bytes) : Option Bytes :=
  if name = r.key ++ ascii ".inventory.bin" ∧ r.inventory ≠ [] then some r.inventory
  else if name = r.key ++ ascii ".appearance.bin" ∧ r.appearance ≠ [] then some r.appearance
  else if name = r.key ++ ascii ".json" then some (playerJson fmt r)
  else none

theorem lookup_persistPlayer (folder : SessionFolder) {r : PlayerRec} (hne : r.key ≠ []) (name : Bytes) :
    (folder.persistPlayer fmt r).players.lookup name = (recordFile fmt r name).or (folder.players.lookup name) := by
  by_cases ha : r.appearance = [] <;> by_cases hi : r.inventory = [] <;>
    simp only [SessionFolder.persistPlayer, hne, ha, hi, if_true, if_false, SessionFolder.write, Table.lookup_insert,
      recordFile, ne_eq, not_true, not_false_iff, and_true, and_false] <;>
    split_ifs <;> rfl

theorem recordFile_name {r : PlayerRec} {name : Bytes} (h : recordFile fmt r name ≠ none) :
    ∃ suffix, name = r.key ++ 46 :: suffix := by
  unfold recordFile at h
  split_ifs at h with hi ha hj
  · exact ⟨_, hi.1⟩
  · exact ⟨_, ha.1⟩
  · exact ⟨_, hj⟩
  · exact absurd rfl h

/-- Each file has the content that the last record with this file wrote. -/
theorem lookup_persist (rs : List PlayerRec) (hne : ∀ r ∈ rs, r.key ≠ []) (name : Bytes) :
    (∃ r ∈ rs, recordFile fmt r name ≠ none ∧
      (rs.foldl (SessionFolder.persistPlayer fmt) {}).players.lookup name = recordFile fmt r name) ∨
    ((∀ r ∈ rs, recordFile fmt r name = none) ∧
      (rs.foldl (SessionFolder.persistPlayer fmt) {}).players.lookup name = none) := by
  induction rs using List.reverseRecOn with
  | nil => exact Or.inr ⟨fun _ h => absurd h List.not_mem_nil, rfl⟩
  | append_singleton rs r ih =>
    rw [List.foldl_append, List.foldl_cons, List.foldl_nil,
      lookup_persistPlayer fmt _ (hne r (List.mem_append_right _ List.mem_cons_self))]
    cases hfile : recordFile fmt r name with
    | some content =>
      refine Or.inl ⟨r, List.mem_append_right _ List.mem_cons_self, ?_, ?_⟩
      · simp [hfile]
      · rw [hfile, Option.some_or]
    | none =>
      rw [Option.none_or]
      rcases ih (fun r' hr' => hne r' (List.mem_append_left _ hr')) with ⟨r', hr', hsome, hlookup⟩ | ⟨hnone, hlookup⟩
      · exact Or.inl ⟨r', List.mem_append_left _ hr', hsome, hlookup⟩
      · refine Or.inr ⟨fun r' hr' => ?_, hlookup⟩
        rcases List.mem_append.mp hr' with hold | hlast
        · exact hnone r' hold
        · exact List.mem_singleton.mp hlast ▸ hfile

variable (roster : Roster)

/-- Write each record of the set into an empty session folder. -/
def persistAll : SessionFolder := roster.records.foldl (SessionFolder.persistPlayer fmt) {}

theorem lookup_persistAll {r : PlayerRec} (hr : r ∈ roster.records) (suffix : Bytes) :
    (persistAll fmt roster).players.lookup (r.key ++ 46 :: suffix) = recordFile fmt r (r.key ++ 46 :: suffix) := by
  rcases lookup_persist fmt roster.records (fun r hr => roster.key_ne_nil hr) (r.key ++ 46 :: suffix) with
    ⟨r', hr', hsome, hlookup⟩ | ⟨hnone, hlookup⟩
  · obtain ⟨suffix', hname⟩ := recordFile_name fmt hsome
    obtain ⟨hkey, -⟩ := append_mark_inj (roster.key_dot hr) (roster.key_dot hr') hname
    obtain rfl := roster.eq_of_key hr hr' hkey
    exact hlookup
  · exact hlookup.trans (hnone r hr).symm

theorem readBin_of_lookup {folder : SessionFolder} {name content : Bytes}
    (h : folder.players.lookup name = if content = [] then none else some content) :
    folder.readBin name = if 2 ^ 20 < content.length then [] else content := by
  rw [SessionFolder.readBin, h]
  by_cases hc : content = []
  · simp [hc]
  · simp [hc]

theorem readBin_eq_self {content : Bytes} :
    (if 2 ^ 20 < content.length then [] else content) = content ↔ content.length ≤ 2 ^ 20 := by
  split
  · rename_i h
    refine iff_of_false (fun hc => ?_) (not_le.mpr h)
    rw [← hc] at h
    exact absurd h (by simp)
  · rename_i h
    exact iff_of_true rfl (not_lt.mp h)

theorem readBin_appearance {r : PlayerRec} (hr : r ∈ roster.records) :
    (persistAll fmt roster).readBin (r.key ++ ascii ".appearance.bin") =
      if 2 ^ 20 < r.appearance.length then [] else r.appearance := by
  refine readBin_of_lookup ((lookup_persistAll fmt roster hr (ascii "appearance.bin")).trans ?_)
  change recordFile fmt r (r.key ++ ascii ".appearance.bin") = _
  have hi : ascii ".appearance.bin" ≠ ascii ".inventory.bin" := by decide
  have hj : ascii ".appearance.bin" ≠ ascii ".json" := by decide
  by_cases ha : r.appearance = [] <;> simp [recordFile, hi, hj, ha]

theorem readBin_inventory {r : PlayerRec} (hr : r ∈ roster.records) :
    (persistAll fmt roster).readBin (r.key ++ ascii ".inventory.bin") =
      if 2 ^ 20 < r.inventory.length then [] else r.inventory := by
  refine readBin_of_lookup ((lookup_persistAll fmt roster hr (ascii "inventory.bin")).trans ?_)
  change recordFile fmt r (r.key ++ ascii ".inventory.bin") = _
  have ha : ascii ".inventory.bin" ≠ ascii ".appearance.bin" := by decide
  have hj : ascii ".inventory.bin" ≠ ascii ".json" := by decide
  by_cases hi : r.inventory = [] <;> simp [recordFile, ha, hj, hi]

theorem lookup_json {r : PlayerRec} (hr : r ∈ roster.records) :
    (persistAll fmt roster).players.lookup (r.key ++ ascii ".json") = some (playerJson fmt r) := by
  refine (lookup_persistAll fmt roster hr (ascii "json")).trans ?_
  change recordFile fmt r (r.key ++ ascii ".json") = _
  have hi : ascii ".json" ≠ ascii ".inventory.bin" := by decide
  have ha : ascii ".json" ≠ ascii ".appearance.bin" := by decide
  simp [recordFile, hi, ha]

theorem extension_append {k s : Bytes} (hk : k ≠ []) (hs : 46 ∉ s) (hne : s ≠ []) :
    extension (k ++ 46 :: s) = 46 :: s := by
  have htail : (k ++ 46 :: s).rtakeWhile (· ≠ 46) = s := by
    have hpos : ∀ c ∈ s.reverse, decide (c ≠ 46) = true := fun c hc =>
      decide_eq_true fun h => hs (h ▸ List.mem_reverse.mp hc)
    rw [List.rtakeWhile, List.reverse_append, List.reverse_cons, List.append_assoc, List.singleton_append,
      List.takeWhile_append_of_pos hpos, List.takeWhile_cons_of_neg (by simp), List.append_nil, List.reverse_reverse]
  have hklen := List.length_pos_of_ne_nil hk
  have hslen := List.length_pos_of_ne_nil hne
  have hlong : ¬((k ++ 46 :: s).length ≤ s.length + 1 ∨ k ++ 46 :: s = ascii "..") := by
    rw [not_or, List.length_append, List.length_cons]
    refine ⟨by omega, fun h => ?_⟩
    have hlen := congrArg List.length h
    rw [List.length_append, List.length_cons, show (ascii "..").length = 2 from rfl] at hlen
    omega
  rw [extension, htail, if_neg hlong]

/-- The loop stores this entry's record under `k`. -/
def Stores (folder : SessionFolder) (k : Bytes) (entry : Σ _ : Bytes, Bytes) : Prop :=
  extension entry.1 = ascii ".json" ∧ (loadPlayer fmt folder entry.1 entry.2).key = k

theorem lookup_loadEntry (folder : SessionFolder) (players : Table Bytes PlayerRec) (k : Bytes)
    (entry : Σ _ : Bytes, Bytes) :
    (Stores fmt folder k entry ∧
      (loadEntry fmt folder players entry).lookup k = some (loadPlayer fmt folder entry.1 entry.2)) ∨
    (¬Stores fmt folder k entry ∧ (loadEntry fmt folder players entry).lookup k = players.lookup k) := by
  by_cases hext : extension entry.1 = ascii ".json"
  · have hentry : loadEntry fmt folder players entry =
        players.insert (loadPlayer fmt folder entry.1 entry.2).key (loadPlayer fmt folder entry.1 entry.2) :=
      if_neg (not_not.mpr hext)
    rw [hentry, Table.lookup_insert]
    by_cases hk : k = (loadPlayer fmt folder entry.1 entry.2).key
    · exact Or.inl ⟨⟨hext, hk.symm⟩, if_pos hk⟩
    · exact Or.inr ⟨fun h => hk h.2.symm, if_neg hk⟩
  · have hentry : loadEntry fmt folder players entry = players := if_pos hext
    exact Or.inr ⟨fun h => hext h.1, by rw [hentry]⟩

/-- The record loaded under a key is that of the last entry stored under it. -/
theorem lookup_load (folder : SessionFolder) (k : Bytes) (entries : List (Σ _ : Bytes, Bytes)) :
    (∃ e ∈ entries, Stores fmt folder k e ∧
      (entries.foldl (loadEntry fmt folder) ∅).lookup k = some (loadPlayer fmt folder e.1 e.2)) ∨
    ((∀ e ∈ entries, ¬Stores fmt folder k e) ∧ (entries.foldl (loadEntry fmt folder) ∅).lookup k = none) := by
  induction entries using List.reverseRecOn with
  | nil => exact Or.inr ⟨fun _ h => absurd h List.not_mem_nil, rfl⟩
  | append_singleton entries e ih =>
    rw [List.foldl_append, List.foldl_cons, List.foldl_nil]
    rcases lookup_loadEntry fmt folder (entries.foldl (loadEntry fmt folder) ∅) k e with ⟨he, hlookup⟩ | ⟨he, hlookup⟩
    · exact Or.inl ⟨e, List.mem_append_right _ List.mem_cons_self, he, hlookup⟩
    · rcases ih with ⟨e', hmem, hstores, hload⟩ | ⟨hnone, hload⟩
      · exact Or.inl ⟨e', List.mem_append_left _ hmem, hstores, hlookup.trans hload⟩
      · refine Or.inr ⟨fun e' hmem => ?_, hlookup.trans hload⟩
        rcases List.mem_append.mp hmem with hold | hlast
        · exact hnone e' hold
        · exact List.mem_singleton.mp hlast ▸ he

def loaded (order : DirectoryOrder) : Table Bytes PlayerRec :=
  (loadWorld fmt order (persistAll fmt roster) {} ∅).2

theorem loadPlayer_key {r : PlayerRec} (hr : r ∈ roster.records) (folder : SessionFolder) (file : Bytes) :
    (loadPlayer fmt folder file (playerJson fmt r)).key = r.key := by
  have hkey := jsonQuoted_key fmt r (roster.key_mark hr)
  simp only [loadPlayer, hkey, if_neg (roster.key_ne_nil hr)]

/-- The entries that are loaded are the texts of the records. -/
theorem stores_iff (order : DirectoryOrder) {k : Bytes} {e : Σ _ : Bytes, Bytes}
    (he : e ∈ order.visit (persistAll fmt roster).players.entries) :
    Stores fmt (persistAll fmt roster) k e ↔
      ∃ r ∈ roster.records, r.key = k ∧ e = ⟨r.key ++ ascii ".json", playerJson fmt r⟩ := by
  obtain ⟨name, text⟩ := e
  have hlookup := Table.mem_entries.mp ((order.perm _).mem_iff.mp he)
  constructor
  · rintro ⟨hext, hk⟩
    rcases lookup_persist fmt roster.records (fun r hr => roster.key_ne_nil hr) name with
      ⟨r, hr, -, hfile⟩ | ⟨-, hnone⟩
    · have hbin (s : Bytes) : extension (r.key ++ s ++ ascii ".bin") = ascii ".bin" :=
        extension_append (by simp [roster.key_ne_nil hr]) (by decide) (by decide)
      have htext : recordFile fmt r name = some text := hfile.symm.trans hlookup
      unfold recordFile at htext
      split_ifs at htext with hi ha hj
      · have happ : name = r.key ++ ascii ".inventory" ++ ascii ".bin" := hi.1.trans (by simp [ascii])
        rw [happ, hbin] at hext
        exact absurd hext (by decide)
      · have happ : name = r.key ++ ascii ".appearance" ++ ascii ".bin" := ha.1.trans (by simp [ascii])
        rw [happ, hbin] at hext
        exact absurd hext (by decide)
      · obtain rfl := Option.some.inj htext
        subst hj
        exact ⟨r, hr, (loadPlayer_key fmt roster hr _ _).symm.trans hk, rfl⟩
    · exact absurd (hnone.symm.trans hlookup) (by simp)
  · rintro ⟨r, hr, rfl, heq⟩
    cases heq
    exact ⟨extension_append (roster.key_ne_nil hr) (by decide) (by decide), loadPlayer_key fmt roster hr _ _⟩

theorem lookup_loaded (order : DirectoryOrder) {r : PlayerRec} (hr : r ∈ roster.records) :
    (loaded fmt roster order).lookup r.key =
      some (loadPlayer fmt (persistAll fmt roster) (r.key ++ ascii ".json") (playerJson fmt r)) := by
  rcases lookup_load fmt (persistAll fmt roster) r.key (order.visit (persistAll fmt roster).players.entries) with
    ⟨e, he, hstores, hload⟩ | ⟨hnone, -⟩
  · obtain ⟨r', hr', hkey, rfl⟩ := (stores_iff fmt roster order he).mp hstores
    obtain rfl := roster.eq_of_key hr' hr hkey
    exact hload
  · have he : ⟨r.key ++ ascii ".json", playerJson fmt r⟩ ∈ order.visit (persistAll fmt roster).players.entries :=
      (order.perm _).mem_iff.mpr (Table.mem_entries.mpr (lookup_json fmt roster hr))
    exact absurd ((stores_iff fmt roster order he).mpr ⟨r, hr, rfl, rfl⟩) (hnone _ he)

/-- Exactly the keys of the set are loaded, in whatever order the folder is listed. -/
theorem mem_loaded (order : DirectoryOrder) (k : Bytes) :
    k ∈ loaded fmt roster order ↔ ∃ r ∈ roster.records, r.key = k := by
  constructor
  · intro hk
    rcases lookup_load fmt (persistAll fmt roster) k (order.visit (persistAll fmt roster).players.entries) with
      ⟨e, he, hstores, -⟩ | ⟨-, hnone⟩
    · obtain ⟨r, hr, hkey, -⟩ := (stores_iff fmt roster order he).mp hstores
      exact ⟨r, hr, hkey⟩
    · exact absurd hk (AList.lookup_eq_none.mp hnone)
  · rintro ⟨r, hr, rfl⟩
    have hload := lookup_loaded fmt roster order hr
    rw [← AList.lookup_isSome, hload]
    rfl

/-- A record with its coordinates as the text prints them. -/
def asWritten (r : PlayerRec) : PlayerRec :=
  { r with x := fmt.asPrinted r.x, y := fmt.asPrinted r.y, z := fmt.asPrinted r.z, yaw := fmt.asPrinted r.yaw }

/-- One record a key, each as it was written. -/
def RoundTrip (order : DirectoryOrder) : Prop :=
  (∀ k, k ∈ loaded fmt roster order ↔ ∃ r ∈ roster.records, r.key = k) ∧
    ∀ r ∈ roster.records, (loaded fmt roster order).lookup r.key = some (asWritten fmt r)

theorem roundTrip_iff_loadPlayer (order : DirectoryOrder) :
    RoundTrip fmt roster order ↔ ∀ r ∈ roster.records,
      loadPlayer fmt (persistAll fmt roster) (r.key ++ ascii ".json") (playerJson fmt r) = asWritten fmt r := by
  constructor
  · rintro ⟨-, h⟩ r hr
    exact Option.some.inj ((lookup_loaded fmt roster order hr).symm.trans (h r hr))
  · intro h
    refine ⟨mem_loaded fmt roster order, fun r hr => ?_⟩
    rw [lookup_loaded fmt roster order hr, h r hr]

/-- What a record must be like to survive the restart: no quotation mark in its name, no
blob over a mebibyte, and no key or name that the reader takes for a field, unless the
field's value is the one that it finds there. -/
structure Restorable (r : PlayerRec) : Prop where
  name_mark : 34 ∉ r.name
  appearance_size : r.appearance.length ≤ 2 ^ 20
  inventory_size : r.inventory.length ≤ 2 ^ 20
  havePose_key : r.key = ascii "havePose" → r.havePose = false
  location_key : r.key = ascii "locationFormId" → r.locationFormId = kCommonwealthWorldspace
  location_name : r.key ≠ ascii "locationFormId" → r.name = ascii "locationFormId" →
    r.locationFormId = poseBit r.havePose
  x_key : r.key = ascii "x" → fmt.asPrinted r.x = kSanctuaryX
  x_name : r.key ≠ ascii "x" → r.name = ascii "x" → fmt.asPrinted r.x = poseFloat r.havePose
  y_key : r.key = ascii "y" → fmt.asPrinted r.y = kSanctuaryY
  y_name : r.key ≠ ascii "y" → r.name = ascii "y" → fmt.asPrinted r.y = poseFloat r.havePose
  z_key : r.key = ascii "z" → fmt.asPrinted r.z = kSanctuaryZ
  z_name : r.key ≠ ascii "z" → r.name = ascii "z" → fmt.asPrinted r.z = poseFloat r.havePose
  yaw_key : r.key = ascii "yaw" → fmt.asPrinted r.yaw = ⟨0⟩
  yaw_name : r.key ≠ ascii "yaw" → r.name = ascii "yaw" → fmt.asPrinted r.yaw = poseFloat r.havePose

theorem loadPlayer_name (folder : SessionFolder) (file text : Bytes) :
    (loadPlayer fmt folder file text).name = jsonQuoted text (ascii "name") := rfl

theorem loadPlayer_name_mark {r : PlayerRec} {folder : SessionFolder} {file : Bytes}
    (h : loadPlayer fmt folder file (playerJson fmt r) = asWritten fmt r) : 34 ∉ r.name := by
  have hname := congrArg PlayerRec.name h
  rw [loadPlayer_name] at hname
  have hmark := jsonQuoted_noQuote (playerJson fmt r) (ascii "name")
  rwa [hname] at hmark

theorem readBack_eq_iff {r : PlayerRec} (hr : r ∈ roster.records) (hn : 34 ∉ r.name) :
    readBack fmt r (persistAll fmt roster) = asWritten fmt r ↔ Restorable fmt r := by
  rw [readBack, asWritten, readBin_appearance fmt roster hr, readBin_inventory fmt roster hr]
  simp only [PlayerRec.mk.injEq, fieldValue_eq_own, readBin_eq_self, true_and]
  constructor
  · rintro ⟨⟨hpose, -⟩, ⟨hlk, hln⟩, ⟨hxk, hxn⟩, ⟨hyk, hyn⟩, ⟨hzk, hzn⟩, ⟨hwk, hwn⟩, happ, hinv⟩
    exact ⟨hn, happ, hinv, hpose, hlk, hln, hxk, hxn, hyk, hyn, hzk, hzn, hwk, hwn⟩
  · intro h
    exact ⟨⟨h.havePose_key, fun _ _ => trivial⟩, ⟨h.location_key, h.location_name⟩, ⟨h.x_key, h.x_name⟩,
      ⟨h.y_key, h.y_name⟩, ⟨h.z_key, h.z_name⟩, ⟨h.yaw_key, h.yaw_name⟩, h.appearance_size, h.inventory_size⟩

theorem loadPlayer_eq_iff {r : PlayerRec} (hr : r ∈ roster.records) (file : Bytes) :
    loadPlayer fmt (persistAll fmt roster) file (playerJson fmt r) = asWritten fmt r ↔ Restorable fmt r := by
  constructor
  · intro h
    have hn := loadPlayer_name_mark fmt h
    rw [loadPlayer_playerJson fmt r _ file (roster.key_mark hr) (roster.key_ne_nil hr) hn] at h
    exact (readBack_eq_iff fmt roster hr hn).mp h
  · intro h
    rw [loadPlayer_playerJson fmt r _ file (roster.key_mark hr) (roster.key_ne_nil hr) h.name_mark]
    exact (readBack_eq_iff fmt roster hr h.name_mark).mpr h

/-- A set of records comes back from the restart exactly when each of them does. -/
theorem player_records_round_trip_iff (order : DirectoryOrder) :
    RoundTrip fmt roster order ↔ ∀ r ∈ roster.records, Restorable fmt r := by
  rw [roundTrip_iff_loadPlayer]
  exact forall₂_congr fun r hr => loadPlayer_eq_iff fmt roster hr _

end Files

/-- A whole number that six digits print exactly. -/
def wholeNumber (v : F32) : Option ℕ :=
  match value v with
  | .finite false m => if m % 2 ^ 149 = 0 ∧ m / 2 ^ 149 < 10 ^ 6 then some (m / 2 ^ 149) else none
  | _ => none

def isDecimalDigit (c : UInt8) : Bool := 48 ≤ c.toNat && c.toNat ≤ 57

def readPlain (text : Bytes) : Option (F32 ⊕ UInt32) :=
  let digits := text.takeWhile isDecimalDigit
  if digits ≠ [] then some (.inr (UInt32.ofNat (ofDecimal digits)))
  else if (ascii "nan").isPrefixOf text then some (.inl quietNaN)
  else none

theorem isDecimalDigit_of_mem {n : ℕ} : ∀ c ∈ decimal n, isDecimalDigit c = true := by
  intro c hc
  obtain ⟨hlo, hhi⟩ := decimal_isDigit hc
  simp [isDecimalDigit, hlo, hhi]

theorem takeWhile_endsNumber {rest : Bytes} (h : EndsNumber rest) : rest.takeWhile isDecimalDigit = [] := by
  obtain ⟨c, r, rfl, rfl | rfl⟩ := h <;> rfl

theorem readPlain_decimal (n : ℕ) {rest : Bytes} (h : rest.takeWhile isDecimalDigit = []) :
    readPlain (decimal n ++ rest) = some (.inr (UInt32.ofNat n)) := by
  have hdigits : (decimal n ++ rest).takeWhile isDecimalDigit = decimal n := by
    rw [List.takeWhile_append_of_pos isDecimalDigit_of_mem, h, List.append_nil]
  have hne : decimal n ≠ [] := by simp [decimal]
  simp only [readPlain, hdigits, if_pos hne, ofDecimal_decimal]

/-- Whole numbers under a million as decimal digits; every other number as `nan`. -/
def plainNumbers : NumberText where
  Double := F32 ⊕ UInt32
  ofFloat := .inl
  toFloat := Sum.elim id fun n => round false (n.toNat * 2 ^ 149) 0
  ofUInt := .inr
  toUInt := Sum.elim (fun _ => 0) id
  nonzero := Sum.elim (fun v => value v ≠ .finite false 0 && value v ≠ .finite true 0) fun n => decide (n ≠ 0)
  print v := ((wholeNumber v).map decimal).getD (ascii "nan")
  strtod := readPlain
  toFloat_ofFloat _ _ := rfl
  toFloat_ofUInt _ := rfl
  toUInt_ofUInt _ := rfl
  nonzero_ofUInt _ := rfl
  print_ne_nil v := by cases wholeNumber v <;> simp [decimal, ascii]
  print_chars v := by
    have hnan : ∀ c ∈ ascii "nan", isAlnum c = true := List.all_eq_true.mp (by decide)
    cases wholeNumber v with
    | none => exact fun c hc => Or.inl (hnan c hc)
    | some n => exact fun c hc => numberChar_of_isDigit (decimal_isDigit hc)
  strtod_print v := by
    cases wholeNumber v with
    | none =>
      refine ⟨by decide, fun rest _ => ?_⟩
      rfl
    | some n =>
      have hplain : readPlain (decimal n ++ []) = some (.inr (UInt32.ofNat n)) := readPlain_decimal n rfl
      rw [List.append_nil] at hplain
      refine ⟨by simp [hplain], fun rest hrest => ?_⟩
      exact (readPlain_decimal n (takeWhile_endsNumber hrest)).trans hplain.symm
  strtod_decimal n rest hrest := by
    rw [readPlain_decimal n.toNat (takeWhile_endsNumber hrest), UInt32.ofNat_toNat]
  strtod_quote _ := rfl

/-- One player, at the origin, with a quotation mark in the name. -/
def quotedName : Roster where
  records := [{
    key := ascii "player", name := [97, 34, 98], havePose := true, x := ⟨0⟩, y := ⟨0⟩, z := ⟨0⟩ }]
  sanitized r hr := ⟨[], by
    rw [List.mem_singleton.mp hr]
    rfl⟩
  distinct := by decide

theorem not_roundTrip_quotedName : ¬RoundTrip plainNumbers quotedName ⟨id, fun l => .refl l⟩ := by
  intro h
  have hload := (roundTrip_iff_loadPlayer plainNumbers quotedName _).mp h _ List.mem_cons_self
  exact loadPlayer_name_mark plainNumbers hload (by decide)

end CommonwealthMP
