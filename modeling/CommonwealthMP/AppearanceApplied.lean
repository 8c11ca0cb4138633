import CommonwealthMP.AppearanceTransfer

/-! # All or nothing of an appearance

What every field of a look leaves on a ghost, said of the ghost and not of the readings, and
which blobs are applied in full or refused: a blob that stops short is applied as far as it
goes and reported as applied. -/
namespace CommonwealthMP
open ByteLayout ByteReaders Binary32 Reading

/-- The value that the last of the rows writes, where one does. -/
def lastOf {ρ α : Type} (write : ρ → Option α) (rows : List ρ) : Option α := (rows.filterMap write).getLast?

theorem lastOf_cons {ρ α : Type} (write : ρ → Option α) (row : ρ) (rows : List ρ) (old : Option α) :
    (lastOf write (row :: rows)).or old = (lastOf write rows).or ((write row).or old) := by
  unfold lastOf
  cases hw : write row with
  | none => rw [List.filterMap_cons_none hw, Option.none_or]
  | some a =>
    rw [List.filterMap_cons_some hw, List.getLast?_cons]
    cases (rows.filterMap write).getLast? <;> rfl

theorem lastOf_singleton {ρ α : Type} (write : ρ → Option α) (row : ρ) : lastOf write [row] = write row := by
  have h := lastOf_cons write row [] none
  rwa [Option.or_none, Option.or_none] at h

theorem lastOf_eq_none {ρ α : Type} {write : ρ → Option α} {rows : List ρ} (h : ∀ row ∈ rows, write row = none) :
    lastOf write rows = none := by
  rw [lastOf, List.filterMap_eq_nil_iff.mpr h]
  rfl

/-- Rows that write nothing do not count. -/
theorem lastOf_filter {ρ α : Type} {write : ρ → Option α} {keep : ρ → Bool} (rows : List ρ)
    (h : ∀ row ∈ rows, keep row = false → write row = none) : lastOf write (rows.filter keep) = lastOf write rows := by
  unfold lastOf
  rw [List.filterMap_filter]
  congr 1
  refine List.filterMap_congr fun row hrow => ?_
  cases hk : keep row with
  | false => exact (h row hrow hk).symm
  | true => rfl

theorem magic_read {σ : Type} {blob : Bytes} (x : σ) (h : 8 ≤ blob.length) :
    (Reading.u32 : Reading σ UInt32) ({ bytes := blob }, x) =
      (some (u32At blob 0), Cursor.copyAll { bytes := blob } [ByteLayout.u32 (u32At blob 0)], x) := by
  have hlen : (blob.take 4).length = 4 := by
    rw [List.length_take]
    omega
  have hfront : u32At blob 0 = u32At (blob.take 4) 0 := by simp [u32At, slice, List.take_take]
  have hprefix : [ByteLayout.u32 (u32At blob 0)].flatten <+: blob := by
    rw [List.flatten_singleton, hfront, u32_u32At hlen]
    exact List.take_prefix 4 blob
  exact (accepts_u32.run (Cursor.within_start blob) hprefix ⟨rfl, rfl⟩).1

theorem version_read {σ : Type} {blob : Bytes} (x : σ) (h : 8 ≤ blob.length) (magic : UInt32) :
    ∃ version s, Reading.u16 (Cursor.copyAll { bytes := blob } [ByteLayout.u32 magic], x) = (some version, s) := by
  have hroom : 2 ≤ blob.length - (0 + 4) := by omega
  exact ⟨_, _, bind_some _ (t := (_, x)) (if_pos hroom)⟩

/-- The header of eight bytes or more is read when it has the magic. -/
theorem readAppearHeader_cases {σ : Type} {blob : Bytes} (x : σ) (h : 8 ≤ blob.length) :
    (u32At blob 0 ≠ kAppearMagic ∧ ∃ c, readAppearHeader ({ bytes := blob }, x) = (none, c, x)) ∨
      (u32At blob 0 = kAppearMagic ∧ ∃ version s, readAppearHeader ({ bytes := blob }, x) = (some version, s)) := by
  have hread := bind_some (fun magic => if magic ≠ kAppearMagic then stop else Reading.u16) (magic_read x h)
  by_cases hmagic : u32At blob 0 = kAppearMagic
  · obtain ⟨version, s, hversion⟩ := version_read x h (u32At blob 0)
    rw [if_neg (not_not.mpr hmagic), hversion] at hread
    exact .inr ⟨hmagic, version, s, hread⟩
  · rw [if_pos hmagic] at hread
    exact .inl ⟨hmagic, _, hread⟩

section Applied
variable {Form : Type} (engine : Engine Form)

/-- A morph key has the value of its last row, or the one it had. -/
def morphed (kvs : List (UInt32 × F32)) (values : UInt32 → Option F32) (key : UInt32) : Option F32 :=
  (lastOf (fun kv => if kv.1 = key then some kv.2 else none) kvs).or (values key)

/-- A tint entry with the value of the last row of its link, and as a palette with the colour of
the last palette row of it. -/
def tinted (rows : List TintRow) (e : TintEntry) : TintEntry :=
  { e with
    tingingValue := (lastOf (fun row => if row.idLink = e.idLink then some row.value else none) rows).getD e.tingingValue
    tintingColor := (lastOf (fun row => if row.idLink = e.idLink ∧ row.type = engine.kPalette ∧ e.type = engine.kPalette then
      some row.color else none) rows).getD e.tintingColor }

/-- The entry stands at `k` and is the first of its link. -/
def IsFirst (entries : List (Option TintEntry)) (k : ℕ) (e : TintEntry) : Prop :=
  entries[k]? = some (some e) ∧ ∀ j < k, ∀ e', entries[j]? = some (some e') → e'.idLink ≠ e.idLink

/-- The rows have gone to the first entries of their links, and to nothing else. -/
structure TintsApplied (rows : List TintRow) (entries entries' : List (Option TintEntry)) : Prop where
  length : entries'.length = entries.length
  first : ∀ k e, IsFirst entries k e → entries'[k]? = some (some (tinted engine rows e))
  other : ∀ k, (∀ e, ¬ IsFirst entries k e) → entries'[k]? = entries[k]?

/-- The morph values once each pair has been put in. -/
def morphsAfter (kvs : List (UInt32 × F32)) (values : UInt32 → Option F32) : UInt32 → Option F32 :=
  kvs.foldl (fun values kv => Function.update values kv.1 (some kv.2)) values

/-- The tint entries once each row has been put in. -/
def entriesAfter (rows : List TintRow) (entries : List (Option TintEntry)) : List (Option TintEntry) :=
  rows.foldl (fun entries row => GhostBase.setEntry engine row entries) entries

theorem morphsAfter_eq (kvs : List (UInt32 × F32)) (values : UInt32 → Option F32) :
    morphsAfter kvs values = morphed kvs values := by
  funext key
  induction kvs generalizing values with
  | nil => rfl
  | cons kv kvs ih =>
    refine (ih (Function.update values kv.1 (some kv.2))).trans ?_
    rw [morphed, morphed, lastOf_cons]
    congr 1
    by_cases hk : kv.1 = key
    · rw [if_pos hk, ← hk, Function.update_self]
      rfl
    · rw [if_neg hk, Function.update_of_ne (Ne.symm hk), Option.none_or]

/-- One row on the first entry of its link. -/
theorem tinted_cons (row : TintRow) (rows : List TintRow) (e : TintEntry) :
    tinted engine (row :: rows) e = tinted engine rows (tinted engine [row] e) := by
  have hold {α : Type} (write : TintRow → Option α) (old : α) :
      (lastOf write (row :: rows)).getD old = (lastOf write rows).getD ((lastOf write [row]).getD old) := by
    have h := lastOf_cons write row rows (some old)
    rw [lastOf_singleton]
    cases hl : lastOf write rows <;> cases hw : write row <;> simp_all
  rw [tinted, hold, hold]
  rfl

theorem setEntry_some (row : TintRow) (e : TintEntry) (rest : List (Option TintEntry)) :
    GhostBase.setEntry engine row (some e :: rest) =
      some (tinted engine [row] e) :: if row.idLink = e.idLink then rest else GhostBase.setEntry engine row rest := by
  rw [GhostBase.setEntry, tinted, lastOf_singleton, lastOf_singleton]
  by_cases hlink : row.idLink = e.idLink
  · rw [if_neg (not_not.mpr hlink.symm), if_pos hlink, if_pos hlink]
    dsimp only
    by_cases hp : row.type = engine.kPalette ∧ e.type = engine.kPalette
    · rw [if_pos hp, if_pos ⟨hlink, hp⟩]
      rfl
    · rw [if_neg hp, if_neg fun h => hp h.2]
      rfl
  · rw [if_pos (Ne.symm hlink), if_neg hlink, if_neg hlink, if_neg fun h => hlink h.1]
    rfl

theorem entriesAfter_nil (rows : List TintRow) : entriesAfter engine rows [] = [] := by
  induction rows with
  | nil => rfl
  | cons row rows ih => exact ih

theorem entriesAfter_none (rows : List TintRow) (rest : List (Option TintEntry)) :
    entriesAfter engine rows (none :: rest) = none :: entriesAfter engine rows rest := by
  induction rows generalizing rest with
  | nil => rfl
  | cons row rows ih => exact ih (GhostBase.setEntry engine row rest)

/-- An entry takes all the rows of its link, so that none is left for the entries behind it. -/
theorem entriesAfter_some (rows : List TintRow) (e : TintEntry) (rest : List (Option TintEntry)) :
    entriesAfter engine rows (some e :: rest) =
      some (tinted engine rows e) :: entriesAfter engine (rows.filter fun row => row.idLink ≠ e.idLink) rest := by
  induction rows generalizing e rest with
  | nil => rfl
  | cons row rows ih =>
    have hlink : (tinted engine [row] e).idLink = e.idLink := rfl
    rw [entriesAfter, List.foldl_cons, setEntry_some]
    refine (ih (tinted engine [row] e) _).trans ?_
    rw [← tinted_cons, hlink]
    by_cases h : row.idLink = e.idLink
    · rw [if_pos h, List.filter_cons_of_neg (by simpa using h)]
    · rw [if_neg h, List.filter_cons_of_pos (by simpa using h)]
      rfl

theorem isFirst_none {rest : List (Option TintEntry)} {k : ℕ} {e : TintEntry} :
    IsFirst (none :: rest) (k + 1) e ↔ IsFirst rest k e := by
  unfold IsFirst
  rw [List.getElem?_cons_succ]
  refine and_congr_right fun _ => ⟨fun h j hj e' he' => h (j + 1) (by omega) e' he', fun h j hj e' he' => ?_⟩
  cases j with
  | zero => cases he'
  | succ j => exact h j (by omega) e' he'

theorem isFirst_some {e₀ : TintEntry} {rest : List (Option TintEntry)} {k : ℕ} {e : TintEntry} :
    IsFirst (some e₀ :: rest) (k + 1) e ↔ IsFirst rest k e ∧ e₀.idLink ≠ e.idLink := by
  unfold IsFirst
  rw [List.getElem?_cons_succ, and_assoc]
  refine and_congr_right fun _ => ⟨fun h => ⟨fun j hj e' he' => h (j + 1) (by omega) e' he', h 0 (by omega) e₀ rfl⟩, ?_⟩
  rintro ⟨h, hne⟩ j hj e' he'
  cases j with
  | zero =>
    rw [List.getElem?_cons_zero, Option.some.injEq, Option.some.injEq] at he'
    exact he' ▸ hne
  | succ j => exact h j (by omega) e' he'

theorem tinted_of_no_rows {rows : List TintRow} {e : TintEntry} (h : ∀ row ∈ rows, row.idLink ≠ e.idLink) :
    tinted engine rows e = e := by
  rw [tinted, lastOf_eq_none fun row hr => if_neg (h row hr), lastOf_eq_none fun row hr => if_neg fun hp => h row hr hp.1]
  rfl

theorem tinted_filter (rows : List TintRow) {link : UInt16} {e : TintEntry} (h : link ≠ e.idLink) :
    tinted engine (rows.filter fun row => row.idLink ≠ link) e = tinted engine rows e := by
  have hother {row : TintRow} (hk : decide (row.idLink ≠ link) = false) : row.idLink ≠ e.idLink := by
    have : row.idLink = link := by simpa using hk
    exact this ▸ h
  rw [tinted, lastOf_filter rows fun row _ hk => if_neg (hother hk),
    lastOf_filter rows fun row _ hk => if_neg fun hp => hother hk hp.1]
  rfl

/-- The loop over the rows, each with its search from the front, does to each entry what is said of it. -/
theorem tintsApplied (rows : List TintRow) (entries : List (Option TintEntry)) :
    TintsApplied engine rows entries (entriesAfter engine rows entries) := by
  induction entries generalizing rows with
  | nil =>
    rw [entriesAfter_nil]
    exact ⟨rfl, fun k e h => (by cases h.1), fun _ _ => rfl⟩
  | cons entry rest ih =>
    cases entry with
    | none =>
      rw [entriesAfter_none]
      refine ⟨by rw [List.length_cons, List.length_cons, (ih rows).length], fun k e h => ?_, fun k h => ?_⟩
      · cases k with
        | zero => cases h.1
        | succ k => exact (ih rows).first k e (isFirst_none.mp h)
      · cases k with
        | zero => rfl
        | succ k => exact (ih rows).other k fun e he => h e (isFirst_none.mpr he)
    | some e₀ =>
      have hrest := ih (rows.filter fun row => row.idLink ≠ e₀.idLink)
      rw [entriesAfter_some]
      refine ⟨by rw [List.length_cons, List.length_cons, hrest.length], fun k e h => ?_, fun k h => ?_⟩
      · cases k with
        | zero =>
          obtain ⟨he, -⟩ := h
          rw [List.getElem?_cons_zero, Option.some.injEq, Option.some.injEq] at he
          rw [List.getElem?_cons_zero, he]
        | succ k =>
          obtain ⟨hfirst, hne⟩ := isFirst_some.mp h
          rw [List.getElem?_cons_succ, hrest.first k e hfirst, tinted_filter engine rows hne]
      · cases k with
        | zero => exact absurd ⟨rfl, fun j hj => absurd hj (Nat.not_lt_zero j)⟩ (h e₀)
        | succ k =>
          rw [List.getElem?_cons_succ, List.getElem?_cons_succ]
          -- an entry behind the first of its link is the first of it in the rest, where no row of it is left
          by_cases hfirst : ∃ e, IsFirst rest k e
          · obtain ⟨e, he⟩ := hfirst
            have hlink : e₀.idLink = e.idLink := not_not.mp fun hne => h e (isFirst_some.mpr ⟨he, hne⟩)
            rw [hrest.first k e he, he.1, tinted_of_no_rows]
            intro row hr
            have := (List.mem_filter.mp hr).2
            rw [hlink] at this
            simpa using this
          · exact hrest.other k fun e he => hfirst ⟨e, he⟩

theorem foldRows_setMorph (kvs : List (UInt32 × F32)) (x : Ghost Form) :
    foldRows (fun kv x => x.onBase fun base => base.setMorph kv) kvs x =
      x.onBase fun base => { base with morphSliderValues := base.morphSliderValues.map (morphsAfter kvs) } := by
  induction kvs generalizing x with
  | nil => simp [foldRows, Ghost.onBase, show morphsAfter [] = id from rfl]
  | cons kv kvs ih =>
    refine (ih _).trans ?_
    simp only [Ghost.onBase, GhostBase.setMorph, Option.map_map]
    rfl

theorem foldRows_setTint (rows : List TintRow) (x : Ghost Form) :
    foldRows (fun row x => x.onBase fun base => base.setTint engine row) rows x =
      x.onBase fun base => { base with tintingData := base.tintingData.map (entriesAfter engine rows) } := by
  induction rows generalizing x with
  | nil => simp [foldRows, Ghost.onBase, show entriesAfter engine [] = id from rfl]
  | cons row rows ih =>
    refine (ih _).trans ?_
    simp only [Ghost.onBase, GhostBase.setTint, Option.map_map]
    rfl

theorem setRace_eq (base : GhostBase Form) (race : PackedForm) : base.setRace engine race =
    { base with
      formRace := (engine.find engine.isRace race).or base.formRace
      originalRace := (engine.find engine.isRace race).or base.originalRace } := by
  unfold GhostBase.setRace
  cases engine.find engine.isRace race <;> rfl

theorem setHair_eq (base : GhostBase Form) (hair : PackedForm) : base.setHair engine hair =
    { base with
      headRelatedData := (engine.find engine.isColor hair).elim base.headRelatedData
        fun color => engine.setHairColor color base.headRelatedData } := by
  unfold GhostBase.setHair
  cases engine.find engine.isColor hair <;> rfl

theorem setFacial_eq (base : GhostBase Form) (facial : PackedForm) : base.setFacial engine facial =
    { base with
      headRelatedData := (engine.find engine.isColor facial).elim base.headRelatedData
        fun color => base.headRelatedData.map fun data => { data with facialHairColor := some color } } := by
  unfold GhostBase.setFacial
  cases engine.find engine.isColor facial <;> rfl

theorem setHeadParts_eq (base : GhostBase Form) (forms : List PackedForm) : base.setHeadParts engine forms =
    { base with faceNPC := none, headParts := (base.setHeadParts engine forms).headParts } := by
  unfold GhostBase.setHeadParts
  dsimp only
  split <;> rfl

def Engine.wearable (form : Form) : Bool :=
  !forbiddenActorBase (engine.formId form) && !engine.isSkippedGear form && engine.isBoundObject form

/-- The gear of a look: the forms its rows resolve to, where a ghost can wear them. -/
def Engine.gear (rows : List WornRow) : List Form :=
  rows.filterMap fun row => (engine.resolveForm row.form.raw (cString row.form.plugin)).filter engine.wearable

variable [DecidableEq Form]

/-- What a ghost wears with just the Pip-Boy and then the gear, each piece put on in turn. -/
def Ghost.geared (x : Ghost Form) (rows : List WornRow) : List Form :=
  (engine.gear rows).foldl (fun worn form => engine.equipObject form worn) (x.worn.filter fun form => x.pipboy = some form)

/-- Every field of a look is on the ghost, where its form resolves and the ghost has a place for it. -/
structure Applied (look : NpcLook) (x y : Ghost Form) : Prop where
  sex : y.base.female = decide (look.sex ≠ 0) ∧ y.base.unique = false
  outfits : y.base.defOutfit = none ∧ y.base.sleepOutfit = none
  race : ∀ race, engine.find engine.isRace look.race = some race →
    y.base.formRace = some race ∧ y.base.originalRace = some race
  weights : y.base.weights = look.weights
  hair : ∀ color, engine.find engine.isColor look.hair = some color →
    y.base.headRelatedData.bind (·.hairColor) = some color
  facial : ∀ color, engine.find engine.isColor look.facial = some color →
    ∀ data, y.base.headRelatedData = some data → data.facialHairColor = some color
  bodyTint : y.base.bodyTint = look.bodyTint
  headParts : look.lists.headParts.filterMap (engine.find engine.isHeadPart) ≠ [] →
    y.base.headParts = some ((look.lists.headParts.filterMap (engine.find engine.isHeadPart)).map some)
  morphs : y.base.morphSliderValues = x.base.morphSliderValues.map (morphed look.lists.morphs)
  tints : ∀ entries, x.base.tintingData = some entries →
    ∃ entries', y.base.tintingData = some entries' ∧ TintsApplied engine look.lists.tints entries entries'
  worn : y.worn = x.geared engine look.lists.worn
  carried : ∀ form ∈ engine.gear look.lists.worn, form ∈ y.inventory

/-- There is a place for the head parts and for the gear of the look. -/
structure Places (look : NpcLook) (x : Ghost Form) : Prop where
  headParts : look.lists.headParts.filterMap (engine.find engine.isHeadPart) ≠ [] →
    (look.lists.headParts.filterMap (engine.find engine.isHeadPart)).length ≤ 127 ∧
      (engine.allocates = true ∨ ∃ array, x.base.headParts = some array ∧
        (look.lists.headParts.filterMap (engine.find engine.isHeadPart)).length ≤ array.length)
  gear : engine.manager = true ∨
    x.worn = x.geared engine look.lists.worn ∧ ∀ form ∈ engine.gear look.lists.worn, form ∈ x.inventory

omit [DecidableEq Form] in
theorem filled_iff {parts : List Form} (hne : parts ≠ []) (array : List (Option Form)) :
    (if array = [] then array else (parts.take (min (min parts.length 127) array.length)).map some) = parts.map some ↔
      parts.length ≤ 127 ∧ parts.length ≤ array.length := by
  have hpos := List.length_pos_iff.mpr hne
  split
  · rename_i hnil
    subst hnil
    refine iff_of_false (fun h => hne (List.map_eq_nil_iff.mp h.symm)) fun h => ?_
    exact absurd (h.2.trans_eq rfl) (not_le.mpr hpos)
  · constructor
    · intro h
      have hlen := congrArg List.length h
      rw [List.length_map, List.length_map, List.length_take] at hlen
      omega
    · rintro ⟨hmax, harray⟩
      rw [min_eq_left hmax, min_eq_left harray, List.take_length]

omit [DecidableEq Form] in
/-- All the head parts are there exactly when the array takes them. -/
theorem setHeadParts_headParts (base : GhostBase Form) {forms : List PackedForm}
    (hne : forms.filterMap (engine.find engine.isHeadPart) ≠ []) :
    (base.setHeadParts engine forms).headParts = some ((forms.filterMap (engine.find engine.isHeadPart)).map some) ↔
      (forms.filterMap (engine.find engine.isHeadPart)).length ≤ 127 ∧
        (engine.allocates = true ∨ ∃ array, base.headParts = some array ∧
          (forms.filterMap (engine.find engine.isHeadPart)).length ≤ array.length) := by
  rw [GhostBase.setHeadParts, if_neg hne]
  dsimp only
  generalize forms.filterMap (engine.find engine.isHeadPart) = parts at hne
  have hroom : parts.length ≤ 127 ∧ parts.length ≤ min parts.length 127 ↔ parts.length ≤ 127 :=
    and_iff_left_of_imp fun h => le_min le_rfl h
  rw [GhostBase.headRoom]
  cases hbase : base.headParts with
  | none =>
    dsimp only
    split
    · rename_i ha
      rw [Option.map_some, Option.some.injEq, filled_iff hne, List.length_replicate, hroom]
      exact (and_iff_left (.inl ha)).symm
    · rename_i ha
      refine iff_of_false (fun h => by cases h) ?_
      rintro ⟨-, h | ⟨_, h, -⟩⟩
      · exact ha h
      · cases h
  | some array =>
    dsimp only
    split
    · rename_i h
      obtain ⟨-, ha⟩ := Bool.and_eq_true_iff.mp h
      rw [Option.map_some, Option.some.injEq, filled_iff hne, List.length_replicate, hroom]
      exact (and_iff_left (.inl ha)).symm
    · rename_i h
      rw [Option.map_some, Option.some.injEq, filled_iff hne]
      refine and_congr_right fun hmax => ⟨fun hlong => .inr ⟨array, rfl, hlong⟩, ?_⟩
      rintro (ha | ⟨_, heq, hlong⟩)
      · rw [ha, Bool.and_true, decide_eq_true_eq, min_eq_left hmax] at h
        exact not_lt.mp h
      · cases heq
        exact hlong

theorem equip_eq (hm : engine.manager = true) (x : Ghost Form) (form : Form) :
    x.equip engine form = if engine.wearable form = true then
      { x with
        inventory := if form ∈ x.inventory then x.inventory else form :: x.inventory
        worn := engine.equipObject form x.worn }
      else x := by
  unfold Ghost.equip Engine.wearable
  rw [hm]
  cases forbiddenActorBase (engine.formId form) <;> cases engine.isSkippedGear form <;>
    cases engine.isBoundObject form <;> rfl

theorem wear_eq (hm : engine.manager = true) (x : Ghost Form) (row : WornRow) :
    x.wear engine row =
      ((engine.resolveForm row.form.raw (cString row.form.plugin)).filter engine.wearable).elim x fun form =>
        { x with
          inventory := if form ∈ x.inventory then x.inventory else form :: x.inventory
          worn := engine.equipObject form x.worn } := by
  unfold Ghost.wear
  cases engine.resolveForm row.form.raw (cString row.form.plugin) with
  | none => rfl
  | some form =>
    dsimp only
    rw [equip_eq engine hm, Option.filter_some]
    split <;> rfl

/-- With an equip manager each row that a ghost can wear goes on. -/
theorem foldRows_wear (hm : engine.manager = true) (rows : List WornRow) (x : Ghost Form) :
    (foldRows (fun row x => x.wear engine row) rows x).worn =
        (engine.gear rows).foldl (fun worn form => engine.equipObject form worn) x.worn ∧
      (∀ form ∈ x.inventory, form ∈ (foldRows (fun row x => x.wear engine row) rows x).inventory) ∧
      ∀ form ∈ engine.gear rows, form ∈ (foldRows (fun row x => x.wear engine row) rows x).inventory := by
  induction rows generalizing x with
  | nil => exact ⟨rfl, fun _ h => h, fun _ h => absurd h List.not_mem_nil⟩
  | cons row rows ih =>
    obtain ⟨hworn, hkeep, hcarry⟩ := ih (x.wear engine row)
    have hcons : foldRows (fun row x => x.wear engine row) (row :: rows) x =
        foldRows (fun row x => x.wear engine row) rows (x.wear engine row) := rfl
    have hput := wear_eq engine hm x row
    rw [hcons]
    cases hform : (engine.resolveForm row.form.raw (cString row.form.plugin)).filter engine.wearable with
    | none =>
      have hgear : engine.gear (row :: rows) = engine.gear rows := List.filterMap_cons_none hform
      rw [hform, Option.elim_none] at hput
      rw [hgear]
      rw [hput] at hworn hkeep hcarry ⊢
      exact ⟨hworn, hkeep, hcarry⟩
    | some form =>
      have hgear : engine.gear (row :: rows) = form :: engine.gear rows := List.filterMap_cons_some hform
      rw [hform, Option.elim_some] at hput
      have hcarried : ∀ other, other = form ∨ other ∈ x.inventory → other ∈ (x.wear engine row).inventory := by
        intro other ho
        rw [hput]
        dsimp only
        split
        · rename_i hin
          exact ho.elim (fun he => he ▸ hin) id
        · exact List.mem_cons.mpr ho
      rw [hgear]
      refine ⟨hworn.trans ?_, fun other ho => hkeep other (hcarried other (.inr ho)), fun other ho => ?_⟩
      · rw [hput, List.foldl_cons]
      · rcases List.mem_cons.mp ho with rfl | ho
        · exact hkeep other (hcarried other (.inl rfl))
        · exact hcarry other ho

theorem foldRows_wear_of_no_manager (hm : engine.manager = false) (rows : List WornRow) (x : Ghost Form) :
    foldRows (fun row x => x.wear engine row) rows x = x := by
  have hsame (row : WornRow) (x : Ghost Form) : x.wear engine row = x := by
    unfold Ghost.wear
    cases engine.resolveForm row.form.raw (cString row.form.plugin) with
    | none => rfl
    | some form =>
      dsimp only
      rw [Ghost.equip, hm]
      rfl
  induction rows with
  | nil => rfl
  | cons row rows ih =>
    refine Eq.trans ?_ ih
    rw [foldRows, List.foldl_cons, hsame]
    rfl

theorem wear_onBase (row : WornRow) (x : Ghost Form) (f : GhostBase Form → GhostBase Form) :
    (x.onBase f).wear engine row = (x.wear engine row).onBase f := by
  unfold Ghost.wear
  cases engine.resolveForm row.form.raw (cString row.form.plugin) with
  | none => rfl
  | some form =>
    dsimp only
    unfold Ghost.equip
    split <;> rfl

/-- The gear does not see the base. -/
theorem foldRows_wear_onBase (rows : List WornRow) (x : Ghost Form) (f : GhostBase Form → GhostBase Form) :
    foldRows (fun row x => x.wear engine row) rows (x.onBase f) =
      (foldRows (fun row x => x.wear engine row) rows x).onBase f := by
  induction rows generalizing x with
  | nil => rfl
  | cons row rows ih =>
    refine Eq.trans ?_ (ih (x.wear engine row))
    rw [foldRows, List.foldl_cons, wear_onBase]
    rfl

theorem wear_base (row : WornRow) (x : Ghost Form) : (x.wear engine row).base = x.base := by
  unfold Ghost.wear
  cases engine.resolveForm row.form.raw (cString row.form.plugin) with
  | none => rfl
  | some form =>
    dsimp only
    unfold Ghost.equip
    split <;> rfl

theorem foldRows_wear_base (rows : List WornRow) (x : Ghost Form) :
    (foldRows (fun row x => x.wear engine row) rows x).base = x.base := by
  induction rows generalizing x with
  | nil => rfl
  | cons row rows ih => exact (ih (x.wear engine row)).trans (wear_base engine row x)

theorem strip_onBase (x : Ghost Form) (f : GhostBase Form → GhostBase Form) :
    (x.onBase f).strip engine = (x.strip engine).onBase f := by
  unfold Ghost.strip
  split <;> rfl

theorem strip_strip (x : Ghost Form) : (x.strip engine).strip engine = x.strip engine := by
  unfold Ghost.strip
  split
  · simp
  · rfl

theorem strip_base (x : Ghost Form) : (x.strip engine).base = x.base := by
  unfold Ghost.strip
  split <;> rfl

def NpcLook.appliedBase (look : NpcLook) (base : GhostBase Form) : GhostBase Form :=
  let base := (base.setSex look.sex).setRace engine look.race
  let base := ((base.mapWeights fun _ => look.weights).setHair engine look.hair).setFacial engine look.facial
  let base := (base.setBodyTint look.bodyTint).setHeadParts engine look.lists.headParts
  { base with
    morphSliderValues := base.morphSliderValues.map (morphsAfter look.lists.morphs)
    tintingData := base.tintingData.map (entriesAfter engine look.lists.tints) }

theorem applied_eq (look : NpcLook) (x : Ghost Form) :
    look.applied engine x =
      (foldRows (fun row x => x.wear engine row) look.lists.worn (x.strip engine)).onBase (look.appliedBase engine) := by
  simp only [NpcLook.applied, LookLists.applied, foldRows_setMorph, foldRows_setTint, strip_onBase, strip_strip,
    foldRows_wear_onBase]
  rfl

theorem applied_base (look : NpcLook) (x : Ghost Form) : (look.applied engine x).base = look.appliedBase engine x.base := by
  rw [applied_eq, Ghost.onBase, foldRows_wear_base, strip_base]

theorem applied_headParts_iff (look : NpcLook) (x : Ghost Form)
    (hne : look.lists.headParts.filterMap (engine.find engine.isHeadPart) ≠ []) :
    (look.applied engine x).base.headParts =
        some ((look.lists.headParts.filterMap (engine.find engine.isHeadPart)).map some) ↔
      (look.lists.headParts.filterMap (engine.find engine.isHeadPart)).length ≤ 127 ∧
        (engine.allocates = true ∨ ∃ array, x.base.headParts = some array ∧
          (look.lists.headParts.filterMap (engine.find engine.isHeadPart)).length ≤ array.length) := by
  rw [applied_base, NpcLook.appliedBase]
  simp only [setRace_eq, setHair_eq, setFacial_eq, GhostBase.setSex, GhostBase.mapWeights, GhostBase.setBodyTint]
  exact setHeadParts_headParts engine _ hne

theorem applied_gear_iff (look : NpcLook) (x : Ghost Form) :
    (look.applied engine x).worn = x.geared engine look.lists.worn ∧
        (∀ form ∈ engine.gear look.lists.worn, form ∈ (look.applied engine x).inventory) ↔
      engine.manager = true ∨
        x.worn = x.geared engine look.lists.worn ∧ ∀ form ∈ engine.gear look.lists.worn, form ∈ x.inventory := by
  rw [applied_eq, Ghost.onBase]
  dsimp only
  cases hm : engine.manager with
  | true =>
    obtain ⟨hworn, -, hcarry⟩ := foldRows_wear engine hm look.lists.worn (x.strip engine)
    refine iff_of_true ⟨?_, hcarry⟩ (.inl rfl)
    rw [hworn, Ghost.strip, if_pos hm, Ghost.geared]
  | false =>
    rw [foldRows_wear_of_no_manager engine hm, Ghost.strip, if_neg (by rw [hm]; decide)]
    simp

/-- A look that is applied is on the ghost in full exactly when there is a place for its head parts and its gear. -/
theorem applied_iff (look : NpcLook) (x : Ghost Form) :
    Applied engine look x (look.applied engine x) ↔ Places engine look x := by
  have hbase := applied_base engine look x
  rw [NpcLook.appliedBase, setHeadParts_eq] at hbase
  simp only [setRace_eq, setHair_eq, setFacial_eq, GhostBase.setSex, GhostBase.mapWeights, GhostBase.setBodyTint] at hbase
  constructor
  · intro h
    exact ⟨fun hne => (applied_headParts_iff engine look x hne).mp (h.headParts hne),
      (applied_gear_iff engine look x).mp ⟨h.worn, h.carried⟩⟩
  · intro h
    obtain ⟨hworn, hcarry⟩ := (applied_gear_iff engine look x).mpr h.gear
    exact {
      sex := by
        rw [hbase]
        exact ⟨rfl, rfl⟩
      outfits := by
        rw [hbase]
        exact ⟨rfl, rfl⟩
      race := by
        intro race hrace
        rw [hbase, hrace]
        exact ⟨rfl, rfl⟩
      weights := by rw [hbase]
      hair := by
        intro color hcolor
        rw [hbase, hcolor, Option.elim_some]
        have hspec := engine.setHairColor_spec color x.base.headRelatedData
        cases engine.find engine.isColor look.facial with
        | none => exact hspec
        | some facial =>
          rw [Option.elim_some, Option.bind_map]
          exact hspec
      facial := by
        intro color hcolor data hdata
        rw [hbase, hcolor, Option.elim_some] at hdata
        obtain ⟨old, -, rfl⟩ := Option.map_eq_some_iff.mp hdata
        rfl
      bodyTint := by rw [hbase]
      headParts := fun hne => (applied_headParts_iff engine look x hne).mpr (h.headParts hne)
      morphs := by
        rw [hbase]
        exact congrArg (Option.map · x.base.morphSliderValues) (funext (morphsAfter_eq look.lists.morphs))
      tints := by
        intro entries he
        refine ⟨entriesAfter engine look.lists.tints entries, ?_, tintsApplied engine look.lists.tints entries⟩
        rw [hbase]
        exact congrArg (Option.map (entriesAfter engine look.lists.tints)) he
      worn := hworn
      carried := hcarry }

/-- Every field has been read and applied, and the blob reported as applied. -/
def Taken (x : Ghost Form) (blob : Bytes) : Prop :=
  let result := applyAppearanceBlob engine x blob
  result.1 = true ∧ ∃ look, result.2.1 = some look ∧ Applied engine look x result.2.2.2

/-- The blob has been refused with the ghost as it was. -/
def Refused (x : Ghost Form) (blob : Bytes) : Prop :=
  let result := applyAppearanceBlob engine x blob
  result.1 = false ∧ result.2.2.2 = x

/-- Only a short blob and one of another magic are refused, and that before anything is touched. -/
theorem refused_iff (x : Ghost Form) (blob : Bytes) :
    Refused engine x blob ↔ blob.length < 8 ∨ u32At blob 0 ≠ kAppearMagic := by
  rw [Refused, applyAppearanceBlob]
  by_cases hshort : blob.length < 8
  · rw [if_pos hshort]
    exact iff_of_true ⟨rfl, rfl⟩ (.inl hshort)
  · rw [if_neg hshort]
    rcases readAppearHeader_cases x (not_lt.mp hshort) with ⟨hmagic, c, hread⟩ | ⟨hmagic, version, s, hread⟩
    · rw [hread]
      exact iff_of_true ⟨rfl, rfl⟩ (.inr hmagic)
    · rw [hread]
      refine iff_of_false ?_ (not_or.mpr ⟨hshort, not_not.mpr hmagic⟩)
      rintro ⟨h, -⟩
      cases h

/-- A look that has been read stands at the start of the blob, and the cursor at its end. -/
theorem legal_of_read {x : Ghost Form} {blob : Bytes} {look : NpcLook} (h : (applyAppearanceBlob engine x blob).2.1 = some look) :
    ∃ text : LookText, text.Legal ∧ text.bytes <+: blob ∧
      (applyAppearanceBlob engine x blob).2.2.1 = Cursor.copyAll { bytes := blob } text.pieces := by
  rw [applyAppearanceBlob] at h ⊢
  split at h
  · cases h
  · rename_i hlong
    rw [if_neg hlong]
    rcases hr : readAppearHeader ({ bytes := blob }, x) with ⟨_ | version, s⟩
    · rw [hr] at h
      cases h
    · rw [hr] at h
      dsimp only at h ⊢
      obtain ⟨header, hc, hheader, rfl, hy⟩ := (accepts_header.accepted _ _ _ (Cursor.within_start blob)).mp hr
      have hin := (accepts_header.within ({ bytes := blob }, x) (Cursor.within_start blob)).1
      rw [hr] at hin
      rw [applyToNpc] at h ⊢
      split at h
      · rename_i hpaint
        rw [if_pos hpaint]
        rcases hf : applyFields engine s with ⟨_ | look', t⟩
        · rw [hf] at h
          cases h
        · obtain ⟨fields, ht, hfields, text, hlegal, rfl, -, -⟩ := ((accepts_fields engine).accepted _ _ _ hin).mp hf
          rw [hc] at hfields ht
          rw [← Cursor.copyAll_append] at ht
          refine ⟨⟨version, text.pad, text.look⟩, ⟨hlegal.race, hlegal.hair, hlegal.facial, hlegal.lists⟩, ?_, ht⟩
          exact (Cursor.prefix_append { bytes := blob } _ _).mpr ⟨hheader, hfields⟩
      · cases h

theorem taken_iff {x : Ghost Form} (hx : x.base.paintable = true) (blob : Bytes) :
    Taken engine x blob ↔ ∃ text : LookText, text.Legal ∧ text.bytes <+: blob ∧ Places engine text.value x := by
  constructor
  · rintro ⟨-, look, hlook, happlied⟩
    obtain ⟨text, hlegal, hprefix, -⟩ := legal_of_read engine hlook
    rw [applyAppearanceBlob_legal engine hx hlegal hprefix] at hlook happlied
    obtain rfl := Option.some.inj hlook
    exact ⟨text, hlegal, hprefix, (applied_iff engine text.value x).mp happlied⟩
  · rintro ⟨text, hlegal, hprefix, hplaces⟩
    rw [Taken, applyAppearanceBlob_legal engine hx hlegal hprefix]
    exact ⟨rfl, text.value, rfl, (applied_iff engine text.value x).mpr hplaces⟩

theorem copyAll_p (blob : Bytes) (text : LookText) : (Cursor.copyAll { bytes := blob } text.pieces).p = text.bytes.length := by
  obtain ⟨-, hp⟩ := Writer.copied_copyAll (w := {}) (c := { bytes := blob }) rfl rfl text.pieces
  rw [hp, Writer.rawAll_bytes, List.nil_append, LookText.bytes]

/-- Nothing of the blob is left when the text is all of it. -/
theorem taken_whole_iff {x : Ghost Form} (hx : x.base.paintable = true) (blob : Bytes) :
    Taken engine x blob ∧ (applyAppearanceBlob engine x blob).2.2.1.p = blob.length ↔
      ∃ text : LookText, text.Legal ∧ text.bytes = blob ∧ Places engine text.value x := by
  constructor
  · rintro ⟨⟨-, look, hlook, happlied⟩, hp⟩
    obtain ⟨text, hlegal, hprefix, hc⟩ := legal_of_read engine hlook
    rw [hc, copyAll_p] at hp
    rw [applyAppearanceBlob_legal engine hx hlegal hprefix] at hlook happlied
    obtain rfl := Option.some.inj hlook
    exact ⟨text, hlegal, hprefix.eq_of_length hp, (applied_iff engine text.value x).mp happlied⟩
  · rintro ⟨text, hlegal, rfl, hplaces⟩
    refine ⟨(taken_iff engine hx _).mpr ⟨text, hlegal, List.prefix_rfl, hplaces⟩, ?_⟩
    have happly := applyAppearanceBlob_legal engine hx hlegal (List.prefix_rfl (l := text.bytes))
    exact (congrArg (fun result => result.2.2.1.p) happly).trans (copyAll_p text.bytes text)

/-- All or nothing exactly for the blobs that the header alone refuses and those that start with
every field of a look the ghost has a place for; no byte is left over exactly when the fields are all of the blob. -/
theorem appearance_allOrNothing {x : Ghost Form} (hx : x.base.paintable = true) (blob : Bytes) :
    ((Taken engine x blob ∨ Refused engine x blob) ↔
      (∃ text : LookText, text.Legal ∧ text.bytes <+: blob ∧ Places engine text.value x) ∨
        blob.length < 8 ∨ u32At blob 0 ≠ kAppearMagic) ∧
    ((Taken engine x blob ∧ (applyAppearanceBlob engine x blob).2.2.1.p = blob.length ∨ Refused engine x blob) ↔
      (∃ text : LookText, text.Legal ∧ text.bytes = blob ∧ Places engine text.value x) ∨
        blob.length < 8 ∨ u32At blob 0 ≠ kAppearMagic) :=
  ⟨or_congr (taken_iff engine hx blob) (refused_iff engine x blob),
    or_congr (taken_whole_iff engine hx blob) (refused_iff engine x blob)⟩

end Applied

/-- A header with the byte of the sex and the pad, and nothing more. -/
def headerBlob : Bytes := [0x41, 0x50, 0x50, 0x45, 1, 0, 1, 0]

/-- It is reported as applied; the gear is off and the sex changed, and no look has been read. -/
theorem not_appearance_allOrNothing_headerBlob :
    (applyAppearanceBlob robotFirst.engine dressedGhost headerBlob).1 = true ∧
      (applyAppearanceBlob robotFirst.engine dressedGhost headerBlob).2.2.2.worn = [] ∧
      (applyAppearanceBlob robotFirst.engine dressedGhost headerBlob).2.2.2.base.female = true ∧
      ¬ (Taken robotFirst.engine dressedGhost headerBlob ∨ Refused robotFirst.engine dressedGhost headerBlob) := by
  refine ⟨by decide +kernel, by decide +kernel, by decide +kernel, ?_⟩
  rintro (⟨-, look, hlook, -⟩ | ⟨hrefused, -⟩)
  · cases hlook
  · cases hrefused

/-- A ghost with two tint entries of one link, and room for morphs. -/
def tintedGhost : Ghost TESForm :=
  { dressedGhost with
    base := { dressedGhost.base with
      morphSliderValues := some fun _ => none
      tintingData := some [some ⟨5, 1, 1, 2⟩, none, some ⟨5, 3, 1, 4⟩] } }

def tintedCharacter : LocalCharacter TESForm :=
  { masterCharacter with npcTinting := some [some ⟨5, 9, 1, 8⟩, some ⟨6, 7, 0, 0⟩] }

/-- The blob of a whole look is applied in full. -/
theorem appearance_allOrNothing_tintedCharacter :
    Taken robotFirst.engine tintedGhost
        (extractBlob robotFirst.formPack robotFirst.engine.kPalette tintedCharacter).bytes ∧
      (applyAppearanceBlob robotFirst.engine tintedGhost
        (extractBlob robotFirst.formPack robotFirst.engine.kPalette tintedCharacter).bytes).2.2.1.p =
      (extractBlob robotFirst.formPack robotFirst.engine.kPalette tintedCharacter).bytes.length := by
  have hblob : (extractBlob robotFirst.formPack robotFirst.engine.kPalette tintedCharacter).bytes =
      (tintedCharacter.look robotFirst.formPack robotFirst.engine.kPalette).cutLists.text.bytes := by
    rw [extractBlob_eq, Writer.rawAll_bytes, List.nil_append, LookText.bytes]
  have hlegal := NpcLook.text_legal (tintedCharacter.look robotFirst.formPack robotFirst.engine.kPalette)
  refine ((appearance_allOrNothing robotFirst.engine (x := tintedGhost) (by decide) _).2.mpr
    (.inl ⟨_, hlegal, hblob.symm, fun _ => ⟨?_, .inl rfl⟩, .inl rfl⟩)).resolve_right ?_
  · decide +kernel
  · rintro ⟨hrefused, -⟩
    revert hrefused
    decide +kernel

end CommonwealthMP
