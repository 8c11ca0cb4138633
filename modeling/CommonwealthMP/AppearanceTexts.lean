import CommonwealthMP.AppearanceBlobs

/-! # Appearance texts

The pieces that the appearance reader accepts, and what it makes of the ghost when it has
accepted them all. -/
namespace CommonwealthMP
open ByteLayout ByteReaders Binary32 Reading

def WornRow.pieces (row : WornRow) : List Bytes := row.form.pieces ++ [ByteLayout.u8 row.slot]

def WornRow.cut (row : WornRow) : WornRow := { row with form := row.form.cut }

namespace LookLists

def pieces (lists : LookLists) : List Bytes :=
  countedText PackedForm.pieces lists.headParts ++ (countedText morphPieces lists.morphs ++
    (countedText TintRow.pieces lists.tints ++ countedText WornRow.pieces lists.worn))

structure Legal (lists : LookLists) : Prop where
  headParts : lists.headParts.length < 256 ∧ ∀ form ∈ lists.headParts, form.Fits
  morphs : lists.morphs.length < 256
  tints : lists.tints.length < 256
  worn : lists.worn.length < 256 ∧ ∀ row ∈ lists.worn, row.form.Fits

def cut (lists : LookLists) : LookLists where
  headParts := lists.headParts.map PackedForm.cut
  morphs := lists.morphs
  tints := lists.tints
  worn := lists.worn.map WornRow.cut

end LookLists

/-- The fields of a blob as they stand there, with the two bytes that nothing depends on. -/
structure LookText where
  version : UInt16
  pad : UInt8
  look : NpcLook

namespace LookText

def fieldPieces (text : LookText) : List Bytes :=
  [ByteLayout.u8 text.look.sex, ByteLayout.u8 text.pad] ++ (text.look.race.pieces ++ (text.look.weights.pieces ++
    ((text.look.hair.pieces ++ text.look.facial.pieces) ++ (text.look.bodyTint.pieces ++ text.look.lists.pieces))))

def pieces (text : LookText) : List Bytes :=
  [ByteLayout.u32 kAppearMagic, ByteLayout.u16 text.version] ++ text.fieldPieces

def bytes (text : LookText) : Bytes := text.pieces.flatten

structure Legal (text : LookText) : Prop where
  race : text.look.race.Fits
  hair : text.look.hair.Fits
  facial : text.look.facial.Fits
  lists : text.look.lists.Legal

/-- The look a text is read as. -/
def value (text : LookText) : NpcLook :=
  { text.look with
    race := text.look.race.cut
    hair := text.look.hair.cut
    facial := text.look.facial.cut
    lists := text.look.lists.cut }

end LookText

section Accepted
variable {Form : Type} (engine : Engine Form)

theorem accepts_f32 {σ : Type} : Accepts (readF32 : Reading σ F32) fun pieces x a y => pieces = [f32 a] ∧ y = x := by
  refine (accepts_u32.bindField fun bits => accepts_pure (F32.mk bits)).congr fun pieces x a y => ?_
  constructor
  · rintro ⟨bits, _, rfl, rfl, rfl, rfl⟩
    exact ⟨rfl, rfl⟩
  · rintro ⟨rfl, rfl⟩
    exact ⟨a.bits, [], rfl, rfl, rfl, rfl⟩

theorem reads_race : Reads (applyRace engine) PackedForm.Fits PackedForm.pieces PackedForm.cut
    fun race x => x.onBase fun base => base.setRace engine race := by
  refine (reads_form.bind fun race => Accepts.bindUpdate _ (accepts_pure race)).congr fun pieces x race y => ?_
  constructor
  · rintro ⟨text, _, hfits, rfl, rfl, rfl, rfl⟩
    exact ⟨text, hfits, List.append_nil _, rfl, rfl⟩
  · rintro ⟨text, hfits, rfl, rfl, rfl⟩
    exact ⟨text, [], hfits, (List.append_nil _).symm, rfl, rfl, rfl⟩

theorem accepts_weights : Accepts (applyWeights : Reading (Ghost Form) Weights) fun pieces x weights y =>
    pieces = weights.pieces ∧ y = x.onBase fun base => base.mapWeights fun _ => weights := by
  refine (accepts_f32.bindField fun wx => Accepts.bindUpdate _ (accepts_f32.bindField fun wy => Accepts.bindUpdate _
    (accepts_f32.bindField fun wz => Accepts.bindUpdate _ (accepts_f32.bindField fun height => Accepts.bindUpdate _
    (accepts_pure (Weights.mk wx wy wz height)))))).congr fun pieces x weights y => ?_
  constructor
  · rintro ⟨wx, _, rfl, wy, _, rfl, wz, _, rfl, height, _, rfl, rfl, rfl, rfl⟩
    exact ⟨rfl, rfl⟩
  · rintro ⟨rfl, rfl⟩
    exact ⟨weights.x, _, rfl, weights.y, _, rfl, weights.z, _, rfl, weights.height, [], rfl, rfl, rfl, rfl⟩

theorem accepts_colors : Accepts (applyColors engine) fun pieces x colors y =>
    ∃ hair facial : PackedForm, (hair.Fits ∧ facial.Fits) ∧ pieces = hair.pieces ++ facial.pieces ∧
      colors = (hair.cut, facial.cut) ∧ y = x.onBase fun base => (base.setHair engine hair.cut).setFacial engine facial.cut := by
  refine (reads_form.bind fun hair => reads_form.bind fun facial => Accepts.bindUpdate _ (accepts_pure (hair, facial))).congr
    fun pieces x colors y => ?_
  constructor
  · rintro ⟨hair, _, hhair, rfl, facial, _, hfacial, rfl, rfl, rfl, rfl⟩
    exact ⟨hair, facial, ⟨hhair, hfacial⟩, rfl, rfl, rfl⟩
  · rintro ⟨hair, facial, ⟨hhair, hfacial⟩, rfl, rfl, rfl⟩
    exact ⟨hair, _, hhair, rfl, facial, [], hfacial, rfl, rfl, rfl, rfl⟩

theorem accepts_bodyTint : Accepts (applyBodyTint : Reading (Ghost Form) BodyTint) fun pieces x tint y =>
    pieces = tint.pieces ∧ y = x.onBase fun base => base.setBodyTint tint := by
  refine (accepts_u8.bindField fun r => accepts_u8.bindField fun g => accepts_u8.bindField fun b => accepts_u8.bindField fun a =>
    Accepts.bindUpdate _ (accepts_pure (BodyTint.mk r g b a))).congr fun pieces x tint y => ?_
  constructor
  · rintro ⟨r, _, rfl, g, _, rfl, b, _, rfl, a, _, rfl, rfl, rfl, rfl⟩
    exact ⟨rfl, rfl⟩
  · rintro ⟨rfl, rfl⟩
    exact ⟨tint.r, _, rfl, tint.g, _, rfl, tint.b, _, rfl, tint.a, [], rfl, rfl, rfl, rfl⟩

theorem foldRows_fixed {α σ : Type} (as : List α) (x : σ) : foldRows (fun _ x => x) as x = x := List.foldl_fixed as

theorem reads_headParts : Reads (applyHeadParts engine) (fun texts => texts.length < 256 ∧ ∀ text ∈ texts, text.Fits)
    (countedText PackedForm.pieces) (List.map PackedForm.cut) fun forms x => x.onBase fun base => base.setHeadParts engine forms := by
  refine ((reads_counted reads_form).bind fun forms => Accepts.bindUpdate _ (accepts_pure forms)).congr fun pieces x forms y => ?_
  simp only [foldRows_fixed]
  constructor
  · rintro ⟨texts, _, hlegal, rfl, rfl, rfl, rfl⟩
    exact ⟨texts, hlegal, List.append_nil _, rfl, rfl⟩
  · rintro ⟨texts, hlegal, rfl, rfl, rfl⟩
    exact ⟨texts, [], hlegal, (List.append_nil _).symm, rfl, rfl, rfl⟩

theorem reads_morph : Reads (applyMorph : Reading (Ghost Form) (UInt32 × F32)) (fun _ => True) morphPieces id
    fun kv x => x.onBase fun base => base.setMorph kv := by
  refine (accepts_u32.bindField fun key => accepts_f32.bindField fun value =>
    Accepts.bindUpdate _ (accepts_pure (key, value))).congr fun pieces x kv y => ?_
  constructor
  · rintro ⟨key, _, rfl, value, _, rfl, rfl, rfl, rfl⟩
    exact ⟨(key, value), trivial, rfl, rfl, rfl⟩
  · rintro ⟨_, -, rfl, rfl, rfl⟩
    exact ⟨kv.1, _, rfl, kv.2, [], rfl, rfl, rfl, rfl⟩

theorem reads_tint : Reads (applyTint engine) (fun _ => True) TintRow.pieces id
    fun row x => x.onBase fun base => base.setTint engine row := by
  refine (accepts_u16.bindField fun idLink => accepts_u8.bindField fun value => accepts_u8.bindField fun type =>
    accepts_u32.bindField fun color => Accepts.bindUpdate _ (accepts_pure (TintRow.mk idLink value type color))).congr
      fun pieces x row y => ?_
  constructor
  · rintro ⟨idLink, _, rfl, value, _, rfl, type, _, rfl, color, _, rfl, rfl, rfl, rfl⟩
    exact ⟨⟨idLink, value, type, color⟩, trivial, rfl, rfl, rfl⟩
  · rintro ⟨_, -, rfl, rfl, rfl⟩
    exact ⟨row.idLink, _, rfl, row.value, _, rfl, row.type, _, rfl, row.color, [], rfl, rfl, rfl, rfl⟩

variable [DecidableEq Form]

theorem accepts_sex : Accepts (applySex engine) fun pieces x sex y =>
    ∃ pad, pieces = [ByteLayout.u8 sex, ByteLayout.u8 pad] ∧ y = (x.strip engine).onBase fun base => base.setSex sex := by
  refine (Accepts.bindUpdate _ (accepts_u8.bindField fun sex => accepts_u8.bindField fun pad =>
    Accepts.bindUpdate _ (accepts_pure sex))).congr fun pieces x sex y => ?_
  constructor
  · rintro ⟨sex, _, rfl, pad, _, rfl, rfl, rfl, rfl⟩
    exact ⟨pad, rfl, rfl⟩
  · rintro ⟨pad, rfl, rfl⟩
    exact ⟨sex, _, rfl, pad, [], rfl, rfl, rfl, rfl⟩

theorem reads_wornRow : Reads (applyWornRow engine) (fun text => text.form.Fits) WornRow.pieces WornRow.cut
    fun row x => x.wear engine row := by
  refine (reads_form.bind fun form => accepts_u8.bindField fun slot =>
    Accepts.bindUpdate _ (accepts_pure (WornRow.mk form slot))).congr fun pieces x row y => ?_
  constructor
  · rintro ⟨text, _, hfits, rfl, slot, _, rfl, rfl, rfl, rfl⟩
    exact ⟨⟨text, slot⟩, hfits, rfl, rfl, rfl⟩
  · rintro ⟨text, hfits, rfl, rfl, rfl⟩
    exact ⟨text.form, _, hfits, rfl, text.slot, [], rfl, rfl, rfl, rfl⟩

/-- The worn rows: the gear comes off between their count and the first of them. -/
theorem accepts_worn : Accepts (applyWorn engine) fun pieces x rows y => ∃ texts : List WornRow,
    (texts.length < 256 ∧ ∀ text ∈ texts, text.form.Fits) ∧ pieces = countedText WornRow.pieces texts ∧
      rows = texts.map WornRow.cut ∧ y = foldRows (fun row x => x.wear engine row) rows (x.strip engine) := by
  refine (accepts_u8.bindField fun nEq => Accepts.bindUpdate _ (reads_times (reads_wornRow engine) nEq.toNat)).congr
    fun pieces x rows y => ?_
  constructor
  · rintro ⟨nEq, _, rfl, texts, ⟨hlen, hfits⟩, rfl, rfl, rfl⟩
    refine ⟨texts, ⟨hlen ▸ nEq.toNat_lt, hfits⟩, ?_, rfl, rfl⟩
    rw [countedText, hlen, UInt8.ofNat_toNat]
  · rintro ⟨texts, ⟨hlt, hfits⟩, rfl, rfl, rfl⟩
    exact ⟨_, _, rfl, texts, ⟨(toNat_ofNat_length hlt).symm, hfits⟩, rfl, rfl, rfl⟩

def LookLists.applied (lists : LookLists) (x : Ghost Form) : Ghost Form :=
  let x := x.onBase fun base => base.setHeadParts engine lists.headParts
  let x := foldRows (fun kv x => x.onBase fun base => base.setMorph kv) lists.morphs x
  let x := foldRows (fun row x => x.onBase fun base => base.setTint engine row) lists.tints x
  foldRows (fun row x => x.wear engine row) lists.worn (x.strip engine)

def NpcLook.applied (look : NpcLook) (x : Ghost Form) : Ghost Form :=
  let x := (x.strip engine).onBase fun base => base.setSex look.sex
  let x := x.onBase fun base => base.setRace engine look.race
  let x := x.onBase fun base => base.mapWeights fun _ => look.weights
  let x := x.onBase fun base => (base.setHair engine look.hair).setFacial engine look.facial
  let x := x.onBase fun base => base.setBodyTint look.bodyTint
  look.lists.applied engine x

theorem reads_lists :
    Reads (applyLists engine) LookLists.Legal LookLists.pieces LookLists.cut fun lists x => lists.applied engine x := by
  refine ((reads_headParts engine).bind fun headParts => (reads_counted reads_morph).bind fun morphs =>
    (reads_counted (reads_tint engine)).bind fun tints => (accepts_worn engine).bind fun worn =>
    accepts_pure (LookLists.mk headParts morphs tints worn)).congr fun pieces x lists y => ?_
  constructor
  · rintro ⟨headParts, _, hhead, rfl, morphs, _, hmorphs, rfl, tints, _, htints, rfl,
      _, _, _, _, rfl, ⟨worn, hworn, rfl, rfl, rfl⟩, rfl, rfl, rfl⟩
    refine ⟨⟨headParts, morphs, tints, worn⟩, ⟨hhead, hmorphs.1, htints.1, hworn⟩, ?_, ?_, ?_⟩
    · rw [List.append_nil, LookLists.pieces]
    · rw [LookLists.cut, List.map_id, List.map_id]
    · simp only [LookLists.applied, LookLists.cut, List.map_id]
  · rintro ⟨text, hlegal, rfl, rfl, rfl⟩
    refine ⟨text.headParts, _, hlegal.headParts, rfl, text.morphs, _, ⟨hlegal.morphs, fun _ _ => trivial⟩, rfl,
      text.tints, _, ⟨hlegal.tints, fun _ _ => trivial⟩, rfl,
      _, [], _, _, (List.append_nil _).symm, ⟨text.worn, hlegal.worn, rfl, rfl, rfl⟩, rfl, ?_, ?_⟩
    · rw [LookLists.cut, List.map_id, List.map_id]
    · simp only [LookLists.applied, LookLists.cut, List.map_id]

theorem accepts_fields : Accepts (applyFields engine) fun pieces x look y =>
    ∃ text : LookText, text.Legal ∧ pieces = text.fieldPieces ∧ look = text.value ∧ y = look.applied engine x := by
  refine ((accepts_sex engine).bind fun sex => (reads_race engine).bind fun race =>
    accepts_weights.bind fun weights => (accepts_colors engine).bind fun colors =>
    accepts_bodyTint.bind fun bodyTint => (reads_lists engine).bind fun lists =>
    accepts_pure (NpcLook.mk sex race weights colors.1 colors.2 bodyTint lists)).congr fun pieces x look y => ?_
  constructor
  · rintro ⟨_, _, sex, _, rfl, ⟨pad, rfl, rfl⟩, race, _, hrace, rfl, _, _, weights, _, rfl, ⟨rfl, rfl⟩,
      _, _, _, _, rfl, ⟨hair, facial, ⟨hhair, hfacial⟩, rfl, rfl, rfl⟩, _, _, bodyTint, _, rfl, ⟨rfl, rfl⟩,
      lists, _, hlists, rfl, rfl, rfl, rfl⟩
    refine ⟨⟨0, pad, ⟨sex, race, weights, hair, facial, bodyTint, lists⟩⟩, ⟨hrace, hhair, hfacial, hlists⟩, ?_, rfl, rfl⟩
    rw [List.append_nil]
    rfl
  · rintro ⟨text, hlegal, rfl, rfl, rfl⟩
    exact ⟨[_, _], _, text.look.sex, _, rfl, ⟨text.pad, rfl, rfl⟩, text.look.race, _, hlegal.race, rfl,
      text.look.weights.pieces, _, text.look.weights, _, rfl, ⟨rfl, rfl⟩,
      text.look.hair.pieces ++ text.look.facial.pieces, _, _, _, rfl,
      ⟨text.look.hair, text.look.facial, ⟨hlegal.hair, hlegal.facial⟩, rfl, rfl, rfl⟩,
      text.look.bodyTint.pieces, _, text.look.bodyTint, _, rfl, ⟨rfl, rfl⟩,
      text.look.lists, [], hlegal.lists, (List.append_nil _).symm, rfl, rfl, rfl⟩

end Accepted

end CommonwealthMP
