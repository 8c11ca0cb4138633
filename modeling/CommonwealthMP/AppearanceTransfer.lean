import CommonwealthMP.AppearanceTexts

/-! # The transfer of an appearance

A written blob is read back field for field. -/
namespace CommonwealthMP
open ByteLayout ByteReaders Binary32 Reading

namespace NpcLook

def cutLists (look : NpcLook) : NpcLook :=
  { look with
    lists := {
      headParts := look.lists.headParts.take kMaxHead
      morphs := look.lists.morphs.take kMaxMorph
      tints := look.lists.tints.take kMaxTint
      worn := look.lists.worn.take kMaxEquip } }

/-- The forms each changed. -/
def mapForms (f : PackedForm → PackedForm) (look : NpcLook) : NpcLook :=
  { look with
    race := f look.race
    hair := f look.hair
    facial := f look.facial
    lists := { look.lists with
      headParts := look.lists.headParts.map f
      worn := look.lists.worn.map fun row => { row with form := f row.form } } }

structure Terminated (look : NpcLook) : Prop where
  race : look.race.Terminated
  hair : look.hair.Terminated
  facial : look.facial.Terminated
  headParts : ∀ form ∈ look.lists.headParts, form.Terminated
  worn : ∀ row ∈ look.lists.worn, row.form.Terminated

def asStrings (look : NpcLook) : NpcLook := look.mapForms PackedForm.asString

def text (look : NpcLook) : LookText := ⟨kAppearVersion, 0, look.mapForms PackedForm.written⟩

end NpcLook

section Written
variable {Form : Type} (pack : FormPack Form) (kPalette : UInt8)

theorem foldl_rawAll {α : Type} (pieces : α → List Bytes) (as : List α) (w : Writer) :
    as.foldl (fun w a => w.rawAll (pieces a)) w = w.rawAll (as.flatMap pieces) := by
  induction as generalizing w with
  | nil => rfl
  | cons a as ih => rw [List.foldl_cons, ih, List.flatMap_cons, Writer.rawAll_append]

theorem raw_eq_rawAll (w : Writer) (piece : Bytes) : w.raw piece = w.rawAll [piece] := rfl

theorem writeHeadParts_eq (w : Writer) (c : LocalCharacter Form) :
    writeHeadParts pack w c =
      w.rawAll (countedText PackedForm.pieces (((c.headParts.map pack.pack).take kMaxHead).map PackedForm.written)) := by
  have hforms : ∀ parts : List (Option Form), parts.flatMap (fun form => (pack.pack form).written.pieces) =
      ((parts.map pack.pack).map PackedForm.written).flatMap PackedForm.pieces := by
    intro parts
    rw [List.flatMap_map, List.flatMap_map]
  have hfold := foldl_rawAll (fun form => (pack.pack form).written.pieces) (c.headParts.take kMaxHead)
    (w.raw (ByteLayout.u8 (UInt8.ofNat (c.headParts.take kMaxHead).length)))
  rw [hforms, raw_eq_rawAll, ← Writer.rawAll_append] at hfold
  rw [countedText, ← List.map_take, List.length_map, List.length_map]
  exact hfold

theorem writeWorn_eq (w : Writer) (c : LocalCharacter Form) :
    writeWorn pack w c = w.rawAll (countedText WornRow.pieces
      (((c.worn.map fun item => (⟨pack.pack item.1, item.2⟩ : WornRow)).take kMaxEquip).map
        fun row => { row with form := row.form.written })) := by
  have hrows : ∀ items : List (Option Form × UInt8), items.flatMap (fun item => (pack.pack item.1).written.pieces ++ [ByteLayout.u8 item.2]) =
      ((items.map fun item => (⟨pack.pack item.1, item.2⟩ : WornRow)).map
        fun row => ({ row with form := row.form.written } : WornRow)).flatMap WornRow.pieces := by
    intro items
    rw [List.flatMap_map, List.flatMap_map]
    rfl
  have hfold := foldl_rawAll (fun item : Option Form × UInt8 => (pack.pack item.1).written.pieces ++ [ByteLayout.u8 item.2])
    (c.worn.take kMaxEquip) (w.raw (ByteLayout.u8 (UInt8.ofNat (c.worn.take kMaxEquip).length)))
  rw [hrows, raw_eq_rawAll, ← Writer.rawAll_append] at hfold
  simp only [Writer.rawAll_append _ _ [ByteLayout.u8 _]] at hfold
  rw [countedText, ← List.map_take, List.length_map, List.length_map]
  exact hfold

theorem toNat_add_one {n : UInt8} (h : n.toNat < 32) : (n + 1).toNat = n.toNat + 1 := by
  rw [UInt8.toNat_add]
  exact Nat.mod_eq_of_lt (by
    change n.toNat + 1 < 256
    omega)

theorem morphLoop_eq (kvs : List (UInt32 × F32)) (w : Writer) {n : UInt8} (hn : n.toNat ≤ kMaxMorph) :
    morphLoop w n kvs = (w.rawAll ((kvs.take (kMaxMorph - n.toNat)).flatMap morphPieces),
      n + UInt8.ofNat (kvs.take (kMaxMorph - n.toNat)).length) := by
  induction kvs generalizing w n with
  | nil => simp [morphLoop, Writer.rawAll]
  | cons kv kvs ih =>
    rw [morphLoop]
    by_cases hfull : kMaxMorph ≤ n.toNat
    · have hzero : kMaxMorph - n.toNat = 0 := by omega
      rw [if_pos hfull, hzero]
      simp [Writer.rawAll]
    · have hone := toNat_add_one (show n.toNat < 32 from not_le.mp hfull)
      have hsucc : kMaxMorph - n.toNat = kMaxMorph - (n + 1).toNat + 1 := by omega
      rw [if_neg hfull, ih _ (by omega), hsucc, List.take_succ_cons, List.flatMap_cons, Writer.rawAll_append, List.length_cons]
      refine congrArg (Prod.mk _) ?_
      rw [Nat.add_comm, UInt8.ofNat_add, ← UInt8.add_assoc]
      rfl

theorem tintLoop_eq (entries : List (Option TintEntry)) (w : Writer) {n : UInt8} (hn : n.toNat ≤ kMaxTint) :
    tintLoop kPalette w n entries =
      (w.rawAll ((((entries.filterMap id).map (TintEntry.row kPalette)).take (kMaxTint - n.toNat)).flatMap TintRow.pieces),
        n + UInt8.ofNat (((entries.filterMap id).map (TintEntry.row kPalette)).take (kMaxTint - n.toNat)).length) := by
  induction entries generalizing w n with
  | nil => simp [tintLoop, Writer.rawAll]
  | cons entry entries ih =>
    cases entry with
    | none =>
      rw [tintLoop, ih w hn]
      rfl
    | some e =>
      rw [tintLoop]
      by_cases hfull : kMaxTint ≤ n.toNat
      · have hzero : kMaxTint - n.toNat = 0 := by omega
        rw [if_pos hfull, ih w hn, hzero]
        simp
      · have hone := toNat_add_one (show n.toNat < 32 from not_le.mp hfull)
        have hsucc : kMaxTint - n.toNat = kMaxTint - (n + 1).toNat + 1 := by omega
        rw [if_neg hfull, ih _ (by omega), List.filterMap_cons_some (f := id) rfl, List.map_cons, hsucc,
          List.take_succ_cons, List.flatMap_cons, Writer.rawAll_append, List.length_cons]
        refine congrArg (Prod.mk _) ?_
        rw [Nat.add_comm _ 1, UInt8.ofNat_add, ← UInt8.add_assoc]
        rfl

theorem writeMorphs_eq (w : Writer) (c : LocalCharacter Form) :
    writeMorphs w c = w.rawAll (countedText morphPieces ((c.morphSliderValues.getD []).take kMaxMorph)) := by
  rw [writeMorphs, morphLoop_eq _ _ (Nat.zero_le _)]
  dsimp only
  rw [Writer.patch_rawAll, countedText, UInt8.zero_add]
  rfl

theorem writeTints_eq (w : Writer) (c : LocalCharacter Form) :
    writeTints kPalette w c =
      w.rawAll (countedText TintRow.pieces ((((c.tints.getD []).filterMap id).map (TintEntry.row kPalette)).take kMaxTint)) := by
  rw [writeTints, tintLoop_eq _ _ _ (Nat.zero_le _)]
  dsimp only
  rw [Writer.patch_rawAll, countedText, UInt8.zero_add]
  rfl

theorem extractBlob_eq (c : LocalCharacter Form) :
    extractBlob pack kPalette c = Writer.rawAll {} (c.look pack kPalette).cutLists.text.pieces := by
  simp only [extractBlob, writeForm, writeHeadParts_eq, writeMorphs_eq, writeTints_eq, writeWorn_eq, ← Writer.rawAll_append]
  simp only [LookText.pieces, LookText.fieldPieces, NpcLook.text, NpcLook.mapForms, NpcLook.cutLists, LocalCharacter.look,
    LookLists.pieces,
    List.append_assoc]
  rfl

end Written

theorem LookText.bytes_length_ge {text : LookText} (h : text.Legal) : 8 ≤ text.bytes.length := by
  have hrace := h.race
  unfold PackedForm.Fits at hrace
  simp only [LookText.bytes, LookText.pieces, LookText.fieldPieces, PackedForm.pieces, List.flatten_append, List.flatten_cons,
    List.length_append, u32_length, hrace, kPluginField]
  omega

theorem NpcLook.text_legal (look : NpcLook) : look.cutLists.text.Legal where
  race := look.race.written_fits
  hair := look.hair.written_fits
  facial := look.facial.written_fits
  lists := {
    headParts := by
      refine ⟨?_, fun form hf => ?_⟩
      · simp only [NpcLook.text, NpcLook.mapForms, NpcLook.cutLists, List.length_map, List.length_take, kMaxHead]
        omega
      · obtain ⟨form, -, rfl⟩ := List.mem_map.mp hf
        exact form.written_fits
    morphs := by
      simp only [NpcLook.text, NpcLook.mapForms, NpcLook.cutLists, List.length_take, kMaxMorph]
      omega
    tints := by
      simp only [NpcLook.text, NpcLook.mapForms, NpcLook.cutLists, List.length_take, kMaxTint]
      omega
    worn := by
      refine ⟨?_, fun row hr => ?_⟩
      · simp only [NpcLook.text, NpcLook.mapForms, NpcLook.cutLists, List.length_map, List.length_take, kMaxEquip]
        omega
      · obtain ⟨row, -, rfl⟩ := List.mem_map.mp hr
        exact row.form.written_fits }

theorem NpcLook.asStrings_value_text {look : NpcLook} (h : look.Terminated) : look.text.value.asStrings = look.asStrings := by
  have hparts : (look.lists.headParts.map fun form => form.written.cut.asString) = look.lists.headParts.map PackedForm.asString :=
    List.map_congr_left fun form hf => PackedForm.asString_cut_written (h.headParts form hf)
  have hworn : (look.lists.worn.map fun row => ({ row with form := row.form.written.cut.asString } : WornRow)) =
      look.lists.worn.map fun row => { row with form := row.form.asString } :=
    List.map_congr_left fun row hr => congrArg (WornRow.mk · row.slot) (PackedForm.asString_cut_written (h.worn row hr))
  simp only [NpcLook.text, NpcLook.asStrings, NpcLook.mapForms, LookText.value, LookLists.cut, WornRow.cut,
    List.map_map, Function.comp_def,
    PackedForm.asString_cut_written h.race, PackedForm.asString_cut_written h.hair, PackedForm.asString_cut_written h.facial,
    hparts, hworn]

theorem LocalCharacter.look_terminated {Form : Type} (pack : FormPack Form) (kPalette : UInt8) (c : LocalCharacter Form) :
    (c.look pack kPalette).cutLists.Terminated where
  race := pack.terminated _
  hair := pack.terminated _
  facial := pack.terminated _
  headParts := by
    intro form hf
    obtain ⟨part, -, rfl⟩ := List.mem_map.mp (List.mem_of_mem_take hf)
    exact pack.terminated part
  worn := by
    intro row hr
    obtain ⟨item, -, rfl⟩ := List.mem_map.mp (List.mem_of_mem_take hr)
    exact pack.terminated item.1

section Read
variable {Form : Type} [DecidableEq Form] (engine : Engine Form)

theorem accepts_header {σ : Type} : Accepts (readAppearHeader : Reading σ UInt16) fun pieces x version y =>
    pieces = [ByteLayout.u32 kAppearMagic, ByteLayout.u16 version] ∧ y = x := by
  refine (accepts_u32.bindField fun magic => accepts_stop.ite (p := magic ≠ kAppearMagic) accepts_u16).congr
    fun pieces x version y => ?_
  constructor
  · rintro ⟨magic, _, rfl, h⟩
    split at h
    · exact h.elim
    · rename_i hmagic
      obtain ⟨rfl, rfl⟩ := h
      rw [not_not.mp hmagic]
      exact ⟨rfl, rfl⟩
  · rintro ⟨rfl, rfl⟩
    refine ⟨kAppearMagic, _, rfl, ?_⟩
    rw [if_neg (not_not.mpr rfl)]
    exact ⟨rfl, rfl⟩

/-- A blob that starts with a legal text is read to the end of it, and every field applied. -/
theorem applyAppearanceBlob_legal {x : Ghost Form} (hx : x.base.paintable = true) {text : LookText} (h : text.Legal) {blob : Bytes}
    (hb : text.bytes <+: blob) :
    applyAppearanceBlob engine x blob =
      (true, some text.value, Cursor.copyAll { bytes := blob } text.pieces, text.value.applied engine x) := by
  have hlen := (LookText.bytes_length_ge h).trans hb.length_le
  have hstart := Cursor.within_start blob
  obtain ⟨hheader, hfields⟩ := (Cursor.prefix_append { bytes := blob } _ _).mp hb
  obtain ⟨hread, hwithin⟩ := accepts_header.run (x := x) hstart hheader ⟨rfl, rfl⟩
  obtain ⟨happly, -⟩ := (accepts_fields engine).run (x := x) hwithin hfields ⟨text, h, rfl, rfl, rfl⟩
  rw [applyAppearanceBlob, if_neg (by omega), hread]
  dsimp only
  rw [applyToNpc, if_pos hx, happly, LookText.pieces, Cursor.copyAll_append]

/-- What the reader makes of the blob of any local character: it recovers every field of the
cut record, consumes all of the bytes, and reads each piece where it has been written. -/
theorem appearance_roundTrip {Sent : Type} (pack : FormPack Sent) (c : LocalCharacter Sent) (x : Ghost Form)
    (hx : x.base.paintable = true) :
    ∃ look cursor y, applyAppearanceBlob engine x (extractBlob pack engine.kPalette c).bytes = (true, some look, cursor, y) ∧
      look.asStrings = (c.look pack engine.kPalette).cutLists.asStrings ∧
      cursor.p = (extractBlob pack engine.kPalette c).bytes.length ∧
      cursor.copied = (extractBlob pack engine.kPalette c).written := by
  have hblob := extractBlob_eq pack engine.kPalette c
  have hlegal := NpcLook.text_legal (c.look pack engine.kPalette)
  have hterminated := c.look_terminated pack engine.kPalette
  generalize extractBlob pack engine.kPalette c = w at hblob
  generalize (c.look pack engine.kPalette).cutLists = look at hblob hlegal hterminated
  have hprefix : look.text.bytes <+: w.bytes := by
    rw [hblob, Writer.rawAll_bytes, List.nil_append, LookText.bytes]
  obtain ⟨hcopied, hp⟩ := Writer.copied_copyAll (w := {}) (c := { bytes := w.bytes }) rfl rfl look.text.pieces
  rw [← hblob] at hcopied hp
  exact ⟨look.text.value, _, _, applyAppearanceBlob_legal engine hx hlegal hprefix, NpcLook.asStrings_value_text hterminated, hp, hcopied⟩

end Read

/-- The forms of a load order, each taken for a race, a colour, a head part and gear alike. -/
def LoadOrder.engine (order : LoadOrder) : Engine TESForm where
  resolveForm := order.resolveForm
  formId := order.getFormID
  isRace _ := true
  isColor _ := true
  isHeadPart _ := true
  isBoundObject _ := true
  isSkippedGear _ := false
  kPalette := 1
  setHairColor color data := some { hairColor := some color, facialHairColor := data.bind (·.facialHairColor) }
  setHairColor_spec _ _ := rfl
  equipObject form worn := form :: worn
  manager := true
  allocates := true

def masterForm : TESForm := ⟨⟨fallout4Esm, false, [0x800]⟩, 0x800⟩

def dressedGhost : Ghost TESForm where
  base := {
    formId := 0xFF000801
    cloned := true
    female := false
    unique := false
    defOutfit := none
    sleepOutfit := none
    formRace := none
    originalRace := none
    weights := ⟨⟨0⟩, ⟨0⟩, ⟨0⟩, ⟨0⟩⟩
    headRelatedData := none
    bodyTint := ⟨0, 0, 0, 0⟩
    faceNPC := none
    headParts := none
    morphSliderValues := none
    tintingData := none }
  inventory := [masterForm]
  worn := [masterForm]
  pipboy := none

theorem mem_charArray {n : ℕ} (hn : 0 < n) (src : Bytes) : 0 ∈ charArray n src := by
  rw [charArray]
  refine List.mem_append_right _ (List.mem_replicate.mpr ⟨?_, rfl⟩)
  rw [List.length_take]
  omega

theorem packFormId_terminated (formId : UInt32) (plugin : Bytes) (isLight : Bool) :
    (packFormId formId plugin isLight).Terminated := ⟨charArray_length _ _, mem_charArray (by decide) _⟩

def LoadOrder.formPack (order : LoadOrder) : FormPack TESForm where
  pack := order.packForm
  terminated form := by
    cases form with
    | none => exact ⟨rfl, List.mem_replicate.mpr ⟨by decide, rfl⟩⟩
    | some form =>
      rw [LoadOrder.packForm]
      split <;> exact packFormId_terminated _ _ _

def masterCharacter : LocalCharacter TESForm where
  female := true
  formRace := some masterForm
  weights := ⟨⟨0⟩, ⟨0⟩, ⟨0⟩, ⟨0x3F800000⟩⟩
  headRelatedData := none
  bodyTint := ⟨1, 2, 3, 4⟩
  alternateHeadParts := []
  ownHeadParts := [some masterForm]
  morphSliderValues := some [(7, ⟨0x3F800000⟩)]
  playerTinting := none
  npcTinting := none
  worn := [(some masterForm, 3)]

theorem appearance_roundTrip_masterCharacter :
    ∃ look cursor y, applyAppearanceBlob robotFirst.engine dressedGhost
        (extractBlob robotFirst.formPack robotFirst.engine.kPalette masterCharacter).bytes = (true, some look, cursor, y) ∧
      look.asStrings = (masterCharacter.look robotFirst.formPack robotFirst.engine.kPalette).cutLists.asStrings ∧
      cursor.p = (extractBlob robotFirst.formPack robotFirst.engine.kPalette masterCharacter).bytes.length ∧
      cursor.copied = (extractBlob robotFirst.formPack robotFirst.engine.kPalette masterCharacter).written :=
  appearance_roundTrip robotFirst.engine robotFirst.formPack masterCharacter dressedGhost (by decide)

end CommonwealthMP
