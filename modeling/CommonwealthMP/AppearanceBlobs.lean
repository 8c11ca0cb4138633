import Mathlib.Logic.Function.Basic
import CommonwealthMP.InventorySheets

/-! # Appearance blobs

What the plugin writes about the local character's look, and how it reads such a blob of another
player while it changes the ghost's base and gear. Form lookup, the kinds of forms and the
engine's equip function are parameters. -/
namespace CommonwealthMP
open ByteLayout ByteReaders Binary32

def kAppearMagic : UInt32 := 0x45505041
def kAppearVersion : UInt16 := 1
def kMaxHead : ℕ := 16
def kMaxMorph : ℕ := 32
def kMaxTint : ℕ := 32
def kMaxEquip : ℕ := 16

structure Weights where
  x : F32
  y : F32
  z : F32
  height : F32
  deriving DecidableEq, Repr

structure BodyTint where
  r : UInt8
  g : UInt8
  b : UInt8
  a : UInt8
  deriving DecidableEq, Repr

structure TintRow where
  idLink : UInt16
  value : UInt8
  type : UInt8
  color : UInt32
  deriving DecidableEq, Repr

structure WornRow where
  form : PackedForm
  slot : UInt8
  deriving DecidableEq, Repr

structure LookLists where
  headParts : List PackedForm
  morphs : List (UInt32 × F32)
  tints : List TintRow
  worn : List WornRow
  deriving DecidableEq, Repr

/-- The fields of an appearance blob. -/
structure NpcLook where
  sex : UInt8
  race : PackedForm
  weights : Weights
  hair : PackedForm
  facial : PackedForm
  bodyTint : BodyTint
  lists : LookLists
  deriving DecidableEq, Repr

/-- `PackForm`: every form packs into a plugin field that ends within its bytes. -/
structure FormPack (Form : Type) where
  pack : Option Form → PackedForm
  terminated : ∀ form, (pack form).Terminated

structure HeadRelatedData (Form : Type) where
  hairColor : Option Form
  facialHairColor : Option Form
  deriving DecidableEq

/-- An entry of the tinting data; the colour is a palette entry's. -/
structure TintEntry where
  idLink : UInt16
  tingingValue : UInt8
  type : UInt8
  tintingColor : UInt32
  deriving DecidableEq

/-- What `ExtractBlob` looks at of the player and its base. -/
structure LocalCharacter (Form : Type) where
  female : Bool
  formRace : Option Form
  /-- `morphWeight` and `height` -/
  weights : Weights
  headRelatedData : Option (HeadRelatedData Form)
  bodyTint : BodyTint
  /-- `GetHeadParts(true)` -/
  alternateHeadParts : List (Option Form)
  /-- `GetHeadParts(false)` -/
  ownHeadParts : List (Option Form)
  morphSliderValues : Option (List (UInt32 × F32))
  playerTinting : Option (List (Option TintEntry))
  npcTinting : Option (List (Option TintEntry))
  /-- What `CollectWornItems` finds, each with its slot. -/
  worn : List (Option Form × UInt8)

section Extract
variable {Form : Type} (pack : FormPack Form) (kPalette : UInt8)

def writeForm (w : Writer) (form : Option Form) : Writer := w.rawAll (pack.pack form).written.pieces

def morphPieces (kv : UInt32 × F32) : List Bytes := [u32 kv.1, f32 kv.2]

def morphLoop : Writer → UInt8 → List (UInt32 × F32) → Writer × UInt8
  | w, nMorph, [] => (w, nMorph)
  | w, nMorph, kv :: rest =>
    if kMaxMorph ≤ nMorph.toNat then (w, nMorph) else morphLoop (w.rawAll (morphPieces kv)) (nMorph + 1) rest

/-- The colour is written of a palette entry only. -/
def TintEntry.row (e : TintEntry) : TintRow where
  idLink := e.idLink
  value := e.tingingValue
  type := e.type
  color := if e.type = kPalette then e.tintingColor else 0

def TintRow.pieces (row : TintRow) : List Bytes := [u16 row.idLink, u8 row.value, u8 row.type, u32 row.color]

def tintLoop : Writer → UInt8 → List (Option TintEntry) → Writer × UInt8
  | w, nTint, [] => (w, nTint)
  | w, nTint, none :: rest => tintLoop w nTint rest
  | w, nTint, some e :: rest =>
    if kMaxTint ≤ nTint.toNat then tintLoop w nTint rest
    else tintLoop (w.rawAll (e.row kPalette).pieces) (nTint + 1) rest

def LocalCharacter.headParts (c : LocalCharacter Form) : List (Option Form) :=
  if c.alternateHeadParts = [] then c.ownHeadParts else c.alternateHeadParts

/-- `player->tintingData ? player->tintingData : npc->tintingData` -/
def LocalCharacter.tints (c : LocalCharacter Form) : Option (List (Option TintEntry)) := c.playerTinting.or c.npcTinting

def writeHeadParts (w : Writer) (c : LocalCharacter Form) : Writer :=
  let parts := c.headParts.take kMaxHead
  parts.foldl (writeForm pack) (w.raw (u8 (UInt8.ofNat parts.length)))

def writeMorphs (w : Writer) (c : LocalCharacter Form) : Writer :=
  let rows := morphLoop (w.raw (u8 0)) 0 (c.morphSliderValues.getD [])
  rows.1.patch w.bytes.length rows.2

def writeTints (w : Writer) (c : LocalCharacter Form) : Writer :=
  let rows := tintLoop kPalette (w.raw (u8 0)) 0 (c.tints.getD [])
  rows.1.patch w.bytes.length rows.2

def writeWorn (w : Writer) (c : LocalCharacter Form) : Writer :=
  let worn := c.worn.take kMaxEquip
  worn.foldl (fun w item => (writeForm pack w item.1).raw (u8 item.2)) (w.raw (u8 (UInt8.ofNat worn.length)))

def Weights.pieces (weights : Weights) : List Bytes := [f32 weights.x, f32 weights.y, f32 weights.z, f32 weights.height]

def BodyTint.pieces (tint : BodyTint) : List Bytes := [u8 tint.r, u8 tint.g, u8 tint.b, u8 tint.a]

def extractBlob (c : LocalCharacter Form) : Writer :=
  let w := Writer.rawAll {} [u32 kAppearMagic, u16 kAppearVersion, u8 (if c.female then 1 else 0), u8 0]
  let w := writeForm pack w c.formRace
  let w := w.rawAll c.weights.pieces
  let w := writeForm pack w (c.headRelatedData.bind (·.hairColor))
  let w := writeForm pack w (c.headRelatedData.bind (·.facialHairColor))
  let w := w.rawAll c.bodyTint.pieces
  let w := writeHeadParts pack w c
  let w := writeMorphs w c
  let w := writeTints kPalette w c
  writeWorn pack w c

def LocalCharacter.look (c : LocalCharacter Form) : NpcLook where
  sex := if c.female then 1 else 0
  race := pack.pack c.formRace
  weights := c.weights
  hair := pack.pack (c.headRelatedData.bind (·.hairColor))
  facial := pack.pack (c.headRelatedData.bind (·.facialHairColor))
  bodyTint := c.bodyTint
  lists := {
    headParts := c.headParts.map pack.pack
    morphs := c.morphSliderValues.getD []
    tints := ((c.tints.getD []).filterMap id).map (TintEntry.row kPalette)
    worn := c.worn.map fun item => ⟨pack.pack item.1, item.2⟩ }

end Extract

/-- What of the engine and the load order the readings depend on. -/
structure Engine (Form : Type) where
  /-- `CMP_ResolveForm` -/
  resolveForm : UInt32 → Bytes → Option Form
  formId : Form → UInt32
  isRace : Form → Bool
  isColor : Form → Bool
  isHeadPart : Form → Bool
  isBoundObject : Form → Bool
  isSkippedGear : Form → Bool
  kPalette : UInt8
  /-- `SetHairColor` -/
  setHairColor : Form → Option (HeadRelatedData Form) → Option (HeadRelatedData Form)
  setHairColor_spec : ∀ color data, (setHairColor color data).bind (·.hairColor) = some color
  /-- The worn forms after `EquipObject`. -/
  equipObject : Form → List Form → List Form
  /-- There is an equip manager. -/
  manager : Bool
  /-- The memory manager finds room for an array of head parts. -/
  allocates : Bool

/-- The fields of a clone's base that the readings write. -/
structure GhostBase (Form : Type) where
  formId : UInt32
  /-- It is one of the clones the plugin made. -/
  cloned : Bool
  female : Bool
  unique : Bool
  defOutfit : Option Form
  sleepOutfit : Option Form
  formRace : Option Form
  originalRace : Option Form
  weights : Weights
  headRelatedData : Option (HeadRelatedData Form)
  bodyTint : BodyTint
  faceNPC : Option Form
  headParts : Option (List (Option Form))
  morphSliderValues : Option (UInt32 → Option F32)
  tintingData : Option (List (Option TintEntry))

structure Ghost (Form : Type) where
  base : GhostBase Form
  inventory : List Form
  worn : List Form
  pipboy : Option Form

section Apply
variable {Form : Type} [DecidableEq Form] (engine : Engine Form)

/-- The form of a kind that a packed form resolves to. -/
def Engine.find (kind : Form → Bool) (form : PackedForm) : Option Form :=
  (engine.resolveForm form.raw (cString form.plugin)).filter kind

/-- `StripGhostWorn`: everything but the Pip-Boy is taken off. -/
def Ghost.strip (x : Ghost Form) : Ghost Form :=
  if engine.manager then { x with worn := x.worn.filter fun form => x.pipboy = some form } else x

/-- `EquipForm` -/
def Ghost.equip (x : Ghost Form) (form : Form) : Ghost Form :=
  if !engine.manager || forbiddenActorBase (engine.formId form) || engine.isSkippedGear form || !engine.isBoundObject form then x
  else
    { x with
      inventory := if form ∈ x.inventory then x.inventory else form :: x.inventory
      worn := engine.equipObject form x.worn }

def Ghost.onBase (x : Ghost Form) (f : GhostBase Form → GhostBase Form) : Ghost Form := { x with base := f x.base }

namespace GhostBase

def setSex (base : GhostBase Form) (sex : UInt8) : GhostBase Form :=
  { base with female := decide (sex ≠ 0), unique := false, defOutfit := none, sleepOutfit := none }

def setRace (base : GhostBase Form) (race : PackedForm) : GhostBase Form :=
  match engine.find engine.isRace race with
  | some race => { base with formRace := some race, originalRace := some race }
  | none => base

def setHair (base : GhostBase Form) (hair : PackedForm) : GhostBase Form :=
  match engine.find engine.isColor hair with
  | some color => { base with headRelatedData := engine.setHairColor color base.headRelatedData }
  | none => base

def setFacial (base : GhostBase Form) (facial : PackedForm) : GhostBase Form :=
  match engine.find engine.isColor facial with
  | some color => { base with headRelatedData := base.headRelatedData.map fun data => { data with facialHairColor := some color } }
  | none => base

def mapWeights (base : GhostBase Form) (f : Weights → Weights) : GhostBase Form := { base with weights := f base.weights }

def setBodyTint (base : GhostBase Form) (tint : BodyTint) : GhostBase Form := { base with bodyTint := tint }

/-- The array of head parts once there is room for `want`, where room can be found. -/
def headRoom (base : GhostBase Form) (want : ℕ) : Option (List (Option Form)) :=
  match base.headParts with
  | some array => if array.length < want && engine.allocates then some (List.replicate want none) else some array
  | none => if engine.allocates then some (List.replicate want none) else none

def setHeadParts (base : GhostBase Form) (forms : List PackedForm) : GhostBase Form :=
  let parts := forms.filterMap (engine.find engine.isHeadPart)
  let base := { base with faceNPC := none }
  if parts = [] then base
  else
    let want := min parts.length 127
    { base with
      headParts := (base.headRoom engine want).map fun array =>
        if array = [] then array else (parts.take (min want array.length)).map some }

def setMorph (base : GhostBase Form) (kv : UInt32 × F32) : GhostBase Form :=
  { base with morphSliderValues := base.morphSliderValues.map fun values => Function.update values kv.1 (some kv.2) }

/-- The first entry of the row's link takes its value, and its colour where both are palettes. -/
def setEntry (row : TintRow) : List (Option TintEntry) → List (Option TintEntry)
  | [] => []
  | none :: rest => none :: setEntry row rest
  | some e :: rest =>
    if e.idLink ≠ row.idLink then some e :: setEntry row rest
    else
      let e := { e with tingingValue := row.value }
      some (if row.type = engine.kPalette ∧ e.type = engine.kPalette then { e with tintingColor := row.color } else e) :: rest

def setTint (base : GhostBase Form) (row : TintRow) : GhostBase Form :=
  { base with tintingData := base.tintingData.map (setEntry engine row) }

/-- `CMP_IsPaintableGhostBase` -/
def paintable (base : GhostBase Form) : Bool := !forbiddenActorBase base.formId && base.cloned

end GhostBase

/-- The form of a worn row, put on where it resolves. -/
def Ghost.wear (x : Ghost Form) (row : WornRow) : Ghost Form :=
  match engine.resolveForm row.form.raw (cString row.form.plugin) with
  | some form => x.equip engine form
  | none => x

section Readings
open Reading

def readF32 {σ : Type} : Reading σ F32 := do
  let bits ← Reading.u32
  pure ⟨bits⟩

def applySex : Reading (Ghost Form) UInt8 := do
  update fun x => x.strip engine
  let sex ← Reading.u8
  let _ ← Reading.u8
  update fun x => x.onBase fun base => base.setSex sex
  pure sex

def applyRace : Reading (Ghost Form) PackedForm := do
  let race ← readForm
  update fun x => x.onBase fun base => base.setRace engine race
  pure race

def applyWeights : Reading (Ghost Form) Weights := do
  let wx ← readF32
  update fun x => x.onBase fun base => base.mapWeights fun weights => { weights with x := wx }
  let wy ← readF32
  update fun x => x.onBase fun base => base.mapWeights fun weights => { weights with y := wy }
  let wz ← readF32
  update fun x => x.onBase fun base => base.mapWeights fun weights => { weights with z := wz }
  let height ← readF32
  update fun x => x.onBase fun base => base.mapWeights fun weights => { weights with height := height }
  pure ⟨wx, wy, wz, height⟩

def applyColors : Reading (Ghost Form) (PackedForm × PackedForm) := do
  let hair ← readForm
  let facial ← readForm
  update fun x => x.onBase fun base => (base.setHair engine hair).setFacial engine facial
  pure (hair, facial)

def applyBodyTint : Reading (Ghost Form) BodyTint := do
  let r ← Reading.u8
  let g ← Reading.u8
  let b ← Reading.u8
  let a ← Reading.u8
  update fun x => x.onBase fun base => base.setBodyTint ⟨r, g, b, a⟩
  pure ⟨r, g, b, a⟩

def applyHeadParts : Reading (Ghost Form) (List PackedForm) := do
  let forms ← counted readForm
  update fun x => x.onBase fun base => base.setHeadParts engine forms
  pure forms

def applyMorph : Reading (Ghost Form) (UInt32 × F32) := do
  let key ← Reading.u32
  let value ← readF32
  update fun x => x.onBase fun base => base.setMorph (key, value)
  pure (key, value)

def applyTint : Reading (Ghost Form) TintRow := do
  let idLink ← Reading.u16
  let value ← Reading.u8
  let type ← Reading.u8
  let color ← Reading.u32
  update fun x => x.onBase fun base => base.setTint engine ⟨idLink, value, type, color⟩
  pure ⟨idLink, value, type, color⟩

def applyWornRow : Reading (Ghost Form) WornRow := do
  let form ← readForm
  let slot ← Reading.u8
  update fun x => x.wear engine ⟨form, slot⟩
  pure ⟨form, slot⟩

def applyWorn : Reading (Ghost Form) (List WornRow) := do
  let nEq ← Reading.u8
  update fun x => x.strip engine
  times nEq.toNat (applyWornRow engine)

def applyLists : Reading (Ghost Form) LookLists := do
  let headParts ← applyHeadParts engine
  let morphs ← counted applyMorph
  let tints ← counted (applyTint engine)
  let worn ← applyWorn engine
  pure ⟨headParts, morphs, tints, worn⟩

/-- `ApplyToNpc` past its guards. The value is what has been read. -/
def applyFields : Reading (Ghost Form) NpcLook := do
  let sex ← applySex engine
  let race ← applyRace engine
  let weights ← applyWeights
  let colors ← applyColors engine
  let bodyTint ← applyBodyTint
  let lists ← applyLists engine
  pure ⟨sex, race, weights, colors.1, colors.2, bodyTint, lists⟩

def applyToNpc : Reading (Ghost Form) NpcLook := fun s =>
  if s.2.base.paintable then applyFields engine s else (none, s)

def readAppearHeader {σ : Type} : Reading σ UInt16 := do
  let magic ← Reading.u32
  if magic ≠ kAppearMagic then stop else Reading.u16

end Readings

/-- `ApplyAppearanceBlob` on an actor with a base: what it returns, what it has read, and the
cursor and the ghost it leaves. -/
def applyAppearanceBlob (x : Ghost Form) (blob : Bytes) : Bool × Option NpcLook × Cursor × Ghost Form :=
  if blob.length < 8 then (false, none, { bytes := blob }, x)
  else
    match readAppearHeader ({ bytes := blob }, x) with
    | (none, s) => (false, none, s)
    | (some _, s) => (true, applyToNpc engine s)

end Apply

end CommonwealthMP
