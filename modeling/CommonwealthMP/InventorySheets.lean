import CommonwealthMP.ByteReaders
import CommonwealthMP.FormIdentity

/-! # Inventory sheets

The sheet of a character's name, race, worn forms and stacks, as it is written into a blob and
read back from one that another player sent. -/
namespace CommonwealthMP
open ByteLayout ByteReaders

def kInvMagic : UInt32 := 0x54564E49
def kInvVersion : UInt16 := 1
def kMaxWorn : ℕ := 32
def kMaxStacks : ℕ := 192

def kPlayerBaseForm : UInt32 := 0x00000007
def kEncWorkshopNpcForm : UInt32 := 0x00020593

def forbiddenActorBase (formId : UInt32) : Bool :=
  let loc := formId &&& 0x00FFFFFF
  loc == kPlayerBaseForm &&& 0x00FFFFFF || loc == kEncWorkshopNpcForm &&& 0x00FFFFFF

structure InvStack where
  form : PackedForm
  count : UInt32
  deriving DecidableEq, Repr

structure InventorySheet where
  name : Bytes := List.replicate 32 0
  sex : UInt8 := 0
  race : PackedForm := {}
  worn : List PackedForm := []
  invStacks : List InvStack := []
  deriving DecidableEq, Repr

def InvStack.write (stack : InvStack) : Bytes := stack.form.write ++ ByteLayout.u32 stack.count

def encodeInventorySheet (sheet : InventorySheet) : Bytes :=
  let worn := sheet.worn.take kMaxWorn
  let stacked := sheet.invStacks.take kMaxStacks
  ByteLayout.u32 kInvMagic ++ (ByteLayout.u16 kInvVersion ++ (charArray 32 (cString sheet.name) ++
    (ByteLayout.u8 sheet.sex ++ (sheet.race.write ++
      (ByteLayout.u8 (UInt8.ofNat worn.length) ++ ((worn.map PackedForm.write).flatten ++
        (ByteLayout.u16 (UInt16.ofNat stacked.length) ++ (stacked.map InvStack.write).flatten)))))))

section Readings
open Reading
variable {σ : Type}

/-- `BlobReader::plugin` -/
def readPlugin : Reading σ Bytes := do
  let out ← raw kPluginField
  pure (out.set (kPluginField - 1) 0)

def readForm : Reading σ PackedForm := do
  let id ← u32
  let plugin ← readPlugin
  pure { raw := id, plugin := plugin }

/-- The entries that the decoder leaves out. -/
def skipsForm (form : PackedForm) : Bool := form.raw == 0 || forbiddenActorBase form.raw

def InventorySheet.addWorn (out : InventorySheet) (form : PackedForm) : InventorySheet :=
  if skipsForm form then out else { out with worn := out.worn ++ [form] }

def InventorySheet.addStack (out : InventorySheet) (stack : InvStack) : InventorySheet :=
  if skipsForm stack.form then out else { out with invStacks := out.invStacks ++ [stack] }

def readWorn : Reading InventorySheet PackedForm := do
  let form ← readForm
  update fun out => out.addWorn form
  pure form

def readStack : Reading InventorySheet InvStack := do
  let form ← readForm
  let count ← u32
  update fun out => out.addStack { form := form, count := count }
  pure { form := form, count := count }

def readStacks : Reading InventorySheet Unit := do
  let nStacks ← u16
  if kMaxStacks < nStacks.toNat then stop
  else do
    let _ ← times nStacks.toNat readStack
    pure ()

def readLists : Reading InventorySheet Unit := do
  let nWorn ← u8
  if kMaxWorn < nWorn.toNat then stop
  else do
    let _ ← times nWorn.toNat readWorn
    readStacks

def readSheet : Reading InventorySheet Unit := do
  let magic ← u32
  if magic ≠ kInvMagic then stop
  else do
    let _ ← u16
    let name ← raw 32
    update fun out => { out with name := name.set 31 0 }
    let sex ← u8
    let race ← readForm
    update fun out => { out with sex := sex, race := race }
    readLists

end Readings

/-- The cursor and `out` after the readings of `decode_inventory_sheet`. -/
def sheetReadings (bytes : Bytes) : Option Unit × Cursor × InventorySheet := readSheet ({ bytes := bytes }, {})

/-- `none` where the source returns false; its callers then drop `out`. -/
def decodeInventorySheet (bytes : Bytes) : Option InventorySheet :=
  if bytes.length < 8 then none else (sheetReadings bytes).1.map fun _ => (sheetReadings bytes).2.2

section Accepted
open Reading
variable {σ : Type}

/-- The pieces of a form's text; any bytes may stand in the plugin field. -/
def PackedForm.pieces (text : PackedForm) : List Bytes := [ByteLayout.u32 text.raw, text.plugin]

def PackedForm.Fits (text : PackedForm) : Prop := text.plugin.length = kPluginField

def PackedForm.cut (text : PackedForm) : PackedForm := { text with plugin := text.plugin.set (kPluginField - 1) 0 }

def InvStack.pieces (text : InvStack) : List Bytes := text.form.pieces ++ [ByteLayout.u32 text.count]

def InvStack.cut (text : InvStack) : InvStack := { text with form := text.form.cut }

theorem reads_form : Reads (readForm : Reading σ PackedForm) PackedForm.Fits PackedForm.pieces PackedForm.cut fun _ x => x := by
  refine (accepts_u32.bindField fun id => ((accepts_raw kPluginField).bind fun out =>
    accepts_pure (out.set (kPluginField - 1) 0)).bind fun plugin => accepts_pure (PackedForm.mk id plugin)).congr
      fun pieces x form y => ?_
  constructor
  · rintro ⟨id, _, rfl, _, _, _, _, rfl, ⟨_, _, out, _, rfl, ⟨rfl, hlen, rfl⟩, rfl, rfl, rfl⟩, rfl, rfl, rfl⟩
    exact ⟨⟨id, out⟩, hlen, rfl, rfl, rfl⟩
  · rintro ⟨text, hlen, rfl, rfl, rfl⟩
    exact ⟨text.raw, [text.plugin], rfl, [text.plugin], [], _, y, rfl,
      ⟨[text.plugin], [], text.plugin, y, rfl, ⟨rfl, hlen, rfl⟩, rfl, rfl, rfl⟩, rfl, rfl, rfl⟩

theorem reads_worn : Reads readWorn PackedForm.Fits PackedForm.pieces PackedForm.cut fun form out => out.addWorn form := by
  refine (reads_form.bind fun form => Accepts.bindUpdate _ (accepts_pure form)).congr fun pieces x form y => ?_
  constructor
  · rintro ⟨text, _, hfits, rfl, rfl, rfl, rfl⟩
    exact ⟨text, hfits, List.append_nil _, rfl, rfl⟩
  · rintro ⟨text, hfits, rfl, rfl, rfl⟩
    exact ⟨text, [], hfits, (List.append_nil _).symm, rfl, rfl, rfl⟩

theorem reads_stack :
    Reads readStack (fun text => text.form.Fits) InvStack.pieces InvStack.cut fun stack out => out.addStack stack := by
  refine (reads_form.bind fun form => accepts_u32.bindField fun count =>
    Accepts.bindUpdate _ (accepts_pure (InvStack.mk form count))).congr fun pieces x stack y => ?_
  constructor
  · rintro ⟨text, _, hfits, rfl, count, _, rfl, rfl, rfl, rfl⟩
    exact ⟨⟨text, count⟩, hfits, rfl, rfl, rfl⟩
  · rintro ⟨text, hfits, rfl, rfl, rfl⟩
    exact ⟨text.form, _, hfits, rfl, text.count, [], rfl, rfl, rfl, rfl⟩

end Accepted

/-- The fields of a sheet's text. -/
structure SheetText where
  version : UInt16
  name : Bytes
  sex : UInt8
  race : PackedForm
  worn : List PackedForm
  invStacks : List InvStack

namespace SheetText

def listPieces (text : SheetText) : List Bytes :=
  ByteLayout.u8 (UInt8.ofNat text.worn.length) :: (text.worn.flatMap PackedForm.pieces ++
    ByteLayout.u16 (UInt16.ofNat text.invStacks.length) :: text.invStacks.flatMap InvStack.pieces)

def pieces (text : SheetText) : List Bytes :=
  [ByteLayout.u32 kInvMagic, ByteLayout.u16 text.version, text.name, ByteLayout.u8 text.sex] ++
    (text.race.pieces ++ text.listPieces)

def bytes (text : SheetText) : Bytes := text.pieces.flatten

structure Legal (text : SheetText) : Prop where
  name_length : text.name.length = 32
  race_fits : text.race.Fits
  worn_length : text.worn.length ≤ kMaxWorn
  worn_fits : ∀ form ∈ text.worn, form.Fits
  stacks_length : text.invStacks.length ≤ kMaxStacks
  stacks_fit : ∀ stack ∈ text.invStacks, stack.form.Fits

def value (text : SheetText) : InventorySheet where
  name := text.name.set 31 0
  sex := text.sex
  race := text.race.cut
  worn := (text.worn.map PackedForm.cut).filter (!skipsForm ·)
  invStacks := (text.invStacks.map InvStack.cut).filter (!skipsForm ·.form)

end SheetText

section Whole
open Reading

theorem foldRows_addWorn (worn : List PackedForm) (out : InventorySheet) :
    foldRows (fun form out => out.addWorn form) worn out = { out with worn := out.worn ++ worn.filter (!skipsForm ·) } := by
  induction worn generalizing out with
  | nil => simp [foldRows]
  | cons form worn ih =>
    rw [foldRows, List.foldl_cons]
    refine (ih _).trans ?_
    rw [InventorySheet.addWorn, List.filter_cons]
    cases skipsForm form <;> simp

theorem foldRows_addStack (stacked : List InvStack) (out : InventorySheet) :
    foldRows (fun stack out => out.addStack stack) stacked out =
      { out with invStacks := out.invStacks ++ stacked.filter (!skipsForm ·.form) } := by
  induction stacked generalizing out with
  | nil => simp [foldRows]
  | cons stack stacked ih =>
    rw [foldRows, List.foldl_cons]
    refine (ih _).trans ?_
    rw [InventorySheet.addStack, List.filter_cons]
    cases skipsForm stack.form <;> simp

theorem accepts_stacks : Accepts readStacks fun pieces x _ y => ∃ stacked : List InvStack, stacked.length ≤ kMaxStacks ∧
    (∀ stack ∈ stacked, stack.form.Fits) ∧
    pieces = ByteLayout.u16 (UInt16.ofNat stacked.length) :: stacked.flatMap InvStack.pieces ∧
    y = foldRows (fun stack out => out.addStack stack) (stacked.map InvStack.cut) x := by
  refine (accepts_u16.bindField fun nStacks => accepts_stop.ite (p := kMaxStacks < nStacks.toNat)
    ((reads_times reads_stack nStacks.toNat).bind fun _ => accepts_pure ())).congr fun pieces x _ y => ?_
  constructor
  · rintro ⟨nStacks, _, rfl, h⟩
    split at h
    · exact h.elim
    · obtain ⟨stacked, _, ⟨hlen, hfits⟩, rfl, rfl, -, rfl⟩ := h
      refine ⟨stacked, by omega, hfits, ?_, rfl⟩
      rw [hlen, UInt16.ofNat_toNat, List.append_nil]
  · rintro ⟨stacked, hmax, hfits, rfl, rfl⟩
    have hcount : (UInt16.ofNat stacked.length).toNat = stacked.length := by
      rw [UInt16.toNat_ofNat']
      have hlt : kMaxStacks < 65536 := by decide
      omega
    refine ⟨UInt16.ofNat stacked.length, _, rfl, ?_⟩
    rw [if_neg (by rw [hcount]; omega), hcount]
    exact ⟨stacked, [], ⟨rfl, hfits⟩, (List.append_nil _).symm, rfl, rfl, rfl⟩

theorem accepts_lists : Accepts readLists fun pieces x _ y => ∃ (worn : List PackedForm) (stacked : List InvStack),
    worn.length ≤ kMaxWorn ∧ (∀ form ∈ worn, form.Fits) ∧
    stacked.length ≤ kMaxStacks ∧ (∀ stack ∈ stacked, stack.form.Fits) ∧
    pieces = ByteLayout.u8 (UInt8.ofNat worn.length) :: (worn.flatMap PackedForm.pieces ++
      ByteLayout.u16 (UInt16.ofNat stacked.length) :: stacked.flatMap InvStack.pieces) ∧
    y = foldRows (fun stack out => out.addStack stack) (stacked.map InvStack.cut)
      (foldRows (fun form out => out.addWorn form) (worn.map PackedForm.cut) x) := by
  refine (accepts_u8.bindField fun nWorn => accepts_stop.ite (p := kMaxWorn < nWorn.toNat)
    ((reads_times reads_worn nWorn.toNat).bind fun _ => accepts_stacks)).congr fun pieces x _ y => ?_
  constructor
  · rintro ⟨nWorn, _, rfl, h⟩
    split at h
    · exact h.elim
    · obtain ⟨worn, _, ⟨hlen, hworn⟩, rfl, stacked, hstacked, hfits, rfl, rfl⟩ := h
      refine ⟨worn, stacked, by omega, hworn, hstacked, hfits, ?_, rfl⟩
      rw [hlen, UInt8.ofNat_toNat]
  · rintro ⟨worn, stacked, hmax, hworn, hstacked, hfits, rfl, rfl⟩
    have hcount : (UInt8.ofNat worn.length).toNat = worn.length := toNat_ofNat_length (hmax.trans_lt (by decide))
    refine ⟨UInt8.ofNat worn.length, _, rfl, ?_⟩
    rw [if_neg (by rw [hcount]; omega), hcount]
    exact ⟨worn, _, ⟨rfl, hworn⟩, rfl, stacked, hstacked, hfits, rfl, rfl⟩

theorem accepts_sheet : Accepts readSheet fun pieces x _ y => ∃ text : SheetText, text.Legal ∧ pieces = text.pieces ∧
    y = { text.value with worn := x.worn ++ text.value.worn, invStacks := x.invStacks ++ text.value.invStacks } := by
  refine (accepts_u32.bindField fun magic => accepts_stop.ite (p := magic ≠ kInvMagic) (accepts_u16.bindField fun _ =>
    (accepts_raw 32).bind fun name => Accepts.bindUpdate _ (accepts_u8.bindField fun sex =>
    reads_form.bind fun race => Accepts.bindUpdate _ accepts_lists))).congr fun pieces x _ y => ?_
  constructor
  · rintro ⟨magic, _, rfl, h⟩
    split at h
    · exact h.elim
    · rename_i hmagic
      obtain ⟨version, _, rfl, _, _, name, _, rfl, ⟨rfl, hname, rfl⟩, sex, _, rfl, race, _, hrace, rfl,
        worn, stacked, hmax, hworn, hstacked, hfits, rfl, rfl⟩ := h
      refine ⟨⟨version, name, sex, race, worn, stacked⟩, ⟨hname, hrace, hmax, hworn, hstacked, hfits⟩, ?_, ?_⟩
      · rw [not_not.mp hmagic]
        rfl
      · rw [foldRows_addWorn, foldRows_addStack]
        rfl
  · rintro ⟨text, hlegal, rfl, rfl⟩
    refine ⟨kInvMagic, _, rfl, ?_⟩
    rw [if_neg (not_not.mpr rfl)]
    refine ⟨text.version, _, rfl, [text.name], _, text.name, x, rfl, ⟨rfl, hlegal.name_length, rfl⟩, text.sex, _, rfl,
      text.race, text.listPieces, hlegal.race_fits, rfl,
      text.worn, text.invStacks, hlegal.worn_length, hlegal.worn_fits, hlegal.stacks_length, hlegal.stacks_fit, rfl, ?_⟩
    rw [foldRows_addWorn, foldRows_addStack]
    rfl

end Whole

theorem SheetText.Legal.le_length {text : SheetText} (h : text.Legal) : 8 ≤ text.bytes.length := by
  have hname := h.name_length
  simp only [SheetText.bytes, SheetText.pieces, List.flatten_append, List.flatten_cons, List.length_append, u32_length]
  omega

/-- The decoder returns the value of the text it finds at the start of the bytes. -/
theorem decodeInventorySheet_eq_some {bytes : Bytes} {sheet : InventorySheet} :
    decodeInventorySheet bytes = some sheet ↔
      ∃ text : SheetText, text.Legal ∧ text.bytes <+: bytes ∧ sheet = text.value := by
  have haccepted := fun t => accepts_sheet.accepted ({ bytes := bytes }, {}) () t (Cursor.within_start bytes)
  unfold decodeInventorySheet
  constructor
  · intro h
    split at h
    · cases h
    · rcases hr : sheetReadings bytes with ⟨_ | u, c, out⟩
      · rw [hr] at h
        cases h
      · rw [hr] at h
        cases h
        obtain ⟨_, -, hprefix, text, hlegal, rfl, rfl⟩ := (haccepted _).mp hr
        exact ⟨text, hlegal, hprefix, by simp [SheetText.value]⟩
  · rintro ⟨text, hlegal, hprefix, rfl⟩
    have hlen := hlegal.le_length.trans hprefix.length_le
    have hr : sheetReadings bytes = (some (), _) := (haccepted (_, _)).mpr ⟨text.pieces, rfl, hprefix, text, hlegal, rfl, rfl⟩
    rw [if_neg (by omega), hr]
    simp [SheetText.value]

def PackedForm.Terminated (form : PackedForm) : Prop := form.Fits ∧ 0 ∈ form.plugin

/-- The character arrays have their sizes and end within them. -/
structure InventorySheet.Terminated (sheet : InventorySheet) : Prop where
  name : sheet.name.length = 32 ∧ 0 ∈ sheet.name
  race : sheet.race.Terminated
  worn : ∀ form ∈ sheet.worn, form.Terminated
  invStacks : ∀ stack ∈ sheet.invStacks, stack.form.Terminated

theorem mem_set_last {n : ℕ} {bytes : Bytes} (h : n < bytes.length) : 0 ∈ bytes.set n 0 :=
  List.mem_iff_getElem.mpr ⟨n, by rwa [List.length_set], List.getElem_set_self _⟩

theorem PackedForm.Fits.terminated_cut {text : PackedForm} (h : text.Fits) : text.cut.Terminated := by
  unfold PackedForm.Fits at h
  refine ⟨by rwa [PackedForm.Fits, PackedForm.cut, List.length_set], mem_set_last ?_⟩
  rw [h]
  decide

structure InventorySheet.Accepted (sheet : InventorySheet) : Prop where
  worn_length : sheet.worn.length ≤ kMaxWorn
  worn_kept : ∀ form ∈ sheet.worn, form.raw ≠ 0 ∧ forbiddenActorBase form.raw = false
  stacks_length : sheet.invStacks.length ≤ kMaxStacks
  stacks_kept : ∀ stack ∈ sheet.invStacks, stack.form.raw ≠ 0 ∧ forbiddenActorBase stack.form.raw = false
  terminated : sheet.Terminated

theorem not_skipsForm {form : PackedForm} : (!skipsForm form) = true ↔ form.raw ≠ 0 ∧ forbiddenActorBase form.raw = false := by
  simp [skipsForm]

theorem SheetText.Legal.terminated {text : SheetText} (h : text.Legal) : text.value.Terminated where
  name := by
    refine ⟨by rw [SheetText.value, List.length_set, h.name_length], mem_set_last ?_⟩
    rw [h.name_length]
    decide
  race := h.race_fits.terminated_cut
  worn := by
    intro form hf
    obtain ⟨row, hrow, rfl⟩ := List.mem_map.mp (List.mem_of_mem_filter hf)
    exact (h.worn_fits row hrow).terminated_cut
  invStacks := by
    intro stack hs
    obtain ⟨row, hrow, rfl⟩ := List.mem_map.mp (List.mem_of_mem_filter hs)
    exact (h.stacks_fit row hrow).terminated_cut

theorem SheetText.Legal.accepted {text : SheetText} (h : text.Legal) : text.value.Accepted where
  worn_length := (List.length_filter_le _ _).trans (by rw [List.length_map]; exact h.worn_length)
  worn_kept := fun _ hf => not_skipsForm.mp (List.mem_filter.mp hf).2
  stacks_length := (List.length_filter_le _ _).trans (by rw [List.length_map]; exact h.stacks_length)
  stacks_kept := fun _ hs => not_skipsForm.mp (List.mem_filter.mp hs).2
  terminated := h.terminated

theorem accepted_of_decode {bytes : Bytes} {sheet : InventorySheet} (h : decodeInventorySheet bytes = some sheet) :
    sheet.Accepted := by
  obtain ⟨text, hlegal, -, rfl⟩ := decodeInventorySheet_eq_some.mp h
  exact hlegal.accepted

/-- The decoder accepts exactly the byte strings that start with a legal text, reads nothing
outside of them, and returns a sheet within its limits. -/
theorem decodeInventorySheet_grammar (bytes : Bytes) :
    ((decodeInventorySheet bytes).isSome = true ↔
      ∃ text : SheetText, text.Legal ∧ ∃ trailing, bytes = text.bytes ++ trailing) ∧
    (∀ range ∈ (sheetReadings bytes).2.1.copied, range.1 + range.2 ≤ bytes.length) ∧
    ∀ sheet, decodeInventorySheet bytes = some sheet → sheet.Accepted := by
  refine ⟨?_, ?_, fun sheet => accepted_of_decode⟩
  · rw [Option.isSome_iff_exists]
    constructor
    · rintro ⟨sheet, h⟩
      obtain ⟨text, hlegal, ⟨rest, hrest⟩, -⟩ := decodeInventorySheet_eq_some.mp h
      exact ⟨text, hlegal, rest, hrest.symm⟩
    · rintro ⟨text, hlegal, rest, rfl⟩
      exact ⟨_, decodeInventorySheet_eq_some.mpr ⟨text, hlegal, List.prefix_append _ _, rfl⟩⟩
  · obtain ⟨hin, hbytes⟩ := accepts_sheet.within ({ bytes := bytes }, {}) (Cursor.within_start bytes)
    intro range hr
    have hle := hin.copied_le range hr
    rwa [hbytes] at hle

def PackedForm.asString (form : PackedForm) : PackedForm := { form with plugin := cString form.plugin }

def InventorySheet.asStrings (sheet : InventorySheet) : InventorySheet where
  name := cString sheet.name
  sex := sheet.sex
  race := sheet.race.asString
  worn := sheet.worn.map PackedForm.asString
  invStacks := sheet.invStacks.map fun stack => { stack with form := stack.form.asString }

/-- What of a sheet arrives: its first entries, and of these the ones that are not skipped. -/
def InventorySheet.received (sheet : InventorySheet) : InventorySheet :=
  { sheet with
    worn := (sheet.worn.take kMaxWorn).filter (!skipsForm ·)
    invStacks := (sheet.invStacks.take kMaxStacks).filter (!skipsForm ·.form) }

def PackedForm.written (form : PackedForm) : PackedForm := { form with plugin := charArray kPluginField (cString form.plugin) }

def InvStack.written (stack : InvStack) : InvStack := { stack with form := stack.form.written }

def InventorySheet.text (sheet : InventorySheet) : SheetText where
  version := kInvVersion
  name := charArray 32 (cString sheet.name)
  sex := sheet.sex
  race := sheet.race.written
  worn := (sheet.worn.take kMaxWorn).map PackedForm.written
  invStacks := (sheet.invStacks.take kMaxStacks).map InvStack.written

theorem PackedForm.written_fits (form : PackedForm) : form.written.Fits := charArray_length _ _

theorem PackedForm.written_pieces (form : PackedForm) : form.written.pieces.flatten = form.write := by
  simp [PackedForm.pieces, PackedForm.written, PackedForm.write]

theorem PackedForm.asString_cut_written {form : PackedForm} (h : form.Terminated) :
    form.written.cut.asString = form.asString := by
  have hlt := cString_length_lt h.2
  rw [h.1] at hlt
  rw [PackedForm.cut, PackedForm.written, charArray_set_last, PackedForm.asString, PackedForm.asString,
    cString_charArray (zero_notMem_cString _) hlt]

theorem InvStack.written_pieces (stack : InvStack) : stack.written.pieces.flatten = stack.write := by
  rw [InvStack.pieces, List.flatten_append, InvStack.written, PackedForm.written_pieces, List.flatten_singleton]
  rfl

theorem flatten_flatMap_map {α τ : Type} (l : List α) (written : α → τ) (pieces : τ → List Bytes) (write : α → Bytes)
    (h : ∀ a, (pieces (written a)).flatten = write a) : ((l.map written).flatMap pieces).flatten = (l.map write).flatten := by
  induction l with
  | nil => rfl
  | cons a l ih => rw [List.map_cons, List.flatMap_cons, List.flatten_append, h, ih, List.map_cons, List.flatten_cons]

theorem encodeInventorySheet_eq (sheet : InventorySheet) : encodeInventorySheet sheet = sheet.text.bytes := by
  have hworn := flatten_flatMap_map (sheet.worn.take kMaxWorn) _ _ _ PackedForm.written_pieces
  have hstacks := flatten_flatMap_map (sheet.invStacks.take kMaxStacks) _ _ _ InvStack.written_pieces
  have hrace := sheet.race.written_pieces
  simp only [encodeInventorySheet, SheetText.bytes, SheetText.pieces, SheetText.listPieces, InventorySheet.text,
    List.flatten_append, List.flatten_cons, List.flatten_nil, List.append_nil, List.append_assoc, List.length_map, hworn,
    hstacks, hrace]

theorem InventorySheet.legal_text (sheet : InventorySheet) : sheet.text.Legal where
  name_length := charArray_length _ _
  race_fits := sheet.race.written_fits
  worn_length := by
    rw [InventorySheet.text, List.length_map]
    exact List.length_take_le _ _
  worn_fits := by
    intro row hrow
    obtain ⟨form, -, rfl⟩ := List.mem_map.mp hrow
    exact form.written_fits
  stacks_length := by
    rw [InventorySheet.text, List.length_map]
    exact List.length_take_le _ _
  stacks_fit := by
    intro row hrow
    obtain ⟨stack, -, rfl⟩ := List.mem_map.mp hrow
    exact stack.form.written_fits

theorem strings_written {α : Type} (l : List α) (written strings : α → α) (skips : α → Bool)
    (hskips : ∀ a, skips (written a) = skips a) (hstrings : ∀ a ∈ l, strings (written a) = strings a) :
    ((l.map written).filter (!skips ·)).map strings = (l.filter (!skips ·)).map strings := by
  rw [List.filter_map, List.map_map, show ((!skips ·) ∘ written) = (!skips ·) from funext fun a => by simp [hskips]]
  exact List.map_congr_left fun a ha => hstrings a (List.mem_of_mem_filter ha)

theorem value_text_asStrings {sheet : InventorySheet} (h : sheet.Terminated) :
    sheet.text.value.asStrings = sheet.received.asStrings := by
  have hname : cString ((charArray 32 (cString sheet.name)).set 31 0) = cString sheet.name := by
    have hlt := cString_length_lt h.name.2
    rw [h.name.1] at hlt
    rw [charArray_set_last 32, cString_charArray (zero_notMem_cString _) hlt]
  have hrace := PackedForm.asString_cut_written h.race
  have hworn := strings_written (sheet.worn.take kMaxWorn) (fun form => form.written.cut) PackedForm.asString skipsForm
    (fun _ => rfl) fun form hf => PackedForm.asString_cut_written (h.worn form (List.mem_of_mem_take hf))
  have hstacks := strings_written (sheet.invStacks.take kMaxStacks) (fun stack => stack.written.cut)
    (fun stack => { stack with form := stack.form.asString }) (fun stack => skipsForm stack.form) (fun _ => rfl)
    fun stack hs => congrArg (InvStack.mk · stack.count)
      (PackedForm.asString_cut_written (h.invStacks stack (List.mem_of_mem_take hs)))
  simp only [SheetText.value, InventorySheet.text, InventorySheet.asStrings, InventorySheet.received, hname, hrace,
    List.map_map, Function.comp_def] at hworn hstacks ⊢
  rw [hworn, hstacks]

theorem received_of_accepted {sheet : InventorySheet} (h : sheet.Accepted) : sheet.received = sheet := by
  have hworn : sheet.worn.filter (!skipsForm ·) = sheet.worn :=
    List.filter_eq_self.mpr fun form hf => not_skipsForm.mpr (h.worn_kept form hf)
  have hstacks : sheet.invStacks.filter (!skipsForm ·.form) = sheet.invStacks :=
    List.filter_eq_self.mpr fun stack hs => not_skipsForm.mpr (h.stacks_kept stack hs)
  rw [InventorySheet.received, List.take_of_length_le h.worn_length, List.take_of_length_le h.stacks_length, hworn, hstacks]

theorem decodeInventorySheet_encode {sheet : InventorySheet} (h : sheet.Terminated) :
    ∃ back, decodeInventorySheet (encodeInventorySheet sheet) = some back ∧ back.asStrings = sheet.received.asStrings := by
  refine ⟨sheet.text.value, decodeInventorySheet_eq_some.mpr ⟨sheet.text, sheet.legal_text, ?_, rfl⟩, value_text_asStrings h⟩
  rw [encodeInventorySheet_eq]

/-- A sheet is read back from its encoding with its lists cut and then cleared of the entries
that are skipped, and one that has been read is read back as it is. -/
theorem inventorySheet_roundTrip :
    (∀ sheet : InventorySheet, sheet.Terminated → ∃ back,
      decodeInventorySheet (encodeInventorySheet sheet) = some back ∧ back.asStrings = sheet.received.asStrings) ∧
    ∀ (bytes : Bytes) (sheet : InventorySheet), decodeInventorySheet bytes = some sheet → ∃ back,
      decodeInventorySheet (encodeInventorySheet sheet) = some back ∧ back.asStrings = sheet.asStrings := by
  refine ⟨fun sheet => decodeInventorySheet_encode, fun bytes sheet h => ?_⟩
  have hsheet := accepted_of_decode h
  obtain ⟨back, hback, hstrings⟩ := decodeInventorySheet_encode hsheet.terminated
  exact ⟨back, hback, by rw [hstrings, received_of_accepted hsheet]⟩

def packedMaster (raw : UInt32) : PackedForm := ⟨raw, charArray kPluginField fallout4Esm⟩

/-- A name with something behind its end, and the player's own form among what is worn. -/
def raggedSheet : InventorySheet where
  name := (charArray 32 (ascii "Nora")).set 10 88
  sex := 1
  race := packedMaster 0x00013746
  worn := [packedMaster 0x0001EED7, packedMaster kPlayerBaseForm]
  invStacks := [⟨packedMaster 0x0000000F, 25⟩, ⟨packedMaster 0, 3⟩]

theorem inventorySheet_roundTrip_raggedSheet : ∃ back, decodeInventorySheet (encodeInventorySheet raggedSheet) = some back ∧
    back.asStrings = { raggedSheet with
      worn := [packedMaster 0x0001EED7], invStacks := [⟨packedMaster 0x0000000F, 25⟩] }.asStrings := by
  have hzero : 0 ∈ charArray kPluginField fallout4Esm := by decide
  have hform (raw : UInt32) : (packedMaster raw).Terminated := ⟨charArray_length _ _, hzero⟩
  have hterminated : raggedSheet.Terminated := by
    refine ⟨⟨by decide, by decide⟩, hform _, ?_, ?_⟩
    · simp only [raggedSheet, List.forall_mem_cons]
      exact ⟨hform _, hform _, List.forall_mem_nil _⟩
    · simp only [raggedSheet, List.forall_mem_cons]
      exact ⟨hform _, hform _, List.forall_mem_nil _⟩
  obtain ⟨back, hback, hstrings⟩ := inventorySheet_roundTrip.1 raggedSheet hterminated
  refine ⟨back, hback, hstrings.trans ?_⟩
  decide +kernel

end CommonwealthMP
