import CommonwealthMP.Protocol

/-! # Form identity: packing a form for the wire and resolving it on the receiver

The engine is a load order: full plugins are numbered by their position and light ones share
the index byte 0xFE, and the runtime id of a form is made of its plugin's index and its local id. -/
namespace CommonwealthMP
open ByteLayout

structure PluginFile where
  filename : Bytes
  isLight : Bool
  /-- The local ids of the forms the file defines. -/
  localIds : List ℕ
  deriving DecidableEq

def fallout4Esm : Bytes := ascii "Fallout4.esm"

structure LoadOrder where
  full : List PluginFile
  light : List PluginFile
  full_isLight : ∀ file ∈ full, file.isLight = false
  light_isLight : ∀ file ∈ light, file.isLight = true
  full_length : full.length ≤ 0xFE
  light_length : light.length ≤ 0x1000
  full_ids : ∀ file ∈ full, ∀ id ∈ file.localIds, id < 0x01000000
  light_ids : ∀ file ∈ light, ∀ id ∈ file.localIds, id < 0x1000
  names_nodup : ((full ++ light).map (·.filename)).Nodup
  names_ne_nil : ∀ file ∈ full ++ light, file.filename ≠ []
  master : full.head?.map (·.filename) = some fallout4Esm

structure TESForm where
  file : PluginFile
  localId : ℕ
  deriving DecidableEq

namespace LoadOrder

def files (order : LoadOrder) : List PluginFile := order.full ++ order.light

def forms (order : LoadOrder) : List TESForm := order.files.flatMap fun file => file.localIds.map (TESForm.mk file)

def compileIndex (order : LoadOrder) (file : PluginFile) : UInt8 :=
  if file.isLight then 0xFE else UInt8.ofNat (order.full.idxOf file)

def getFormID (order : LoadOrder) (form : TESForm) : UInt32 :=
  if form.file.isLight then UInt32.ofNat (0xFE000000 + order.light.idxOf form.file * 0x1000 + form.localId)
  else UInt32.ofNat (order.full.idxOf form.file * 0x01000000 + form.localId)

def getLocalFormID (form : TESForm) : UInt32 := UInt32.ofNat form.localId

def getFormByID (order : LoadOrder) (id : UInt32) : Option TESForm := order.forms.find? fun form => order.getFormID form = id

def lookupModByName (order : LoadOrder) (name : Bytes) : Option PluginFile := order.files.find? (·.filename = name)

def lookupForm (order : LoadOrder) (localId : UInt32) (name : Bytes) : Option TESForm :=
  (order.lookupModByName name).bind fun file =>
    if localId.toNat ∈ file.localIds then some ⟨file, localId.toNat⟩ else none

end LoadOrder

def kPluginField : ℕ := 24

structure PackedForm where
  raw : UInt32 := 0
  plugin : Bytes := List.replicate kPluginField 0
  deriving DecidableEq, Repr

def packFormId (formId : UInt32) (plugin : Bytes) (isLight : Bool) : PackedForm where
  raw := if isLight then formId else formId &&& 0x00FFFFFF
  plugin := charArray kPluginField plugin

def fullFormId (raw : UInt32) (compileIndex : UInt8) (isLight : Bool) : UInt32 :=
  if raw = 0 then 0
  else if isLight then raw
  else (compileIndex.toUInt32 <<< 24) ||| (raw &&& 0x00FFFFFF)

/-- `BlobWriter::write_form` -/
def PackedForm.write (form : PackedForm) : Bytes := u32 form.raw ++ charArray kPluginField (cString form.plugin)

/-- `BlobReader::read_form`: the form at the reader's position and the bytes behind it. -/
def PackedForm.read (bytes : Bytes) : Option (PackedForm × Bytes) :=
  if bytes.length < 4 + kPluginField then none
  else some ({ raw := u32At bytes 0, plugin := (slice bytes 4 kPluginField).set (kPluginField - 1) 0 },
    bytes.drop (4 + kPluginField))

def LoadOrder.packForm (order : LoadOrder) : Option TESForm → PackedForm
  | none => {}
  | some form =>
    if form.file.filename ≠ [] then
      packFormId (if form.file.isLight then LoadOrder.getLocalFormID form else order.getFormID form) form.file.filename
        form.file.isLight
    else packFormId (order.getFormID form) fallout4Esm false

def LoadOrder.resolveForm (order : LoadOrder) (rawId : UInt32) (plugin : Bytes) : Option TESForm :=
  if rawId = 0 then none
  else if rawId < 0x01000000 then order.getFormByID rawId
  else if plugin = [] then none
  else
    match order.lookupModByName plugin with
    | none => none
    | some file =>
      if file.isLight then order.lookupForm rawId plugin
      else order.getFormByID (fullFormId rawId (order.compileIndex file) false)

/-- What the receiver makes of a form the sender writes. -/
def transferForm (sender receiver : LoadOrder) (form : TESForm) : Option TESForm :=
  (PackedForm.read (sender.packForm (some form)).write).bind fun packed =>
    receiver.resolveForm packed.1.raw (cString packed.1.plugin)

namespace LoadOrder
variable {order : LoadOrder} {form : TESForm}

theorem mem_forms : form ∈ order.forms ↔ form.file ∈ order.files ∧ form.localId ∈ form.file.localIds := by
  unfold forms
  simp only [List.mem_flatMap, List.mem_map]
  constructor
  · rintro ⟨file, hf, id, hid, rfl⟩
    exact ⟨hf, hid⟩
  · rintro ⟨hf, hid⟩
    exact ⟨form.file, hf, form.localId, hid, rfl⟩

/-- A form's file is full or light, and its local id fits its kind. -/
theorem form_cases (h : form ∈ order.forms) :
    (form.file ∈ order.full ∧ form.file.isLight = false ∧ form.localId < 0x01000000) ∨
      form.file ∈ order.light ∧ form.file.isLight = true ∧ form.localId < 0x1000 := by
  obtain ⟨hf, hid⟩ := mem_forms.mp h
  rcases List.mem_append.mp hf with hf | hf
  · exact .inl ⟨hf, order.full_isLight _ hf, order.full_ids _ hf _ hid⟩
  · exact .inr ⟨hf, order.light_isLight _ hf, order.light_ids _ hf _ hid⟩

theorem localId_lt (h : form ∈ order.forms) : form.localId < 0x01000000 := by
  rcases form_cases h with ⟨-, -, hl⟩ | ⟨-, -, hl⟩ <;> omega

theorem getFormID_full (hf : form.file ∈ order.full) (hid : form.localId < 0x01000000) :
    (order.getFormID form).toNat = order.full.idxOf form.file * 0x01000000 + form.localId := by
  have hidx := List.idxOf_lt_length_of_mem hf
  have hlen := order.full_length
  rw [getFormID, order.full_isLight _ hf, if_neg (by decide), UInt32.toNat_ofNat']
  omega

theorem getFormID_light (hf : form.file ∈ order.light) (hid : form.localId < 0x1000) :
    0x01000000 ≤ (order.getFormID form).toNat := by
  have hidx := List.idxOf_lt_length_of_mem hf
  have hlen := order.light_length
  rw [getFormID, order.light_isLight _ hf, if_pos rfl, UInt32.toNat_ofNat']
  omega

/-- Only forms of the first plugin have an id without an index byte. -/
theorem small_getFormID (h : form ∈ order.forms) (hs : (order.getFormID form).toNat < 0x01000000) :
    form.file.filename = fallout4Esm ∧ form.localId = (order.getFormID form).toNat := by
  rcases form_cases h with ⟨hf, -, hid⟩ | ⟨hf, -, hid⟩
  · have hn := getFormID_full hf hid
    have h0 : order.full.idxOf form.file = 0 := by omega
    refine ⟨?_, by rw [hn, h0]; omega⟩
    have hm := order.master
    cases hfull : order.full with
    | nil =>
      rw [hfull] at hf
      cases hf
    | cons first rest =>
      rw [hfull] at hm h0 hf
      have hget := List.getElem_idxOf (List.idxOf_lt_length_of_mem hf)
      simp only [h0, List.getElem_cons_zero] at hget
      rw [← hget]
      exact Option.some.inj hm
  · have := getFormID_light hf hid
    omega

theorem file_eq_of_name {file file' : PluginFile} (h : file ∈ order.files) (h' : file' ∈ order.files)
    (hn : file.filename = file'.filename) : file = file' :=
  List.inj_on_of_nodup_map order.names_nodup h h' hn

theorem getFormID_master (h : form ∈ order.forms) (hm : form.file.filename = fallout4Esm) :
    (order.getFormID form).toNat = form.localId := by
  have hmaster := order.master
  cases hfull : order.full with
  | nil =>
    rw [hfull] at hmaster
    cases hmaster
  | cons first rest =>
    have hname : first.filename = fallout4Esm := by
      rw [hfull] at hmaster
      exact Option.some.inj hmaster
    have hfirst : first ∈ order.full := hfull ▸ List.mem_cons_self
    obtain rfl : first = form.file :=
      file_eq_of_name (List.mem_append_left _ hfirst) (mem_forms.mp h).1 (hname.trans hm.symm)
    rw [getFormID_full hfirst (localId_lt h), hfull, List.idxOf_cons_self]
    omega

theorem getFormByID_small {id : UInt32} (hs : id.toNat < 0x01000000) :
    order.getFormByID id = some form ↔ form ∈ order.forms ∧ form.file.filename = fallout4Esm ∧ form.localId = id.toNat := by
  unfold getFormByID
  constructor
  · intro h
    have hmem := List.mem_of_find?_eq_some h
    have hid : order.getFormID form = id := by simpa using List.find?_some h
    obtain ⟨hname, hlocal⟩ := small_getFormID hmem (hid ▸ hs)
    exact ⟨hmem, hname, hid ▸ hlocal⟩
  · rintro ⟨hmem, hname, hlocal⟩
    have hform : order.getFormID form = id := UInt32.toNat_inj.mp ((getFormID_master hmem hname).trans hlocal)
    cases hf : order.forms.find? fun form => order.getFormID form = id with
    | none =>
      have := List.find?_eq_none.mp hf form hmem
      simp [hform] at this
    | some found =>
      have hfmem := List.mem_of_find?_eq_some hf
      have hfid : order.getFormID found = id := by simpa using List.find?_some hf
      obtain ⟨hfname, hflocal⟩ := small_getFormID hfmem (hfid ▸ hs)
      obtain ⟨file, localId⟩ := form
      obtain ⟨file', localId'⟩ := found
      dsimp only at hname hlocal hfname hflocal
      rw [hfid] at hflocal
      obtain rfl := file_eq_of_name (mem_forms.mp hmem).1 (mem_forms.mp hfmem).1 (hname.trans hfname.symm)
      rw [hlocal, hflocal]

end LoadOrder

/-- The raw id on the wire is the local id, for full and light plugins alike. -/
theorem packForm_raw {order : LoadOrder} {form : TESForm} (h : form ∈ order.forms) :
    (order.packForm (some form)).raw.toNat = form.localId := by
  have hid := LoadOrder.localId_lt h
  have hne := order.names_ne_nil _ (LoadOrder.mem_forms.mp h).1
  rw [LoadOrder.packForm, if_pos hne, packFormId]
  dsimp only
  rcases LoadOrder.form_cases h with ⟨hf, hl, -⟩ | ⟨hf, hl, -⟩
  · have hn := LoadOrder.getFormID_full hf hid
    rw [hl, if_neg (by decide), if_neg (by decide), UInt32.toNat_and, hn,
      show (0x00FFFFFF : UInt32).toNat = 2 ^ 24 - 1 from rfl, Nat.and_two_pow_sub_one_eq_mod]
    omega
  · rw [hl, if_pos rfl, if_pos rfl, LoadOrder.getLocalFormID, UInt32.toNat_ofNat']
    omega

theorem PackedForm.read_write (form : PackedForm) : ∃ plugin, PackedForm.read form.write = some (⟨form.raw, plugin⟩, []) := by
  have hlen : form.write.length = 4 + kPluginField := by
    rw [PackedForm.write, List.length_append, u32_length, charArray_length]
  refine ⟨(slice form.write 4 kPluginField).set (kPluginField - 1) 0, ?_⟩
  rw [PackedForm.read, if_neg (by omega), List.drop_eq_nil_of_le (le_of_eq hlen)]
  rw [PackedForm.write, u32At_u32]

/-- A form survives the wire exactly when it is one of Fallout4.esm: any other id is looked up
without its plugin. -/
theorem form_identity_iff (sender receiver : LoadOrder) (same : ∀ file, file ∈ sender.files ↔ file ∈ receiver.files)
    (form : TESForm) (hf : form ∈ sender.forms) :
    transferForm sender receiver form = some form ↔ form.file.filename = fallout4Esm ∧ form.localId ≠ 0 := by
  have hraw := packForm_raw hf
  have hid := LoadOrder.localId_lt hf
  have hr : form ∈ receiver.forms := by
    obtain ⟨hfile, hlocal⟩ := LoadOrder.mem_forms.mp hf
    exact LoadOrder.mem_forms.mpr ⟨(same _).mp hfile, hlocal⟩
  obtain ⟨plugin, hread⟩ := PackedForm.read_write (sender.packForm (some form))
  rw [transferForm, hread, Option.bind_some]
  dsimp only
  generalize (sender.packForm (some form)).raw = raw at hraw
  rw [LoadOrder.resolveForm]
  by_cases h0 : raw = 0
  · rw [if_pos h0]
    have hz : form.localId = 0 := by
      rw [← hraw, h0]
      rfl
    exact iff_of_false nofun fun h => h.2 hz
  · have hne : form.localId ≠ 0 := fun hz => h0 (UInt32.toNat_inj.mp (hraw.trans hz))
    have hsmall : raw < 0x01000000 := UInt32.lt_iff_toNat_lt.mpr (by rw [hraw]; exact hid)
    rw [if_neg h0, if_pos hsmall, LoadOrder.getFormByID_small (by rw [hraw]; exact hid)]
    exact ⟨fun h => ⟨h.2.1, hne⟩, fun h => ⟨hr, h.1, hraw.symm⟩⟩

/-- The master, two add-ons and a light file, with forms of the same local id. -/
def robotFirst : LoadOrder where
  full := [⟨fallout4Esm, false, [0x800]⟩, ⟨ascii "DLCRobot.esm", false, [0x800]⟩, ⟨ascii "DLCCoast.esm", false, [0x900]⟩]
  light := [⟨ascii "ccBGSFO4001-PipBoy(Black).esl", true, [0x800]⟩]
  full_isLight := by decide
  light_isLight := by decide
  full_length := by decide
  light_length := by decide
  full_ids := by decide
  light_ids := by decide
  names_nodup := by decide
  names_ne_nil := by decide
  master := by decide

/-- The same files, with the add-ons the other way round. -/
def coastFirst : LoadOrder where
  full := [⟨fallout4Esm, false, [0x800]⟩, ⟨ascii "DLCCoast.esm", false, [0x900]⟩, ⟨ascii "DLCRobot.esm", false, [0x800]⟩]
  light := [⟨ascii "ccBGSFO4001-PipBoy(Black).esl", true, [0x800]⟩]
  full_isLight := by decide
  light_isLight := by decide
  full_length := by decide
  light_length := by decide
  full_ids := by decide
  light_ids := by decide
  names_nodup := by decide
  names_ne_nil := by decide
  master := by decide

theorem robotFirst_files (file : PluginFile) : file ∈ robotFirst.files ↔ file ∈ coastFirst.files := by
  have hperm : robotFirst.files.Perm coastFirst.files := by decide
  exact hperm.mem_iff

theorem form_identity_iff_robotFirst :
    transferForm robotFirst coastFirst ⟨⟨fallout4Esm, false, [0x800]⟩, 0x800⟩ = some ⟨⟨fallout4Esm, false, [0x800]⟩, 0x800⟩ ∧
      transferForm robotFirst coastFirst ⟨⟨ascii "DLCRobot.esm", false, [0x800]⟩, 0x800⟩ ≠
        some ⟨⟨ascii "DLCRobot.esm", false, [0x800]⟩, 0x800⟩ :=
  ⟨(form_identity_iff robotFirst coastFirst robotFirst_files _ (by decide)).mpr ⟨rfl, by decide⟩,
    fun h => absurd ((form_identity_iff robotFirst coastFirst robotFirst_files _ (by decide)).mp h).1 (by decide)⟩

/-- The add-on's form resolves to one of the master. -/
theorem not_form_identity_addon :
    transferForm robotFirst coastFirst ⟨⟨ascii "DLCRobot.esm", false, [0x800]⟩, 0x800⟩ =
      some ⟨⟨fallout4Esm, false, [0x800]⟩, 0x800⟩ := by
  decide +kernel

end CommonwealthMP
