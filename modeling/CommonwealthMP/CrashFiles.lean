import CommonwealthMP.CrashAgreement

/-! # The reporter reads the crash file

The file is read as a text in UTF-8. The plugin copies notes, names of modules and the path into it as
bytes. -/
namespace CommonwealthMP
open ByteLayout LineTexts Utf8
namespace Crash

theorem isAscii_ascii {l : List Char} (h : (l.all fun c => decide (UInt8.ofNat c.toNat < 0x80)) = true) :
    IsAscii (ascii (String.ofList l)) := forall_ascii h

theorem lt_of_isPlain {c : UInt8} (h : IsPlain c) : c < 0x80 := UInt8.lt_of_le_of_lt h.2 (by decide)

theorem isAscii_of_isPlain {s : Bytes} (h : ∀ c ∈ s, IsPlain c) : IsAscii s := fun c hc => lt_of_isPlain (h c hc)

theorem isAscii_hex (n : ℕ) : IsAscii (hex n) :=
  isAscii_of_isPlain fun _ hc => (isPlain_of_isHexDigit (isHexDigit_of_mem hc)).1

theorem isAscii_decimal (n : ℕ) : IsAscii (decimal n) :=
  isAscii_of_isPlain fun _ hc => (isPlain_of_isHexDigit (isHexDigit_of_isDigit (decimal_isDigit hc))).1

theorem isAscii_replicate_zero (n : ℕ) : IsAscii (List.replicate n 48) := by
  intro c hc
  rw [List.eq_of_mem_replicate hc]
  decide

theorem isAscii_decimalPadded (w n : ℕ) : IsAscii (decimalPadded w n) :=
  (isAscii_replicate_zero _).append (isAscii_decimal n)

theorem isAscii_codeName (code : UInt32) : IsAscii (codeName code) :=
  isAscii_of_isPlain fun c hc => ((isNameText_codeName code).2 c hc).1

theorem isAscii_version (v : VersionText) : IsAscii v.bytes := by
  intro c hc
  rcases v.legal c hc with h | rfl | rfl
  · exact lt_of_isPlain (isPlain_of_isHexDigit (isHexDigit_of_isDigit h)).1
  · decide
  · decide

theorem isAscii_whyText (record : ExceptionRecord) : IsAscii (whyText record) := by
  refine IsAscii.take ?_ 319
  repeat' apply choose_of (P := IsAscii)
  · refine ((isAscii_ascii (by decide)).append ?_).append (isAscii_ascii (by decide))
    repeat' apply choose_of (P := IsAscii)
    all_goals exact isAscii_ascii (by decide)
  · refine ((((isAscii_ascii (by decide)).append ?_).append (isAscii_ascii (by decide))).append
      (isAscii_hex _)).append (isAscii_ascii (by decide))
    repeat' apply choose_of (P := IsAscii)
    all_goals exact isAscii_ascii (by decide)
  all_goals first
    | exact isAscii_ascii (by decide)
    | exact ((((isAscii_ascii (by decide)).append (isAscii_codeName _)).append (isAscii_ascii (by decide))).append
        ((isAscii_replicate_zero _).append (isAscii_hex _))).append (isAscii_ascii (by decide))

theorem isAscii_headerLine (scene : CrashScene) : IsAscii (headerLine scene) := by
  have horigin : IsAscii scene.origin.text := by cases scene.origin <;> exact isAscii_ascii (by decide)
  have hstamp : IsAscii (headerStamp scene) := by
    unfold IsAscii
    simp only [headerStamp, List.forall_mem_append]
    and_intros
    all_goals first
      | exact isAscii_decimalPadded _ _
      | exact isAscii_decimal _
      | exact isAscii_ascii (by decide)
  exact (isAscii_ascii (by decide)).append (horigin.append (List.forall_mem_cons.mpr ⟨by decide, hstamp⟩))

theorem isAscii_pluginLine (scene : CrashScene) : IsAscii (pluginLine scene) :=
  (((isAscii_ascii (by decide)).append (isAscii_version _)).append (isAscii_ascii (by decide))).append (isAscii_version _)

theorem isAscii_access (record : ExceptionRecord) : ∀ l ∈ accessLines record, IsAscii l := by
  intro l hl
  rw [accessLines] at hl
  split at hl
  · rw [List.mem_singleton.mp hl]
    refine IsAscii.append ?_ (isAscii_hex _)
    apply choose_of (P := IsAscii) <;> exact isAscii_ascii (by decide)
  · exact absurd hl List.not_mem_nil

theorem isAscii_registerLine (c : Context) : IsAscii (registerLine c) := by
  unfold IsAscii
  simp only [registerLine, List.forall_mem_append]
  and_intros
  all_goals first
    | exact isAscii_hex _
    | exact isAscii_ascii (by decide)

/-- The module that holds the address has a name in UTF-8. -/
def NamedInUtf8 (scene : CrashScene) (addr : UInt64) : Prop :=
  ∀ path base, scene.moduleAt addr = some (path, base) → Valid (baseName path.bytes)

theorem valid_placeLine (scene : CrashScene) (addr : UInt64) : Valid (placeLine scene addr) ↔ NamedInUtf8 scene addr := by
  have hnumber : IsAscii (writeHex addr ++ ascii " ") := (isAscii_hex _).append (isAscii_ascii (by decide))
  rw [placeLine, valid_ascii_append hnumber]
  cases h : scene.moduleAt addr with
  | none =>
    rw [formatModAddr_none h]
    exact iff_of_true (isAscii_hex _).valid fun path base hsome => absurd (h.symm.trans hsome) (by simp)
  | some found =>
    obtain ⟨path, base⟩ := found
    rw [formatModAddr_some h, writeHex, valid_append_ascii (isAscii_hex _), valid_append_ascii (isAscii_ascii (by decide))]
    constructor
    · intro hname path' base' hsome
      obtain ⟨rfl, -⟩ := Prod.mk.inj (Option.some.inj (h.symm.trans hsome))
      exact hname
    · exact fun hname => hname path base h

theorem valid_moduleLine (m : Module) : Valid (moduleLine m) ↔ Valid (baseName m.path.bytes) := by
  rw [moduleLine, valid_append_ascii (isAscii_hex _), valid_append_ascii (isAscii_ascii (by decide)), writeHex,
    valid_append_ascii (isAscii_hex _), valid_append_ascii (isAscii_ascii (by decide))]

theorem valid_indented (ls : List Bytes) : (∀ l ∈ ls.map indented, Valid l) ↔ ∀ l ∈ ls, Valid l := by
  rw [List.forall_mem_map]
  exact forall₂_congr fun l _ => valid_ascii_append (isAscii_ascii (by decide))

theorem valid_recordLines (scene : CrashScene) (record : ExceptionRecord) :
    (∀ l ∈ recordLines scene record, Valid l) ↔ NamedInUtf8 scene record.exceptionAddress := by
  have hcode : Valid (ascii "code " ++ codeName record.exceptionCode ++ ascii " " ++ hex record.exceptionCode.toNat) :=
    IsAscii.valid ((((isAscii_ascii (by decide)).append (isAscii_codeName _)).append (isAscii_ascii (by decide))).append
      (isAscii_hex _))
  have hwhy : Valid (ascii "why " ++ whyText record) :=
    IsAscii.valid ((isAscii_ascii (by decide)).append (isAscii_whyText record))
  have haddr : Valid (ascii "addr " ++ placeLine scene record.exceptionAddress) ↔ NamedInUtf8 scene record.exceptionAddress :=
    (valid_ascii_append (isAscii_ascii (by decide))).trans (valid_placeLine scene _)
  have haccess : ∀ l ∈ accessLines record, Valid l := fun l hl => (isAscii_access record l hl).valid
  simp only [recordLines, List.forall_mem_append, List.forall_mem_cons]
  constructor
  · rintro ⟨⟨⟨-, h, -⟩, -⟩, -⟩
    exact haddr.mp h
  · exact fun h => ⟨⟨⟨hcode, haddr.mpr h, List.forall_mem_nil _⟩, haccess⟩, hwhy, List.forall_mem_nil _⟩

theorem valid_contextLines (scene : CrashScene) :
    (∀ l ∈ contextLines scene, Valid l) ↔ ∀ c, scene.context = some c → NamedInUtf8 scene c.rip := by
  rw [contextLines]
  cases scene.context with
  | none => exact iff_of_true (List.forall_mem_nil _) fun c hc => by cases hc
  | some c =>
    have hrip : Valid (ascii "rip " ++ placeLine scene c.rip) ↔ NamedInUtf8 scene c.rip :=
      (valid_ascii_append (isAscii_ascii (by decide))).trans (valid_placeLine scene _)
    rw [List.forall_mem_cons, List.forall_mem_singleton, hrip, and_iff_left (isAscii_registerLine c).valid]
    constructor
    · rintro h c' hc'
      exact Option.some.inj hc' ▸ h
    · exact fun h => h c rfl

theorem valid_stackLines (scene : CrashScene) :
    (∀ l ∈ stackLines scene, Valid l) ↔ ∀ frame ∈ scene.backTrace.take 48, NamedInUtf8 scene frame := by
  rw [stackLines, List.forall_mem_map]
  exact forall₂_congr fun frame _ => valid_placeLine scene frame

theorem valid_moduleLines (scene : CrashScene) :
    (∀ l ∈ moduleLines scene, Valid l) ↔ ∀ m ∈ listedModules scene, Valid (baseName m.path.bytes) := by
  rw [moduleLines_eq, List.forall_mem_map]
  exact forall₂_congr fun m _ => valid_moduleLine m

theorem valid_moduleHeads (scene : CrashScene) : ∀ l ∈ moduleHeads scene, Valid l := by
  intro l hl
  rw [moduleHeads] at hl
  split at hl
  · exact absurd hl List.not_mem_nil
  · rw [List.mem_singleton.mp hl]
    exact (isAscii_ascii (by decide)).valid

/-- What the plugin copies into the file is in UTF-8. -/
structure Readable (whats : List Bytes) (scene : CrashScene) (record : ExceptionRecord) : Prop where
  notes : ∀ what ∈ whats.drop (whats.length - min kNoteCount whats.length), Valid what
  exceptionAddress : NamedInUtf8 scene record.exceptionAddress
  rip : ∀ c, scene.context = some c → NamedInUtf8 scene c.rip
  backTrace : ∀ frame ∈ scene.backTrace.take 48, NamedInUtf8 scene frame
  modules : ∀ m ∈ listedModules scene, Valid (baseName m.path.bytes)
  dmpPath : Valid scene.dmpPath.bytes

theorem valid_writeCrashText {whats : List Bytes} (scene : CrashScene) (record : ExceptionRecord)
    (hnotes : ∀ what ∈ whats, NoteLine what) (hlen : whats.length < 2 ^ 32) :
    Valid (writeCrashText (recorded whats) scene (some record)) ↔ Readable whats scene record := by
  have hdmp : Valid (ascii "minidump " ++ scene.dmpPath.bytes) ↔ Valid scene.dmpPath.bytes :=
    valid_ascii_append (isAscii_ascii (by decide))
  have hnotesMark : Valid (ascii "notes (newest last):") := (isAscii_ascii (by decide)).valid
  have hstackMark : Valid (ascii "stack:") := (isAscii_ascii (by decide)).valid
  rw [writeCrashText_eq, valid_unlines (by decide), crashLines]
  simp only [List.forall_mem_append, List.forall_mem_cons, valid_indented, valid_recordLines, valid_contextLines,
    valid_stackLines, valid_moduleLines, hdmp, writtenNotes_recorded (fun what h => (hnotes what h).fits) hlen]
  constructor
  · rintro ⟨⟨⟨⟨⟨⟨⟨-, hrecord⟩, hcontext⟩, -, hwritten⟩, -, hstack⟩, -⟩, hmodules⟩, hpath, -⟩
    exact ⟨hwritten, hrecord, hcontext, hstack, hmodules, hpath⟩
  · rintro ⟨hwritten, hrecord, hcontext, hstack, hmodules, hpath⟩
    have hheader : Valid (headerLine scene) := (isAscii_headerLine scene).valid
    have hplugin : Valid (pluginLine scene) := (isAscii_pluginLine scene).valid
    have hheads : ∀ l ∈ moduleHeads scene, Valid l := valid_moduleHeads scene
    exact ⟨⟨⟨⟨⟨⟨⟨⟨hheader, hplugin, List.forall_mem_nil _⟩, hrecord⟩, hcontext⟩, hnotesMark, hwritten⟩, hstackMark, hstack⟩,
      hheads⟩, hmodules⟩, hpath, List.forall_mem_nil _⟩

/-- The reporter opens the crash file and finds what the plugin knew if and only if what was copied into
it is in UTF-8, the path and the names of the modules are plain, and with no note recorded the path is
not taken for one. -/
theorem parseCrashTxt_writeCrashText {whats : List Bytes} (scene : CrashScene) (record : ExceptionRecord)
    (hnotes : ∀ what ∈ whats, NoteLine what) (hlen : whats.length < 2 ^ 32) :
    (∃ r, parseCrashTxt (writeCrashText (recorded whats) scene (some record)) = some r ∧ Recovers r whats scene record) ↔
      Readable whats scene record ∧ (whats = [] → ¬ NamesNote scene.dmpPath.bytes) ∧ PlainPath scene.dmpPath.bytes ∧
        ∀ m ∈ listedModules scene, PlainName (baseName m.path.bytes) := by
  rw [parseCrashTxt, ← recovers_iff scene record hnotes hlen, ← valid_writeCrashText scene record hnotes hlen]
  split_ifs with hvalid
  · rw [and_iff_right hvalid]
    constructor
    · rintro ⟨r, hr, h⟩
      exact Option.some.inj hr ▸ h
    · exact fun h => ⟨_, rfl, h⟩
  · refine iff_of_false ?_ fun h => hvalid h.1
    rintro ⟨r, hr, -⟩
    cases hr

def gameFile : ModulePath where
  bytes := ascii "C:\\Fallout4\\Fallout4.exe"
  fits := by decide
  legal := forall_ascii (by decide)
  noColon := by decide

def gameScene (path : DumpPath) : CrashScene where
  origin := .veh
  time := ⟨2026, 9, 2, 12, 0, 0⟩
  threadId := 1234
  pluginVersion := ⟨ascii "0.6.7", by unfold IsDigit; exact forall_ascii (by decide)⟩
  f4seVersion := ⟨ascii "0.7.9", by unfold IsDigit; exact forall_ascii (by decide)⟩
  context := some ⟨0x1A2B, 0x123456, 0x123400, 0, 0, 0⟩
  moduleAt := fun addr => if 0x1000 ≤ addr ∧ addr < 0x9000 then some (gameFile, 0x1000) else none
  backTrace := [0x1A2B, 0xABCDEF]
  modules := some [⟨gameFile, 0x1000, 0x8000⟩]
  dmpPath := path

def nullRead : ExceptionRecord := ⟨0xC0000005, 0x1A2B, 2, 0, 0⟩

theorem namedInUtf8_gameScene (path : DumpPath) (addr : UInt64) : NamedInUtf8 (gameScene path) addr := by
  intro file base hsome
  dsimp only [gameScene] at hsome
  split_ifs at hsome
  cases hsome
  decide

/-- A path with an `ë` in it. -/
def zoePath : DumpPath where
  bytes := ascii "C:\\Users\\Zo" ++ [0xC3, 0xAB] ++ ascii "\\F4SE\\CommonwealthMP.dmp"
  legal := List.forall_mem_append.mpr ⟨List.forall_mem_append.mpr ⟨forall_ascii (by decide),
    List.forall_mem_cons.mpr ⟨by decide, List.forall_mem_singleton.mpr (by decide)⟩⟩, forall_ascii (by decide)⟩

theorem parseCrashTxt_writeCrashText_twoNotes :
    ∃ r, parseCrashTxt (writeCrashText (recorded [ascii "pose", ascii "ghosts"]) (gameScene zoePath) (some nullRead)) = some r ∧
      Recovers r [ascii "pose", ascii "ghosts"] (gameScene zoePath) nullRead := by
  refine (parseCrashTxt_writeCrashText _ _ ?_ (by decide)).mpr ⟨?_, ?_, ⟨by decide, by decide, by decide⟩, ?_⟩
  · simp only [List.forall_mem_cons]
    exact ⟨⟨by decide, by decide, by decide, by decide, ⟨by decide, by decide⟩, by decide, by decide, by decide, by decide,
      by decide⟩, ⟨by decide, by decide, by decide, by decide, ⟨by decide, by decide⟩, by decide, by decide, by decide,
      by decide, by decide⟩, List.forall_mem_nil _⟩
  · have hnamed := namedInUtf8_gameScene zoePath
    refine ⟨?_, hnamed _, fun _ _ => hnamed _, fun _ _ => hnamed _, ?_, by decide⟩
    · show ∀ what ∈ [ascii "pose", ascii "ghosts"], Valid what
      exact List.forall_mem_cons.mpr ⟨by decide, List.forall_mem_singleton.mpr (by decide)⟩
    · exact List.forall_mem_singleton.mpr (by decide)
  · exact fun h => absurd h (List.cons_ne_nil _ _)
  · exact List.forall_mem_singleton.mpr ⟨by decide, by decide⟩

def notebookPath : DumpPath := ⟨ascii "C:\\Users\\notebook\\F4SE\\CommonwealthMP.dmp", forall_ascii (by decide)⟩

/-- With no note recorded, what follows the drive letter of a user called `notebook` is taken for one. -/
theorem not_recovers_notebook :
    ¬ ∃ r, parseCrashTxt (writeCrashText (recorded []) (gameScene notebookPath) (some nullRead)) = some r ∧
      Recovers r [] (gameScene notebookPath) nullRead := by
  rintro ⟨r, hr, h⟩
  have hnotes := h.lastNotes
  have hreport : r = parseCrashText (writeCrashText (recorded []) (gameScene notebookPath) (some nullRead)) := by
    rw [parseCrashTxt] at hr
    split_ifs at hr
    exact (Option.some.inj hr).symm
  rw [hreport] at hnotes
  revert hnotes
  decide +kernel

end Crash
end CommonwealthMP
