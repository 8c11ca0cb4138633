import CommonwealthMP.CrashReports

/-! # The crash text line by line

The text of a crash is a list of lines. The reporter's state is followed along them through what it has
found so far. -/
namespace CommonwealthMP
open ByteLayout LineTexts
namespace Crash

/-- The text stays on its line and has no colon. -/
def Tame (s : Bytes) : Prop := ∀ c ∈ s, 32 ≤ c ∧ c ≠ 58

instance (s : Bytes) : Decidable (Tame s) := List.decidableBAll (fun c => 32 ≤ c ∧ c ≠ 58) s

theorem tame_ascii {l : List Char} (h : (l.all fun c => decide (32 ≤ UInt8.ofNat c.toNat ∧ UInt8.ofNat c.toNat ≠ 58)) = true) :
    Tame (ascii (String.ofList l)) := forall_ascii (p := fun c => 32 ≤ c ∧ c ≠ 58) h

theorem Tame.append {s t : Bytes} (hs : Tame s) (ht : Tame t) : Tame (s ++ t) := by
  intro c hc
  rcases List.mem_append.mp hc with h | h
  · exact hs c h
  · exact ht c h

theorem Tame.take {s : Bytes} (hs : Tame s) (n : ℕ) : Tame (s.take n) := fun c hc => hs c (List.mem_of_mem_take hc)

theorem isPlain_of_isHexDigit {c : UInt8} (h : isHexDigit c = true) : IsPlain c ∧ c ≠ 58 := by
  unfold IsPlain
  simp only [isHexDigit, Bool.or_eq_true, Bool.and_eq_true, decide_eq_true_eq, UInt8.le_iff_toNat_le] at h
  simp only [UInt8.le_iff_toNat_le, ne_eq, ← UInt8.toNat_inj]
  have e1 : (48 : UInt8).toNat = 48 := rfl
  have e2 : (57 : UInt8).toNat = 57 := rfl
  have e3 : (65 : UInt8).toNat = 65 := rfl
  have e4 : (70 : UInt8).toNat = 70 := rfl
  have e5 : (33 : UInt8).toNat = 33 := rfl
  have e6 : (126 : UInt8).toNat = 126 := rfl
  have e7 : (58 : UInt8).toNat = 58 := rfl
  omega

theorem le_of_isPlain {c : UInt8} (h : IsPlain c) : 32 ≤ c := UInt8.le_trans (by decide) h.1

theorem tame_hex (n : ℕ) : Tame (hex n) := fun _ hc =>
  ⟨le_of_isPlain (isPlain_of_isHexDigit (isHexDigit_of_mem hc)).1, (isPlain_of_isHexDigit (isHexDigit_of_mem hc)).2⟩

theorem tame_replicate_zero (n : ℕ) : Tame (List.replicate n 48) := by
  intro c hc
  rw [List.eq_of_mem_replicate hc]
  decide

theorem tame_hexPadded (w n : ℕ) : Tame (hexPadded w n) := (tame_replicate_zero _).append (tame_hex n)

theorem choose_of {P : Bytes → Prop} {p : Prop} [Decidable p] {s t : Bytes} (hs : P s) (ht : P t) :
    P (if p then s else t) := by
  split
  · exact hs
  · exact ht

theorem tame_codeName (code : UInt32) : Tame (codeName code) := by
  unfold codeName
  repeat' apply choose_of (P := Tame)
  all_goals exact tame_ascii (by decide)

theorem tame_baseName (path : ModulePath) : Tame (baseName path.bytes) := by
  intro c hc
  refine ⟨path.legal c ?_, fun h => path.noColon (h ▸ hc)⟩
  rw [baseName, List.mem_reverse] at hc
  exact List.mem_reverse.mp ((List.takeWhile_sublist _).subset hc)

theorem tame_formatModAddr (scene : CrashScene) (addr : UInt64) : Tame (formatModAddr scene addr) := by
  unfold formatModAddr
  cases scene.moduleAt addr with
  | none => exact (tame_hex _).take _
  | some found => exact (((tame_baseName _).append (tame_ascii (by decide))).append (tame_hex _)).take _

theorem isHexDigit_of_isDigit {c : UInt8} (h : IsDigit c) : isHexDigit c = true := by
  simp only [isHexDigit, Bool.or_eq_true, Bool.and_eq_true, decide_eq_true_eq, UInt8.le_iff_toNat_le]
  exact .inl ⟨h.1, h.2⟩

theorem tame_decimal (n : ℕ) : Tame (decimal n) := by
  intro c hc
  have h := isPlain_of_isHexDigit (isHexDigit_of_isDigit (decimal_isDigit hc))
  exact ⟨le_of_isPlain h.1, h.2⟩

theorem tame_version (v : VersionText) : Tame v.bytes := by
  intro c hc
  rcases v.legal c hc with h | rfl | rfl
  · have h := isPlain_of_isHexDigit (isHexDigit_of_isDigit h)
    exact ⟨le_of_isPlain h.1, h.2⟩
  · decide
  · decide

theorem tame_moduleLine (m : Module) : Tame (moduleLine m) :=
  ((((tame_baseName m.path).append (tame_ascii (by decide))).append (tame_hex _)).append (tame_ascii (by decide))).append (tame_hex _)

theorem length_hex_le {n k : ℕ} (hk : 0 < k) (h : n < 16 ^ k) : (hex n).length ≤ k := by
  unfold hex
  split
  · exact hk
  · rw [List.length_reverse, List.length_map]
    exact (Nat.digits_length_le_iff (by decide) n).mpr h

theorem length_writeHex_le (v : UInt64) : (writeHex v).length ≤ 16 :=
  length_hex_le (by decide) (lt_of_lt_of_le v.toNat_lt (by decide))

theorem length_decimal_le {n k : ℕ} (hk : 0 < k) (h : n < 10 ^ k) : (decimal n).length ≤ k := by
  rw [decimal, List.length_map]
  exact (Nat.length_toDigits_le_iff (by decide) hk).mpr h

theorem length_decimalPadded_le {w n k : ℕ} (hk : 0 < k) (hw : w ≤ k) (h : n < 10 ^ k) : (decimalPadded w n).length ≤ k := by
  have hn := length_decimal_le hk h
  rw [decimalPadded, List.length_append, List.length_replicate]
  omega

def headerStamp (scene : CrashScene) : Bytes :=
  decimalPadded 4 scene.time.wYear.toNat ++ ascii "-" ++ decimalPadded 2 scene.time.wMonth.toNat ++ ascii "-" ++
    decimalPadded 2 scene.time.wDay.toNat ++ ascii " " ++ decimalPadded 2 scene.time.wHour.toNat ++ ascii ":" ++
    decimalPadded 2 scene.time.wMinute.toNat ++ ascii ":" ++ decimalPadded 2 scene.time.wSecond.toNat ++
    ascii " tid=" ++ decimal scene.threadId.toNat

def headerLine (scene : CrashScene) : Bytes := originHead ++ (scene.origin.text ++ 32 :: headerStamp scene)

theorem headerStamp_length_le (scene : CrashScene) : (headerStamp scene).length ≤ 50 := by
  have hword (w : ℕ) (n : UInt16) (hw : w ≤ 5) : (decimalPadded w n.toNat).length ≤ 5 :=
    length_decimalPadded_le (by decide) hw (lt_of_lt_of_le n.toNat_lt (by decide))
  have hyear := hword 4 scene.time.wYear (by decide)
  have hmonth := hword 2 scene.time.wMonth (by decide)
  have hday := hword 2 scene.time.wDay (by decide)
  have hhour := hword 2 scene.time.wHour (by decide)
  have hminute := hword 2 scene.time.wMinute (by decide)
  have hsecond := hword 2 scene.time.wSecond (by decide)
  have htid : (decimal scene.threadId.toNat).length ≤ 10 :=
    length_decimal_le (by decide) (lt_of_lt_of_le scene.threadId.toNat_lt (by decide))
  simp only [headerStamp, List.length_append, show (ascii " ").length = 1 from rfl, show (ascii "-").length = 1 from rfl,
    show (ascii ":").length = 1 from rfl, show (ascii " tid=").length = 5 from rfl]
  omega

theorem writeHeader_eq (scene : CrashScene) : writeHeader scene = headerLine scene ++ [10] := by
  have hheader : writeHeader scene = (headerLine scene ++ [10]).take 159 := by
    simp only [writeHeader, headerLine, headerStamp, List.append_assoc, List.cons_append]
    rfl
  have horigin : scene.origin.text.length ≤ 9 := by cases scene.origin <;> decide
  have hlen : (headerLine scene ++ [10]).length ≤ 159 := by
    have hstamp := headerStamp_length_le scene
    simp only [headerLine, List.length_append, List.length_cons, show originHead.length = 28 from rfl, List.length_nil]
    omega
  rw [hheader, List.take_of_length_le hlen]

def pluginLine (scene : CrashScene) : Bytes :=
  ascii "plugin " ++ scene.pluginVersion.bytes ++ ascii " f4se " ++ scene.f4seVersion.bytes

def placeLine (scene : CrashScene) (addr : UInt64) : Bytes := writeHex addr ++ ascii " " ++ formatModAddr scene addr

def accessLines (record : ExceptionRecord) : List Bytes :=
  if record.exceptionCode = 0xC0000005 ∧ 2 ≤ record.numberParameters then
    [(if record.exceptionInformation0 = 1 then ascii "write " else ascii "read ") ++ writeHex record.exceptionInformation1]
  else []

def recordLines (scene : CrashScene) (record : ExceptionRecord) : List Bytes :=
  [ascii "code " ++ codeName record.exceptionCode ++ ascii " " ++ hex record.exceptionCode.toNat,
    ascii "addr " ++ placeLine scene record.exceptionAddress] ++
    accessLines record ++ [ascii "why " ++ whyText record]

def registerLine (c : Context) : Bytes :=
  ascii "rsp " ++ writeHex c.rsp ++ ascii " rbp " ++ writeHex c.rbp ++ ascii " rax " ++ writeHex c.rax ++
    ascii " rcx " ++ writeHex c.rcx ++ ascii " rdx " ++ writeHex c.rdx

def contextLines (scene : CrashScene) : List Bytes :=
  match scene.context with
  | none => []
  | some c => [ascii "rip " ++ placeLine scene c.rip, registerLine c]

def indented (s : Bytes) : Bytes := ascii "  " ++ s

def stackLines (scene : CrashScene) : List Bytes := (scene.backTrace.take 48).map (placeLine scene)

def moduleLines (scene : CrashScene) : List Bytes :=
  match scene.modules with
  | none => []
  | some mods => (mods.take 384).map moduleLine

def moduleHeads (scene : CrashScene) : List Bytes :=
  match scene.modules with
  | none => []
  | some _ => [ascii "modules:"]

def crashLines (notes : CrashNotes) (scene : CrashScene) (record : ExceptionRecord) : List Bytes :=
  [headerLine scene, pluginLine scene] ++ recordLines scene record ++ contextLines scene ++
    ascii "notes (newest last):" :: (writtenNotes notes).map indented ++
    ascii "stack:" :: (stackLines scene).map indented ++
    moduleHeads scene ++ (moduleLines scene).map indented ++
    [ascii "minidump " ++ scene.dmpPath.bytes]

theorem unlines_append (ls ms : List Bytes) : unlines 10 (ls ++ ms) = unlines 10 ls ++ unlines 10 ms := List.flatMap_append

theorem unlines_cons (l : Bytes) (ls : List Bytes) : unlines 10 (l :: ls) = l ++ [10] ++ unlines 10 ls := List.flatMap_cons

theorem unlines_map_indented (ls : List Bytes) :
    unlines 10 (ls.map indented) = ls.flatMap fun l => ascii "  " ++ l ++ ascii "\n" := by
  rw [unlines, List.flatMap_map]
  rfl

theorem writeRecord_eq (scene : CrashScene) (record : ExceptionRecord) :
    writeRecord scene (some record) = unlines 10 (recordLines scene record) := by
  have hn : ascii "\n" = [10] := rfl
  have ha : ascii "\naddr " = 10 :: ascii "addr " := rfl
  rw [writeRecord, recordLines, unlines_append, unlines_append, accessLines, describeAddr, ← placeLine, hn, ha]
  split <;> simp [unlines]

theorem writeCrashText_eq (notes : CrashNotes) (scene : CrashScene) (record : ExceptionRecord) :
    writeCrashText notes scene (some record) = unlines 10 (crashLines notes scene record) := by
  have hn : ascii "\n" = [10] := rfl
  have hnotes : writeNotes notes = unlines 10 (ascii "notes (newest last):" :: (writtenNotes notes).map indented) := by
    rw [unlines_cons, unlines_map_indented]
    rfl
  have hstack : (ascii "stack:\n" ++ (scene.backTrace.take 48).flatMap fun frame => ascii "  " ++ describeAddr scene frame) =
      unlines 10 (ascii "stack:" :: (stackLines scene).map indented) := by
    rw [unlines_cons, unlines_map_indented, stackLines, List.flatMap_map]
    simp only [describeAddr, placeLine, List.append_assoc]
    rfl
  have hmodules : writeModules scene = unlines 10 (moduleHeads scene ++ (moduleLines scene).map indented) := by
    rw [unlines_append, unlines_map_indented, writeModules, moduleHeads, moduleLines]
    cases scene.modules with
    | none => rfl
    | some mods =>
      simp only [List.flatMap_map]
      rfl
  have hcontext : writeContext scene scene.context = unlines 10 (contextLines scene) := by
    rw [contextLines]
    cases scene.context with
    | none => rfl
    | some c => simp [writeContext, describeAddr, placeLine, registerLine, unlines, hn]
  rw [writeCrashText, writeHeader_eq, hnotes, hstack, hmodules, hcontext, crashLines]
  simp only [unlines_append, unlines_cons, writeRecord_eq, pluginLine, hn, List.append_assoc]
  simp [unlines]

end Crash
end CommonwealthMP
