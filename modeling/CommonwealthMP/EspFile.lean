import CommonwealthMP.Binary32
import CommonwealthMP.CrashNotes
import CommonwealthMP.EspScan

/-! # The plugin file that the script writes

The file is a header record and a group with one character. The script reads it back and checks it. -/
namespace CommonwealthMP
open ByteLayout OrderedTables Binary32
namespace Esp

def localFormId : UInt32 := 0x800
def fo4Version : UInt16 := 131
/-- 1.0 -/
def hedrVersion : UInt32 := 0x3F800000

/-- `rec` -/
def packRecord (typ : String) (flags formid : UInt32) (version : UInt16) (data : Bytes) : Option Bytes := do
  let name ← encodeAscii typ
  let length ← packU32 data.length
  return name ++ (length ++ (u32 flags ++ (u32 formid ++ (u32 0 ++ (u16 version ++ (u16 0 ++ data))))))

/-- `sub` -/
def packSub (typ : String) (payload : Bytes) : Option Bytes := do
  let name ← encodeAscii typ
  let length ← packU16 payload.length
  return name ++ length ++ payload

/-- `:08X` -/
def hex8 (v : UInt32) : Bytes := (List.range 8).reverse.map fun k => Crash.hexDigit (v.toNat / 16 ^ k % 16)

example : hex8 0x1D323 = ascii "0001D323" := by decide

def sourceNote (srcId : UInt32) : Bytes := ascii "CMP_RemotePlayer copied from Fallout4.esm " ++ hex8 srcId ++ [0]

def tes4Subs (srcId : UInt32) : List Subrecord :=
  [("HEDR", u32 hedrVersion ++ u32 1 ++ u32 (localFormId + 1)), ("CNAM", ascii "CommonwealthMP" ++ [0]),
    ("SNAM", sourceNote srcId), ("MAST", ascii "Fallout4.esm" ++ [0]), ("DATA", leBytes 8 0), ("INTV", u32 1)]

/-- The 16 bytes of the group header behind its size. -/
def grupLabel : Bytes := ascii "NPC_" ++ (u32 0 ++ (u16 0 ++ (u16 0 ++ (u16 fo4Version ++ u16 0))))

/-- The bytes that `write_esp` writes; a length that does not fit its field raises. -/
def writeEsp (npcData : Bytes) (srcId : UInt32) : Option Bytes := do
  let tes4Data ← (tes4Subs srcId).mapM fun sub => packSub sub.1 sub.2
  let tes4 ← packRecord "TES4" 0 0 fo4Version tes4Data.flatten
  let npc ← packRecord "NPC_" 0 newFormId fo4Version npcData
  let grupSize ← packU32 (recHdr + npc.length)
  return tes4 ++ (ascii "GRUP" ++ (grupSize ++ (grupLabel ++ npc)))

/-- `bytes.find` from a position -/
def findFrom (pattern data : Bytes) (start : ℕ) : Option ℕ :=
  (List.range (data.length + 1 - pattern.length)).find? fun i => start ≤ i && slice data i pattern.length == pattern

/-- One, in units of the smallest subnormal word. -/
def oneUnits : ℕ := 2 ^ 149

/-- `abs(x - 1.0) > 0.01`; 0.01 is the double `5764607523034235 * 2 ^ (-59)`, and the difference is exact where it is near. -/
def offVersion : Value → Bool
  | .nan => false
  | .inf _ => true
  | .finite neg magnitude => decide (5764607523034235 * oneUnits < (signed neg magnitude - oneUnits).natAbs * 2 ^ 59)

inductive EspFault
  | noTes4
  | hedr
  | noNpc
  | npc (fault : NpcFault)
  deriving DecidableEq

/-- `verify_esp`: the fault that it reports, if any; a read past the end raises. -/
def verifyEsp (data : Bytes) : Option (Option EspFault) :=
  if slice data 0 4 ≠ ascii "TES4" then some (some .noTes4)
  else
    (unpackU32 data 4).bind fun tes4Size =>
      (parseSubrecords (slice data recHdr tes4Size.toNat)).bind fun tes4 =>
        let hedr := ((tes4.find? fun sub => decide (sub.1 = "HEDR")).map (·.2)).getD []
        if hedr.length < 4 ∨ offVersion (value ⟨u32At hedr 0⟩) = true then some (some .hedr)
        else
          match findFrom (ascii "NPC_") data (recHdr + tes4Size.toNat + recHdr) with
          | none => some (some .noNpc)
          | some npcAt =>
            (unpackU32 data (npcAt + 4)).bind fun size =>
              (unpackU32 data (npcAt + 12)).bind fun formid =>
                (parseSubrecords (slice data (npcAt + recHdr) size.toNat)).bind fun subs =>
                  some ((verifyNpc formid subs).map .npc)

theorem length_sourceNote (srcId : UInt32) : (sourceNote srcId).length = 51 := by
  have htext : (ascii "CMP_RemotePlayer copied from Fallout4.esm ").length = 42 := by decide
  rw [sourceNote, List.length_append, List.length_append, htext, hex8, List.length_map, List.length_reverse, List.length_range]
  rfl

theorem codable_tes4Subs (srcId : UInt32) : ∀ sub ∈ tes4Subs srcId, Codable sub ∧ sub.2.length ≤ 0xFFFF := by
  have hnote : (sourceNote srcId).length < 2 ^ 32 ∧ (sourceNote srcId).length ≤ 0xFFFF := by
    rw [length_sourceNote]
    decide
  simp only [tes4Subs, List.forall_mem_cons]
  refine ⟨?_, ?_, ⟨⟨show IsType "SNAM" by decide, hnote.1⟩, hnote.2⟩, ?_, ?_, ?_, fun _ h => absurd h List.not_mem_nil⟩ <;>
    exact ⟨⟨by decide, by decide⟩, by decide⟩

theorem packSub_eq {sub : Subrecord} (h : Codable sub) (hs : sub.2.length ≤ 0xFFFF) : packSub sub.1 sub.2 = buildSubrecord sub := by
  have hpack : packU16 sub.2.length = some (u16 (UInt16.ofNat sub.2.length)) := if_pos (by omega)
  rw [buildSubrecord_short h hs, packSub, encodeAscii_eq h.isType.letters, hpack]
  rfl

theorem mapM_packSub {subs : List Subrecord} (h : ∀ sub ∈ subs, Codable sub ∧ sub.2.length ≤ 0xFFFF) :
    (subs.mapM fun sub => packSub sub.1 sub.2) = subs.mapM buildSubrecord := by
  induction subs with
  | nil => rfl
  | cons sub subs ih =>
    obtain ⟨hcodable, hs⟩ := h sub List.mem_cons_self
    rw [List.mapM_cons, List.mapM_cons, packSub_eq hcodable hs, ih fun sub' hsub => h sub' (List.mem_cons_of_mem _ hsub)]

theorem tes4_readBack (srcId : UInt32) : ∃ chunks, ((tes4Subs srcId).mapM fun sub => packSub sub.1 sub.2) = some chunks ∧
    parseSubrecords chunks.flatten = some (tes4Subs srcId) := by
  obtain ⟨data, hbuild, hparse⟩ := parseSubrecords_built fun sub hsub => (codable_tes4Subs srcId sub hsub).1
  obtain ⟨chunks, hchunks, rfl⟩ := Option.map_eq_some_iff.mp hbuild
  exact ⟨chunks, (mapM_packSub (codable_tes4Subs srcId)).trans hchunks, hparse⟩

theorem length_built {subs : List Subrecord} (h : ∀ sub ∈ subs, Codable sub ∧ sub.2.length ≤ 0xFFFF) {chunks : List Bytes}
    (hbuild : subs.mapM buildSubrecord = some chunks) : chunks.flatten.length = (subs.map fun sub => 6 + sub.2.length).sum := by
  induction subs generalizing chunks with
  | nil =>
    cases hbuild
    rfl
  | cons sub subs ih =>
    obtain ⟨hcodable, hs⟩ := h sub List.mem_cons_self
    rw [List.mapM_cons, buildSubrecord_short hcodable hs] at hbuild
    obtain ⟨chunk, hchunk, hmore⟩ := Option.bind_eq_some_iff.mp hbuild
    cases hchunk
    obtain ⟨chunks', hrest, heq⟩ := Option.bind_eq_some_iff.mp hmore
    cases heq
    rw [List.flatten_cons, List.length_append, ih (fun sub' hsub => h sub' (List.mem_cons_of_mem _ hsub)) hrest, List.map_cons,
      List.sum_cons]
    simp only [List.length_append, length_ascii, hcodable.isType.four, u16_length]

def tes4Record (data : Bytes) : Record := ⟨"TES4", 0, 0, 0, fo4Version, 0, data⟩

def npcRecord (data : Bytes) : Record := ⟨"NPC_", 0, newFormId, 0, fo4Version, 0, data⟩

def espEntries (tes4Data npcData : Bytes) : Entries :=
  .record (tes4Record tes4Data) (.group grupLabel (.record (npcRecord npcData) .done) .done)

theorem packRecord_eq {r : Record} (h : Storable r) (hrevision : r.revision = 0) (hunknown : r.unknown = 0) :
    packRecord r.typ r.flags r.formid r.version r.data = some (recordBytes r) := by
  have hpack : packU32 r.data.length = some (u32 (UInt32.ofNat r.data.length)) := if_pos h.fits
  rw [packRecord, encodeAscii_eq h.letters, hpack, recordBytes, hrevision, hunknown]
  rfl

theorem storable_npcRecord {data : Bytes} (h : data.length < 2 ^ 32) : Storable (npcRecord data) :=
  ⟨show isAscii "NPC_" = true by decide, show "NPC_".length = 4 from rfl, show "NPC_" ≠ "GRUP" by decide, h⟩

theorem storable_tes4Record {data : Bytes} (h : data.length < 2 ^ 32) : Storable (tes4Record data) :=
  ⟨show isAscii "TES4" = true by decide, show "TES4".length = 4 from rfl, show "TES4" ≠ "GRUP" by decide, h⟩

/-- What is written is a header record and a group with one character. -/
theorem writeEsp_eq (npcData : Bytes) (srcId : UInt32) :
    ∃ tes4Data, parseSubrecords tes4Data = some (tes4Subs srcId) ∧ tes4Data.length < 2 ^ 32 ∧
      writeEsp npcData srcId =
        if 2 * recHdr + npcData.length < 2 ^ 32 then some (espEntries tes4Data npcData).bytes else none := by
  obtain ⟨chunks, hchunks, hparse⟩ := tes4_readBack srcId
  have hlength : chunks.flatten.length < 2 ^ 32 := by
    rw [length_built (codable_tes4Subs srcId) ((mapM_packSub (codable_tes4Subs srcId)).symm.trans hchunks)]
    simp [tes4Subs, length_sourceNote, ascii]
  refine ⟨chunks.flatten, hparse, hlength, ?_⟩
  have htes4 : packRecord "TES4" 0 0 fo4Version chunks.flatten = some (recordBytes (tes4Record chunks.flatten)) :=
    packRecord_eq (storable_tes4Record hlength) rfl rfl
  simp only [writeEsp, hchunks, htes4, Option.bind_eq_bind, Option.bind_some]
  by_cases hfits : npcData.length < 2 ^ 32
  · have hnpc : packRecord "NPC_" 0 newFormId fo4Version npcData = some (recordBytes (npcRecord npcData)) :=
      packRecord_eq (storable_npcRecord hfits) rfl rfl
    have hsize : recHdr + (recordBytes (npcRecord npcData)).length = 2 * recHdr + npcData.length := by
      rw [length_recordBytes (storable_npcRecord hfits)]
      show recHdr + (recHdr + npcData.length) = _
      omega
    rw [hnpc, Option.bind_some, packU32, hsize]
    by_cases hgroup : 2 * recHdr + npcData.length < 2 ^ 32
    · rw [if_pos hgroup, if_pos hgroup, Option.bind_some]
      simp only [espEntries, Entries.bytes, hsize, List.append_nil]
      rfl
    · rw [if_neg hgroup, if_neg hgroup, Option.bind_none]
  · have hnpc : packRecord "NPC_" 0 newFormId fo4Version npcData = none := by
      have hpack : packU32 npcData.length = none := if_neg hfits
      rw [packRecord, hpack]
      rfl
    rw [hnpc, if_neg (by omega), Option.bind_none]

theorem fits_espEntries {tes4Data npcData : Bytes} (htes4 : tes4Data.length < 2 ^ 32)
    (hnpc : 2 * recHdr + npcData.length < 2 ^ 32) : (espEntries tes4Data npcData).Fits := by
  have hstored : Storable (npcRecord npcData) := storable_npcRecord (by omega)
  refine ⟨storable_tes4Record htes4, by decide, ?_, ⟨hstored, trivial⟩, trivial⟩
  simp only [Entries.bytes, List.append_nil, length_recordBytes hstored]
  show recHdr + (recHdr + npcData.length) < 2 ^ 32
  omega

theorem findFrom_here {pattern data : Bytes} {start : ℕ} (hin : start + pattern.length ≤ data.length)
    (hs : slice data start pattern.length = pattern) : findFrom pattern data start = some start := by
  rw [findFrom, List.find?_range_eq_some]
  refine ⟨by simp [hs], by rw [List.mem_range]; omega, fun j hj => ?_⟩
  simp [Nat.not_le.mpr hj]

/-- What is written passes the check if its character does. -/
theorem verifyEsp_written {tes4Data npcData : Bytes} {srcId : UInt32} (hparse : parseSubrecords tes4Data = some (tes4Subs srcId))
    (htes4 : tes4Data.length < 2 ^ 32) (hnpc : 2 * recHdr + npcData.length < 2 ^ 32) :
    verifyEsp (espEntries tes4Data npcData).bytes =
      (parseSubrecords npcData).map fun subs => (verifyNpc newFormId subs).map .npc := by
  have hstored : Storable (npcRecord npcData) := storable_npcRecord (by omega)
  have hheader : Storable (tes4Record tes4Data) := storable_tes4Record htes4
  generalize hdata : (espEntries tes4Data npcData).bytes = data
  obtain ⟨grup, hgrup, hwhole⟩ : ∃ grup, grup.length = recHdr ∧
      data.drop 0 = recordBytes (tes4Record tes4Data) ++ (grup ++ (recordBytes (npcRecord npcData) ++ [])) := by
    refine ⟨ascii "GRUP" ++ (u32 (UInt32.ofNat (recHdr + (recordBytes (npcRecord npcData) ++ []).length)) ++ grupLabel), ?_, ?_⟩
    · simp only [List.length_append, u32_length]
      decide
    · rw [List.drop_zero, ← hdata, espEntries]
      simp only [Entries.bytes, List.append_assoc, List.append_nil]
  have htes4At : (recordBytes (tes4Record tes4Data)).length = recHdr + tes4Data.length := length_recordBytes hheader
  have hnpcAt : data.drop (recHdr + tes4Data.length + recHdr) = recordBytes (npcRecord npcData) ++ [] := by
    have hgrupAt : data.drop (0 + (recHdr + tes4Data.length)) = grup ++ (recordBytes (npcRecord npcData) ++ []) := by
      rw [← List.drop_drop, hwhole, ← htes4At, List.drop_left]
    rw [← List.drop_drop, ← Nat.zero_add (recHdr + tes4Data.length), hgrupAt, ← hgrup, List.drop_left]
  have hlength : data.length = recHdr + tes4Data.length + recHdr + (recHdr + npcData.length) := by
    have hsum := congrArg List.length hwhole
    simp only [List.drop_zero, List.length_append, htes4At, hgrup, length_recordBytes hstored, List.length_nil] at hsum
    rw [hsum]
    show recHdr + tes4Data.length + (recHdr + (recHdr + npcData.length + 0)) = _
    omega
  have hrecHdr : recHdr = 24 := rfl
  have hmagic : slice data 0 4 = ascii "TES4" := by
    rw [slice, hwhole, recordBytes, List.append_assoc]
    exact List.take_left' (length_ascii "TES4")
  have hsize : unpackU32 data 4 = some (UInt32.ofNat tes4Data.length) := by
    have hread := sizeAt_record hheader hwhole
    rw [unpackU32, if_pos (by omega)]
    exact congrArg some (UInt32.toNat_inj.mp (hread.trans (UInt32.toNat_ofNat_of_lt' htes4).symm))
  have htes4Data : slice data recHdr (UInt32.ofNat tes4Data.length).toNat = tes4Data := by
    have hstand := congrArg Record.data (storedAt_record hheader hwhole)
    rw [storedAt, sizeAt_record hheader hwhole, Nat.zero_add] at hstand
    rw [UInt32.toNat_ofNat_of_lt' htes4]
    exact hstand
  have hhedr : ((tes4Subs srcId).find? fun sub => decide (sub.1 = "HEDR")).map (·.2) =
      some (u32 hedrVersion ++ u32 1 ++ u32 (localFormId + 1)) := rfl
  have hversion : ¬ ((u32 hedrVersion ++ u32 1 ++ u32 (localFormId + 1)).length < 4 ∨
      offVersion (value ⟨u32At (u32 hedrVersion ++ u32 1 ++ u32 (localFormId + 1)) 0⟩) = true) := by decide +kernel
  have hfound : findFrom (ascii "NPC_") data (recHdr + (UInt32.ofNat tes4Data.length).toNat + recHdr) =
      some (recHdr + tes4Data.length + recHdr) := by
    rw [UInt32.toNat_ofNat_of_lt' htes4]
    refine findFrom_here ?_ ?_
    · have hpattern : (ascii "NPC_").length = 4 := length_ascii "NPC_"
      omega
    · rw [slice, hnpcAt, recordBytes, List.append_assoc]
      exact List.take_left' (length_ascii "NPC_")
  have hnpcSize : unpackU32 data (recHdr + tes4Data.length + recHdr + 4) = some (UInt32.ofNat npcData.length) := by
    have hread := sizeAt_record hstored hnpcAt
    rw [unpackU32, if_pos (by omega)]
    exact congrArg some (UInt32.toNat_inj.mp (hread.trans (UInt32.toNat_ofNat_of_lt' hstored.fits).symm))
  have hnpcForm : unpackU32 data (recHdr + tes4Data.length + recHdr + 12) = some newFormId := by
    rw [unpackU32, if_pos (by omega)]
    exact congrArg some (congrArg Record.formid (storedAt_record hstored hnpcAt))
  have hnpcData : slice data (recHdr + tes4Data.length + recHdr + recHdr) (UInt32.ofNat npcData.length).toNat = npcData := by
    have hstand := congrArg Record.data (storedAt_record hstored hnpcAt)
    rw [storedAt, sizeAt_record hstored hnpcAt] at hstand
    rw [UInt32.toNat_ofNat_of_lt' (show npcData.length < 2 ^ 32 from hstored.fits)]
    exact hstand
  rw [verifyEsp, if_neg (not_not.mpr hmagic), hsize, Option.bind_some, htes4Data, hparse, Option.bind_some]
  dsimp only
  rw [hhedr, Option.getD_some, if_neg hversion, hfound]
  dsimp only
  rw [hnpcSize, Option.bind_some, hnpcForm, Option.bind_some, hnpcData]
  cases parseSubrecords npcData <;> rfl

theorem character_tes4Record (zlib : Bytes → Option Bytes) (data : Bytes) : character zlib (tes4Record data) = none :=
  if_pos (show "TES4" ≠ "NPC_" by decide)

theorem character_npcRecord (zlib : Bytes → Option Bytes) (data : Bytes) :
    character zlib (npcRecord data) = some (npcRecord data) := by
  have hplain : decompress zlib 0 data = some data := if_pos (by decide)
  have hflags : (0 : UInt32) &&& ~~~flagCompressed = 0 := by decide
  rw [character, if_neg (not_not.mpr (show (npcRecord data).typ = "NPC_" from rfl))]
  show (decompress zlib 0 data).map _ = _
  rw [hplain, Option.map_some, npcRecord, hflags]

/-- A file that is written passes the check if its character does, and is scanned back as that character. -/
theorem written_file (zlib : Bytes → Option Bytes) {copy file : Bytes} {subs : List Subrecord} {srcId : UInt32}
    (hparse : parseSubrecords copy = some subs) (hfile : writeEsp copy srcId = some file) :
    verifyEsp file = some ((verifyNpc newFormId subs).map .npc) ∧
      scanEsm zlib file =
        some { types := ((∅ : Table UInt32 String).insert 0 "TES4").insert newFormId "NPC_", npcs := [npcRecord copy] } := by
  obtain ⟨tes4Data, htes4, hsmall, hwrite⟩ := writeEsp_eq copy srcId
  rw [hwrite] at hfile
  split at hfile
  · rename_i hfits
    cases hfile
    refine ⟨?_, ?_⟩
    · rw [verifyEsp_written htes4 hsmall hfits, hparse, Option.map_some]
    · rw [scanEsm_bytes zlib _ (fits_espEntries hsmall hfits)]
      simp only [espEntries, Entries.records, List.nil_append, List.append_nil, List.foldl_cons, List.foldl_nil, Scan.add,
        character_tes4Record, character_npcRecord]
      rfl
  · cases hfile

/-- For every record of the game and every id: its copy is read back as the list that was meant, the file is written if
its sizes fit their fields, passes the script's check except for a source whose race is zero, and is scanned back as
one character with the new id. -/
theorem copy_written (zlib : Bytes → Option Bytes) (source : Bytes) (subs : List Subrecord) (h : parseSubrecords source = some subs)
    (srcId : UInt32) :
    ∃ copy, rewriteNpc source = some copy ∧ parseSubrecords copy = some (rewriteSubs subs) ∧
      ((writeEsp copy srcId).isSome = decide (2 * recHdr + copy.length < 2 ^ 32)) ∧
      ∀ file, writeEsp copy srcId = some file →
        verifyEsp file = some (if hasSub subs "RNAM" ∧ rnamOf subs = 0 then some (.npc .noRace) else none) ∧
        scanEsm zlib file =
          some { types := ((∅ : Table UInt32 String).insert 0 "TES4").insert newFormId "NPC_", npcs := [npcRecord copy] } := by
  obtain ⟨hback, hcheck⟩ := rewriteNpc_readBack h
  obtain ⟨copy, hcopy, hparse⟩ := Option.bind_eq_some_iff.mp hback
  obtain ⟨tes4Data, -, -, hwrite⟩ := writeEsp_eq copy srcId
  refine ⟨copy, hcopy, hparse, ?_, fun file hfile => ?_⟩
  · rw [hwrite]
    by_cases hfits : 2 * recHdr + copy.length < 2 ^ 32
    · rw [if_pos hfits, decide_eq_true hfits, Option.isSome_some]
    · rw [if_neg hfits, decide_eq_false hfits, Option.isSome_none]
  · obtain ⟨hverify, hscan⟩ := written_file zlib hparse hfile
    refine ⟨?_, hscan⟩
    rw [hverify, hcheck]
    split <;> rfl

def settlerSubs : List Subrecord :=
  [("EDID", ascii "SettlerMale" ++ [0]), ("ACBS", u32 0x80), ("RNAM", u32 defaultHumanRace), ("MSDV", [1, 2])]

def settlerData : Bytes := ((settlerSubs.mapM buildSubrecord).map List.flatten).getD []

theorem parse_settlerData : parseSubrecords settlerData = some settlerSubs := by
  have hcodable : ∀ sub ∈ settlerSubs, Codable sub := by
    simp only [settlerSubs, List.forall_mem_cons]
    refine ⟨⟨by decide, by decide⟩, ⟨by decide, by decide⟩, ⟨by decide, by decide⟩, ⟨by decide, by decide⟩,
      fun _ h => absurd h List.not_mem_nil⟩
  obtain ⟨data, hbuild, hparse⟩ := parseSubrecords_built hcodable
  have hdata : settlerData = data := by
    rw [settlerData]
    exact congrArg (Option.getD · []) hbuild
  rw [hdata, hparse]

theorem copy_written_settler :
    ∃ copy, rewriteNpc settlerData = some copy ∧ parseSubrecords copy = some (rewriteSubs settlerSubs) ∧
      ((writeEsp copy 0x1D323).isSome = decide (2 * recHdr + copy.length < 2 ^ 32)) ∧
      ∀ file, writeEsp copy 0x1D323 = some file →
        verifyEsp file = some (if hasSub settlerSubs "RNAM" ∧ rnamOf settlerSubs = 0 then some (.npc .noRace) else none) ∧
        scanEsm (fun _ => none) file =
          some { types := ((∅ : Table UInt32 String).insert 0 "TES4").insert newFormId "NPC_", npcs := [npcRecord copy] } :=
  copy_written (fun _ => none) settlerData settlerSubs parse_settlerData 0x1D323

end Esp
end CommonwealthMP
