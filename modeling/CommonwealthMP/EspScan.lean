import CommonwealthMP.EspRecords
import CommonwealthMP.OrderedTables
import Mathlib.Data.List.Induction

/-! # The scan of a plugin file

A plugin file is a sequence of records and of groups, and a group is a header with such a sequence
inside it. The script walks the file and keeps the type of every record and the characters. -/
namespace CommonwealthMP
open ByteLayout OrderedTables
namespace Esp

def recHdr : ℕ := 24
def flagCompressed : UInt32 := 0x00040000

structure Record where
  typ : String
  flags : UInt32
  formid : UInt32
  revision : UInt32
  version : UInt16
  unknown : UInt16
  data : Bytes
  deriving DecidableEq

structure Scan where
  types : Table UInt32 String := ∅
  npcs : List Record := []

section Walk
-- `zlib.decompress`, which may raise
variable (zlib : Bytes → Option Bytes)

def decompress (flags : UInt32) (payload : Bytes) : Option Bytes :=
  if flags &&& flagCompressed = 0 then some payload
  else if payload.length < 4 then none
  else zlib (payload.drop 4)

/-- The character that a record stores; one that does not decompress is passed over. -/
def character (stored : Record) : Option Record :=
  if stored.typ ≠ "NPC_" then none
  else (decompress zlib stored.flags stored.data).map fun data =>
    { stored with flags := stored.flags &&& ~~~flagCompressed, data := data }

/-- What the walk does with a record, given with the payload that stands in the file. -/
def Scan.add (found : Scan) (stored : Record) : Scan where
  types := found.types.insert stored.formid stored.typ
  npcs := found.npcs ++ (character zlib stored).toList

/-- The header at a position; the size is that of the payload, or of a whole group. -/
def sizeAt (data : Bytes) (pos : ℕ) : ℕ := (u32At data (pos + 4)).toNat

def storedAt (data : Bytes) (pos : ℕ) : Record where
  typ := decodeAscii (slice data pos 4)
  flags := u32At data (pos + 8)
  formid := u32At data (pos + 12)
  revision := u32At data (pos + 16)
  version := u16At data (pos + 20)
  unknown := u16At data (pos + 22)
  data := slice data (pos + recHdr) (sizeAt data pos)

/-- The calls of `walk`, by the limits of those that are open, the innermost first; a read past the end raises.
Groups may be nested to any depth here: Python's limit on nested calls is left out. -/
def walkFrom (data : Bytes) (limits : List ℕ) (pos : ℕ) (found : Scan) : Option Scan :=
  match limits with
  | [] => some found
  | limit :: limits =>
    if pos + recHdr ≤ limit then
      if pos + recHdr ≤ data.length then
        let stored := storedAt data pos
        let size := sizeAt data pos
        if stored.typ = "GRUP" then
          let groupEnd := min (pos + size) limit
          walkFrom data (groupEnd :: limit :: limits) (pos + recHdr) found
        else if pos + recHdr + size ≤ data.length then
          walkFrom data (limit :: limits) (pos + recHdr + size) (found.add zlib stored)
        else none
      else none
    else walkFrom data limits pos found
termination_by (data.length - pos, limits.length)
decreasing_by
  · exact Prod.Lex.left _ _ (by unfold recHdr at *; omega)
  · exact Prod.Lex.left _ _ (by unfold recHdr at *; omega)
  · exact Prod.Lex.right _ (by simp)

def scanEsm (data : Bytes) : Option Scan := walkFrom zlib data [data.length] 0 {}

end Walk

/-- The content of a file or of a group. -/
inductive Entries
  | done
  | record (stored : Record) (rest : Entries)
  /-- a group with the 16 bytes of its header that the walk does not look at -/
  | group (label : Bytes) (inside rest : Entries)

def recordBytes (r : Record) : Bytes :=
  ascii r.typ ++ (u32 (UInt32.ofNat r.data.length) ++ (u32 r.flags ++ (u32 r.formid ++ (u32 r.revision ++
    (u16 r.version ++ (u16 r.unknown ++ r.data))))))

def Entries.bytes : Entries → Bytes
  | .done => []
  | .record stored rest => recordBytes stored ++ rest.bytes
  | .group label inside rest =>
    ascii "GRUP" ++ (u32 (UInt32.ofNat (recHdr + inside.bytes.length)) ++ (label ++ (inside.bytes ++ rest.bytes)))

/-- The records of a file in order, whatever groups they are in. -/
def Entries.records : Entries → List Record
  | .done => []
  | .record stored rest => stored :: rest.records
  | .group _ inside rest => inside.records ++ rest.records

/-- What a record header can hold; the type of a group is not that of a record. -/
structure Storable (r : Record) : Prop where
  letters : isAscii r.typ = true
  four : r.typ.length = 4
  notGroup : r.typ ≠ "GRUP"
  fits : r.data.length < 2 ^ 32

def Entries.Fits : Entries → Prop
  | .done => True
  | .record stored rest => Storable stored ∧ rest.Fits
  | .group label inside rest => label.length = 16 ∧ recHdr + inside.bytes.length < 2 ^ 32 ∧ inside.Fits ∧ rest.Fits

theorem length_recordBytes {r : Record} (h : Storable r) : (recordBytes r).length = recHdr + r.data.length := by
  simp only [recordBytes, List.length_append, length_ascii, h.four, u32_length, u16_length, recHdr]
  omega

variable {data rest : Bytes} {pos : ℕ}

theorem u32At_drop (data : Bytes) (pos off : ℕ) : u32At data (pos + off) = u32At (data.drop pos) off := by
  simp [u32At, slice, List.drop_drop]

theorem u16At_drop (data : Bytes) (pos off : ℕ) : u16At data (pos + off) = u16At (data.drop pos) off := by
  simp [u16At, slice, List.drop_drop]

theorem sizeAt_record {r : Record} (h : Storable r) (hd : data.drop pos = recordBytes r ++ rest) :
    sizeAt data pos = r.data.length := by
  have hlength : (ascii r.typ).length = 4 := (length_ascii r.typ).trans h.four
  rw [sizeAt, u32At_drop, hd, recordBytes, List.append_assoc, u32At_skip (by rw [hlength]), hlength, Nat.sub_self,
    List.append_assoc, u32At_u32]
  exact UInt32.toNat_ofNat_of_lt' h.fits

theorem storedAt_record {r : Record} (h : Storable r) (hd : data.drop pos = recordBytes r ++ rest) : storedAt data pos = r := by
  have hlength : (ascii r.typ).length = 4 := (length_ascii r.typ).trans h.four
  have htyp : decodeAscii (slice data pos 4) = r.typ := by
    have hfront : slice data pos 4 = ascii r.typ := by
      rw [slice, hd, recordBytes, List.append_assoc, ← hlength, List.take_left]
    rw [hfront, decodeAscii_ascii h.letters]
  have hafter : slice data (pos + recHdr) (sizeAt data pos) = r.data := by
    have hrest : data.drop (pos + recHdr) = r.data ++ rest := by
      rw [← List.drop_drop, hd, recordBytes]
      simp only [← List.append_assoc]
      rw [List.append_assoc]
      refine List.drop_left' ?_
      simp only [List.length_append, hlength, u32_length, u16_length, recHdr]
    rw [slice, hrest, sizeAt_record h hd, List.take_left]
  have hflags : u32At data (pos + 8) = r.flags := by
    rw [u32At_drop, hd, recordBytes]
    simp [u32At_skip, hlength]
  have hformid : u32At data (pos + 12) = r.formid := by
    rw [u32At_drop, hd, recordBytes]
    simp [u32At_skip, hlength]
  have hrevision : u32At data (pos + 16) = r.revision := by
    rw [u32At_drop, hd, recordBytes]
    simp [u32At_skip, hlength]
  have hversion : u16At data (pos + 20) = r.version := by
    rw [u16At_drop, hd, recordBytes]
    simp [u16At_skip, hlength]
  have hunknown : u16At data (pos + 22) = r.unknown := by
    rw [u16At_drop, hd, recordBytes]
    simp [u16At_skip, hlength]
  rw [storedAt, htyp, hflags, hformid, hrevision, hversion, hunknown, hafter]

variable (zlib : Bytes → Option Bytes) {limit : ℕ} {limits : List ℕ} {found : Scan}

theorem walkFrom_leave (h : ¬ pos + recHdr ≤ limit) :
    walkFrom zlib data (limit :: limits) pos found = walkFrom zlib data limits pos found := by
  rw [walkFrom, if_neg h]

theorem walkFrom_record {r : Record} (h : Storable r) (hd : data.drop pos = recordBytes r ++ rest)
    (hin : pos + (recordBytes r).length ≤ limit) (hlimit : limit ≤ data.length) :
    walkFrom zlib data (limit :: limits) pos found =
      walkFrom zlib data (limit :: limits) (pos + (recordBytes r).length) (found.add zlib r) := by
  rw [length_recordBytes h] at hin ⊢
  rw [walkFrom, if_pos (by omega), if_pos (by omega)]
  dsimp only
  rw [storedAt_record h hd, sizeAt_record h hd, if_neg h.notGroup, if_pos (by omega), Nat.add_assoc]

theorem walkFrom_group {label inside : Bytes} (hsize : recHdr + inside.length < 2 ^ 32)
    (hd : data.drop pos = ascii "GRUP" ++ (u32 (UInt32.ofNat (recHdr + inside.length)) ++ (label ++ (inside ++ rest))))
    (hin : pos + (recHdr + inside.length) ≤ limit) (hlimit : limit ≤ data.length) :
    walkFrom zlib data (limit :: limits) pos found =
      walkFrom zlib data ((pos + (recHdr + inside.length)) :: limit :: limits) (pos + recHdr) found := by
  have htyp : (storedAt data pos).typ = "GRUP" := by
    have hfront : slice data pos 4 = ascii "GRUP" := by
      rw [slice, hd]
      exact List.take_left' (length_ascii "GRUP")
    rw [storedAt, hfront]
    exact decodeAscii_ascii (by decide)
  have hsizeAt : sizeAt data pos = recHdr + inside.length := by
    rw [sizeAt, u32At_drop, hd, u32At_skip (by decide)]
    rw [show 4 - (ascii "GRUP").length = 0 by decide, u32At_u32]
    exact UInt32.toNat_ofNat_of_lt' hsize
  rw [walkFrom, if_pos (by omega), if_pos (by omega)]
  dsimp only
  rw [if_pos htyp, hsizeAt, Nat.min_eq_left hin]

/-- The walk adds the records of what stands at its position, and goes on behind it. -/
theorem walkFrom_entries {e : Entries} (h : e.Fits) (hd : data.drop pos = e.bytes ++ rest)
    (hin : pos + e.bytes.length ≤ limit) (hlimit : limit ≤ data.length) :
    walkFrom zlib data (limit :: limits) pos found =
      walkFrom zlib data (limit :: limits) (pos + e.bytes.length) (e.records.foldl (Scan.add zlib) found) := by
  induction e generalizing pos rest limit limits found with
  | done => rfl
  | record stored tail ih =>
    obtain ⟨hstored, htail⟩ := h
    rw [Entries.bytes, List.append_assoc] at hd
    rw [Entries.bytes, List.length_append] at hin ⊢
    have hafter : data.drop (pos + (recordBytes stored).length) = tail.bytes ++ rest := by
      rw [← List.drop_drop, hd, List.drop_left]
    rw [walkFrom_record zlib hstored hd (by omega) hlimit, ih htail hafter (by omega) hlimit, Nat.add_assoc]
    rfl
  | group label inside tail ihInside ihTail =>
    obtain ⟨hlabel, hsize, hinside, htail⟩ := h
    have hd' : data.drop pos = ascii "GRUP" ++ (u32 (UInt32.ofNat (recHdr + inside.bytes.length)) ++ (label ++
        (inside.bytes ++ (tail.bytes ++ rest)))) := by
      rw [hd, Entries.bytes]
      simp only [List.append_assoc]
    have hlength : (Entries.group label inside tail).bytes.length = recHdr + inside.bytes.length + tail.bytes.length := by
      simp only [Entries.bytes, List.length_append, length_ascii, u32_length, hlabel, recHdr, show "GRUP".length = 4 from rfl]
      omega
    rw [hlength] at hin ⊢
    have hbody : data.drop (pos + recHdr) = inside.bytes ++ (tail.bytes ++ rest) := by
      rw [← List.drop_drop, hd', ← List.append_assoc, ← List.append_assoc]
      refine List.drop_left' ?_
      simp only [List.length_append, length_ascii, u32_length, hlabel, recHdr, show "GRUP".length = 4 from rfl]
    have hafter : data.drop (pos + (recHdr + inside.bytes.length)) = tail.bytes ++ rest := by
      rw [← Nat.add_assoc, ← List.drop_drop, hbody, List.drop_left]
    rw [walkFrom_group zlib hsize hd' (by omega) hlimit, ihInside hinside hbody (by omega) (by omega), Nat.add_assoc,
      walkFrom_leave zlib (by unfold recHdr; omega), ihTail htail hafter (by omega) hlimit, Entries.records, List.foldl_append]
    congr 1
    omega

/-- The scan of a file finds its records, in whatever groups they are. -/
theorem scanEsm_bytes (e : Entries) (h : e.Fits) : scanEsm zlib e.bytes = some (e.records.foldl (Scan.add zlib) {}) := by
  have hwhole : e.bytes.drop 0 = e.bytes ++ [] := by rw [List.drop_zero, List.append_nil]
  rw [scanEsm, walkFrom_entries zlib h hwhole (by omega) le_rfl, walkFrom_leave zlib (by unfold recHdr; omega), walkFrom]

theorem npcs_addAll (records : List Record) (found : Scan) :
    (records.foldl (Scan.add zlib) found).npcs = found.npcs ++ records.filterMap (character zlib) := by
  induction records generalizing found with
  | nil => exact (List.append_nil _).symm
  | cons r records ih =>
    rw [List.foldl_cons, ih, Scan.add, List.append_assoc]
    cases h : character zlib r with
    | none => rw [List.filterMap_cons_none h]; rfl
    | some npc => rw [List.filterMap_cons_some h]; rfl

theorem types_addAll (records : List Record) (found : Scan) (id : UInt32) :
    (records.foldl (Scan.add zlib) found).types.lookup id =
      (((records.filter fun r => decide (r.formid = id)).getLast?.map (·.typ)).or (found.types.lookup id)) := by
  induction records using List.reverseRecOn with
  | nil => rfl
  | append_singleton records r ih =>
    rw [List.foldl_append, List.foldl_cons, List.foldl_nil, Scan.add, Table.lookup_insert, List.filter_append]
    by_cases hid : r.formid = id
    · rw [if_pos hid.symm, List.filter_cons_of_pos (by simpa using hid), List.filter_nil, List.getLast?_append]
      rfl
    · rw [if_neg (Ne.symm hid), ih, List.filter_cons_of_neg (by simpa using hid), List.filter_nil, List.append_nil]

/-- In every plugin file the scan finds the type of each id, that of its last record, and every character that
decompresses, in the order of the file, however deep the groups are in which they stand. -/
theorem scanEsm_finds (e : Entries) (h : e.Fits) :
    ∃ found, scanEsm zlib e.bytes = some found ∧ found.npcs = e.records.filterMap (character zlib) ∧
      ∀ id, found.types.lookup id = (e.records.filter fun r => decide (r.formid = id)).getLast?.map (·.typ) := by
  refine ⟨_, scanEsm_bytes zlib e h, npcs_addAll zlib e.records {}, fun id => ?_⟩
  rw [types_addAll]
  exact Option.or_none

/-- A character in a group inside a group, one before it that does not decompress, and a record behind. -/
def nestedFile : Entries :=
  .group (List.replicate 16 0)
    (.record ⟨"NPC_", flagCompressed, 7, 0, 131, 0, [1]⟩
      (.group (List.replicate 16 1) (.record ⟨"NPC_", 0, 8, 0, 131, 0, [5, 6]⟩ .done) .done))
    (.record ⟨"WRLD", 0, 7, 0, 131, 0, []⟩ .done)

theorem scanEsm_finds_nestedFile :
    ∃ found, scanEsm (fun _ => none) nestedFile.bytes = some found ∧ found.npcs = [⟨"NPC_", 0, 8, 0, 131, 0, [5, 6]⟩] ∧
      ∀ id, found.types.lookup id = (nestedFile.records.filter fun r => decide (r.formid = id)).getLast?.map (·.typ) := by
  have hfits : nestedFile.Fits := by
    refine ⟨rfl, by decide +kernel, ⟨?_, ⟨rfl, by decide +kernel, ⟨?_, trivial⟩, trivial⟩⟩, ?_, trivial⟩ <;>
      exact ⟨by decide, by decide, by decide, by decide⟩
  obtain ⟨found, hscan, hnpcs, htypes⟩ := scanEsm_finds (fun _ => none) nestedFile hfits
  exact ⟨found, hscan, hnpcs.trans (by decide +kernel), htypes⟩

end Esp
end CommonwealthMP
