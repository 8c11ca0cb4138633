import CommonwealthMP.ByteLayout

/-! # Subrecords of the game plugin

The record that the script copies is a list of typed payloads. A payload too long for its 16-bit length is
announced by an `XXXX` subrecord that holds the length. -/
namespace CommonwealthMP
open ByteLayout
namespace Esp

/-- `str.isascii()` -/
def isAscii (text : String) : Bool := text.toList.all fun c => decide (c.toNat < 128)

/-- `str.encode("ascii")`; a letter outside ASCII raises. -/
def encodeAscii (text : String) : Option Bytes := if isAscii text then some (ascii text) else none

/-- `bytes.decode("ascii", "replace")` -/
def decodeAscii (bytes : Bytes) : String :=
  String.ofList (bytes.map fun b => if b < 128 then Char.ofNat b.toNat else Char.ofNat 0xFFFD)

/-- `struct.pack("<H", n)`; a number that is too large raises. -/
def packU16 (n : ℕ) : Option Bytes := if n < 2 ^ 16 then some (u16 (UInt16.ofNat n)) else none

/-- `struct.pack("<I", n)` -/
def packU32 (n : ℕ) : Option Bytes := if n < 2 ^ 32 then some (u32 (UInt32.ofNat n)) else none

/-- `u32`; a field that goes past the end raises. -/
def unpackU32 (b : Bytes) (o : ℕ) : Option UInt32 := if o + 4 ≤ b.length then some (u32At b o) else none

abbrev Subrecord := String × Bytes

/-- The loop of `parse_subrecords`. -/
def parseFrom (data : Bytes) (i : ℕ) (pendingXxxx : Option ℕ) (out : List Subrecord) : Option (List Subrecord) :=
  if i + 6 ≤ data.length then
    let typ := decodeAscii (slice data i 4)
    let size := (u16At data (i + 4)).toNat
    if typ = "XXXX" then
      (unpackU32 data (i + 6)).bind fun pending => parseFrom data (i + 6 + size) (some pending.toNat) out
    else
      let size := pendingXxxx.getD size
      parseFrom data (i + 6 + size) none (out ++ [(typ, slice data (i + 6) size)])
  else some out
termination_by data.length - i

def parseSubrecords (data : Bytes) : Option (List Subrecord) := parseFrom data 0 none []

/-- What `build_subrecords` appends for a subrecord. -/
def buildSubrecord (sub : Subrecord) : Option Bytes := do
  let payload := sub.2
  if 0xFFFF < payload.length then
    let length ← packU32 payload.length
    let typ ← encodeAscii sub.1
    return ascii "XXXX" ++ u16 4 ++ length ++ (typ ++ u16 0 ++ payload)
  else
    let typ ← encodeAscii sub.1
    let length ← packU16 payload.length
    return typ ++ length ++ payload

def buildSubrecords (subs : List Subrecord) : Option Bytes := (subs.mapM buildSubrecord).map List.flatten

/-- A type of four ASCII letters that is not the mark of a length. -/
structure IsType (typ : String) : Prop where
  letters : isAscii typ = true
  four : typ.length = 4
  notXxxx : typ ≠ "XXXX"

/-- What the format can hold. -/
structure Codable (sub : Subrecord) : Prop where
  isType : IsType sub.1
  fits : sub.2.length < 2 ^ 32

theorem decodeAscii_ascii {text : String} (h : isAscii text = true) : decodeAscii (ascii text) = text := by
  have hletter : ∀ c ∈ text.toList, (if UInt8.ofNat c.toNat < 128 then Char.ofNat (UInt8.ofNat c.toNat).toNat
      else Char.ofNat 0xFFFD) = c := by
    intro c hc
    have hlt : c.toNat < 128 := of_decide_eq_true (List.all_eq_true.mp h c hc)
    have hbyte : (UInt8.ofNat c.toNat).toNat = c.toNat := UInt8.toNat_ofNat_of_lt' (hlt.trans (by decide))
    rw [if_pos (UInt8.lt_iff_toNat_lt.mpr (by rw [hbyte]; exact hlt)), hbyte, Char.ofNat_toNat]
  rw [decodeAscii, ascii, List.map_map]
  conv_rhs => rw [← String.ofList_toList (s := text), ← List.map_id text.toList]
  exact congrArg String.ofList (List.map_congr_left hletter)

theorem length_ascii (text : String) : (ascii text).length = text.length := by
  rw [ascii, List.length_map, String.length_toList]

theorem encodeAscii_eq {text : String} (h : isAscii text = true) : encodeAscii text = some (ascii text) := if_pos h

section Header
variable {data rest : Bytes} {i : ℕ} {typ : String} {size : UInt16}

/-- The type, the length and what follows them are read back where they stand. -/
structure HeaderAt (data : Bytes) (i : ℕ) (typ : String) (size : UInt16) (rest : Bytes) : Prop where
  inside : i + 6 ≤ data.length
  typ : decodeAscii (slice data i 4) = typ
  size : u16At data (i + 4) = size
  rest : data.drop (i + 6) = rest

theorem headerAt_of_drop (hletters : isAscii typ = true) (hfour : typ.length = 4)
    (h : data.drop i = ascii typ ++ (u16 size ++ rest)) : HeaderAt data i typ size rest := by
  have hlength : (ascii typ).length = 4 := (length_ascii typ).trans hfour
  have hafter : data.drop (i + 4) = u16 size ++ rest := by
    rw [← List.drop_drop, h, ← hlength, List.drop_left]
  refine ⟨?_, ?_, ?_, ?_⟩
  · have hsum := congrArg List.length h
    simp only [List.length_drop, List.length_append, hlength, u16_length] at hsum
    omega
  · rw [slice, h, ← hlength, List.take_left, decodeAscii_ascii hletters]
  · have hfield : u16At data (i + 4) = u16At (u16 size ++ rest) 0 := by
      rw [u16At, u16At, slice, slice, hafter, List.drop_zero]
    rw [hfield, u16At_u16]
  · rw [show i + 6 = i + 4 + 2 from rfl, ← List.drop_drop, hafter]
    exact List.drop_left' (u16_length size)

end Header

variable {data rest : Bytes} {i : ℕ} {out : List Subrecord}

theorem parseFrom_end (h : data.drop i = []) : parseFrom data i none out = some out := by
  have hlength : data.length ≤ i := List.drop_eq_nil_iff.mp h
  rw [parseFrom, if_neg (by omega)]

/-- An ordinary header takes the payload whose length is pending, or its own. -/
theorem parseFrom_entry {typ : String} {size : UInt16} {payload : Bytes} {pendingXxxx : Option ℕ} (htyp : IsType typ)
    (hsize : pendingXxxx.getD size.toNat = payload.length)
    (h : data.drop i = ascii typ ++ (u16 size ++ (payload ++ rest))) :
    parseFrom data i pendingXxxx out = parseFrom data (i + 6 + payload.length) none (out ++ [(typ, payload)]) := by
  have hheader := headerAt_of_drop htyp.letters htyp.four h
  have hpayload : slice data (i + 6) payload.length = payload := by rw [slice, hheader.rest, List.take_left]
  rw [parseFrom, if_pos hheader.inside]
  dsimp only
  rw [hheader.typ, hheader.size, if_neg htyp.notXxxx, hsize, hpayload]

/-- The mark of a length leaves the length pending. -/
theorem parseFrom_extension {pendingXxxx : Option ℕ} {n : UInt32}
    (h : data.drop i = ascii "XXXX" ++ (u16 4 ++ (u32 n ++ rest))) :
    parseFrom data i pendingXxxx out = parseFrom data (i + 10) (some n.toNat) out := by
  have hheader := headerAt_of_drop (by decide) (by decide) h
  have hinside : i + 6 + 4 ≤ data.length := by
    have hsum := congrArg List.length hheader.rest
    simp only [List.length_drop, List.length_append, u32_length] at hsum
    omega
  have hfield : u32At data (i + 6) = n := by
    have hsame : u32At data (i + 6) = u32At (u32 n ++ rest) 0 := by
      rw [u32At, u32At, slice, slice, hheader.rest, List.drop_zero]
    rw [hsame, u32At_u32]
  rw [parseFrom, if_pos hheader.inside]
  dsimp only
  rw [hheader.typ, hheader.size, if_pos rfl, unpackU32, if_pos hinside, hfield, Option.bind_some]
  rfl

theorem buildSubrecord_short {sub : Subrecord} (h : Codable sub) (hs : sub.2.length ≤ 0xFFFF) :
    buildSubrecord sub = some (ascii sub.1 ++ u16 (UInt16.ofNat sub.2.length) ++ sub.2) := by
  have hpack : packU16 sub.2.length = some (u16 (UInt16.ofNat sub.2.length)) := if_pos (by omega)
  rw [buildSubrecord, if_neg (by omega), encodeAscii_eq h.isType.letters, hpack]
  rfl

theorem buildSubrecord_long {sub : Subrecord} (h : Codable sub) (hl : 0xFFFF < sub.2.length) :
    buildSubrecord sub = some (ascii "XXXX" ++ u16 4 ++ u32 (UInt32.ofNat sub.2.length) ++
      (ascii sub.1 ++ u16 0 ++ sub.2)) := by
  have hpack : packU32 sub.2.length = some (u32 (UInt32.ofNat sub.2.length)) := if_pos h.fits
  rw [buildSubrecord, if_pos hl, encodeAscii_eq h.isType.letters, hpack]
  rfl

/-- The loop reads back what one subrecord was written as. -/
theorem parseFrom_subrecord {sub : Subrecord} (h : Codable sub) : ∃ chunk, buildSubrecord sub = some chunk ∧
    ∀ {data rest : Bytes} {i : ℕ} {out : List Subrecord}, data.drop i = chunk ++ rest →
      parseFrom data i none out = parseFrom data (i + chunk.length) none (out ++ [sub]) := by
  by_cases hs : sub.2.length ≤ 0xFFFF
  · refine ⟨_, buildSubrecord_short h hs, fun {data rest i out} hdata => ?_⟩
    have hsize : (none : Option ℕ).getD (UInt16.ofNat sub.2.length).toNat = sub.2.length :=
      UInt16.toNat_ofNat_of_lt' (Nat.lt_succ_of_le hs)
    have hentry : data.drop i = ascii sub.1 ++ (u16 (UInt16.ofNat sub.2.length) ++ (sub.2 ++ rest)) := by
      rw [hdata]
      simp only [List.append_assoc]
    rw [parseFrom_entry h.isType hsize hentry]
    congr 1
    simp only [List.length_append, length_ascii, h.isType.four, u16_length]
    omega
  · have hl := Nat.lt_of_not_le hs
    refine ⟨_, buildSubrecord_long h hl, fun {data rest i out} hdata => ?_⟩
    have hsize : (UInt32.ofNat sub.2.length).toNat = sub.2.length := UInt32.toNat_ofNat_of_lt' h.fits
    have hmark : data.drop i = ascii "XXXX" ++ (u16 4 ++ (u32 (UInt32.ofNat sub.2.length) ++
        (ascii sub.1 ++ (u16 0 ++ (sub.2 ++ rest))))) := by
      rw [hdata]
      simp only [List.append_assoc]
    have hafter : data.drop (i + 10) = ascii sub.1 ++ (u16 0 ++ (sub.2 ++ rest)) := by
      rw [← List.drop_drop, hmark, ← List.append_assoc, ← List.append_assoc]
      exact List.drop_left' rfl
    rw [parseFrom_extension hmark, parseFrom_entry h.isType (by rw [Option.getD_some, hsize]) hafter]
    congr 1
    simp only [List.length_append, length_ascii, h.isType.four, u16_length, u32_length, show "XXXX".length = 4 from rfl]
    omega

/-- The loop reads back what a list was written as, whatever was read before it. -/
theorem parseFrom_subrecords {subs : List Subrecord} (h : ∀ sub ∈ subs, Codable sub) :
    ∃ chunks, subs.mapM buildSubrecord = some chunks ∧
      ∀ {data rest : Bytes} {i : ℕ} {out : List Subrecord}, data.drop i = chunks.flatten ++ rest →
        parseFrom data i none out = parseFrom data (i + chunks.flatten.length) none (out ++ subs) := by
  induction subs with
  | nil =>
    refine ⟨[], rfl, fun {data rest i out} _ => ?_⟩
    rw [List.append_nil]
    rfl
  | cons sub subs ih =>
    obtain ⟨chunk, hbuild, hread⟩ := parseFrom_subrecord (h sub List.mem_cons_self)
    obtain ⟨chunks, hbuilds, hreads⟩ := ih fun sub' hsub => h sub' (List.mem_cons_of_mem _ hsub)
    refine ⟨chunk :: chunks, by rw [List.mapM_cons, hbuild, hbuilds]; rfl, fun {data rest i out} hdata => ?_⟩
    rw [List.flatten_cons, List.append_assoc] at hdata
    have hafter : data.drop (i + chunk.length) = chunks.flatten ++ rest := by
      rw [← List.drop_drop, hdata, List.drop_left]
    rw [hread hdata, hreads hafter, List.flatten_cons, List.length_append, Nat.add_assoc, List.append_assoc]
    rfl

theorem parseSubrecords_built {subs : List Subrecord} (h : ∀ sub ∈ subs, Codable sub) :
    ∃ data, buildSubrecords subs = some data ∧ parseSubrecords data = some subs := by
  obtain ⟨chunks, hbuild, hread⟩ := parseFrom_subrecords h
  have hwhole : chunks.flatten.drop 0 = chunks.flatten ++ [] := by rw [List.drop_zero, List.append_nil]
  have hend : chunks.flatten.drop (0 + chunks.flatten.length) = [] := by rw [Nat.zero_add, List.drop_length]
  refine ⟨chunks.flatten, by rw [buildSubrecords, hbuild, Option.map_some], ?_⟩
  rw [parseSubrecords, hread hwhole, List.nil_append, parseFrom_end hend]

/-- Every list of subrecords that the format can hold is read back as it was written. -/
theorem subrecords_roundTrip {subs : List Subrecord} (h : ∀ sub ∈ subs, Codable sub) :
    (buildSubrecords subs).bind parseSubrecords = some subs := by
  obtain ⟨data, hbuild, hparse⟩ := parseSubrecords_built h
  rw [hbuild, Option.bind_some, hparse]

theorem subrecords_roundTrip_longData :
    (buildSubrecords [("EDID", [67, 77, 80, 0]), ("DATA", List.replicate 70000 7), ("NAM5", []), ("MWGT", [1, 2])]).bind
      parseSubrecords = some [("EDID", [67, 77, 80, 0]), ("DATA", List.replicate 70000 7), ("NAM5", []), ("MWGT", [1, 2])] := by
  refine subrecords_roundTrip ?_
  simp only [List.forall_mem_cons]
  refine ⟨⟨⟨by decide, by decide, by decide⟩, by decide⟩, ⟨⟨by decide, by decide, by decide⟩, ?_⟩,
    ⟨⟨by decide, by decide, by decide⟩, by decide⟩, ⟨⟨by decide, by decide, by decide⟩, by decide⟩,
    fun _ h => absurd h List.not_mem_nil⟩
  rw [List.length_replicate]
  decide

structure Parsed (sub : Subrecord) : Prop where
  four : sub.1.length = 4
  notXxxx : sub.1 ≠ "XXXX"
  fits : sub.2.length < 2 ^ 32

theorem length_decodeAscii (bytes : Bytes) : (decodeAscii bytes).length = bytes.length := by
  rw [decodeAscii, String.length_ofList, List.length_map]

theorem parsed_parseFrom {pendingXxxx : Option ℕ} {subs : List Subrecord} (h : parseFrom data i pendingXxxx out = some subs)
    (hpending : ∀ n ∈ pendingXxxx, n < 2 ^ 32) (hout : ∀ sub ∈ out, Parsed sub) : ∀ sub ∈ subs, Parsed sub := by
  fun_induction parseFrom data i pendingXxxx out with
  | case1 i pendingXxxx out hin typ size hmark ih =>
    obtain ⟨n, -, hrest⟩ := Option.bind_eq_some_iff.mp h
    refine ih n hrest (fun m hm => ?_) hout
    rw [← Option.some.inj hm]
    exact n.toNat_lt
  | case2 i pendingXxxx out hin typ size hmark size' ih =>
    refine ih h (fun n hn => by cases hn) fun sub hsub => ?_
    rcases List.mem_append.mp hsub with hold | hnew
    · exact hout sub hold
    · rw [List.mem_singleton.mp hnew]
      refine ⟨?_, hmark, lt_of_le_of_lt (List.length_take_le _ _) ?_⟩
      · rw [length_decodeAscii, slice, List.length_take, List.length_drop]
        omega
      · show pendingXxxx.getD size < 2 ^ 32
        cases pendingXxxx with
        | none => exact lt_trans (UInt16.toNat_lt _) (by decide)
        | some n => exact hpending n rfl
  | case3 i pendingXxxx out hend =>
    rw [← Option.some.inj h]
    exact hout

theorem letters_of_buildSubrecord {sub : Subrecord} {chunk : Bytes} (h : buildSubrecord sub = some chunk) :
    isAscii sub.1 = true := by
  have hencode : encodeAscii sub.1 ≠ none := by
    intro hnone
    rw [buildSubrecord, hnone] at h
    split at h
    · obtain ⟨length, -, hfail⟩ := Option.bind_eq_some_iff.mp h
      cases hfail
    · cases h
  by_contra hletters
  exact hencode (if_neg hletters)

theorem letters_of_mapM {subs : List Subrecord} {chunks : List Bytes} (h : subs.mapM buildSubrecord = some chunks) :
    ∀ sub ∈ subs, isAscii sub.1 = true := by
  induction subs generalizing chunks with
  | nil => exact fun _ hsub => absurd hsub List.not_mem_nil
  | cons sub subs ih =>
    rw [List.mapM_cons] at h
    obtain ⟨chunk, hchunk, hrest⟩ := Option.bind_eq_some_iff.mp h
    obtain ⟨chunks', hchunks, -⟩ := Option.bind_eq_some_iff.mp hrest
    exact List.forall_mem_cons.mpr ⟨letters_of_buildSubrecord hchunk, ih hchunks⟩

theorem parsed_parseSubrecords {data : Bytes} {subs : List Subrecord} (h : parseSubrecords data = some subs) :
    ∀ sub ∈ subs, Parsed sub :=
  parsed_parseFrom h (fun _ hn => by cases hn) fun _ hsub => absurd hsub List.not_mem_nil

/-- No other list is read back. -/
theorem readBack_iff (subs : List Subrecord) :
    (buildSubrecords subs).bind parseSubrecords = some subs ↔ ∀ sub ∈ subs, Codable sub := by
  constructor
  · intro h sub hsub
    obtain ⟨data, hbuild, hparse⟩ := Option.bind_eq_some_iff.mp h
    obtain ⟨chunks, hchunks, -⟩ := Option.map_eq_some_iff.mp hbuild
    have hparsed := parsed_parseSubrecords hparse sub hsub
    exact ⟨⟨letters_of_mapM hchunks sub hsub, hparsed.four, hparsed.notXxxx⟩, hparsed.fits⟩
  · intro h
    obtain ⟨data, hbuild, hparse⟩ := parseSubrecords_built h
    rw [hbuild, Option.bind_some, hparse]

end Esp
end CommonwealthMP
