import CommonwealthMP.EspSubrecords

/-! # The record that the script copies

A character of the game's own file is copied under another name, without its face, its templates and the flags that
make it unique. What is read back from the copy is the character that was meant to be written. -/
namespace CommonwealthMP
open ByteLayout
namespace Esp

def edidOf (subs : List Subrecord) : String :=
  ((subs.find? fun sub => decide (sub.1 = "EDID")).map fun sub => decodeAscii (cString sub.2)).getD ""

/-- The number at the start of the first subrecord of the type that has one. -/
def firstWord (typ : String) (subs : List Subrecord) : UInt32 :=
  ((subs.find? fun sub => decide (sub.1 = typ ∧ 4 ≤ sub.2.length)).map fun sub => u32At sub.2 0).getD 0

def acbsFlags (subs : List Subrecord) : UInt32 := firstWord "ACBS" subs

def rnamOf (subs : List Subrecord) : UInt32 := firstWord "RNAM" subs

def hasSub (subs : List Subrecord) (name : String) : Bool := subs.any fun sub => decide (sub.1 = name)

def acbsUnique : UInt32 := 0x20
def acbsChargen : UInt32 := 0x4
def acbsUsesTemplate : UInt32 := 0x100
def acbsPcLevelMult : UInt32 := 0x80
def defaultHumanRace : UInt32 := 0x13746

def keepSubs : List String :=
  ["EDID", "OBND", "ACBS", "SNAM", "VTCK", "RNAM", "AIDT", "CNAM", "DATA", "DNAM", "HCLF", "NAM5", "NAM6", "NAM4", "MWGT",
    "NAM8", "DOFT", "SOFT", "FTST"]

/-- Subrecords of the face and of templates. -/
def isDropped (typ : String) : Bool :=
  decide ("FM".toList <+: typ.toList ∨
    typ ∈ ["MSDK", "MSDV", "MRSV", "TETI", "TEND", "QNAM", "PRPS", "COCT", "CNTO", "PKID"])

def remoteEdid : Subrecord := ("EDID", ascii "CMP_RemotePlayer" ++ [0])
def remoteFull : Subrecord := ("FULL", ascii "CMP Remote" ++ [0])
def humanRnam : Subrecord := ("RNAM", u32 defaultHumanRace)

def rewriteFlags (flags : UInt32) : UInt32 :=
  flags &&& ~~~acbsUnique &&& ~~~acbsChargen &&& ~~~acbsUsesTemplate &&& ~~~acbsPcLevelMult

def rewriteAcbs (payload : Bytes) : Bytes :=
  let payload := u32 (rewriteFlags (u32At payload 0)) ++ payload.drop 4
  if 16 ≤ payload.length then payload.take 14 ++ u16 0 ++ payload.drop 16 else payload

/-- What the loop of `rewrite_npc` appends for a subrecord. -/
def rewriteSub (sub : Subrecord) : Option Subrecord :=
  if isDropped sub.1 then none
  else if sub.1 ∉ keepSubs ∧ sub.1 ≠ "FULL" then none
  else if sub.1 = "EDID" then some remoteEdid
  else if sub.1 = "FULL" then some remoteFull
  else if sub.1 = "ACBS" ∧ 4 ≤ sub.2.length then some (sub.1, rewriteAcbs sub.2)
  else some sub

/-- `rewrite_npc` after its loop: an editor id goes first where none was kept. -/
def withEdid (out : List Subrecord) : List Subrecord := if hasSub out "EDID" then out else remoteEdid :: out

/-- `out.insert(1, ...)` -/
def withFull (out : List Subrecord) : List Subrecord :=
  if hasSub out "FULL" then out else out.take 1 ++ remoteFull :: out.drop 1

def withRnam (out : List Subrecord) : List Subrecord := if hasSub out "RNAM" then out else out ++ [humanRnam]

/-- The list that `rewrite_npc` builds. -/
def rewriteSubs (subs : List Subrecord) : List Subrecord := withRnam (withFull (withEdid (subs.filterMap rewriteSub)))

def rewriteNpc (data : Bytes) : Option Bytes :=
  (parseSubrecords data).bind fun subs => buildSubrecords (rewriteSubs subs)

def newFormId : UInt32 := 0x01000800

/-- What `verify_esp` can find wrong with the record in the file. -/
inductive NpcFault
  | edid
  | form
  | noRace
  | flags
  deriving DecidableEq

/-- The checks that `verify_esp` makes of the record, in order. -/
def verifyNpc (formid : UInt32) (subs : List Subrecord) : Option NpcFault :=
  if edidOf subs ≠ "CMP_RemotePlayer" then some .edid
  else if formid ≠ newFormId then some .form
  else if rnamOf subs = 0 then some .noRace
  else if acbsFlags subs &&& (acbsUnique ||| acbsChargen ||| acbsUsesTemplate) ≠ 0 then some .flags
  else none

theorem length_rewriteAcbs {payload : Bytes} (h : 4 ≤ payload.length) : (rewriteAcbs payload).length = payload.length := by
  have hhead : (u32 (rewriteFlags (u32At payload 0)) ++ payload.drop 4).length = payload.length := by
    rw [List.length_append, u32_length, List.length_drop]
    omega
  rw [rewriteAcbs]
  split
  · rename_i hlong
    simp only [List.length_append, List.length_take, List.length_drop, u16_length] at hhead hlong ⊢
    omega
  · exact hhead

/-- The later patch leaves the flags alone. -/
theorem u32At_rewriteAcbs (payload : Bytes) : u32At (rewriteAcbs payload) 0 = rewriteFlags (u32At payload 0) := by
  have hword : u32At (u32 (rewriteFlags (u32At payload 0)) ++ payload.drop 4) 0 = rewriteFlags (u32At payload 0) :=
    u32At_u32 _ _
  rw [rewriteAcbs]
  split
  · rename_i hlong
    have htake : ((u32 (rewriteFlags (u32At payload 0)) ++ payload.drop 4).take 14).length = 14 := by
      rw [List.length_take]
      omega
    rw [u32At, List.append_assoc, slice_inside (by omega), slice, List.drop_zero, List.take_take]
    exact hword
  · exact hword

theorem rewriteFlags_and (flags : UInt32) : rewriteFlags flags &&& (acbsUnique ||| acbsChargen ||| acbsUsesTemplate) = 0 := by
  unfold rewriteFlags acbsUnique acbsChargen acbsUsesTemplate acbsPcLevelMult
  rw [UInt32.and_assoc, UInt32.and_assoc, UInt32.and_assoc, UInt32.and_assoc]
  exact UInt32.and_zero

instance (typ : String) : Decidable (IsType typ) :=
  decidable_of_iff (isAscii typ = true ∧ typ.length = 4 ∧ typ ≠ "XXXX")
    ⟨fun h => ⟨h.1, h.2.1, h.2.2⟩, fun h => ⟨h.letters, h.four, h.notXxxx⟩⟩

theorem isType_keepSubs : ∀ typ ∈ keepSubs, IsType typ := by decide

/-- A subrecord of the copy is one of the script's own, or one of the source, but for its flags. -/
inductive Copied (subs : List Subrecord) : Subrecord → Prop
  | edid : Copied subs remoteEdid
  | full : Copied subs remoteFull
  | rnam : Copied subs humanRnam
  | acbs (payload : Bytes) (hsub : ("ACBS", payload) ∈ subs) (hlength : 4 ≤ payload.length) :
      Copied subs ("ACBS", rewriteAcbs payload)
  | kept (sub : Subrecord) (hsub : sub ∈ subs) (hkeep : sub.1 ∈ keepSubs) (hedid : sub.1 ≠ "EDID")
      (hacbs : ¬ (sub.1 = "ACBS" ∧ 4 ≤ sub.2.length)) : Copied subs sub

theorem copied_rewriteSub {subs : List Subrecord} {sub sub' : Subrecord} (hsub : sub ∈ subs) (h : rewriteSub sub = some sub') :
    Copied subs sub' := by
  unfold rewriteSub at h
  split_ifs at h with hdrop hkeep hedid hfull hacbs
  · cases h
    exact .edid
  · cases h
    exact .full
  · cases h
    obtain ⟨typ, payload⟩ := sub
    obtain ⟨rfl, hlength⟩ := hacbs
    exact .acbs payload hsub hlength
  · cases h
    refine .kept sub hsub ?_ hedid hacbs
    by_contra hnot
    exact hkeep ⟨hnot, hfull⟩

theorem mem_withEdid {out : List Subrecord} {sub : Subrecord} (h : sub ∈ withEdid out) : sub = remoteEdid ∨ sub ∈ out := by
  unfold withEdid at h
  split at h
  · exact .inr h
  · exact List.mem_cons.mp h

theorem mem_withFull {out : List Subrecord} {sub : Subrecord} (h : sub ∈ withFull out) : sub = remoteFull ∨ sub ∈ out := by
  unfold withFull at h
  split at h
  · exact .inr h
  · rcases List.mem_append.mp h with h | h
    · exact .inr (List.mem_of_mem_take h)
    · exact (List.mem_cons.mp h).imp_right List.mem_of_mem_drop

theorem mem_withRnam {out : List Subrecord} {sub : Subrecord} (h : sub ∈ withRnam out) : sub = humanRnam ∨ sub ∈ out := by
  unfold withRnam at h
  split at h
  · exact .inr h
  · exact (List.mem_append.mp h).symm.imp_left List.mem_singleton.mp

theorem copied_rewriteSubs (subs : List Subrecord) : ∀ sub ∈ rewriteSubs subs, Copied subs sub := by
  intro sub hsub
  rcases mem_withRnam hsub with rfl | hsub
  · exact .rnam
  rcases mem_withFull hsub with rfl | hsub
  · exact .full
  rcases mem_withEdid hsub with rfl | hsub
  · exact .edid
  obtain ⟨source, hsource, h⟩ := List.mem_filterMap.mp hsub
  exact copied_rewriteSub hsource h

theorem Copied.codable {subs : List Subrecord} (hparsed : ∀ sub ∈ subs, Parsed sub) {sub : Subrecord} (h : Copied subs sub) :
    Codable sub := by
  cases h with
  | edid => exact ⟨isType_keepSubs _ (by decide), by decide⟩
  | full => exact ⟨by decide, by decide⟩
  | rnam => exact ⟨isType_keepSubs _ (by decide), by decide⟩
  | acbs payload hsub hlength =>
    refine ⟨isType_keepSubs "ACBS" (by decide), ?_⟩
    rw [length_rewriteAcbs hlength]
    exact (hparsed _ hsub).fits
  | kept sub hsub hkeep hedid hacbs => exact ⟨isType_keepSubs _ hkeep, (hparsed _ hsub).fits⟩

theorem hasSub_iff {subs : List Subrecord} {name : String} : hasSub subs name = true ↔ ∃ sub ∈ subs, sub.1 = name := by
  simp [hasSub]

theorem hasSub_eq (subs : List Subrecord) (name : String) :
    hasSub subs name = (subs.find? fun sub => decide (sub.1 = name)).isSome := by
  rw [Bool.eq_iff_iff, hasSub_iff, List.find?_isSome]
  simp

theorem mem_withFull_of_mem {out : List Subrecord} {sub : Subrecord} (h : sub ∈ out) : sub ∈ withFull out := by
  unfold withFull
  split
  · exact h
  · rw [← List.take_append_drop 1 out] at h
    rcases List.mem_append.mp h with h | h
    · exact List.mem_append_left _ h
    · exact List.mem_append_right _ (List.mem_cons_of_mem _ h)

theorem mem_withRnam_of_mem {out : List Subrecord} {sub : Subrecord} (h : sub ∈ out) : sub ∈ withRnam out := by
  unfold withRnam
  split
  · exact h
  · exact List.mem_append_left _ h

theorem exists_edid (out : List Subrecord) : ∃ sub ∈ withEdid out, sub.1 = "EDID" := by
  unfold withEdid
  split
  · exact hasSub_iff.mp ‹_›
  · exact ⟨remoteEdid, List.mem_cons_self, rfl⟩

theorem edidOf_rewriteSubs (subs : List Subrecord) : edidOf (rewriteSubs subs) = "CMP_RemotePlayer" := by
  obtain ⟨named, hnamed, hedid⟩ := exists_edid (subs.filterMap rewriteSub)
  have hmem : named ∈ rewriteSubs subs := mem_withRnam_of_mem (mem_withFull_of_mem hnamed)
  rw [edidOf]
  cases hfind : (rewriteSubs subs).find? fun sub => decide (sub.1 = "EDID") with
  | none => exact absurd (decide_eq_true hedid) (List.find?_eq_none.mp hfind named hmem)
  | some sub =>
    have hname : sub.1 = "EDID" := by simpa using List.find?_some hfind
    cases copied_rewriteSubs subs sub (List.mem_of_find?_eq_some hfind) with
    | edid => decide
    | full => exact absurd hname (by decide)
    | rnam => exact absurd hname (by decide)
    | acbs payload hsub hlength => exact absurd (show "ACBS" = "EDID" from hname) (by decide)
    | kept sub hsub hkeep hother hacbs => exact absurd hname hother

/-- No copy is unique, a preset of the character's maker or the user of a template. -/
theorem acbsFlags_rewriteSubs (subs : List Subrecord) :
    acbsFlags (rewriteSubs subs) &&& (acbsUnique ||| acbsChargen ||| acbsUsesTemplate) = 0 := by
  rw [acbsFlags, firstWord]
  cases hfind : (rewriteSubs subs).find? fun sub => decide (sub.1 = "ACBS" ∧ 4 ≤ sub.2.length) with
  | none => exact UInt32.zero_and
  | some sub =>
    have hname : sub.1 = "ACBS" ∧ 4 ≤ sub.2.length := by simpa using List.find?_some hfind
    cases copied_rewriteSubs subs sub (List.mem_of_find?_eq_some hfind) with
    | edid => exact absurd hname.1 (by decide)
    | full => exact absurd hname.1 (by decide)
    | rnam => exact absurd hname.1 (by decide)
    | acbs payload hsub hlength =>
      rw [Option.map_some, Option.getD_some, u32At_rewriteAcbs]
      exact rewriteFlags_and _
    | kept sub hsub hkeep hother hacbs => exact absurd hname hacbs

section Race
variable {p : Subrecord → Bool} (hp : ∀ sub, p sub = true → sub.1 = "RNAM")
include hp

theorem rewriteSub_of_race {sub : Subrecord} (h : p sub = true) : rewriteSub sub = some sub := by
  have hname := hp sub h
  unfold rewriteSub
  rw [hname, if_neg (by decide), if_neg (by decide), if_neg (by decide), if_neg (by decide),
    if_neg fun hacbs => absurd hacbs.1 (by decide)]

theorem not_race_of_rewriteSub {sub sub' : Subrecord} (h : rewriteSub sub = some sub') (hnot : p sub = false) :
    p sub' = false := by
  unfold rewriteSub at h
  rw [Bool.eq_false_iff]
  intro hrace
  split_ifs at h with hdrop hkeep hedid hfull hacbs
  · cases h
    exact absurd (hp _ hrace) (by decide)
  · cases h
    exact absurd (hp _ hrace) (by decide)
  · cases h
    exact absurd ((hp _ hrace).symm.trans hacbs.1) (by decide)
  · cases h
    exact absurd hrace (Bool.eq_false_iff.mp hnot)

theorem race_loop (subs : List Subrecord) : (subs.filterMap rewriteSub).find? p = subs.find? p := by
  induction subs with
  | nil => rfl
  | cons sub subs ih =>
    cases h : p sub with
    | true => rw [List.filterMap_cons_some (rewriteSub_of_race hp h), List.find?_cons_of_pos h, List.find?_cons_of_pos h]
    | false =>
      rw [List.find?_cons_of_neg (Bool.eq_false_iff.mp h)]
      cases hsub : rewriteSub sub with
      | none => rw [List.filterMap_cons_none hsub, ih]
      | some sub' =>
        have hnot := not_race_of_rewriteSub hp hsub h
        rw [List.filterMap_cons_some hsub, List.find?_cons_of_neg (Bool.eq_false_iff.mp hnot), ih]

theorem race_named (subs : List Subrecord) : (withFull (withEdid (subs.filterMap rewriteSub))).find? p = subs.find? p := by
  have hno : ∀ sub : Subrecord, sub.1 ≠ "RNAM" → ¬ p sub = true := fun sub hne h => hne (hp sub h)
  have hedid : ∀ out : List Subrecord, (withEdid out).find? p = out.find? p := by
    intro out
    unfold withEdid
    split
    · rfl
    · exact List.find?_cons_of_neg (hno remoteEdid (by decide))
  have hfull : ∀ out : List Subrecord, (withFull out).find? p = out.find? p := by
    intro out
    unfold withFull
    split
    · rfl
    · rw [List.find?_append, List.find?_cons_of_neg (hno remoteFull (by decide)), ← List.find?_append, List.take_append_drop]
  rw [hfull, hedid, race_loop hp]

end Race

/-- The copy is of the source's race, or human where the source names none. -/
theorem rnamOf_rewriteSubs (subs : List Subrecord) :
    rnamOf (rewriteSubs subs) = if hasSub subs "RNAM" then rnamOf subs else defaultHumanRace := by
  have hword : (withFull (withEdid (subs.filterMap rewriteSub))).find? (fun sub => decide (sub.1 = "RNAM" ∧ 4 ≤ sub.2.length)) =
      subs.find? fun sub => decide (sub.1 = "RNAM" ∧ 4 ≤ sub.2.length) :=
    race_named (fun sub h => (of_decide_eq_true h).1) subs
  have hhas : hasSub (withFull (withEdid (subs.filterMap rewriteSub))) "RNAM" = hasSub subs "RNAM" := by
    rw [hasSub_eq, hasSub_eq, race_named (fun sub h => of_decide_eq_true h)]
  rw [rewriteSubs, withRnam, hhas]
  cases hrnam : hasSub subs "RNAM" with
  | true => rw [if_pos rfl, if_pos rfl, rnamOf, rnamOf, firstWord, firstWord, hword]
  | false =>
    have hnone : subs.find? (fun sub => decide (sub.1 = "RNAM" ∧ 4 ≤ sub.2.length)) = none := by
      refine List.find?_eq_none.mpr fun sub hsub h => ?_
      have hyes := hasSub_iff.mpr ⟨sub, hsub, (of_decide_eq_true h).1⟩
      rw [hrnam] at hyes
      cases hyes
    rw [if_neg Bool.false_ne_true, if_neg Bool.false_ne_true, rnamOf, firstWord, List.find?_append, hword, hnone]
    rfl

/-- The copy is read back as the list that was built, and fails the script's own check only for the race of its source. -/
theorem rewriteNpc_readBack {data : Bytes} {subs : List Subrecord} (h : parseSubrecords data = some subs) :
    (rewriteNpc data).bind parseSubrecords = some (rewriteSubs subs) ∧
      verifyNpc newFormId (rewriteSubs subs) = if hasSub subs "RNAM" ∧ rnamOf subs = 0 then some .noRace else none := by
  have hcodable : ∀ sub ∈ rewriteSubs subs, Codable sub := fun sub hsub =>
    (copied_rewriteSubs subs sub hsub).codable (parsed_parseSubrecords h)
  obtain ⟨copy, hbuild, hparse⟩ := parseSubrecords_built hcodable
  refine ⟨by rw [rewriteNpc, h, Option.bind_some, hbuild, Option.bind_some, hparse], ?_⟩
  rw [verifyNpc, if_neg (not_not.mpr (edidOf_rewriteSubs subs)), if_neg (not_not.mpr rfl), rnamOf_rewriteSubs,
    if_neg (not_not.mpr (acbsFlags_rewriteSubs subs))]
  cases hasSub subs "RNAM" with
  | true => simp
  | false => simp [defaultHumanRace]

end Esp
end CommonwealthMP
