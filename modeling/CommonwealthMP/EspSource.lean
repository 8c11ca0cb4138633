import CommonwealthMP.EspFile
import Mathlib.Data.List.Infix

/-! # The character that the script copies

Every human character that is neither unique nor a template gets a score; the best one is copied, unless the file has
the character that was tried out before. -/
namespace CommonwealthMP
open ByteLayout OrderedTables
namespace Esp

def forbidden : List UInt32 := [0x7, 0x20593]
def probeIds : List UInt32 := [0x7, 0x20593, 0x1D323, 0xBB873, 0xAA78E]
def preferredId : UInt32 := 0x1D323

def localId (r : Record) : UInt32 := r.formid &&& 0x00FFFFFF

/-- `{rec.formid & 0x00FFFFFF: rec for rec in npcs}` -/
def byId (npcs : List Record) : Table UInt32 Record := npcs.foldl (fun table r => table.insert (localId r) r) ∅

/-- The race of the player's character, if it has one. -/
def humanRace (npcs : List Record) : Option UInt32 :=
  match (byId npcs).lookup 0x7 with
  | none => some defaultHumanRace
  | some player => (parseSubrecords player.data).map fun subs => if rnamOf subs ≠ 0 then rnamOf subs else defaultHumanRace

/-- `name in text` -/
def contains (name text : String) : Bool := decide (name.toList <:+: text.toList)

def points (subs : List Subrecord) : ℕ :=
  let edid := edidOf subs
  20 + (if hasSub subs "VMAD" then 0 else 20) + (if contains "Minuteman" edid || contains "Settler" edid then 15 else 0) +
    (if contains "Template" edid then 8 else 0) + if hasSub subs "DOFT" || hasSub subs "SOFT" then 12 else 0

/-- The score of a character; `none` for one that is passed over. -/
def score (race : UInt32) (subs : List Subrecord) : Option ℕ :=
  let flags := acbsFlags subs
  if edidOf subs = "" then none
  else if flags &&& acbsUnique ≠ 0 then none
  else if flags &&& acbsChargen ≠ 0 then none
  else if rnamOf subs ≠ race then none
  else if flags &&& acbsUsesTemplate ≠ 0 ∨ hasSub subs "TPLT" then none
  else some (points subs)

def scoreRecord (race : UInt32) (r : Record) : Option (Option (ℕ × Record)) :=
  if localId r ∈ forbidden then some none else (parseSubrecords r.data).map fun subs => (score race subs).map (·, r)

/-- `(-x[0], x[1].formid)` -/
def keyLe (a b : ℕ × Record) : Bool := decide (b.1 < a.1 ∨ (a.1 = b.1 ∧ a.2.formid ≤ b.2.formid))

/-- `pick_source`, where a subrecord list that breaks off raises; `some none` ends the script. -/
def pickSource (npcs : List Record) : Option (Option Record) :=
  (humanRace npcs).bind fun race =>
    (npcs.mapM (scoreRecord race)).bind fun scored =>
      match (scored.filterMap id).mergeSort keyLe with
      | [] => some none
      | best :: _ =>
        match (byId npcs).lookup preferredId with
        | none => some (some best.2)
        | some preferred =>
          (parseSubrecords preferred.data).map fun subs => if edidOf subs ≠ "" then some preferred else some best.2

inductive Outcome
  | dumped
  | noSource
  | written (file : Bytes) (fault : Option EspFault)

/-- `main`, from the content of the game's file. -/
def makeEsp (zlib : Bytes → Option Bytes) (dumpOnly : Bool) (esm : Bytes) : Option Outcome :=
  (scanEsm zlib esm).bind fun found =>
    (probeIds.mapM fun fid => ((byId found.npcs).lookup fid).elim (some []) fun r => parseSubrecords r.data).bind fun _ =>
      if dumpOnly then some .dumped
      else
        (pickSource found.npcs).bind fun
          | none => some .noSource
          | some src =>
            (rewriteNpc src.data).bind fun copy =>
              (writeEsp copy src.formid).bind fun file => (verifyEsp file).map (.written file)

theorem mem_byId {npcs : List Record} {id : UInt32} {r : Record} (h : (byId npcs).lookup id = some r) :
    r ∈ npcs ∧ localId r = id := by
  unfold byId at h
  induction npcs using List.reverseRecOn with
  | nil => cases h
  | append_singleton npcs r' ih =>
    rw [List.foldl_append, List.foldl_cons, List.foldl_nil, Table.lookup_insert] at h
    split at h
    · rename_i hid
      cases h
      exact ⟨by simp, hid.symm⟩
    · exact ⟨List.mem_append_left _ (ih h).1, (ih h).2⟩

theorem keyLe_trans (a b c : ℕ × Record) (hab : keyLe a b = true) (hbc : keyLe b c = true) : keyLe a c = true := by
  simp only [keyLe, decide_eq_true_eq] at hab hbc ⊢
  rcases hab with hab | ⟨hab, hab'⟩ <;> rcases hbc with hbc | ⟨hbc, hbc'⟩
  · exact .inl (by omega)
  · exact .inl (by omega)
  · exact .inl (by omega)
  · exact .inr ⟨by omega, UInt32.le_trans hab' hbc'⟩

theorem keyLe_total (a b : ℕ × Record) : (keyLe a b || keyLe b a) = true := by
  simp only [keyLe, Bool.or_eq_true, decide_eq_true_eq]
  rcases lt_trichotomy a.1 b.1 with h | h | h
  · exact .inr (.inl h)
  · rcases UInt32.le_total a.2.formid b.2.formid with hle | hle
    · exact .inl (.inr ⟨h, hle⟩)
    · exact .inr (.inr ⟨h.symm, hle⟩)
  · exact .inl (.inl h)

/-- A human character that can be copied. -/
structure Candidate (npcs : List Record) (race : UInt32) (r : Record) (points : ℕ) : Prop where
  mem : r ∈ npcs
  allowed : localId r ∉ forbidden
  scored : ∃ subs, parseSubrecords r.data = some subs ∧ score race subs = some points

theorem mem_mapM {α β : Type} {f : α → Option β} {xs : List α} {ys : List β} (h : xs.mapM f = some ys) (y : β) :
    y ∈ ys ↔ ∃ x ∈ xs, f x = some y := by
  induction xs generalizing ys with
  | nil =>
    cases h
    simp
  | cons x xs ih =>
    rw [List.mapM_cons] at h
    obtain ⟨y', hy, hrest⟩ := Option.bind_eq_some_iff.mp h
    obtain ⟨ys', hys, heq⟩ := Option.bind_eq_some_iff.mp hrest
    cases heq
    rw [List.mem_cons, ih hys]
    constructor
    · rintro (rfl | ⟨x', hx, he⟩)
      · exact ⟨x, List.mem_cons_self, hy⟩
      · exact ⟨x', List.mem_cons_of_mem _ hx, he⟩
    · rintro ⟨x', hx, he⟩
      rcases List.mem_cons.mp hx with rfl | hx
      · exact .inl (Option.some.inj (he.symm.trans hy))
      · exact .inr ⟨x', hx, he⟩

theorem scoreRecord_eq {race : UInt32} {r r' : Record} {points : ℕ} :
    scoreRecord race r' = some (some (points, r)) ↔
      r' = r ∧ localId r ∉ forbidden ∧ ∃ subs, parseSubrecords r.data = some subs ∧ score race subs = some points := by
  unfold scoreRecord
  constructor
  · intro h
    split at h
    · cases h
    · rename_i hallowed
      obtain ⟨subs, hparse, hscore⟩ := Option.map_eq_some_iff.mp h
      obtain ⟨points', hpoints, hpair⟩ := Option.map_eq_some_iff.mp hscore
      cases hpair
      exact ⟨rfl, hallowed, subs, hparse, hpoints⟩
  · rintro ⟨rfl, hallowed, subs, hparse, hpoints⟩
    rw [if_neg hallowed, hparse, Option.map_some, hpoints, Option.map_some]

theorem mem_scored {npcs : List Record} {race : UInt32} {scored : List (Option (ℕ × Record))}
    (h : npcs.mapM (scoreRecord race) = some scored) {points : ℕ} {r : Record} :
    (points, r) ∈ scored.filterMap id ↔ Candidate npcs race r points := by
  simp only [List.mem_filterMap, id_eq, exists_eq_right, mem_mapM h, scoreRecord_eq]
  constructor
  · rintro ⟨r', hr, rfl, hallowed, hscored⟩
    exact ⟨hr, hallowed, hscored⟩
  · intro hc
    exact ⟨r, hc.mem, rfl, hc.allowed, hc.scored⟩

/-- No candidate is better: a higher score, or as high a one and an earlier id. -/
structure Best (npcs : List Record) (race : UInt32) (r : Record) : Prop where
  candidate : ∃ points, Candidate npcs race r points ∧
    ∀ r' points', Candidate npcs race r' points' → points' < points ∨ (points' = points ∧ r.formid ≤ r'.formid)

/-- The character that was tried out before, where the game's file has it with an editor id. -/
def NamedProbe (npcs : List Record) (r : Record) : Prop :=
  (byId npcs).lookup preferredId = some r ∧ ∃ subs, parseSubrecords r.data = some subs ∧ edidOf subs ≠ ""

theorem score_named {race : UInt32} {subs : List Subrecord} {points : ℕ} (h : score race subs = some points) :
    edidOf subs ≠ "" := by
  intro hempty
  rw [score, if_pos hempty] at h
  cases h

theorem score_race {race : UInt32} {subs : List Subrecord} {points : ℕ} (h : score race subs = some points) : rnamOf subs = race := by
  rw [score] at h
  split_ifs at h with hedid hunique hchargen hrace htemplate
  exact not_not.mp hrace

theorem best_of_sorted {npcs : List Record} {race : UInt32} {scored : List (Option (ℕ × Record))} {best : ℕ × Record}
    {others : List (ℕ × Record)} (hscored : npcs.mapM (scoreRecord race) = some scored)
    (hs : (scored.filterMap id).mergeSort keyLe = best :: others) :
    Candidate npcs race best.2 best.1 ∧ Best npcs race best.2 := by
  have hsorted := List.pairwise_mergeSort keyLe_trans keyLe_total (scored.filterMap id)
  have hmem : ∀ x, x ∈ (scored.filterMap id).mergeSort keyLe ↔ x ∈ scored.filterMap id := fun x => List.mem_mergeSort
  rw [hs] at hsorted hmem
  have hbest : Candidate npcs race best.2 best.1 := (mem_scored hscored).mp ((hmem best).mp List.mem_cons_self)
  refine ⟨hbest, best.1, hbest, fun r' points' hc => ?_⟩
  have hin := (hmem (points', r')).mpr ((mem_scored hscored).mpr hc)
  have hle : keyLe best (points', r') = true := by
    rcases List.mem_cons.mp hin with he | hin
    · rw [← he]
      simp [keyLe]
    · exact (List.pairwise_cons.mp hsorted).1 _ hin
  simp only [keyLe, decide_eq_true_eq] at hle
  exact hle.imp_right fun ⟨heq, hid⟩ => ⟨heq.symm, hid⟩

/-- The character tried out before, if it is named, else the best candidate. -/
theorem pickSource_some {npcs : List Record} {r : Record} (h : pickSource npcs = some (some r)) :
    r ∈ npcs ∧ ∃ race subs, humanRace npcs = some race ∧ parseSubrecords r.data = some subs ∧ edidOf subs ≠ "" ∧
      (NamedProbe npcs r ∨ (∀ r', ¬ NamedProbe npcs r') ∧ Best npcs race r) := by
  unfold pickSource at h
  obtain ⟨race, hrace, h⟩ := Option.bind_eq_some_iff.mp h
  obtain ⟨scored, hscored, h⟩ := Option.bind_eq_some_iff.mp h
  cases hs : (scored.filterMap id).mergeSort keyLe with
  | nil =>
    rw [hs] at h
    cases h
  | cons best others =>
    obtain ⟨hbest, chosen⟩ := best_of_sorted hscored hs
    obtain ⟨subs, hparse, hpoints⟩ := hbest.scored
    have hnamed := score_named hpoints
    rw [hs] at h
    dsimp only at h
    cases hpreferred : (byId npcs).lookup preferredId with
    | none =>
      rw [hpreferred] at h
      cases h
      refine ⟨hbest.mem, race, subs, hrace, hparse, hnamed, .inr ⟨fun r' hr' => ?_, chosen⟩⟩
      exact absurd (hpreferred.symm.trans hr'.1) (Option.some_ne_none r').symm
    | some preferred =>
      rw [hpreferred] at h
      obtain ⟨psubs, hp, hpick⟩ := Option.map_eq_some_iff.mp h
      split at hpick
      · rename_i hedid
        cases hpick
        exact ⟨(mem_byId hpreferred).1, race, psubs, hrace, hp, hedid, .inl ⟨hpreferred, psubs, hp, hedid⟩⟩
      · rename_i hempty
        cases hpick
        refine ⟨hbest.mem, race, subs, hrace, hparse, hnamed, .inr ⟨?_, chosen⟩⟩
        rintro r' ⟨hlookup, subs', hparse', hedid'⟩
        cases hpreferred.symm.trans hlookup
        cases hp.symm.trans hparse'
        exact hempty hedid'

theorem pickSource_none {npcs : List Record} (h : pickSource npcs = some none) :
    ∃ race, humanRace npcs = some race ∧ ∀ r points, ¬ Candidate npcs race r points := by
  unfold pickSource at h
  obtain ⟨race, hrace, h⟩ := Option.bind_eq_some_iff.mp h
  obtain ⟨scored, hscored, h⟩ := Option.bind_eq_some_iff.mp h
  have hmem : ∀ x, x ∈ (scored.filterMap id).mergeSort keyLe ↔ x ∈ scored.filterMap id := fun x => List.mem_mergeSort
  generalize (scored.filterMap id).mergeSort keyLe = sorted at h hmem
  cases sorted with
  | nil =>
    refine ⟨race, hrace, fun r points hc => ?_⟩
    exact absurd ((hmem (points, r)).mpr ((mem_scored hscored).mpr hc)) List.not_mem_nil
  | cons best others =>
    dsimp only at h
    split at h
    · cases h
    · obtain ⟨subs, -, hpick⟩ := Option.map_eq_some_iff.mp h
      split at hpick <;> cases hpick

theorem humanRace_ne_zero {npcs : List Record} {race : UInt32} (h : humanRace npcs = some race) : race ≠ 0 := by
  unfold humanRace at h
  split at h
  · cases h
    decide
  · obtain ⟨subs, -, hrace⟩ := Option.map_eq_some_iff.mp h
    split at hrace
    · rename_i hne
      exact hrace ▸ hne
    · rw [← hrace]
      decide

/-- What a run has done with the characters that it found. -/
inductive Made (zlib : Bytes → Option Bytes) (found : Scan) : Outcome → Prop
  | noSource (race) (hrace : humanRace found.npcs = some race) (hnone : ∀ r points, ¬ Candidate found.npcs race r points) :
      Made zlib found .noSource
  /-- the file holds one character: the copy of the one that was tried out before where that is named,
  else of the best candidate -/
  | written (file fault race src subs copy) (hrace : humanRace found.npcs = some race) (hsrc : src ∈ found.npcs)
      (hparse : parseSubrecords src.data = some subs) (hnamed : edidOf subs ≠ "")
      (hchoice : NamedProbe found.npcs src ∨ (∀ r, ¬ NamedProbe found.npcs r) ∧ Best found.npcs race src)
      (hcopy : parseSubrecords copy = some (rewriteSubs subs))
      (hscan : scanEsm zlib file =
        some { types := ((∅ : Table UInt32 String).insert 0 "TES4").insert newFormId "NPC_", npcs := [npcRecord copy] })
      (hfault : fault = if hasSub subs "RNAM" ∧ rnamOf subs = 0 then some (.npc .noRace) else none)
      (hbest : ¬ NamedProbe found.npcs src → fault = none ∧ rnamOf (rewriteSubs subs) = race) :
      Made zlib found (.written file fault)

theorem written_of_picked (zlib : Bytes → Option Bytes) {found : Scan} {src : Record}
    (hpick : pickSource found.npcs = some (some src)) {copy file : Bytes} {fault : Option EspFault}
    (hcopy : rewriteNpc src.data = some copy) (hfile : writeEsp copy src.formid = some file) (hfault : verifyEsp file = some fault) :
    Made zlib found (.written file fault) := by
  obtain ⟨hsrc, race, subs, hrace, hparse, hnamed, hchoice⟩ := pickSource_some hpick
  obtain ⟨hback, hcheck⟩ := rewriteNpc_readBack hparse
  rw [hcopy, Option.bind_some] at hback
  obtain ⟨hverify, hscan⟩ := written_file zlib hback hfile
  have hmade : fault = if hasSub subs "RNAM" ∧ rnamOf subs = 0 then some (.npc .noRace) else none := by
    rw [hfault, hcheck] at hverify
    rw [Option.some.inj hverify]
    split <;> rfl
  refine .written file fault race src subs copy hrace hsrc hparse hnamed hchoice hback hscan hmade fun hother => ?_
  obtain ⟨points, hc, -⟩ := (hchoice.resolve_left hother).2.candidate
  obtain ⟨subs', hparse', hpoints⟩ := hc.scored
  cases hparse.symm.trans hparse'
  have hsame := score_race hpoints
  have hnonzero : rnamOf subs ≠ 0 := by
    rw [hsame]
    exact humanRace_ne_zero hrace
  refine ⟨by rw [hmade, if_neg fun hzero => hnonzero hzero.2], ?_⟩
  rw [rnamOf_rewriteSubs, ← hsame]
  split
  · rfl
  · rename_i hno
    refine absurd ?_ hnonzero
    rw [rnamOf, firstWord, List.find?_eq_none.mpr fun sub hsub h => ?_]
    · rfl
    · exact hno (hasSub_iff.mpr ⟨sub, hsub, (of_decide_eq_true h).1⟩)

/-- A run of the script that ends finds no candidate, or writes the copy of the right character in a file that passes
the script's own check, except for the character tried out before when that has no race. -/
theorem makeEsp_made (zlib : Bytes → Option Bytes) (esm : Bytes) (outcome : Outcome) (h : makeEsp zlib false esm = some outcome) :
    ∃ found, scanEsm zlib esm = some found ∧ Made zlib found outcome := by
  unfold makeEsp at h
  obtain ⟨found, hscan, h⟩ := Option.bind_eq_some_iff.mp h
  obtain ⟨probes, -, h⟩ := Option.bind_eq_some_iff.mp h
  rw [if_neg Bool.false_ne_true] at h
  obtain ⟨picked, hpick, h⟩ := Option.bind_eq_some_iff.mp h
  refine ⟨found, hscan, ?_⟩
  cases picked with
  | none =>
    cases h
    obtain ⟨race, hrace, hnone⟩ := pickSource_none hpick
    exact .noSource race hrace hnone
  | some src =>
    obtain ⟨copy, hcopy, h⟩ := Option.bind_eq_some_iff.mp h
    obtain ⟨file, hfile, h⟩ := Option.bind_eq_some_iff.mp h
    obtain ⟨fault, hfault, rfl⟩ := Option.map_eq_some_iff.mp h
    exact written_of_picked zlib hpick hcopy hfile hfault

def settler : Record := ⟨"NPC_", 0, 0x20F0, 0, 131, 0, settlerData⟩

/-- The character that was tried out before, as good a candidate as the settler with the smaller id. -/
def probe : Record := ⟨"NPC_", 0, 0x1D323, 0, 131, 0, settlerData⟩

/-- A file with both. -/
def settlerFile : Entries := .record settler (.record probe .done)

theorem storable_settlerData (formid : UInt32) : Storable ⟨"NPC_", 0, formid, 0, 131, 0, settlerData⟩ := by
  refine ⟨show isAscii "NPC_" = true by decide, show "NPC_".length = 4 from rfl, show "NPC_" ≠ "GRUP" by decide, ?_⟩
  show settlerData.length < 2 ^ 32
  decide +kernel

theorem fits_settlerFile : settlerFile.Fits := ⟨storable_settlerData 0x20F0, storable_settlerData 0x1D323, trivial⟩

/-- The settler has the better place in the list, but the probe is there and is named. -/
theorem pickSource_probe : pickSource [settler, probe] = some (some probe) := by
  have hplayer : (byId [settler, probe]).lookup 0x7 = none := by decide +kernel
  have hpreferred : (byId [settler, probe]).lookup preferredId = some probe := by decide +kernel
  have hrace : humanRace [settler, probe] = some defaultHumanRace := by rw [humanRace, hplayer]
  have hscore (r : Record) (hallowed : localId r ∉ forbidden) (hdata : r.data = settlerData) :
      scoreRecord defaultHumanRace r = some (some (55, r)) :=
    scoreRecord_eq.mpr ⟨rfl, hallowed, settlerSubs, hdata ▸ parse_settlerData, by decide +kernel⟩
  have hsettler := hscore settler (by decide +kernel) rfl
  have hprobe := hscore probe (by decide +kernel) rfl
  have hedid : edidOf settlerSubs ≠ "" := by decide +kernel
  rw [pickSource, hrace, Option.bind_some]
  simp only [List.mapM_cons, List.mapM_nil, hsettler, hprobe, Option.pure_def, Option.bind_eq_bind, Option.bind_some,
    List.filterMap_cons, List.filterMap_nil, id_eq, hpreferred]
  have hsorted : [(55, settler), (55, probe)].mergeSort keyLe = [(55, settler), (55, probe)] :=
    List.mergeSort_of_pairwise (List.pairwise_pair.mpr (by decide))
  rw [hsorted]
  dsimp only
  rw [show probe.data = settlerData from rfl, parse_settlerData, Option.map_some, if_pos hedid]

theorem makeEsp_probe : ∃ file fault, makeEsp (fun _ => none) false settlerFile.bytes = some (.written file fault) := by
  have hscan := scanEsm_bytes (fun _ => none) settlerFile fits_settlerFile
  have hnpcs : (settlerFile.records.foldl (Scan.add fun _ => none) {}).npcs = [settler, probe] := by
    rw [npcs_addAll]
    decide +kernel
  have h1 : (byId [settler, probe]).lookup 0x7 = none := by decide +kernel
  have h2 : (byId [settler, probe]).lookup 0x20593 = none := by decide +kernel
  have h3 : (byId [settler, probe]).lookup 0x1D323 = some probe := by decide +kernel
  have h4 : (byId [settler, probe]).lookup 0xBB873 = none := by decide +kernel
  have h5 : (byId [settler, probe]).lookup 0xAA78E = none := by decide +kernel
  have hprobes : (probeIds.mapM fun fid => ((byId [settler, probe]).lookup fid).elim (some []) fun r => parseSubrecords r.data) =
      some [[], [], settlerSubs, [], []] := by
    simp only [probeIds, List.mapM_cons, List.mapM_nil, h1, h2, h3, h4, h5]
    rw [show (some probe).elim (some []) (fun r => parseSubrecords r.data) = some settlerSubs from parse_settlerData]
    rfl
  obtain ⟨hback, -⟩ := rewriteNpc_readBack parse_settlerData
  obtain ⟨copy, hcopy, hparse⟩ := Option.bind_eq_some_iff.mp hback
  have hfits : 2 * recHdr + copy.length < 2 ^ 32 := by
    have hlength : ((buildSubrecords (rewriteSubs settlerSubs)).map List.length).all fun n => decide (2 * recHdr + n < 2 ^ 32) := by
      decide +kernel
    rw [rewriteNpc, parse_settlerData, Option.bind_some] at hcopy
    rw [hcopy] at hlength
    simpa using hlength
  obtain ⟨tes4Data, -, -, hwrite⟩ := writeEsp_eq copy probe.formid
  rw [if_pos hfits] at hwrite
  obtain ⟨hverify, -⟩ := written_file (fun _ => none) hparse hwrite
  refine ⟨(espEntries tes4Data copy).bytes, (verifyNpc newFormId (rewriteSubs settlerSubs)).map .npc, ?_⟩
  rw [makeEsp, hscan, Option.bind_some, hnpcs, hprobes, Option.bind_some, if_neg Bool.false_ne_true, pickSource_probe,
    Option.bind_some]
  dsimp only
  rw [show probe.data = settlerData from rfl, hcopy, Option.bind_some, hwrite, Option.bind_some, hverify]
  rfl

theorem makeEsp_made_probe :
    ∃ file fault found, scanEsm (fun _ => none) settlerFile.bytes = some found ∧ Made (fun _ => none) found (.written file fault) := by
  obtain ⟨file, fault, h⟩ := makeEsp_probe
  exact ⟨file, fault, makeEsp_made (fun _ => none) settlerFile.bytes (.written file fault) h⟩

end Esp
end CommonwealthMP
