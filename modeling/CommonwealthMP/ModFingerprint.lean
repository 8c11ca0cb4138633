import CommonwealthMP.AdminCommands
import CommonwealthMP.QuotedText
import Mathlib.Data.List.Destutter
import Mathlib.Data.List.Lex
import Mathlib.Data.List.Sort

/-! # The mod fingerprint

The lower-cased names of the loaded plugins, sorted and without repetition, each followed by a newline, go
through FNV-1a. -/
namespace CommonwealthMP
open ByteLayout
namespace ModFingerprint

/-- A loaded plugin; `filename` is a character array. -/
structure TESFile where
  filename : Bytes
  deriving DecidableEq, Repr

/-- The two lists of loaded plugins; a slot may be empty. -/
structure CompiledFileCollection where
  files : List (Option TESFile)
  smallFiles : List (Option TESFile)
  deriving DecidableEq, Repr

def fnv1aAppend (h : UInt32) (data : Bytes) : UInt32 := data.foldl (fun h c => (h ^^^ c.toUInt32) * 16777619) h

def pushNames (slots : List (Option TESFile)) : List Bytes :=
  slots.filterMap fun slot =>
    match slot with
    | none => none
    | some file => if cString file.filename = [] then none else some (lowerCopy (cString file.filename))

/-- `operator<=` of strings, which compares unsigned characters. -/
def nameLe (a b : Bytes) : Bool := decide (a.map UInt8.toNat ≤ b.map UInt8.toNat)

/-- `names` after the sort and the erasure of repeated neighbours. -/
def sortedNames (data : CompiledFileCollection) : List Bytes :=
  ((pushNames data.files ++ pushNames data.smallFiles).mergeSort nameLe).destutter (· ≠ ·)

def computeModHash : Option CompiledFileCollection → UInt32
  | none => 0
  | some data => (sortedNames data).foldl (fun h name => fnv1aAppend (fnv1aAppend h name) [10]) 2166136261

/-- The bytes that go through the hash. -/
def hashedText (data : CompiledFileCollection) : Bytes := (sortedNames data).flatMap fun name => name ++ [10]

/-- The lower-cased names of the plugins in the slots that hold one with a name. -/
def pluginNames (data : CompiledFileCollection) : Set Bytes :=
  { name | ∃ file : TESFile, (some file ∈ data.files ∨ some file ∈ data.smallFiles) ∧ cString file.filename ≠ [] ∧
    name = lowerCopy (cString file.filename) }

theorem fnv1aAppend_append (h : UInt32) (a b : Bytes) : fnv1aAppend h (a ++ b) = fnv1aAppend (fnv1aAppend h a) b :=
  List.foldl_append

theorem computeModHash_eq (data : CompiledFileCollection) :
    computeModHash (some data) = fnv1aAppend 2166136261 (hashedText data) := by
  rw [computeModHash, hashedText]
  generalize (2166136261 : UInt32) = h
  induction sortedNames data generalizing h with
  | nil => rfl
  | cons name names ih => rw [List.foldl_cons, List.flatMap_cons, fnv1aAppend_append, fnv1aAppend_append, ih]

theorem mem_pushNames {slots : List (Option TESFile)} {name : Bytes} :
    name ∈ pushNames slots ↔
      ∃ file : TESFile, some file ∈ slots ∧ cString file.filename ≠ [] ∧ name = lowerCopy (cString file.filename) := by
  rw [pushNames, List.mem_filterMap]
  constructor
  · rintro ⟨slot, hslot, hname⟩
    cases slot with
    | none => cases hname
    | some file =>
      dsimp only at hname
      split at hname
      · cases hname
      · rename_i hne
        exact ⟨file, hslot, hne, (Option.some.inj hname).symm⟩
  · rintro ⟨file, hslot, hne, rfl⟩
    exact ⟨some file, hslot, if_neg hne⟩

theorem mem_destutter {α : Type*} [DecidableEq α] {a : α} {l : List α} : a ∈ l.destutter (· ≠ ·) ↔ a ∈ l := by
  constructor
  · exact fun h => (List.destutter_sublist _ l).subset h
  · intro h
    cases l with
    | nil => exact h
    | cons b l =>
      rw [List.destutter_cons']
      induction l generalizing b with
      | nil => simpa using h
      | cons c l ih =>
        by_cases hbc : b = c
        · subst hbc
          rw [List.destutter'_cons_neg _ (by simp)]
          exact ih b (by simpa using h)
        · rw [List.destutter'_cons_pos _ hbc]
          rcases List.mem_cons.mp h with rfl | h
          · exact List.mem_cons_self
          · exact List.mem_cons_of_mem _ (ih c h)

theorem mem_sortedNames {data : CompiledFileCollection} {name : Bytes} :
    name ∈ sortedNames data ↔ name ∈ pluginNames data := by
  rw [sortedNames, mem_destutter, List.mem_mergeSort, List.mem_append, mem_pushNames, mem_pushNames]
  simp only [pluginNames, Set.mem_ofPred_eq, or_and_right, exists_or]

theorem map_toNat_injective : Function.Injective (List.map UInt8.toNat) :=
  List.map_injective_iff.mpr fun _ _ h => UInt8.toNat_inj.mp h

/-- `operator<` of strings. -/
def NameLt (a b : Bytes) : Prop := a.map UInt8.toNat < b.map UInt8.toNat

theorem nameLt_of_nameLe {a b : Bytes} (h : nameLe a b = true) (hne : a ≠ b) : NameLt a b :=
  lt_of_le_of_ne (of_decide_eq_true h) fun he => hne (map_toNat_injective he)

theorem isChain_nameLt {names : List Bytes} (h : names.Pairwise fun a b => nameLe a b = true) (hne : names.IsChain (· ≠ ·)) :
    names.IsChain NameLt := by
  induction names with
  | nil => exact .nil
  | cons a names ih =>
    obtain ⟨hle, htail⟩ := List.pairwise_cons.mp h
    cases names with
    | nil => exact .singleton a
    | cons b names =>
      obtain ⟨hab, hrest⟩ := List.isChain_cons_cons.mp hne
      exact List.isChain_cons_cons.mpr ⟨nameLt_of_nameLe (hle b List.mem_cons_self) hab, ih htail hrest⟩

theorem pairwise_sortedNames (data : CompiledFileCollection) : (sortedNames data).Pairwise NameLt := by
  have hsorted : (sortedNames data).Pairwise fun a b => nameLe a b = true := by
    refine List.Pairwise.sublist (List.destutter_sublist _ _) (List.pairwise_mergeSort ?_ ?_ _)
    · intro a b c hab hbc
      exact decide_eq_true ((of_decide_eq_true hab).trans (of_decide_eq_true hbc))
    · intro a b
      simpa [nameLe] using le_total (a.map UInt8.toNat) (b.map UInt8.toNat)
  have hchain := isChain_nameLt hsorted (List.isChain_destutter _ _)
  have htrans : IsTrans Bytes NameLt := ⟨fun _ _ _ hab hbc => lt_trans hab hbc⟩
  exact hchain.pairwise

theorem sortedNames_eq_iff {a b : CompiledFileCollection} : sortedNames a = sortedNames b ↔ pluginNames a = pluginNames b := by
  constructor
  · intro h
    ext name
    rw [← mem_sortedNames, h, mem_sortedNames]
  · intro h
    have hirrefl : Std.Irrefl NameLt := ⟨fun _ => lt_irrefl _⟩
    have hantisymm : Std.Antisymm NameLt := ⟨fun _ _ hab hba => absurd hba (lt_asymm hab)⟩
    refine List.Pairwise.eq_of_mem_iff (pairwise_sortedNames a) (pairwise_sortedNames b) fun name => ?_
    rw [mem_sortedNames, mem_sortedNames, h]

theorem flatMap_newline_inj {names names' : List Bytes} (h : ∀ name ∈ names, 10 ∉ name) (h' : ∀ name ∈ names', 10 ∉ name)
    (he : (names.flatMap fun name => name ++ [10]) = names'.flatMap fun name => name ++ [10]) : names = names' := by
  induction names generalizing names' with
  | nil =>
    cases names' with
    | nil => rfl
    | cons name' names' => simp at he
  | cons name names ih =>
    cases names' with
    | nil => simp at he
    | cons name' names' =>
      simp only [List.flatMap_cons, List.append_assoc, List.singleton_append] at he
      obtain ⟨hname, hrest⟩ := QuotedText.append_mark_inj (h name List.mem_cons_self) (h' name' List.mem_cons_self) he
      rw [hname, ih (fun n hn => h n (List.mem_cons_of_mem _ hn)) (fun n hn => h' n (List.mem_cons_of_mem _ hn)) hrest]

/-- No plugin has a newline in its file name. -/
def NewlineFree (data : CompiledFileCollection) : Prop :=
  ∀ file : TESFile, some file ∈ data.files ∨ some file ∈ data.smallFiles → 10 ∉ cString file.filename

theorem newline_notMem_lowerCopy {s : Bytes} (h : 10 ∉ s) : 10 ∉ lowerCopy s := by
  intro hm
  obtain ⟨c, hc, he⟩ := List.mem_map.mp hm
  split at he
  · rename_i hupper
    simp only [Bool.and_eq_true, decide_eq_true_eq, UInt8.le_iff_toNat_le] at hupper
    have hsum := congrArg UInt8.toNat he
    rw [UInt8.toNat_add] at hsum
    simp at hsum hupper
    omega
  · exact h (he ▸ hc)

theorem newline_notMem_sortedNames {data : CompiledFileCollection} (h : NewlineFree data) :
    ∀ name ∈ sortedNames data, 10 ∉ name := by
  intro name hname
  obtain ⟨file, hfile, -, rfl⟩ := mem_sortedNames.mp hname
  exact newline_notMem_lowerCopy (h file hfile)

/-- The fingerprint is the hash of a text which the set of the plugins' lower-cased names determines, and which, while no
file name has a newline in it, determines that set. -/
theorem computeModHash_fingerprint (a b : CompiledFileCollection) :
    (pluginNames a = pluginNames b → computeModHash (some a) = computeModHash (some b)) ∧
    (computeModHash (some a) = fnv1aAppend 2166136261 (hashedText a)) ∧
    (NewlineFree a → NewlineFree b → (hashedText a = hashedText b ↔ pluginNames a = pluginNames b)) := by
  have hsame : pluginNames a = pluginNames b → hashedText a = hashedText b := fun h => by
    rw [hashedText, sortedNames_eq_iff.mpr h, hashedText]
  refine ⟨fun h => ?_, computeModHash_eq a, fun ha hb => ⟨fun h => ?_, hsame⟩⟩
  · rw [computeModHash_eq, computeModHash_eq, hsame h]
  · exact sortedNames_eq_iff.mp (flatMap_newline_inj (newline_notMem_sortedNames ha) (newline_notMem_sortedNames hb) h)

/-- Two plugins in either order, one of them twice, in other letters and beside an empty slot. -/
theorem computeModHash_fingerprint_twoOrders :
    computeModHash (some ⟨[some ⟨[65]⟩, none], [some ⟨[98]⟩]⟩) = computeModHash (some ⟨[some ⟨[66]⟩, some ⟨[97]⟩, some ⟨[65]⟩], []⟩) ∧
    (hashedText ⟨[some ⟨[65]⟩, none], [some ⟨[98]⟩]⟩ = hashedText ⟨[some ⟨[66]⟩, some ⟨[97]⟩, some ⟨[65]⟩], []⟩ ↔
      pluginNames ⟨[some ⟨[65]⟩, none], [some ⟨[98]⟩]⟩ = pluginNames ⟨[some ⟨[66]⟩, some ⟨[97]⟩, some ⟨[65]⟩], []⟩) := by
  obtain ⟨hsame, -, htext⟩ := computeModHash_fingerprint ⟨[some ⟨[65]⟩, none], [some ⟨[98]⟩]⟩
    ⟨[some ⟨[66]⟩, some ⟨[97]⟩, some ⟨[65]⟩], []⟩
  refine ⟨hsame ?_, htext ?_ ?_⟩
  · ext name
    simp [pluginNames, cString, lowerCopy, or_and_right, exists_or]
    tauto
  · rintro file (h | h) <;> simp at h <;> subst h <;> decide
  · rintro file (h | h) <;> simp at h
    rcases h with rfl | rfl | rfl <;> decide

end ModFingerprint
end CommonwealthMP
