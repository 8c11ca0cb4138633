import CommonwealthMP.ByteLayout
import Mathlib.Data.Nat.Digits.Lemmas

/-! # Crash notes and exception codes

The plugin keeps the last lines it noted in a ring of buffers. -/
namespace CommonwealthMP
open ByteLayout
namespace Crash

def kNoteCount : ℕ := 24
def kNoteLen : ℕ := 120

def hexDigit (d : ℕ) : UInt8 := UInt8.ofNat (if d < 10 then 48 + d else 55 + d)

/-- `%llX` -/
def hex (n : ℕ) : Bytes := if n = 0 then [48] else ((Nat.digits 16 n).map hexDigit).reverse

/-- `%0wX` -/
def hexPadded (w n : ℕ) : Bytes := List.replicate (w - (hex n).length) 48 ++ hex n

/-- A digit or a capital letter. -/
def isHexDigit (c : UInt8) : Bool := (48 ≤ c && c ≤ 57) || (65 ≤ c && c ≤ 70)

theorem isHexDigit_hexDigit {d : ℕ} (h : d < 16) : isHexDigit (hexDigit d) = true := by
  interval_cases d <;> decide

theorem isHexDigit_of_mem {n : ℕ} {c : UInt8} (h : c ∈ hex n) : isHexDigit c = true := by
  unfold hex at h
  split at h
  · rw [List.mem_singleton.mp h]
    decide
  · rw [List.mem_reverse, List.mem_map] at h
    obtain ⟨d, hd, rfl⟩ := h
    exact isHexDigit_hexDigit (Nat.digits_lt_base (by decide) hd)

theorem hex_ne_nil (n : ℕ) : hex n ≠ [] := by
  unfold hex
  split
  · exact List.cons_ne_nil _ _
  · rename_i h
    rw [Ne, List.reverse_eq_nil_iff, List.map_eq_nil_iff]
    exact Nat.digits_ne_nil_iff_ne_zero.mpr h

structure ExceptionRecord where
  exceptionCode : UInt32
  exceptionAddress : UInt64 := 0
  numberParameters : UInt32 := 0
  exceptionInformation0 : UInt64 := 0
  exceptionInformation1 : UInt64 := 0
  deriving DecidableEq, Repr

def codeName (code : UInt32) : Bytes :=
  if code = 0xC0000005 then ascii "ACCESS_VIOLATION"
  else if code = 0xC0000006 then ascii "IN_PAGE_ERROR"
  else if code = 0xC000001D then ascii "ILLEGAL_INSTRUCTION"
  else if code = 0xC0000094 then ascii "INT_DIVIDE_BY_ZERO"
  else if code = 0xC00000FD then ascii "STACK_OVERFLOW"
  else if code = 0xC000008C then ascii "ARRAY_BOUNDS"
  else if code = 0xC0000096 then ascii "PRIV_INSTRUCTION"
  else if code = 0xC0000025 then ascii "NONCONTINUABLE"
  else if code = 0x80000002 then ascii "MISALIGNMENT"
  else if code = 0xC000008E then ascii "FLT_DIVIDE_BY_ZERO"
  else if code = 0xC0000374 then ascii "HEAP_CORRUPTION"
  else if code = 0xC0000409 then ascii "STACK_BUFFER_OVERRUN"
  else if code = 0x40000015 then ascii "FATAL_APP_EXIT"
  else if code = 0xE06D7363 then ascii "CPP_EXCEPTION"
  else ascii "EXCEPTION"

def isFatal (code : UInt32) : Bool :=
  code = 0xC0000005 || code = 0xC0000006 || code = 0xC000001D || code = 0xC0000094 || code = 0xC00000FD ||
    code = 0xC000008C || code = 0xC0000096 || code = 0xC0000025 || code = 0x80000002 || code = 0xC0000374 ||
    code = 0xC0000409 || code = 0x40000015

/-- `g_notes` and `g_noteSeq`; a buffer stands for the C string in it. -/
structure CrashNotes where
  notes : List Bytes := List.replicate kNoteCount []
  noteSeq : UInt32 := 0
  deriving DecidableEq, Repr

def crashNote (s : CrashNotes) : Option Bytes → CrashNotes
  | none => s
  | some what =>
    { notes := s.notes.set (s.noteSeq.toNat % kNoteCount) ((cString what).take (kNoteLen - 1))
      noteSeq := s.noteSeq + 1 }

/-- The notes that `WriteNotes` prints, in its order. -/
def writtenNotes (s : CrashNotes) : List Bytes :=
  let seq := s.noteSeq.toNat
  let n := if seq < kNoteCount then seq else kNoteCount
  (List.range n).map fun i => s.notes.getD ((seq - n + i) % kNoteCount) []

def recorded (whats : List Bytes) : CrashNotes := whats.foldl (fun s what => crashNote s (some what)) {}

/-- The line fits a buffer and has no end inside. -/
def Fits (what : Bytes) : Prop := what.length < kNoteLen ∧ 0 ∉ what

theorem cString_of_fits {what : Bytes} (h : Fits what) : (cString what).take (kNoteLen - 1) = what := by
  have hz := cString_append h.2 []
  rw [List.append_nil] at hz
  rw [hz, show cString [] = [] from rfl, List.append_nil]
  exact List.take_of_length_le (Nat.le_sub_one_of_lt h.1)

/-- The ring holds the last lines, each in the slot of its number. -/
structure Holds (s : CrashNotes) (whats : List Bytes) : Prop where
  noteSeq : s.noteSeq.toNat = whats.length
  length : s.notes.length = kNoteCount
  slot : ∀ i (h : i < whats.length), whats.length ≤ i + kNoteCount → s.notes.getD (i % kNoteCount) [] = whats[i]

theorem holds_recorded {whats : List Bytes} (hfits : ∀ what ∈ whats, Fits what) (hlen : whats.length < 2 ^ 32) :
    Holds (recorded whats) whats := by
  induction whats using List.reverseRecOn with
  | nil => exact ⟨rfl, by decide, fun i h => absurd h (Nat.not_lt_zero i)⟩
  | append_singleton whats what ih =>
    rw [List.length_append, List.length_singleton] at hlen
    obtain ⟨hseq, hlength, hslot⟩ := ih (fun w hw => hfits w (List.mem_append_left _ hw)) (Nat.lt_of_succ_lt hlen)
    have hstep : recorded (whats ++ [what]) =
        { notes := (recorded whats).notes.set (whats.length % kNoteCount) what, noteSeq := (recorded whats).noteSeq + 1 } := by
      rw [recorded, List.foldl_append, List.foldl_cons, List.foldl_nil, ← recorded, crashNote, hseq,
        cString_of_fits (hfits what (List.mem_append_right _ (List.mem_singleton.mpr rfl)))]
    have hpos : 0 < kNoteCount := by decide
    rw [hstep]
    refine ⟨?_, by rw [List.length_set, hlength], fun i hi hlast => ?_⟩
    · rw [UInt32.toNat_add, hseq, List.length_append, List.length_singleton]
      exact Nat.mod_eq_of_lt hlen
    · rw [List.length_append, List.length_singleton] at hi hlast
      by_cases hnew : i = whats.length
      · subst hnew
        have hin : whats.length % kNoteCount < (recorded whats).notes.length := by
          rw [hlength]
          exact Nat.mod_lt _ hpos
        simp [List.getD_eq_getElem?_getD, List.getElem?_set_self hin]
      · have hold : i < whats.length := by omega
        have hne : whats.length % kNoteCount ≠ i % kNoteCount := by
          intro he
          have hdvd := (Nat.modEq_iff_dvd' hold.le).mp he.symm
          have hle := Nat.le_of_dvd (by omega) hdvd
          omega
        rw [List.getElem_append_left hold, ← hslot i hold (by omega)]
        simp [List.getD_eq_getElem?_getD, List.getElem?_set_ne hne]

/-- What is printed is the last lines, in the order they were noted. -/
theorem writtenNotes_recorded {whats : List Bytes} (hfits : ∀ what ∈ whats, Fits what) (hlen : whats.length < 2 ^ 32) :
    writtenNotes (recorded whats) = whats.drop (whats.length - min kNoteCount whats.length) := by
  obtain ⟨hseq, -, hslot⟩ := holds_recorded hfits hlen
  have hn : (if whats.length < kNoteCount then whats.length else kNoteCount) = min kNoteCount whats.length := by
    rw [min_comm, Nat.min_def]
    split_ifs <;> omega
  rw [writtenNotes, hseq, hn]
  refine List.ext_getElem ?_ fun i hi _ => ?_
  · simp
    omega
  · rw [List.length_map, List.length_range] at hi
    rw [List.getElem_map, List.getElem_range, List.getElem_drop, hslot _ (by omega) (by omega)]

end Crash
end CommonwealthMP
