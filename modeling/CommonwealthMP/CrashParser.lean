import CommonwealthMP.ByteLayout
import CommonwealthMP.LineTexts
import CommonwealthMP.QuotedText
import CommonwealthMP.Utf8Text

/-! # Reading a crash text

The reporter reads the text of a crash line by line, with three switches for the section it is in. -/
namespace CommonwealthMP
open ByteLayout LineTexts
namespace Crash

/-- White space in UTF-8. -/
def blanks : List Bytes :=
  [32] :: [[9], [10], [11], [12], [13], [0xC2, 0x85], [0xC2, 0xA0], [0xE1, 0x9A, 0x80],
    [0xE2, 0x80, 0x80], [0xE2, 0x80, 0x81], [0xE2, 0x80, 0x82], [0xE2, 0x80, 0x83], [0xE2, 0x80, 0x84],
    [0xE2, 0x80, 0x85], [0xE2, 0x80, 0x86], [0xE2, 0x80, 0x87], [0xE2, 0x80, 0x88], [0xE2, 0x80, 0x89],
    [0xE2, 0x80, 0x8A], [0xE2, 0x80, 0xA8], [0xE2, 0x80, 0xA9], [0xE2, 0x80, 0xAF], [0xE2, 0x81, 0x9F],
    [0xE3, 0x80, 0x80]]

def trimBlanks (s : Bytes) : Bytes := trim blanks s

def startsWith (pat line : Bytes) : Bool := pat.isPrefixOf line

/-- `trim_start_matches` with one text -/
def afterAll (pat line : Bytes) : Bytes := stripFront [pat] line

def splitOnce (pat s : Bytes) : Option (Bytes × Bytes) := (QuotedText.after pat s).map fun rest => (before pat s, rest)

structure CrashReport where
  origin : Bytes := []
  timestamp : Bytes := []
  pluginVersion : Bytes := []
  f4seVersion : Bytes := []
  codeName : Bytes := []
  codeHex : Bytes := []
  why : Bytes := []
  whereAddr : Bytes := []
  rip : Bytes := []
  lastNotes : List Bytes := []
  stack : List Bytes := []
  modules : List Bytes := []
  minidumpPath : Bytes := []
  raw : Bytes := []
  deriving DecidableEq, Repr

structure ParseState where
  report : CrashReport
  inNotes : Bool := false
  inStack : Bool := false
  inModules : Bool := false
  deriving DecidableEq, Repr

def originHead : Bytes := ascii "CommonwealthMP crash origin="

def readOrigin (r : CrashReport) (line : Bytes) : CrashReport :=
  let rest := afterAll originHead line
  { r with
    origin := before [32] rest
    timestamp := match QuotedText.after [32] rest with
      | some ts => trimBlanks (before (ascii " tid=") ts)
      | none => r.timestamp }

def readPlugin (r : CrashReport) (line : Bytes) : CrashReport :=
  let rest := afterAll (ascii "plugin ") line
  match splitOnce (ascii " f4se ") rest with
  | some (plug, f4se) => { r with pluginVersion := trimBlanks plug, f4seVersion := trimBlanks f4se }
  | none => { r with pluginVersion := trimBlanks rest }

def readCode (r : CrashReport) (line : Bytes) : CrashReport :=
  let parts := words blanks (trimBlanks (afterAll (ascii "code ") line))
  { r with codeName := parts.getD 0 [], codeHex := parts.getD 1 [] }

def readRip (r : CrashReport) (line : Bytes) : CrashReport :=
  let rest := trimBlanks (afterAll (ascii "rip ") line)
  let rip := (words blanks rest).headD rest
  { r with rip := rip, whereAddr := if r.whereAddr = [] then rip else r.whereAddr }

/-- A line of no kind of its own, in the section that is on. -/
def sectionLine (s : ParseState) (line : Bytes) : ParseState :=
  let t := trimBlanks line
  if s.inNotes then
    if t = [] then s
    else { s with report.lastNotes := s.report.lastNotes ++ [stripFront [[32], [45], [42]] t] }
  else if s.inStack then
    if t = [] then s
    else if startsWith (ascii "modules") t then { s with inStack := false, inModules := true }
    else { s with report.stack := s.report.stack ++ [t] }
  else if s.inModules then
    if t = [] then s else { s with report.modules := s.report.modules ++ [t] }
  else s

def parseLine (s : ParseState) (line : Bytes) : ParseState :=
  if startsWith originHead line then ⟨readOrigin s.report line, false, false, false⟩
  else if startsWith (ascii "plugin ") line then { s with report := readPlugin s.report line }
  else if startsWith (ascii "code ") line then { s with report := readCode s.report line }
  else if startsWith (ascii "why ") line then { s with report.why := trimBlanks (afterAll (ascii "why ") line) }
  else if startsWith (ascii "addr ") line then { s with report.whereAddr := trimBlanks (afterAll (ascii "addr ") line) }
  else if startsWith (ascii "rip ") line then { s with report := readRip s.report line }
  else if startsWith (ascii "minidump ") line then
    { s with report.minidumpPath := trimBlanks (afterAll (ascii "minidump ") line) }
  else if startsWith (ascii "notes") line then ⟨s.report, true, false, false⟩
  else if trimBlanks line = ascii "stack:" then ⟨s.report, false, true, false⟩
  else if startsWith (ascii "modules:") line ∨ trimBlanks line = ascii "modules" then ⟨s.report, false, false, true⟩
  else sectionLine s line

/-- What the search for notes elsewhere takes from a line. -/
def noteElsewhere (line : Bytes) : Option Bytes :=
  if ascii "note" <:+: line then
    ((QuotedText.afterMark 58 line).map trimBlanks).filter (· ≠ [])
  else none

/-- A `str` is in UTF-8, so the texts that are looked for can be found byte by byte. -/
def parseCrashText (raw : Bytes) : CrashReport :=
  let report := ((lines 10 13 raw).foldl parseLine ⟨{ raw := raw }, false, false, false⟩).report
  if report.lastNotes = [] then
    { report with lastNotes := report.lastNotes ++ (lines 10 13 raw).filterMap noteElsewhere }
  else report

/-- `parse_crash_txt` on the bytes of the file: `read_to_string` fails where they are not in UTF-8. -/
def parseCrashTxt (raw : Bytes) : Option CrashReport := if Utf8.Valid raw then some (parseCrashText raw) else none

/-- A property of every letter of a text, by evaluation. -/
theorem forall_mem_of_all {p : UInt8 → Prop} [DecidablePred p] {s : Bytes} (h : s.all (fun c => decide (p c)) = true) :
    ∀ c ∈ s, p c :=
  fun c hc => of_decide_eq_true (List.all_eq_true.mp h c hc)

/-- The letters of a text that stands in the program need no decoding. -/
theorem forall_ascii {p : UInt8 → Prop} [DecidablePred p] {l : List Char}
    (h : (l.all fun c => decide (p (UInt8.ofNat c.toNat))) = true) : ∀ c ∈ ascii (String.ofList l), p c := by
  intro c hc
  rw [ascii, String.toList_ofList] at hc
  obtain ⟨d, hd, rfl⟩ := List.mem_map.mp hc
  exact of_decide_eq_true (List.all_eq_true.mp h d hd)

/-- A letter that prints and is no blank. -/
def IsPlain (c : UInt8) : Prop := 33 ≤ c ∧ c ≤ 126

theorem nil_notMem_blanks : ([] : Bytes) ∉ blanks := by decide

theorem not_isPlain_blank : ∀ p ∈ blanks, ∀ c ∈ p, ¬ IsPlain c := by
  unfold IsPlain
  have hall : ∀ p ∈ blanks, p.all (fun c => decide ¬ (33 ≤ c ∧ c ≤ 126)) = true := by decide
  exact fun p hp => forall_mem_of_all (hall p hp)

theorem startsNone_of_isPlain {c : UInt8} (h : IsPlain c) : StartsNone blanks c := by
  intro p hp s hpre
  cases p with
  | nil => exact nil_notMem_blanks hp
  | cons d p =>
    rw [List.cons_prefix_cons] at hpre
    exact not_isPlain_blank _ hp d List.mem_cons_self (hpre.1 ▸ h)

theorem isPlain_notMem_blanks {c : UInt8} (h : IsPlain c) : ∀ p ∈ blanks, c ∉ p := fun p hp hc =>
  not_isPlain_blank p hp c hc h

theorem front_of_isPlain {w : Bytes} (hw : ∀ c ∈ w, IsPlain c) (hne : w ≠ []) (s : Bytes) :
    ∀ p ∈ blanks, ¬ p <+: w ++ s := by
  obtain ⟨c, w, rfl⟩ := List.exists_cons_of_ne_nil hne
  exact fun p hp => startsNone_of_isPlain (hw c List.mem_cons_self) p hp _

theorem back_of_isPlain {w : Bytes} (hw : ∀ c ∈ w, IsPlain c) (hne : w ≠ []) (s : Bytes) :
    ∀ p ∈ blanks, ¬ p <:+ s ++ w := by
  intro p hp hsuf
  have hp0 : p ≠ [] := fun h0 => nil_notMem_blanks (h0 ▸ hp)
  have hlast := hsuf.getLast hp0
  rw [List.getLast_append_of_ne_nil _ hne] at hlast
  exact not_isPlain_blank p hp _ (List.getLast_mem hp0) (hlast ▸ hw _ (List.getLast_mem hne))

end Crash
end CommonwealthMP
