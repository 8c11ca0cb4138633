import CommonwealthMP.CrashLines

/-! # The reporter reads what the plugin writes

The reporter's state is followed along the lines of a crash: the lines before the sections leave the
sections empty, and each section collects its own lines. -/
namespace CommonwealthMP
open ByteLayout LineTexts
namespace Crash

/-- What a line of its own kind starts with. -/
def lineHeads : List Bytes :=
  [originHead, ascii "plugin ", ascii "code ", ascii "why ", ascii "addr ", ascii "rip ", ascii "minidump ",
    ascii "notes", ascii "modules:"]

theorem parseLine_of_headless {line : Bytes} (hheads : ∀ pat ∈ lineHeads, startsWith pat line = false)
    (hstack : trimBlanks line ≠ ascii "stack:") (hmodules : trimBlanks line ≠ ascii "modules") (s : ParseState) :
    parseLine s line = sectionLine s line := by
  simp only [lineHeads, List.forall_mem_cons] at hheads
  obtain ⟨h1, h2, h3, h4, h5, h6, h7, h8, h9, -⟩ := hheads
  have hm : ¬ (startsWith (ascii "modules:") line = true ∨ trimBlanks line = ascii "modules") := by
    rw [h9]
    exact not_or.mpr ⟨Bool.false_ne_true, hmodules⟩
  rw [parseLine, h1, h2, h3, h4, h5, h6, h7, h8, if_neg hstack, if_neg hm]
  rfl

/-- The two reports agree on what the sections and the first lines give. -/
structure Keeps (r r' : CrashReport) : Prop where
  origin : r'.origin = r.origin
  codeName : r'.codeName = r.codeName
  codeHex : r'.codeHex = r.codeHex
  lastNotes : r'.lastNotes = r.lastNotes
  stack : r'.stack = r.stack
  modules : r'.modules = r.modules

theorem Keeps.refl (r : CrashReport) : Keeps r r := ⟨rfl, rfl, rfl, rfl, rfl, rfl⟩

theorem Keeps.trans {r r' r'' : CrashReport} (h : Keeps r r') (h' : Keeps r' r'') : Keeps r r'' where
  origin := h'.origin.trans h.origin
  codeName := h'.codeName.trans h.codeName
  codeHex := h'.codeHex.trans h.codeHex
  lastNotes := h'.lastNotes.trans h.lastNotes
  stack := h'.stack.trans h.stack
  modules := h'.modules.trans h.modules

/-- Outside the sections the line changes nothing that is looked for. -/
def Quiet (line : Bytes) : Prop :=
  ∀ r, ∃ r', parseLine ⟨r, false, false, false⟩ line = ⟨r', false, false, false⟩ ∧ Keeps r r'

theorem foldl_parseLine_quiet {ls : List Bytes} (h : ∀ l ∈ ls, Quiet l) (r : CrashReport) :
    ∃ r', ls.foldl parseLine ⟨r, false, false, false⟩ = ⟨r', false, false, false⟩ ∧ Keeps r r' := by
  induction ls generalizing r with
  | nil => exact ⟨r, rfl, Keeps.refl r⟩
  | cons l ls ih =>
    obtain ⟨r₁, h₁, hk₁⟩ := h l List.mem_cons_self r
    obtain ⟨r₂, h₂, hk₂⟩ := ih (fun l' hl' => h l' (List.mem_cons_of_mem _ hl')) r₁
    exact ⟨r₂, by rw [List.foldl_cons, h₁, h₂], hk₁.trans hk₂⟩

theorem quiet_plugin (rest : Bytes) : Quiet (ascii "plugin " ++ rest) := by
  intro r
  refine ⟨readPlugin r (ascii "plugin " ++ rest), rfl, ?_⟩
  unfold readPlugin
  dsimp only
  split <;> exact ⟨rfl, rfl, rfl, rfl, rfl, rfl⟩

theorem quiet_why (rest : Bytes) : Quiet (ascii "why " ++ rest) := fun _ => ⟨_, rfl, rfl, rfl, rfl, rfl, rfl, rfl⟩

theorem quiet_addr (rest : Bytes) : Quiet (ascii "addr " ++ rest) := fun _ => ⟨_, rfl, rfl, rfl, rfl, rfl, rfl, rfl⟩

theorem quiet_rip (rest : Bytes) : Quiet (ascii "rip " ++ rest) := fun _ => ⟨_, rfl, rfl, rfl, rfl, rfl, rfl, rfl⟩

theorem trimBlanks_ne_marks {u w : Bytes} (hw : ∀ c ∈ w, isHexDigit c = true) (hne : w ≠ []) :
    trimBlanks (u ++ w) ≠ ascii "stack:" ∧ trimBlanks (u ++ w) ≠ ascii "modules" ∧ trimBlanks (u ++ w) ≠ [] := by
  obtain ⟨v, d, rfl⟩ : ∃ v d, w = v ++ [d] := ⟨w.dropLast, w.getLast hne, (List.dropLast_append_getLast hne).symm⟩
  have hd : isHexDigit d = true := hw d (List.mem_append_right v (List.mem_singleton.mpr rfl))
  obtain ⟨t, ht⟩ := trim_concat (isPlain_notMem_blanks (isPlain_of_isHexDigit hd).1) nil_notMem_blanks (u ++ v)
  rw [← List.append_assoc, trimBlanks, ht]
  have hlast : (t ++ [d]).getLast? = some d := List.getLast?_concat
  refine ⟨fun h => ?_, fun h => ?_, List.append_ne_nil_of_right_ne_nil _ (List.cons_ne_nil _ _)⟩
  · rw [h, show (ascii "stack:").getLast? = some 58 from rfl] at hlast
    rw [← Option.some.inj hlast] at hd
    exact absurd hd (by decide)
  · rw [h, show (ascii "modules").getLast? = some 115 from rfl] at hlast
    rw [← Option.some.inj hlast] at hd
    exact absurd hd (by decide)

theorem quiet_of_headless {u w : Bytes} (hheads : ∀ pat ∈ lineHeads, startsWith pat (u ++ w) = false)
    (hw : ∀ c ∈ w, isHexDigit c = true) (hne : w ≠ []) : Quiet (u ++ w) := by
  obtain ⟨hstack, hmodules, -⟩ := trimBlanks_ne_marks (u := u) hw hne
  exact fun r => ⟨r, by rw [parseLine_of_headless hheads hstack hmodules, sectionLine]; rfl, Keeps.refl r⟩

theorem quiet_access (record : ExceptionRecord) : ∀ l ∈ accessLines record, Quiet l := by
  intro l hl
  rw [accessLines] at hl
  split at hl
  · rw [List.mem_singleton.mp hl]
    refine quiet_of_headless ?_ (fun _ => isHexDigit_of_mem) (hex_ne_nil _)
    simp only [lineHeads, List.forall_mem_cons]
    split <;> exact ⟨rfl, rfl, rfl, rfl, rfl, rfl, rfl, rfl, rfl, fun _ h => absurd h List.not_mem_nil⟩
  · exact absurd hl List.not_mem_nil

theorem quiet_register (c : Context) : Quiet (registerLine c) := by
  refine quiet_of_headless ?_ (fun _ => isHexDigit_of_mem) (hex_ne_nil _)
  simp only [lineHeads, List.forall_mem_cons]
  exact ⟨rfl, rfl, rfl, rfl, rfl, rfl, rfl, rfl, rfl, fun _ h => absurd h List.not_mem_nil⟩

theorem quiet_context (scene : CrashScene) : ∀ l ∈ contextLines scene, Quiet l := by
  intro l hl
  rw [contextLines] at hl
  cases hc : scene.context with
  | none =>
    rw [hc] at hl
    exact absurd hl List.not_mem_nil
  | some c =>
    simp only [hc, List.mem_cons, List.not_mem_nil, or_false] at hl
    rcases hl with rfl | rfl
    · exact quiet_rip _
    · exact quiet_register c

theorem readOrigin_header (scene : CrashScene) (r : CrashReport) :
    (readOrigin r (headerLine scene)).origin = scene.origin.text := by
  have hrest : ¬ originHead <+: scene.origin.text ++ 32 :: headerStamp scene := by
    rw [← List.isPrefixOf_iff_prefix, Bool.not_eq_true]
    cases scene.origin <;> rfl
  have hblank : 32 ∉ scene.origin.text := by cases scene.origin <;> decide
  rw [readOrigin, headerLine, afterAll, stripFront_append (by decide) hrest]
  exact before_append hblank _

def IsNameText (s : Bytes) : Prop := s ≠ [] ∧ ∀ c ∈ s, IsPlain c ∧ c ≠ 99

theorem isNameText_codeName (code : UInt32) : IsNameText (codeName code) := by
  unfold codeName
  repeat' apply choose_of (P := IsNameText)
  all_goals
    unfold IsNameText IsPlain
    exact ⟨by decide, forall_ascii (by decide)⟩

theorem readCode_line (r : CrashReport) (code : UInt32) :
    readCode r (ascii "code " ++ codeName code ++ ascii " " ++ hex code.toNat) =
      { r with codeName := codeName code, codeHex := hex code.toNat } := by
  obtain ⟨hne, hletters⟩ := isNameText_codeName code
  have hname : ∀ c ∈ codeName code, IsPlain c := fun c hc => (hletters c hc).1
  have hhex : ∀ c ∈ hex code.toNat, IsPlain c := fun c hc => (isPlain_of_isHexDigit (isHexDigit_of_mem hc)).1
  have hagain : ¬ ascii "code " <+: codeName code ++ 32 :: hex code.toNat := by
    obtain ⟨c, w, hcw⟩ := List.exists_cons_of_ne_nil hne
    intro hpre
    rw [hcw] at hpre hletters
    exact (hletters c List.mem_cons_self).2 (List.cons_prefix_cons.mp hpre).1.symm
  have hline : ascii "code " ++ codeName code ++ ascii " " ++ hex code.toNat =
      ascii "code " ++ (codeName code ++ 32 :: hex code.toNat) := by
    rw [List.append_assoc, List.append_assoc]
    rfl
  have htrim : trimBlanks (codeName code ++ 32 :: hex code.toNat) = codeName code ++ 32 :: hex code.toNat := by
    refine trim_eq_self ⟨front_of_isPlain hname hne _, ?_⟩
    rw [List.append_cons]
    exact back_of_isPlain hhex (hex_ne_nil _) _
  have hwords : words blanks (codeName code ++ 32 :: hex code.toNat) = [codeName code, hex code.toNat] := by
    rw [blanks, words_cons (fun c hc => startsNone_of_isPlain (hname c hc)) hne, ← blanks,
      words_singleton (fun c hc => startsNone_of_isPlain (hhex c hc)) (hex_ne_nil _)]
  rw [readCode, hline, afterAll, stripFront_append (by decide) hagain, htrim, hwords]
  rfl

theorem trimBlanks_indented (t : Bytes) : trimBlanks (indented t) = trimBlanks t :=
  (trim_cons 32 _ (32 :: t)).trans (trim_cons 32 _ t)

theorem parseLine_indented {t : Bytes} (hstack : trimBlanks t ≠ ascii "stack:") (hmodules : trimBlanks t ≠ ascii "modules")
    (s : ParseState) : parseLine s (indented t) = sectionLine s (indented t) := by
  refine parseLine_of_headless ?_ (by rwa [trimBlanks_indented]) (by rwa [trimBlanks_indented]) s
  simp only [lineHeads, List.forall_mem_cons]
  exact ⟨rfl, rfl, rfl, rfl, rfl, rfl, rfl, rfl, rfl, fun _ h => absurd h List.not_mem_nil⟩

/-- A line that can be noted: a line of its own that fits a buffer, with no mark of the sections. -/
structure NoteLine (what : Bytes) : Prop where
  nonempty : what ≠ []
  short : what.length ≤ 119
  noEnd : 0 ∉ what
  oneLine : 10 ∉ what
  unpadded : Unpadded blanks what
  noDash : what.head? ≠ some 45
  noStar : what.head? ≠ some 42
  notStack : what ≠ ascii "stack:"
  notModules : what ≠ ascii "modules"
  notModulesLine : ¬ ascii "modules:" <+: what

theorem NoteLine.fits {what : Bytes} (h : NoteLine what) : Fits what := ⟨Nat.lt_succ_of_le h.short, h.noEnd⟩

theorem NoteLine.bare {what : Bytes} (h : NoteLine what) : stripFront [[32], [45], [42]] what = what := by
  apply stripFront_eq_self
  have hhead : ∀ c : UInt8, [c] <+: what → what.head? = some c := by
    rintro c ⟨t, rfl⟩
    rfl
  intro p hp hpre
  simp only [List.mem_cons, List.not_mem_nil, or_false] at hp
  rcases hp with rfl | rfl | rfl
  · exact h.unpadded.front [32] List.mem_cons_self hpre
  · exact h.noDash (hhead 45 hpre)
  · exact h.noStar (hhead 42 hpre)

theorem parseLine_note {what : Bytes} (h : NoteLine what) {s : ParseState} (hs : s.inNotes = true) :
    parseLine s (indented what) = { s with report.lastNotes := s.report.lastNotes ++ [what] } := by
  have htrim : trimBlanks what = what := trim_eq_self h.unpadded
  have hline : trimBlanks (indented what) = what := (trimBlanks_indented what).trans htrim
  rw [parseLine_indented (by rw [htrim]; exact h.notStack) (by rw [htrim]; exact h.notModules), sectionLine, hs, hline]
  dsimp only
  rw [if_pos rfl, if_neg h.nonempty, h.bare]

theorem foldl_parseLine_notes {ls : List Bytes} (h : ∀ l ∈ ls, NoteLine l) {s : ParseState} (hs : s.inNotes = true) :
    (ls.map indented).foldl parseLine s = { s with report.lastNotes := s.report.lastNotes ++ ls } := by
  induction ls generalizing s with
  | nil => rw [List.append_nil]; rfl
  | cons l ls ih =>
    rw [List.map_cons, List.foldl_cons, parseLine_note (h l List.mem_cons_self) hs,
      ih (fun l' hl' => h l' (List.mem_cons_of_mem _ hl')) (by exact hs), List.append_assoc]
    rfl

theorem foldl_parseLine_modules {ls : List Bytes} (h : ∀ l ∈ ls, ∃ u w, l = u ++ w ∧ (∀ c ∈ w, isHexDigit c = true) ∧ w ≠ [])
    {s : ParseState} (hn : s.inNotes = false) (hs : s.inStack = false) (hm : s.inModules = true) :
    (ls.map indented).foldl parseLine s = { s with report.modules := s.report.modules ++ ls.map trimBlanks } := by
  induction ls generalizing s with
  | nil => rw [List.map_nil, List.map_nil, List.append_nil, List.foldl_nil]
  | cons l ls ih =>
    obtain ⟨u, w, rfl, hw, hne⟩ := h l List.mem_cons_self
    obtain ⟨hstack, hmodules, hnil⟩ := trimBlanks_ne_marks (u := u) hw hne
    have hstep : parseLine s (indented (u ++ w)) =
        { s with report.modules := s.report.modules ++ [trimBlanks (u ++ w)] } := by
      rw [parseLine_indented hstack hmodules, sectionLine, hn, hs, hm, trimBlanks_indented]
      dsimp only
      rw [if_neg Bool.false_ne_true, if_neg Bool.false_ne_true, if_pos rfl, if_neg hnil]
    rw [List.map_cons, List.foldl_cons, hstep, ih (fun l' hl' => h l' (List.mem_cons_of_mem _ hl')) (by exact hn)
      (by exact hs) (by exact hm), List.append_assoc, List.map_cons]
    rfl

theorem foldl_parseLine_stack {ls : List Bytes}
    (h : ∀ l ∈ ls, ∃ u m w, l = u ++ m ++ w ∧ (∀ c ∈ u, isHexDigit c = true) ∧ u ≠ [] ∧ (∀ c ∈ w, isHexDigit c = true) ∧ w ≠ [])
    {s : ParseState} (hn : s.inNotes = false) (hs : s.inStack = true) :
    (ls.map indented).foldl parseLine s = { s with report.stack := s.report.stack ++ ls } := by
  induction ls generalizing s with
  | nil => rw [List.map_nil, List.append_nil, List.foldl_nil]
  | cons l ls ih =>
    obtain ⟨u, m, w, rfl, hu, hu0, hw, hw0⟩ := h l List.mem_cons_self
    have hplain (x : Bytes) (hx : ∀ c ∈ x, isHexDigit c = true) : ∀ c ∈ x, IsPlain c := fun c hc =>
      (isPlain_of_isHexDigit (hx c hc)).1
    have htrim : trimBlanks (u ++ m ++ w) = u ++ m ++ w := by
      refine trim_eq_self ⟨?_, back_of_isPlain (hplain w hw) hw0 _⟩
      rw [List.append_assoc]
      exact front_of_isPlain (hplain u hu) hu0 _
    have hstart : startsWith (ascii "modules") (u ++ m ++ w) = false := by
      obtain ⟨c, u, rfl⟩ := List.exists_cons_of_ne_nil hu0
      have hc : (109 == c) = false := by
        refine beq_false_of_ne fun he => ?_
        exact absurd (hu c List.mem_cons_self) (by rw [← he]; decide)
      show ((109 == c) && _) = false
      rw [hc, Bool.false_and]
    obtain ⟨hstack, hmodules, hnil⟩ := trimBlanks_ne_marks (u := u ++ m) hw hw0
    have hstep : parseLine s (indented (u ++ m ++ w)) = { s with report.stack := s.report.stack ++ [u ++ m ++ w] } := by
      rw [parseLine_indented hstack hmodules, sectionLine, hn, hs, trimBlanks_indented]
      rw [htrim] at hnil ⊢
      dsimp only
      rw [if_neg Bool.false_ne_true, if_pos rfl, if_neg hnil, hstart, if_neg Bool.false_ne_true]
    rw [List.map_cons, List.foldl_cons, hstep, ih (fun l' hl' => h l' (List.mem_cons_of_mem _ hl')) (by exact hn)
      (by exact hs), List.append_cons s.report.stack (u ++ m ++ w) ls]

/-- The path reads like a line about a note: it names one and has text after a colon. -/
def NamesNote (path : Bytes) : Prop :=
  ascii "note" <:+: path ∧ ∃ rest, QuotedText.afterMark 58 path = some rest ∧ trimBlanks rest ≠ []

theorem noteElsewhere_eq_none_iff {line : Bytes} : noteElsewhere line = none ↔ ¬ NamesNote line := by
  unfold noteElsewhere NamesNote
  split_ifs with hnote
  · rw [Option.filter_eq_none_iff]
    simp [hnote]
  · simp [hnote]

theorem noteElsewhere_of_noColon {line : Bytes} (h : 58 ∉ line) : noteElsewhere line = none := by
  rw [noteElsewhere_eq_none_iff]
  rintro ⟨-, rest, hrest, -⟩
  rw [QuotedText.afterMark_eq_none h] at hrest
  cases hrest

/-- The line ends where it should and is not taken for a note. -/
structure Harmless (line : Bytes) : Prop where
  printed : ∀ c ∈ line, 32 ≤ c
  noNote : noteElsewhere line = none

theorem Tame.harmless {line : Bytes} (h : Tame line) : Harmless line where
  printed c hc := (h c hc).1
  noNote := noteElsewhere_of_noColon fun hc => (h 58 hc).2 rfl

theorem harmless_plugin (scene : CrashScene) : Harmless (pluginLine scene) :=
  Tame.harmless ((((tame_ascii (by decide)).append (tame_version _)).append (tame_ascii (by decide))).append
    (tame_version _))

theorem tame_placeLine (scene : CrashScene) (addr : UInt64) : Tame (placeLine scene addr) :=
  ((tame_hex _).append (tame_ascii (by decide))).append (tame_formatModAddr scene addr)

/-- One of the texts names `REX::FAIL`. -/
theorem whyText_cases (record : ExceptionRecord) : Tame (whyText record) ∨
    whyText record = ascii "The process aborted (Address Library mismatch or REX::FAIL)." := by
  have tame {s : Bytes} (h : Tame s) : Tame (s.take 319) ∨
      s.take 319 = ascii "The process aborted (Address Library mismatch or REX::FAIL)." := .inl (h.take _)
  unfold whyText
  dsimp only
  repeat' apply choose_of (P := fun s => Tame (s.take 319) ∨
    s.take 319 = ascii "The process aborted (Address Library mismatch or REX::FAIL).")
  · refine tame (((tame_ascii (by decide)).append ?_).append (tame_ascii (by decide)))
    repeat' apply choose_of (P := Tame)
    all_goals exact tame_ascii (by decide)
  · refine tame (((((tame_ascii (by decide)).append ?_).append (tame_ascii (by decide))).append
      (tame_hex _)).append (tame_ascii (by decide)))
    repeat' apply choose_of (P := Tame)
    all_goals exact tame_ascii (by decide)
  · exact tame (tame_ascii (by decide))
  · exact tame (tame_ascii (by decide))
  · exact tame (tame_ascii (by decide))
  · exact tame (tame_ascii (by decide))
  · exact tame (tame_ascii (by decide))
  · exact tame (tame_ascii (by decide))
  · exact tame (tame_ascii (by decide))
  · exact .inr rfl
  · exact tame (tame_ascii (by decide))
  · exact tame (((((tame_ascii (by decide)).append (tame_codeName _)).append
      (tame_ascii (by decide))).append (tame_hexPadded _ _)).append (tame_ascii (by decide)))

theorem harmless_why (record : ExceptionRecord) : Harmless (ascii "why " ++ whyText record) := by
  rcases whyText_cases record with h | h
  · exact Tame.harmless ((tame_ascii (by decide)).append h)
  · rw [h]
    exact ⟨List.forall_mem_append.mpr ⟨forall_ascii (by decide), forall_ascii (by decide)⟩, by decide +kernel⟩

theorem harmless_access (record : ExceptionRecord) : ∀ l ∈ accessLines record, Harmless l := by
  intro l hl
  rw [accessLines] at hl
  split at hl
  · rw [List.mem_singleton.mp hl]
    refine Tame.harmless (Tame.append ?_ (tame_hex _))
    apply choose_of (P := Tame) <;> exact tame_ascii (by decide)
  · exact absurd hl List.not_mem_nil

theorem harmless_record (scene : CrashScene) (record : ExceptionRecord) : ∀ l ∈ recordLines scene record, Harmless l := by
  intro l hl
  simp only [recordLines, List.mem_append, List.mem_cons, List.not_mem_nil, or_false] at hl
  rcases hl with ((rfl | rfl) | hl) | rfl
  · exact Tame.harmless ((((tame_ascii (by decide)).append (tame_codeName _)).append (tame_ascii (by decide))).append
      (tame_hex _))
  · exact Tame.harmless ((tame_ascii (by decide)).append (tame_placeLine scene _))
  · exact harmless_access record l hl
  · exact harmless_why record

theorem harmless_context (scene : CrashScene) : ∀ l ∈ contextLines scene, Harmless l := by
  intro l hl
  rw [contextLines] at hl
  cases hc : scene.context with
  | none =>
    rw [hc] at hl
    exact absurd hl List.not_mem_nil
  | some c =>
    simp only [hc, List.mem_cons, List.not_mem_nil, or_false] at hl
    rcases hl with rfl | rfl
    · exact Tame.harmless ((tame_ascii (by decide)).append (tame_placeLine scene _))
    · exact Tame.harmless (((((((((tame_ascii (by decide)).append (tame_hex _)).append (tame_ascii (by decide))).append
        (tame_hex _)).append (tame_ascii (by decide))).append (tame_hex _)).append (tame_ascii (by decide))).append (tame_hex _)).append
        (tame_ascii (by decide)) |>.append (tame_hex _))

theorem notMem_decimalPadded {c : UInt8} (hc : ¬ IsDigit c) (w n : ℕ) : c ∉ decimalPadded w n := by
  intro h
  rcases List.mem_append.mp h with h | h
  · rw [List.eq_of_mem_replicate h] at hc
    exact hc ⟨by decide, by decide⟩
  · exact hc (decimal_isDigit h)

theorem printed_headerStamp (scene : CrashScene) : ∀ c ∈ headerStamp scene, 32 ≤ c := by
  have hpadded (w n : ℕ) : ∀ c ∈ decimalPadded w n, 32 ≤ c := fun c hc =>
    (((tame_replicate_zero _).append (tame_decimal n)) c hc).1
  have hdecimal (n : ℕ) : ∀ c ∈ decimal n, 32 ≤ c := fun c hc => (tame_decimal n c hc).1
  simp only [headerStamp, List.forall_mem_append]
  and_intros
  all_goals first
    | exact hpadded _ _
    | exact hdecimal _
    | exact forall_ascii (by decide)

theorem harmless_header (scene : CrashScene) : Harmless (headerLine scene) := by
  have horigin : ∀ c ∈ scene.origin.text, 32 ≤ c := by cases scene.origin <;> exact forall_ascii (by decide)
  have hletter : ¬ IsDigit 111 := fun h => absurd h.2 (by decide)
  have hstamp : 111 ∉ headerStamp scene := by
    have hdecimal : 111 ∉ decimal scene.threadId.toNat := fun h => hletter (decimal_isDigit h)
    simp only [headerStamp, List.mem_append, not_or, notMem_decimalPadded hletter, hdecimal, not_false_eq_true, and_true]
    decide
  refine ⟨?_, ?_⟩
  · rw [headerLine, List.forall_mem_append, List.forall_mem_append, List.forall_mem_cons]
    exact ⟨forall_ascii (by decide), horigin, by decide, printed_headerStamp scene⟩
  · rw [noteElsewhere_eq_none_iff]
    rintro ⟨hnote, -⟩
    rw [headerLine, ← List.append_assoc] at hnote
    rcases infix_append_cons (by decide) hnote with h | h
    · revert h
      cases scene.origin <;> decide
    · exact hstamp (h.subset (by decide))

theorem length_baseName_lt (path : ModulePath) : (baseName path.bytes).length < 260 := by
  refine lt_of_le_of_lt ?_ path.fits
  rw [baseName, List.length_reverse]
  exact (List.takeWhile_sublist _).length_le.trans_eq (List.length_reverse)

theorem formatModAddr_none {scene : CrashScene} {addr : UInt64} (h : scene.moduleAt addr = none) :
    formatModAddr scene addr = writeHex addr := by
  rw [formatModAddr, h]
  exact List.take_of_length_le ((length_writeHex_le addr).trans (by decide))

theorem formatModAddr_some {scene : CrashScene} {addr base : UInt64} {path : ModulePath}
    (h : scene.moduleAt addr = some (path, base)) :
    formatModAddr scene addr = baseName path.bytes ++ ascii "+" ++ writeHex (addr - base) := by
  rw [formatModAddr, h]
  refine List.take_of_length_le ?_
  have hbase := length_baseName_lt path
  have hoffset := length_writeHex_le (addr - base)
  rw [List.length_append, List.length_append, show (ascii "+").length = 1 from rfl]
  omega

theorem formatModAddr_ends (scene : CrashScene) (addr : UInt64) : ∃ m n, formatModAddr scene addr = m ++ hex n := by
  cases h : scene.moduleAt addr with
  | none => exact ⟨[], addr.toNat, formatModAddr_none h⟩
  | some found => exact ⟨_, _, formatModAddr_some h⟩

structure Headed (scene : CrashScene) (record : ExceptionRecord) (r : CrashReport) : Prop where
  origin : r.origin = scene.origin.text
  codeName : r.codeName = codeName record.exceptionCode
  codeHex : r.codeHex = hex record.exceptionCode.toNat
  lastNotes : r.lastNotes = []
  stack : r.stack = []
  modules : r.modules = []

def headLines (scene : CrashScene) (record : ExceptionRecord) : List Bytes :=
  [headerLine scene, pluginLine scene] ++ recordLines scene record ++ contextLines scene

theorem foldl_parseLine_head (scene : CrashScene) (record : ExceptionRecord) (raw : Bytes) :
    ∃ r, (headLines scene record).foldl parseLine ⟨{ raw := raw }, false, false, false⟩ = ⟨r, false, false, false⟩ ∧
      Headed scene record r := by
  have hquiet : ∀ l ∈ (ascii "addr " ++ placeLine scene record.exceptionAddress) :: accessLines record ++
      (ascii "why " ++ whyText record) :: contextLines scene, Quiet l := by
    intro l hl
    simp only [List.mem_append, List.mem_cons] at hl
    rcases hl with (rfl | hl) | rfl | hl
    · exact quiet_addr _
    · exact quiet_access record l hl
    · exact quiet_why _
    · exact quiet_context scene l hl
  have hlines : headLines scene record = headerLine scene :: pluginLine scene ::
      (ascii "code " ++ codeName record.exceptionCode ++ ascii " " ++ hex record.exceptionCode.toNat) ::
      ((ascii "addr " ++ placeLine scene record.exceptionAddress) :: accessLines record ++
        (ascii "why " ++ whyText record) :: contextLines scene) := by
    simp [headLines, recordLines]
  have hheader : parseLine ⟨{ raw := raw }, false, false, false⟩ (headerLine scene) =
      ⟨readOrigin { raw := raw } (headerLine scene), false, false, false⟩ := rfl
  obtain ⟨r₁, h₁, hk₁⟩ := quiet_plugin (scene.pluginVersion.bytes ++ (ascii " f4se " ++ scene.f4seVersion.bytes))
    (readOrigin { raw := raw } (headerLine scene))
  have hplugin : parseLine ⟨readOrigin { raw := raw } (headerLine scene), false, false, false⟩ (pluginLine scene) =
      ⟨r₁, false, false, false⟩ := by
    rw [pluginLine, List.append_assoc, List.append_assoc]
    exact h₁
  have hcode : parseLine ⟨r₁, false, false, false⟩
      (ascii "code " ++ codeName record.exceptionCode ++ ascii " " ++ hex record.exceptionCode.toNat) =
      ⟨{ r₁ with codeName := codeName record.exceptionCode, codeHex := hex record.exceptionCode.toNat },
        false, false, false⟩ := by
    rw [← readCode_line]
    rfl
  obtain ⟨r₂, h₂, hk₂⟩ := foldl_parseLine_quiet hquiet
    { r₁ with codeName := codeName record.exceptionCode, codeHex := hex record.exceptionCode.toNat }
  refine ⟨r₂, by rw [hlines, List.foldl_cons, hheader, List.foldl_cons, hplugin, List.foldl_cons, hcode, h₂], ?_⟩
  exact ⟨hk₂.origin.trans (hk₁.origin.trans (readOrigin_header scene _)), hk₂.codeName, hk₂.codeHex,
    hk₂.lastNotes.trans hk₁.lastNotes, hk₂.stack.trans hk₁.stack, hk₂.modules.trans hk₁.modules⟩

def minidumpLine (scene : CrashScene) : Bytes := ascii "minidump " ++ scene.dmpPath.bytes

/-- What is read from the lines, before the search for notes elsewhere. -/
theorem foldl_parseLine_crash {notes : CrashNotes} (scene : CrashScene) (record : ExceptionRecord) (raw : Bytes)
    (hnotes : ∀ l ∈ writtenNotes notes, NoteLine l) :
    ∃ r, Headed scene record r ∧ ((crashLines notes scene record).foldl parseLine ⟨{ raw := raw }, false, false, false⟩).report =
      { r with
        lastNotes := writtenNotes notes
        stack := stackLines scene
        modules := (moduleLines scene).map trimBlanks
        minidumpPath := trimBlanks (afterAll (ascii "minidump ") (minidumpLine scene)) } := by
  obtain ⟨r, hr, hhead⟩ := foldl_parseLine_head scene record raw
  have hplaces : ∀ l ∈ stackLines scene, ∃ u m w, l = u ++ m ++ w ∧ (∀ c ∈ u, isHexDigit c = true) ∧ u ≠ [] ∧
      (∀ c ∈ w, isHexDigit c = true) ∧ w ≠ [] := by
    intro l hl
    obtain ⟨addr, -, rfl⟩ := List.mem_map.mp hl
    obtain ⟨m, n, hm⟩ := formatModAddr_ends scene addr
    refine ⟨writeHex addr, ascii " " ++ m, hex n, ?_, fun _ => isHexDigit_of_mem, hex_ne_nil _, fun _ => isHexDigit_of_mem,
      hex_ne_nil n⟩
    rw [placeLine, hm, List.append_assoc, List.append_assoc, List.append_assoc]
  have hends : ∀ l ∈ moduleLines scene, ∃ u w, l = u ++ w ∧ (∀ c ∈ w, isHexDigit c = true) ∧ w ≠ [] := by
    intro l hl
    rw [moduleLines] at hl
    cases hmods : scene.modules with
    | none =>
      rw [hmods] at hl
      exact absurd hl List.not_mem_nil
    | some mods =>
      rw [hmods] at hl
      obtain ⟨m, -, rfl⟩ := List.mem_map.mp hl
      exact ⟨_, _, rfl, fun _ => isHexDigit_of_mem, hex_ne_nil _⟩
  refine ⟨r, hhead, ?_⟩
  have hnotesMark : parseLine ⟨r, false, false, false⟩ (ascii "notes (newest last):") = ⟨r, true, false, false⟩ := rfl
  have hstackMark (r' : CrashReport) : parseLine ⟨r', true, false, false⟩ (ascii "stack:") = ⟨r', false, true, false⟩ := rfl
  rw [crashLines, ← headLines, ← minidumpLine]
  simp only [List.foldl_append, hr, List.foldl_cons, List.foldl_nil, hnotesMark, foldl_parseLine_notes hnotes, hstackMark,
    foldl_parseLine_stack hplaces]
  rw [hhead.lastNotes, hhead.stack, List.nil_append, List.nil_append]
  cases hmods : scene.modules with
  | none =>
    simp only [moduleHeads, moduleLines, hmods, List.foldl_nil, List.map_nil]
    rw [← hhead.modules]
    rfl
  | some mods =>
    have hheads : moduleHeads scene = [ascii "modules:"] := by rw [moduleHeads, hmods]
    have hmark (r' : CrashReport) : parseLine ⟨r', false, true, false⟩ (ascii "modules:") = ⟨r', false, false, true⟩ := rfl
    rw [hheads, List.foldl_cons, List.foldl_nil, hmark, foldl_parseLine_modules hends rfl rfl rfl]
    dsimp only
    rw [hhead.modules, List.nil_append]
    rfl

theorem harmless_placed (scene : CrashScene) : ∀ l ∈ (stackLines scene).map indented, Harmless l := by
  intro l hl
  obtain ⟨p, hp, rfl⟩ := List.mem_map.mp hl
  obtain ⟨addr, -, rfl⟩ := List.mem_map.mp hp
  exact Tame.harmless ((tame_ascii (by decide)).append (tame_placeLine scene addr))

theorem harmless_modules (scene : CrashScene) : ∀ l ∈ (moduleLines scene).map indented, Harmless l := by
  intro l hl
  obtain ⟨m, hm, rfl⟩ := List.mem_map.mp hl
  rw [moduleLines] at hm
  cases hmods : scene.modules with
  | none =>
    rw [hmods] at hm
    exact absurd hm List.not_mem_nil
  | some mods =>
    rw [hmods] at hm
    obtain ⟨m, -, rfl⟩ := List.mem_map.mp hm
    exact Tame.harmless ((tame_ascii (by decide)).append (tame_moduleLine m))

theorem harmless_moduleHeads (scene : CrashScene) : ∀ l ∈ moduleHeads scene, Harmless l := by
  intro l hl
  rw [moduleHeads] at hl
  split at hl
  · exact absurd hl List.not_mem_nil
  · rw [List.mem_singleton.mp hl]
    exact ⟨forall_ascii (by decide), by decide +kernel⟩

/-- The lines between the notes and the path carry nothing that reads like a note. -/
theorem mem_crashLines {notes : CrashNotes} {scene : CrashScene} {record : ExceptionRecord} {l : Bytes}
    (hl : l ∈ crashLines notes scene record) :
    Harmless l ∨ (∃ note ∈ writtenNotes notes, l = indented note) ∨ l = minidumpLine scene := by
  simp only [crashLines, List.mem_append, List.mem_cons, List.not_mem_nil, or_false] at hl
  rcases hl with (((((((rfl | rfl) | hl) | hl) | rfl | hl) | rfl | hl) | hl) | hl) | rfl
  · exact .inl (harmless_header scene)
  · exact .inl (harmless_plugin scene)
  · exact .inl (harmless_record scene record l hl)
  · exact .inl (harmless_context scene l hl)
  · exact .inl ⟨forall_ascii (by decide), by decide +kernel⟩
  · obtain ⟨note, hnote, rfl⟩ := List.mem_map.mp hl
    exact .inr (.inl ⟨note, hnote, rfl⟩)
  · exact .inl ⟨forall_ascii (by decide), by decide +kernel⟩
  · exact .inl (harmless_placed scene l hl)
  · exact .inl (harmless_moduleHeads scene l hl)
  · exact .inl (harmless_modules scene l hl)
  · exact .inr (.inr rfl)

/-- The lines of the text are the lines that were written. -/
theorem lines_writeCrashText {notes : CrashNotes} (scene : CrashScene) (record : ExceptionRecord)
    (hnotes : ∀ l ∈ writtenNotes notes, NoteLine l) :
    lines 10 13 (writeCrashText notes scene (some record)) = crashLines notes scene record := by
  have hprinted {l : Bytes} (h : ∀ c ∈ l, 32 ≤ c) : 10 ∉ l ∧ dropReturn 13 l = l :=
    ⟨fun hc => absurd (h 10 hc) (by decide), dropReturn_eq_self fun hc => absurd (h 13 hc) (by decide)⟩
  have hlines : ∀ l ∈ crashLines notes scene record, 10 ∉ l ∧ dropReturn 13 l = l := by
    intro l hl
    rcases mem_crashLines hl with h | ⟨note, hnote, rfl⟩ | rfl
    · exact hprinted h.printed
    · have h := hnotes note hnote
      refine ⟨?_, if_neg fun hlast => ?_⟩
      · rw [indented, List.mem_append, not_or]
        exact ⟨by decide, h.oneLine⟩
      · -- a return at the end is a blank
        rw [indented, List.getLast?_append_of_ne_nil _ h.nonempty] at hlast
        exact h.unpadded.back [13] (by decide) (List.singleton_suffix_iff_getLast?_eq_some.mpr hlast)
    · refine hprinted ?_
      rw [minidumpLine, List.forall_mem_append]
      exact ⟨forall_ascii (by decide), scene.dmpPath.legal⟩
  rw [writeCrashText_eq, lines_unlines 13 fun l hl => (hlines l hl).1]
  conv_rhs => rw [← List.map_id (crashLines notes scene record)]
  exact List.map_congr_left fun l hl => (hlines l hl).2

/-- The path is read as it was written. -/
structure PlainPath (path : Bytes) : Prop where
  noHead : ¬ ascii "minidump " <+: path
  unpadded : Unpadded blanks path

theorem plainPath_iff (scene : CrashScene) :
    trimBlanks (afterAll (ascii "minidump ") (minidumpLine scene)) = scene.dmpPath.bytes ↔ PlainPath scene.dmpPath.bytes := by
  have hne : ascii "minidump " ≠ [] := by decide
  rw [afterAll, minidumpLine]
  constructor
  · intro h
    by_cases hpre : ascii "minidump " <+: scene.dmpPath.bytes
    · have hlt := stripFront_append_length_lt hne hpre
      have hle := trim_length_le blanks (stripFront [ascii "minidump "] (ascii "minidump " ++ scene.dmpPath.bytes))
      rw [← trimBlanks, h] at hle
      omega
    · rw [stripFront_append hne hpre] at h
      exact ⟨hpre, (trim_eq_self_iff nil_notMem_blanks).mp h⟩
  · intro h
    rw [stripFront_append hne h.noHead]
    exact trim_eq_self h.unpadded

/-- The name of a module's file is there and does not start with a blank. -/
structure PlainName (name : Bytes) : Prop where
  nonempty : name ≠ []
  front : ∀ p ∈ blanks, ¬ p <+: name

theorem plainName_iff (m : Module) : trimBlanks (moduleLine m) = moduleLine m ↔ PlainName (baseName m.path.bytes) := by
  obtain ⟨rest, hrest⟩ : ∃ rest, moduleLine m = baseName m.path.bytes ++ 32 :: rest := by
    refine ⟨ascii "base=" ++ writeHex m.baseOfDll ++ ascii " size=" ++ hex m.sizeOfImage.toNat, ?_⟩
    simp only [moduleLine, List.append_assoc]
    rfl
  have hback : ∀ p ∈ blanks, ¬ p <:+ moduleLine m :=
    back_of_isPlain (fun c hc => (isPlain_of_isHexDigit (isHexDigit_of_mem hc)).1) (hex_ne_nil _) _
  have hblank : ∀ p ∈ blanks, 32 ∈ p → p = [32] := by decide
  rw [trimBlanks, trim_eq_self_iff nil_notMem_blanks]
  constructor
  · rintro ⟨hfront, -⟩
    rw [hrest] at hfront
    refine ⟨fun hnil => ?_, fun p hp hpre => hfront p hp (hpre.trans (List.prefix_append _ _))⟩
    exact hfront [32] List.mem_cons_self (by rw [hnil]; exact ⟨rest, rfl⟩)
  · rintro ⟨hne, hfront⟩
    refine ⟨fun p hp hpre => ?_, hback⟩
    rw [hrest] at hpre
    have hshort : ¬ 32 ∈ p := by
      intro hmem
      rw [hblank p hp hmem] at hpre
      obtain ⟨c, name, hname⟩ := List.exists_cons_of_ne_nil hne
      rw [hname, List.cons_append, List.cons_prefix_cons] at hpre
      exact hfront [32] List.mem_cons_self (by rw [hname, ← hpre.1]; exact ⟨name, rfl⟩)
    have hnext : baseName m.path.bytes ++ [32] <+: baseName m.path.bytes ++ 32 :: rest := ⟨rest, by simp⟩
    rcases List.prefix_or_prefix_of_prefix hpre hnext with h | h
    · rcases List.prefix_concat_iff.mp h with he | h
      · exact hshort (he ▸ List.mem_append_right _ (List.mem_singleton.mpr rfl))
      · exact hfront p hp h
    · exact hshort (h.subset (List.mem_append_right _ (List.mem_singleton.mpr rfl)))

theorem namesNote_minidumpLine (scene : CrashScene) : NamesNote (minidumpLine scene) ↔ NamesNote scene.dmpPath.bytes := by
  have hline : minidumpLine scene = ascii "minidump" ++ 32 :: scene.dmpPath.bytes := rfl
  have hcolon : QuotedText.afterMark 58 (minidumpLine scene) = QuotedText.afterMark 58 scene.dmpPath.bytes :=
    QuotedText.afterMark_append_left (by decide) _
  have hnote : ascii "note" <:+: minidumpLine scene ↔ ascii "note" <:+: scene.dmpPath.bytes := by
    constructor
    · intro h
      rw [hline] at h
      rcases infix_append_cons (by decide) h with h | h
      · exact absurd h (by decide)
      · exact h
    · exact fun h => h.trans (List.suffix_append _ _).isInfix
  rw [NamesNote, hcolon, hnote, NamesNote]

/-- What the reporter finds is what the plugin knew. -/
structure Recovers (r : CrashReport) (whats : List Bytes) (scene : CrashScene) (record : ExceptionRecord) : Prop where
  origin : r.origin = scene.origin.text
  codeName : r.codeName = codeName record.exceptionCode
  codeHex : r.codeHex = hex record.exceptionCode.toNat
  lastNotes : r.lastNotes = whats.drop (whats.length - min kNoteCount whats.length)
  stack : r.stack = stackLines scene
  modules : r.modules = moduleLines scene
  minidumpPath : r.minidumpPath = scene.dmpPath.bytes

def listedModules (scene : CrashScene) : List Module := (scene.modules.getD []).take 384

theorem moduleLines_eq (scene : CrashScene) : moduleLines scene = (listedModules scene).map moduleLine := by
  rw [moduleLines, listedModules]
  cases scene.modules <;> rfl

theorem recovers_iff {whats : List Bytes} (scene : CrashScene) (record : ExceptionRecord)
    (hnotes : ∀ what ∈ whats, NoteLine what) (hlen : whats.length < 2 ^ 32) :
    Recovers (parseCrashText (writeCrashText (recorded whats) scene (some record))) whats scene record ↔
      (whats = [] → ¬ NamesNote scene.dmpPath.bytes) ∧ PlainPath scene.dmpPath.bytes ∧
        ∀ m ∈ listedModules scene, PlainName (baseName m.path.bytes) := by
  have hwritten := writtenNotes_recorded (fun what h => (hnotes what h).fits) hlen
  have hlast : ∀ l ∈ writtenNotes (recorded whats), NoteLine l := by
    intro l hl
    rw [hwritten] at hl
    exact hnotes l (List.mem_of_mem_drop hl)
  obtain ⟨r, hhead, hreport⟩ := foldl_parseLine_crash scene record (writeCrashText (recorded whats) scene (some record)) hlast
  have hmodules : (moduleLines scene).map trimBlanks = moduleLines scene ↔
      ∀ m ∈ listedModules scene, PlainName (baseName m.path.bytes) := by
    rw [moduleLines_eq, List.map_map, List.map_inj_left]
    exact forall₂_congr fun m _ => plainName_iff m
  have hdrop : whats.drop (whats.length - min kNoteCount whats.length) = [] ↔ whats = [] := by
    rw [List.drop_eq_nil_iff, ← List.length_eq_zero_iff, kNoteCount]
    omega
  rw [parseCrashText, lines_writeCrashText scene record hlast, hreport, hwritten]
  dsimp only
  by_cases hnone : whats = []
  · have helse : (crashLines (recorded whats) scene record).filterMap noteElsewhere = [] ↔ ¬ NamesNote scene.dmpPath.bytes := by
      rw [← namesNote_minidumpLine, ← noteElsewhere_eq_none_iff, List.filterMap_eq_nil_iff]
      refine ⟨fun h => h _ (List.mem_append_right _ (List.mem_singleton.mpr rfl)), fun h l hl => ?_⟩
      rcases mem_crashLines hl with hl | ⟨note, hnote, -⟩ | rfl
      · exact hl.noNote
      · rw [hwritten, hdrop.mpr hnone] at hnote
        exact absurd hnote List.not_mem_nil
      · exact h
    rw [hdrop.mpr hnone, if_pos rfl, List.nil_append, ← hmodules, ← plainPath_iff, ← helse]
    constructor
    · intro h
      exact ⟨fun _ => h.lastNotes.trans (hdrop.mpr hnone), h.minidumpPath, h.modules⟩
    · rintro ⟨hnotes', hpath, hmods⟩
      exact ⟨hhead.origin, hhead.codeName, hhead.codeHex, (hnotes' hnone).trans (hdrop.mpr hnone).symm, rfl, hmods, hpath⟩
  · rw [if_neg fun h => hnone (hdrop.mp h), ← hmodules, ← plainPath_iff]
    constructor
    · intro h
      exact ⟨fun h0 => absurd h0 hnone, h.minidumpPath, h.modules⟩
    · rintro ⟨-, hpath, hmods⟩
      exact ⟨hhead.origin, hhead.codeName, hhead.codeHex, rfl, rfl, hmods, hpath⟩

end Crash
end CommonwealthMP
