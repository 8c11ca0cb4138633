import CommonwealthMP.ServerState
import CommonwealthMP.QuotedText

/-! # Reading fields out of a JSON text

A field is found by the first occurrence of its quoted name, its value by the next colon;
nothing is escaped. Number printing and `strtod` are the C++ library's: a `NumberText` is
any pair of the two that agrees on the numbers the program prints. -/
namespace CommonwealthMP
open ByteLayout Binary32 QuotedText

/-- A printed number is followed by a comma or a line break. -/
def EndsNumber (rest : Bytes) : Prop := ∃ c r, rest = c :: r ∧ (c = 44 ∨ c = 10)

/-- The characters of a printed number, `nan` and `inf` among them. -/
def NumberChar (c : UInt8) : Prop := isAlnum c = true ∨ c = 43 ∨ c = 45 ∨ c = 46

def isBlank (c : UInt8) : Bool := c = 32 || c = 9 || c = 10 || c = 13

theorem isAlnum_of_eq {c d : UInt8} (hd : isAlnum d = false) (hc : isAlnum c = true) : c ≠ d := by
  rintro rfl
  rw [hd] at hc
  exact Bool.false_ne_true hc

theorem numberChar_plain {c : UInt8} (h : NumberChar c) :
    isBlank c = false ∧ c ≠ 0 ∧ c ≠ 34 ∧ c ≠ 44 ∧ c ≠ 58 ∧ c ≠ 125 := by
  rcases h with hc | rfl | rfl | rfl
  · have hne (d : UInt8) (hd : isAlnum d = false) : c ≠ d := isAlnum_of_eq hd hc
    refine ⟨?_, hne 0 rfl, hne 34 rfl, hne 44 rfl, hne 58 rfl, hne 125 rfl⟩
    simp [isBlank, hne 32 rfl, hne 9 rfl, hne 10 rfl, hne 13 rfl]
  all_goals decide

/-- `double`, its casts, `operator<<` for a `float` and `strtod`, which gives `none` when
it converts nothing. -/
structure NumberText where
  Double : Type
  ofFloat : F32 → Double
  toFloat : Double → F32
  ofUInt : UInt32 → Double
  toUInt : Double → UInt32
  nonzero : Double → Bool
  print : F32 → Bytes
  strtod : Bytes → Option Double
  toFloat_ofFloat : ∀ v, value v ≠ .nan → toFloat (ofFloat v) = v
  toUInt_ofUInt : ∀ n, toUInt (ofUInt n) = n
  toFloat_ofUInt : ∀ n, toFloat (ofUInt n) = round false (n.toNat * 2 ^ 149) 0
  nonzero_ofUInt : ∀ n, nonzero (ofUInt n) = decide (n ≠ 0)
  print_ne_nil : ∀ v, print v ≠ []
  print_chars : ∀ v, ∀ c ∈ print v, NumberChar c
  strtod_print : ∀ v, strtod (print v) ≠ none ∧ ∀ rest, EndsNumber rest → strtod (print v ++ rest) = strtod (print v)
  strtod_decimal : ∀ (n : UInt32) rest, EndsNumber rest → strtod (decimal n.toNat ++ rest) = some (ofUInt n)
  strtod_quote : ∀ rest, strtod (34 :: rest) = none

/-- The `float` that the printed text of `v` stands for. -/
def NumberText.asPrinted (fmt : NumberText) (v : F32) : F32 := ((fmt.strtod (fmt.print v)).map fmt.toFloat).getD v

def jsonQuoted (text key : Bytes) : Bytes :=
  match after (quoted 34 key) text with
  | none => []
  | some rest =>
    match afterMark 58 rest with
    | none => []
    | some rest =>
      match afterMark 34 rest with
      | none => []
      | some rest => (upTo 34 rest).getD []

def jsonNumber (fmt : NumberText) (text key : Bytes) (fallback : fmt.Double) : fmt.Double :=
  match after (quoted 34 key) text with
  | none => fallback
  | some rest =>
    match afterMark 58 rest with
    | none => fallback
    | some rest =>
      -- what `strtod` sees of the text stops at a NUL
      match cString (rest.dropWhile isBlank) with
      | [] => fallback
      | c :: start => if c = 44 ∨ c = 125 then fallback else (fmt.strtod (c :: start)).getD fallback

/-- A quoted value ends at its first quotation mark. -/
theorem jsonQuoted_noQuote (text key : Bytes) : 34 ∉ jsonQuoted text key := by
  unfold jsonQuoted
  repeat' split
  · exact List.not_mem_nil
  · exact List.not_mem_nil
  · exact List.not_mem_nil
  · rename_i rest _
    cases h : upTo 34 rest with
    | none => exact List.not_mem_nil
    | some s => exact upTo_notMem h

theorem jsonQuoted_of_after {text key value : Bytes} (before rest : Bytes) (hc : 58 ∉ before) (hv : 34 ∉ value)
    (h : after (quoted 34 key) text = some (before ++ 58 :: 32 :: 34 :: (value ++ 34 :: rest))) :
    jsonQuoted text key = value := by
  have hq : afterMark 34 (32 :: 34 :: (value ++ 34 :: rest)) = some (value ++ 34 :: rest) :=
    afterMark_append (s := [32]) (by decide) _
  simp only [jsonQuoted, h, afterMark_append hc, hq, upTo_append hv, Option.getD_some]

/-- `number` is the printed text of `d`. -/
structure NumberText.Reads (fmt : NumberText) (number : Bytes) (d : fmt.Double) : Prop where
  ne_nil : number ≠ []
  chars : ∀ c ∈ number, NumberChar c
  strtod : ∀ rest, EndsNumber rest → fmt.strtod (number ++ rest) = some d

theorem numberChar_of_isDigit {c : UInt8} (h : IsDigit c) : NumberChar c := by
  refine Or.inl ?_
  have hle : 48 ≤ c ∧ c ≤ 57 := ⟨UInt8.le_iff_toNat_le.mpr h.1, UInt8.le_iff_toNat_le.mpr h.2⟩
  simp [isAlnum, hle]

theorem NumberText.reads_decimal (fmt : NumberText) (n : UInt32) : fmt.Reads (decimal n.toNat) (fmt.ofUInt n) where
  ne_nil := by simp [decimal]
  chars := fun _ hc => numberChar_of_isDigit (decimal_isDigit hc)
  strtod := fmt.strtod_decimal n

theorem NumberText.reads_print (fmt : NumberText) (v : F32) :
    ∃ d, fmt.Reads (fmt.print v) d ∧ fmt.toFloat d = fmt.asPrinted v := by
  obtain ⟨hsome, hrest⟩ := fmt.strtod_print v
  obtain ⟨d, hd⟩ := Option.ne_none_iff_exists'.mp hsome
  refine ⟨d, ⟨fmt.print_ne_nil v, fmt.print_chars v, fun rest h => (hrest rest h).trans hd⟩, ?_⟩
  rw [NumberText.asPrinted, hd, Option.map_some, Option.getD_some]

theorem jsonNumber_of_after (fmt : NumberText) {text key number : Bytes} {d : fmt.Double}
    (fallback : fmt.Double) (before rest : Bytes) (hc : 58 ∉ before) (hd : fmt.Reads number d) (hrest : EndsNumber rest)
    (h : after (quoted 34 key) text = some (before ++ 58 :: 32 :: (number ++ rest))) :
    jsonNumber fmt text key fallback = d := by
  obtain ⟨hn, hchars, hd⟩ := hd
  obtain ⟨c, digits, rfl⟩ := List.exists_cons_of_ne_nil hn
  obtain ⟨hblank, -, -, hcomma, -, hbrace⟩ := numberChar_plain (hchars c List.mem_cons_self)
  have hzero : (0 : UInt8) ∉ c :: digits := fun h0 => (numberChar_plain (hchars 0 h0)).2.1 rfl
  have hdrop : List.dropWhile isBlank (32 :: (c :: digits ++ rest)) = c :: digits ++ rest := by
    rw [List.dropWhile_cons_of_pos (by decide), List.cons_append, List.dropWhile_cons_of_neg (by simp [hblank])]
  have hends : EndsNumber (cString rest) := by
    obtain ⟨e, r, rfl, he⟩ := hrest
    refine ⟨e, cString r, ?_, he⟩
    rcases he with rfl | rfl <;> rfl
  have hstr : cString (c :: digits ++ rest) = c :: (digits ++ cString rest) := cString_append hzero rest
  simp only [jsonNumber, h, afterMark_append hc, hdrop, hstr]
  rw [if_neg (not_or.mpr ⟨hcomma, hbrace⟩), ← List.cons_append, hd _ hends, Option.getD_some]

theorem jsonNumber_of_quote (fmt : NumberText) {text key : Bytes} (fallback : fmt.Double) (before rest : Bytes)
    (hc : 58 ∉ before) (h : after (quoted 34 key) text = some (before ++ 58 :: 32 :: 34 :: rest)) :
    jsonNumber fmt text key fallback = fallback := by
  have hdrop : List.dropWhile isBlank (32 :: 34 :: rest) = 34 :: rest := by
    rw [List.dropWhile_cons_of_pos (by decide), List.dropWhile_cons_of_neg (by decide)]
  have hstr : cString (34 :: rest) = 34 :: cString rest := cString_append (s := [34]) (by decide) rest
  simp only [jsonNumber, h, afterMark_append hc, hdrop, hstr]
  rw [if_neg (by decide), fmt.strtod_quote, Option.getD_none]

end CommonwealthMP
