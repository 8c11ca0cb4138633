import Mathlib.Data.List.Basic
import Mathlib.Data.List.TakeWhile
import Mathlib.Tactic.Ring

/-! # Little-endian fields, C strings and decimal text in byte strings

Packed structures are concatenations of fixed-width fields. A field is read back at the
offset given by the lengths of the fields before it, so one pair of slice lemmas
(skip a field, read a field) serves every structure. -/
namespace ByteLayout

abbrev Bytes := List UInt8

/-- The `n` low-order bytes of `v`, least significant first. -/
def leBytes : ℕ → ℕ → Bytes
  | 0, _ => []
  | n+1, v => UInt8.ofNat v :: leBytes n (v / 256)

def leNat : Bytes → ℕ
  | [] => 0
  | b :: bs => b.toNat + 256 * leNat bs

@[simp] theorem leBytes_length (n v : ℕ) : (leBytes n v).length = n := by
  induction n generalizing v with
  | zero => rfl
  | succ n ih => simp [leBytes, ih]

theorem leNat_leBytes (n v : ℕ) : leNat (leBytes n v) = v % 256 ^ n := by
  induction n generalizing v with
  | zero => simp [leBytes, leNat, Nat.mod_one]
  | succ n ih =>
    have hd : v % 256 ^ (n + 1) = v % 256 + 256 * (v / 256 % 256 ^ n) := by
      rw [pow_succ', Nat.mod_mul]
    simp only [leBytes, leNat, ih, hd, UInt8.toNat_ofNat']

def u8 (v : UInt8) : Bytes := [v]
def u16 (v : UInt16) : Bytes := leBytes 2 v.toNat
def u32 (v : UInt32) : Bytes := leBytes 4 v.toNat

@[simp] theorem u8_length (v : UInt8) : (u8 v).length = 1 := List.length_singleton
@[simp] theorem u16_length (v : UInt16) : (u16 v).length = 2 := leBytes_length 2 _
@[simp] theorem u32_length (v : UInt32) : (u32 v).length = 4 := leBytes_length 4 _

def slice (buf : Bytes) (off len : ℕ) : Bytes := (buf.drop off).take len

def u8At (buf : Bytes) (off : ℕ) : UInt8 := UInt8.ofNat (leNat (slice buf off 1))
def u16At (buf : Bytes) (off : ℕ) : UInt16 := UInt16.ofNat (leNat (slice buf off 2))
def u32At (buf : Bytes) (off : ℕ) : UInt32 := UInt32.ofNat (leNat (slice buf off 4))

section Slices
variable {front rest : Bytes} {off n : ℕ}

theorem slice_skip (h : front.length ≤ off) :
    slice (front ++ rest) off n = slice rest (off - front.length) n := by
  simp [slice, List.drop_append, List.drop_eq_nil_of_le h]

theorem slice_front (h : front.length = n) : slice (front ++ rest) 0 n = front := by
  simp [slice, ← h]

theorem slice_inside (h : off + n ≤ front.length) : slice (front ++ rest) off n = slice front off n := by
  rw [slice, slice, List.drop_append_of_le_length (by omega), List.take_append_of_le_length]
  rw [List.length_drop]
  omega

theorem slice_all (h : front.length = n) : slice front 0 n = front := by
  simp [slice, ← h]

theorem u32At_skip (h : front.length ≤ off) :
    u32At (front ++ rest) off = u32At rest (off - front.length) := by
  simp only [u32At, slice_skip h]

theorem u16At_skip (h : front.length ≤ off) :
    u16At (front ++ rest) off = u16At rest (off - front.length) := by
  simp only [u16At, slice_skip h]

theorem u8At_skip (h : front.length ≤ off) :
    u8At (front ++ rest) off = u8At rest (off - front.length) := by
  simp only [u8At, slice_skip h]

end Slices

@[simp] theorem u32At_u32 (v : UInt32) (rest : Bytes) : u32At (u32 v ++ rest) 0 = v := by
  have hs : slice (u32 v ++ rest) 0 4 = u32 v := slice_front (u32_length v)
  have hv := v.toNat_lt
  apply UInt32.toNat_inj.mp
  rw [u32At, hs, u32, leNat_leBytes, UInt32.toNat_ofNat']
  omega

@[simp] theorem u32At_u32_last (v : UInt32) : u32At (u32 v) 0 = v := by
  simpa using u32At_u32 v []

@[simp] theorem u16At_u16 (v : UInt16) (rest : Bytes) : u16At (u16 v ++ rest) 0 = v := by
  have hs : slice (u16 v ++ rest) 0 2 = u16 v := slice_front (u16_length v)
  have hv := v.toNat_lt
  apply UInt16.toNat_inj.mp
  rw [u16At, hs, u16, leNat_leBytes, UInt16.toNat_ofNat']
  omega

@[simp] theorem u8At_u8 (v : UInt8) (rest : Bytes) : u8At (u8 v ++ rest) 0 = v := by
  have hs : slice (u8 v ++ rest) 0 1 = u8 v := slice_front (u8_length v)
  rw [u8At, hs]
  simp [u8, leNat]

def ascii (text : String) : Bytes := text.toList.map fun c => UInt8.ofNat c.toNat

/-- The C string at the start of a character array. -/
def cString (field : Bytes) : Bytes := field.takeWhile (· ≠ 0)

/-- A zeroed character array of `n` bytes filled from `src`, its last byte kept zero. -/
def charArray (n : ℕ) (src : Bytes) : Bytes :=
  let copied := src.take (n - 1)
  copied ++ List.replicate (n - copied.length) 0

@[simp] theorem charArray_length (n : ℕ) (src : Bytes) : (charArray n src).length = n := by
  simp only [charArray, List.length_append, List.length_replicate, List.length_take]
  omega

theorem cString_append {s : Bytes} (hs : 0 ∉ s) (rest : Bytes) : cString (s ++ rest) = s ++ cString rest := by
  refine List.takeWhile_append_of_pos fun c hc => ?_
  exact decide_eq_true fun h => hs (h ▸ hc)

theorem zero_notMem_cString (field : Bytes) : 0 ∉ cString field := fun h => by
  simpa using List.mem_takeWhile_imp h

theorem cString_length_lt {field : Bytes} (h : 0 ∈ field) : (cString field).length < field.length := by
  refine lt_of_le_of_ne (List.takeWhile_prefix _).length_le fun hlen => ?_
  have hall : cString field = field := (List.takeWhile_prefix _).eq_of_length hlen
  exact zero_notMem_cString field (hall.symm ▸ h)

theorem cString_charArray {n : ℕ} {src : Bytes} (hz : 0 ∉ src) (hn : src.length < n) : cString (charArray n src) = src := by
  have hend : n - src.length = n - src.length - 1 + 1 := by omega
  rw [charArray, List.take_of_length_le (by omega)]
  rw [cString_append hz, hend, List.replicate_succ]
  simp [cString]

theorem charArray_set_last (n : ℕ) (src : Bytes) : (charArray n src).set (n - 1) 0 = charArray n src := by
  have hlen : (src.take (n - 1)).length ≤ n - 1 := List.length_take_le _ _
  rw [charArray, List.set_append_right _ _ hlen]
  congr 1
  refine List.ext_getElem (by simp) fun i _ _ => ?_
  simp

def decimal (n : ℕ) : Bytes := (Nat.toDigits 10 n).map fun c => UInt8.ofNat c.toNat

def IsDigit (b : UInt8) : Prop := 48 ≤ b.toNat ∧ b.toNat ≤ 57

private theorem digit_toNat {n : ℕ} {c : Char} (h : c ∈ Nat.toDigits 10 n) :
    48 ≤ c.toNat ∧ c.toNat ≤ 57 := by
  have hd := Nat.isDigit_of_mem_toDigits (by decide) (by decide) h
  simp only [Char.isDigit, Bool.and_eq_true, decide_eq_true_eq, ge_iff_le, UInt32.le_iff_toNat_le] at hd
  exact hd

theorem decimal_isDigit {n : ℕ} {b : UInt8} (h : b ∈ decimal n) : IsDigit b := by
  obtain ⟨c, hc, rfl⟩ := List.mem_map.mp h
  have hd := digit_toNat hc
  have hn : (UInt8.ofNat c.toNat).toNat = c.toNat := by
    rw [UInt8.toNat_ofNat']; omega
  simpa [IsDigit, hn] using hd

theorem map_char_decimal (n : ℕ) : (decimal n).map (fun b : UInt8 => Char.ofNat b.toNat) = Nat.toDigits 10 n := by
  rw [decimal, List.map_map]
  conv_rhs => rw [← List.map_id (Nat.toDigits 10 n)]
  apply List.map_congr_left
  intro c hc
  have hd := digit_toNat hc
  have hn : (UInt8.ofNat c.toNat).toNat = c.toNat := by
    rw [UInt8.toNat_ofNat']; omega
  simp [hn]

/-- The number that decimal digits stand for. -/
def ofDecimal (digits : Bytes) : ℕ := Nat.ofDigitChars 10 (digits.map fun b => Char.ofNat b.toNat) 0

@[simp] theorem ofDecimal_decimal (n : ℕ) : ofDecimal (decimal n) = n := by
  rw [ofDecimal, map_char_decimal, Nat.ofDigitChars_ten_toDigits]

theorem decimal_injective : Function.Injective decimal := Function.LeftInverse.injective ofDecimal_decimal

/-- Text before the first separator determines the parts on both sides of it. -/
theorem append_sep_inj {sep : UInt8} {xs ys us vs : Bytes} (hx : sep ∉ xs) (hy : sep ∉ ys)
    (h : xs ++ sep :: us = ys ++ sep :: vs) : xs = ys ∧ us = vs := by
  induction xs generalizing ys with
  | nil =>
    cases ys with
    | nil => simpa using h
    | cons y ys =>
      simp only [List.nil_append, List.cons_append, List.cons.injEq] at h
      simp [h.1] at hy
  | cons x xs ih =>
    cases ys with
    | nil =>
      simp only [List.nil_append, List.cons_append, List.cons.injEq] at h
      simp [h.1] at hx
    | cons y ys =>
      simp only [List.cons_append, List.cons.injEq] at h
      simp only [List.mem_cons, not_or] at hx hy
      obtain ⟨rfl, ht⟩ := h
      obtain ⟨rfl, hv⟩ := ih hx.2 hy.2 ht
      exact ⟨rfl, hv⟩

theorem decimal_sep_inj {sep : UInt8} {m n : ℕ} {us vs : Bytes} (hs : ¬ IsDigit sep)
    (h : decimal m ++ sep :: us = decimal n ++ sep :: vs) : m = n ∧ us = vs := by
  obtain ⟨hd, ht⟩ := append_sep_inj (fun hm => hs (decimal_isDigit hm)) (fun hm => hs (decimal_isDigit hm)) h
  exact ⟨decimal_injective hd, ht⟩

end ByteLayout
