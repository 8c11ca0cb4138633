import Mathlib.Data.Nat.Log
import Mathlib.Tactic.NormNum

/-! # Binary32 words: exact values, rounding to nearest even, comparisons

A finite word is an integer multiple of the smallest subnormal `2 ^ (-149)`, so sums and
products of words are exact integers in a power-of-two unit before the one rounding that
the machine performs. Comparisons with a NaN are false. -/
namespace Binary32

/-- One binary32 word, as its bits. -/
structure F32 where
  bits : UInt32
  deriving DecidableEq, Repr

inductive Value
  | nan
  | inf (negative : Bool)
  /-- `(-1) ^ negative * magnitude * 2 ^ (-149)` -/
  | finite (negative : Bool) (magnitude : ℕ)
  deriving DecidableEq, Repr

def negative (x : F32) : Bool := 2 ^ 31 ≤ x.bits.toNat
def exponent (x : F32) : ℕ := x.bits.toNat / 2 ^ 23 % 2 ^ 8
def fraction (x : F32) : ℕ := x.bits.toNat % 2 ^ 23

def value (x : F32) : Value :=
  if exponent x = 255 then (if fraction x = 0 then .inf (negative x) else .nan)
  else if exponent x = 0 then .finite (negative x) (fraction x)
  else .finite (negative x) ((2 ^ 23 + fraction x) * 2 ^ (exponent x - 1))

/-- `n / 2 ^ d` to the nearest integer, ties to the even one. -/
def roundShift (n d : ℕ) : ℕ :=
  let q := n / 2 ^ d
  let r := n % 2 ^ d
  if 2 ^ d < 2 * r ∨ (2 ^ d = 2 * r ∧ q % 2 = 1) then q + 1 else q

/-- The word nearest to `(-1) ^ neg * n * 2 ^ (-149 - k)`. A carry out of the significand
moves into the exponent field by itself; the overflow threshold is the word of infinity. -/
def round (neg : Bool) (n k : ℕ) : F32 :=
  let e := Nat.log2 n + 1 - k - 24
  let magnitude := min (e * 2 ^ 23 + roundShift n (k + e)) 0x7F800000
  ⟨UInt32.ofNat (if neg then 2 ^ 31 + magnitude else magnitude)⟩

def quietNaN : F32 := ⟨0x7FC00000⟩

def signed (neg : Bool) (magnitude : ℕ) : ℤ := if neg then -magnitude else magnitude

def roundSigned (z : ℤ) (k : ℕ) : F32 := round (decide (z < 0)) z.natAbs k

def add (x y : F32) : F32 :=
  match value x, value y with
  | .nan, _ | _, .nan => quietNaN
  | .inf a, .inf b => if a = b then x else quietNaN
  | .inf _, _ => x
  | _, .inf _ => y
  | .finite a m, .finite b n =>
    let z := signed a m + signed b n
    if z = 0 then ⟨if a && b then 0x80000000 else 0⟩ else roundSigned z 0

def neg (x : F32) : F32 := ⟨x.bits ^^^ 0x80000000⟩

def sub (x y : F32) : F32 := add x (neg y)

def mul (x y : F32) : F32 :=
  match value x, value y with
  | .nan, _ | _, .nan => quietNaN
  | .inf a, .inf b => ⟨if a != b then 0xFF800000 else 0x7F800000⟩
  | .inf a, .finite b n | .finite b n, .inf a =>
    if n = 0 then quietNaN else ⟨if a != b then 0xFF800000 else 0x7F800000⟩
  | .finite a m, .finite b n => round (a != b) (m * n) 149

def ltValue : Value → Value → Bool
  | .nan, _ | _, .nan => false
  | .inf a, .inf b => a && !b
  | .inf a, .finite _ _ => a
  | .finite _ _, .inf b => !b
  | .finite a m, .finite b n => signed a m < signed b n

/-- The machine's `x < y`. -/
def lt (x y : F32) : Bool := ltValue (value x) (value y)

/-- The machine's `x <= y`, false when either side is a NaN. -/
def le (x y : F32) : Bool :=
  match value x, value y with
  | .nan, _ | _, .nan => false
  | a, b => !ltValue b a

/-- The number a word stands for, when it is finite. -/
def toRat? (x : F32) : Option ℚ :=
  match value x with
  | .finite a m => some (signed a m / 2 ^ 149)
  | _ => none

/-- A word above a finite word and not above another finite one is finite, and the
comparisons are those of the numbers. -/
theorem between_toRat {lo hi x : F32} {l h : ℚ} (hlo : toRat? lo = some l) (hhi : toRat? hi = some h)
    (hl : lt lo x = true) (hh : lt hi x = false) : ∃ q, toRat? x = some q ∧ l < q ∧ q ≤ h := by
  have hpos : (0 : ℚ) < 2 ^ 149 := by positivity
  unfold toRat? at hlo hhi ⊢
  unfold lt at hl hh
  cases hvl : value lo with
  | nan => simp [hvl] at hlo
  | inf a => simp [hvl] at hlo
  | finite a m =>
    cases hvh : value hi with
    | nan => simp [hvh] at hhi
    | inf b => simp [hvh] at hhi
    | finite b n =>
      simp only [hvl, hvh, Option.some.injEq] at hlo hhi
      subst hlo hhi
      cases hvx : value x with
      | nan => simp [hvl, hvx, ltValue] at hl
      | inf c =>
        cases c with
        | true => simp [hvl, hvx, ltValue] at hl
        | false => simp [hvh, hvx, ltValue] at hh
      | finite c k =>
        simp only [hvl, hvh, hvx, ltValue, decide_eq_true_eq, decide_eq_false_iff_not, not_lt] at hl hh
        refine ⟨_, rfl, ?_, ?_⟩
        · exact div_lt_div_of_pos_right (by exact_mod_cast hl) hpos
        · exact div_le_div_of_nonneg_right (by exact_mod_cast hh) hpos.le

end Binary32
