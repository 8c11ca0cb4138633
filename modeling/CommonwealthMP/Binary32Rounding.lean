import CommonwealthMP.Binary32
import Mathlib.Tactic.Linarith
import Mathlib.Tactic.Ring

/-! # Rounding of binary32 sums

A sum that is rounded to nearest is off by half a unit in the last place at most. A small summand changes a
word by about itself, and a summand below that half unit changes it not at all. -/
namespace Binary32

theorem roundShift_bounds (n d : ℕ) :
    2 * (roundShift n d * 2 ^ d) ≤ 2 * n + 2 ^ d ∧ 2 * n ≤ 2 * (roundShift n d * 2 ^ d) + 2 ^ d := by
  have hn : 2 ^ d * (n / 2 ^ d) + n % 2 ^ d = n := Nat.div_add_mod n (2 ^ d)
  have hr : n % 2 ^ d < 2 ^ d := Nat.mod_lt n (Nat.two_pow_pos d)
  have hq : (n / 2 ^ d + 1) * 2 ^ d = 2 ^ d * (n / 2 ^ d) + 2 ^ d := by ring
  have hq' : n / 2 ^ d * 2 ^ d = 2 ^ d * (n / 2 ^ d) := Nat.mul_comm _ _
  unfold roundShift
  dsimp only
  split
  · rename_i h
    rw [hq]
    have hup : 2 ^ d ≤ 2 * (n % 2 ^ d) := by
      rcases h with h | ⟨h, -⟩
      · exact h.le
      · exact h.le
    omega
  · rename_i h
    rw [hq']
    have hdown : 2 * (n % 2 ^ d) ≤ 2 ^ d := not_lt.mp fun h' => h (.inl h')
    omega

/-- Less than half a unit below a multiple is rounded up to it. -/
theorem roundShift_sub {q d c : ℕ} (hc : 0 < c) (hhalf : 2 * c < 2 ^ d) (hq : 0 < q) : roundShift (q * 2 ^ d - c) d = q := by
  obtain ⟨q, rfl⟩ := Nat.exists_eq_succ_of_ne_zero hq.ne'
  have hn : (q + 1) * 2 ^ d - c = 2 ^ d * q + (2 ^ d - c) := by
    have : (q + 1) * 2 ^ d = 2 ^ d * q + 2 ^ d := by ring
    omega
  have hdiv : ((q + 1) * 2 ^ d - c) / 2 ^ d = q := by
    rw [hn, Nat.mul_add_div (Nat.two_pow_pos d), Nat.div_eq_of_lt (by omega), Nat.add_zero]
  have hmod : ((q + 1) * 2 ^ d - c) % 2 ^ d = 2 ^ d - c := by
    rw [hn, Nat.mul_add_mod, Nat.mod_eq_of_lt (by omega)]
  rw [roundShift, hdiv, hmod, if_pos (.inl (by omega))]

theorem roundShift_le {n d k : ℕ} (h : n < 2 ^ (k + d)) : roundShift n d ≤ 2 ^ k := by
  have hbounds := (roundShift_bounds n d).1
  rw [pow_add] at h
  by_contra hlt
  have hmul : (2 ^ k + 1) * 2 ^ d ≤ roundShift n d * 2 ^ d := Nat.mul_le_mul_right _ (by omega)
  rw [Nat.add_mul, Nat.one_mul] at hmul
  have hpos := Nat.two_pow_pos d
  omega

theorem value_word (neg : Bool) {magnitude : ℕ} (h : magnitude < 255 * 2 ^ 23) :
    value ⟨UInt32.ofNat (if neg then 2 ^ 31 + magnitude else magnitude)⟩ =
      .finite neg (if magnitude / 2 ^ 23 = 0 then magnitude % 2 ^ 23
        else (2 ^ 23 + magnitude % 2 ^ 23) * 2 ^ (magnitude / 2 ^ 23 - 1)) := by
  have hbits : (UInt32.ofNat (if neg then 2 ^ 31 + magnitude else magnitude)).toNat =
      if neg then 2 ^ 31 + magnitude else magnitude := by
    rw [UInt32.toNat_ofNat']
    split <;> omega
  have hneg : negative ⟨UInt32.ofNat (if neg then 2 ^ 31 + magnitude else magnitude)⟩ = neg := by
    rw [negative, hbits]
    cases neg
    · exact decide_eq_false (by simp only [Bool.false_eq_true, if_false]; omega)
    · exact decide_eq_true (by simp only [if_true]; omega)
  have hexp : exponent ⟨UInt32.ofNat (if neg then 2 ^ 31 + magnitude else magnitude)⟩ = magnitude / 2 ^ 23 := by
    rw [exponent, hbits]
    split <;> omega
  have hfrac : fraction ⟨UInt32.ofNat (if neg then 2 ^ 31 + magnitude else magnitude)⟩ = magnitude % 2 ^ 23 := by
    rw [fraction, hbits]
    split <;> omega
  rw [value, hneg, hexp, hfrac, if_neg (by omega)]
  split <;> rfl

/-- How far a magnitude is shifted to fit the significand. -/
def excess (n : ℕ) : ℕ := Nat.log2 n + 1 - 24

theorem lt_excess (n : ℕ) : n < 2 ^ (24 + excess n) := by
  refine Nat.lt_log2_self.trans_le (Nat.pow_le_pow_right (by decide) ?_)
  unfold excess
  omega

theorem excess_le {n k : ℕ} (h : n < 2 ^ (24 + k)) : excess n ≤ k := by
  by_cases hn : n = 0
  · subst hn
    exact Nat.zero_le _
  · have hlog : Nat.log2 n < 24 + k := (Nat.log2_lt hn).mpr h
    unfold excess
    omega

theorem excess_eq {n k : ℕ} (hlo : 2 ^ (23 + k) ≤ n) (hhi : n < 2 ^ (24 + k)) : excess n = k := by
  have hn : n ≠ 0 := fun h => absurd (h ▸ hlo) (not_le.mpr (Nat.two_pow_pos _))
  have hlog : 23 + k ≤ Nat.log2 n := (Nat.le_log2 hn).mpr hlo
  refine le_antisymm (excess_le hhi) ?_
  unfold excess
  omega

/-- The nearest word is the nearest multiple of the unit of its binade. -/
theorem value_round (neg : Bool) {n : ℕ} (hfit : excess n * 2 ^ 23 + roundShift n (excess n) < 255 * 2 ^ 23) :
    value (round neg n 0) = .finite neg (roundShift n (excess n) * 2 ^ excess n) := by
  have hround : round neg n 0 =
      ⟨UInt32.ofNat (if neg then 2 ^ 31 + (excess n * 2 ^ 23 + roundShift n (excess n))
        else excess n * 2 ^ 23 + roundShift n (excess n))⟩ := by
    have hmin : min (excess n * 2 ^ 23 + roundShift n (excess n)) 0x7F800000 =
        excess n * 2 ^ 23 + roundShift n (excess n) := min_eq_left (by omega)
    rw [← hmin, round, excess, Nat.sub_zero, Nat.zero_add]
  rw [hround, value_word neg hfit]
  have hbounds := roundShift_bounds n (excess n)
  have hn := lt_excess n
  by_cases he : excess n = 0
  · rw [he] at hn ⊢
    have hrs : roundShift n 0 = n := by
      rw [roundShift]
      simp [Nat.mod_one]
    rw [hrs, Nat.zero_mul, Nat.zero_add, pow_zero, Nat.mul_one]
    congr 1
    split
    · omega
    · have hone : n / 2 ^ 23 = 1 := by omega
      rw [hone, Nat.sub_self, pow_zero]
      omega
  · -- the significand has all its bits, or carries into the next binade
    obtain ⟨e, hk⟩ : ∃ e, excess n = e + 1 := ⟨excess n - 1, by omega⟩
    have hlo : 2 ^ 23 * 2 ^ (e + 1) ≤ n := by
      have hn0 : n ≠ 0 := by
        rintro rfl
        exact he rfl
      have hlog : 23 + (e + 1) ≤ Nat.log2 n := by
        unfold excess at hk
        omega
      have := (Nat.le_log2 hn0).mp hlog
      rwa [pow_add] at this
    rw [hk] at hbounds hn hfit ⊢
    have hpos : 0 < 2 ^ (e + 1) := Nat.two_pow_pos _
    have hrlo : 2 ^ 23 ≤ roundShift n (e + 1) := by
      by_contra hlt
      have h1 : roundShift n (e + 1) + 1 ≤ 2 ^ 23 := by omega
      have h2 := Nat.mul_le_mul_right (2 ^ (e + 1)) h1
      rw [Nat.add_mul, Nat.one_mul] at h2
      omega
    have hrhi : roundShift n (e + 1) ≤ 2 ^ 24 := roundShift_le hn
    congr 1
    rw [if_neg (by omega)]
    by_cases hcarry : roundShift n (e + 1) = 2 ^ 24
    · have hdiv : ((e + 1) * 2 ^ 23 + roundShift n (e + 1)) / 2 ^ 23 = e + 3 := by omega
      have hmod : ((e + 1) * 2 ^ 23 + roundShift n (e + 1)) % 2 ^ 23 = 0 := by omega
      rw [hdiv, hmod, hcarry, Nat.add_zero, show e + 3 - 1 = e + 1 + 1 by omega]
      ring
    · have hdiv : ((e + 1) * 2 ^ 23 + roundShift n (e + 1)) / 2 ^ 23 = e + 2 := by omega
      have hmod : 2 ^ 23 + ((e + 1) * 2 ^ 23 + roundShift n (e + 1)) % 2 ^ 23 = roundShift n (e + 1) := by omega
      rw [hdiv, hmod, show e + 2 - 1 = e + 1 by omega]

theorem value_large {x : F32} {a : Bool} {m : ℕ} (hx : value x = .finite a m) (hm : 2 ^ 24 < m) :
    ∃ f k, f < 2 ^ 23 ∧ k ≤ 253 ∧ m = (2 ^ 23 + f) * 2 ^ k := by
  have hf : fraction x < 2 ^ 23 := Nat.mod_lt _ (by decide)
  have he : exponent x < 2 ^ 8 := Nat.mod_lt _ (by decide)
  unfold value at hx
  split at hx
  · split at hx <;> exact absurd hx nofun
  · split at hx
    · injection hx with _ hmag
      omega
    · injection hx with _ hmag
      exact ⟨fraction x, exponent x - 1, hf, by omega, hmag.symm⟩

theorem value_zero (b : Bool) : value ⟨if b then 0x80000000 else 0⟩ = .finite b 0 := by
  cases b <;> decide

theorem signed_decide (z : ℤ) (l : ℕ) : signed (decide (z < 0)) l - z = if z < 0 then (z.natAbs : ℤ) - l else l - z.natAbs := by
  by_cases h : z < 0
  · rw [signed, if_pos (decide_eq_true h), if_pos h]
    omega
  · rw [signed, if_neg (by simpa using h), if_neg h]
    omega

@[simp] theorem signed_zero (b : Bool) : signed b 0 = 0 := by
  cases b <;> rfl

/-- A sum below the top of a binade is off by half of the unit there at most. -/
theorem value_add {x y : F32} {a b : Bool} {m n k : ℕ} (hx : value x = .finite a m) (hy : value y = .finite b n)
    (hk : k ≤ 252) (hsum : (signed a m + signed b n).natAbs < 2 ^ (24 + k)) :
    ∃ c l, value (add x y) = .finite c l ∧ 2 * (signed c l - (signed a m + signed b n)).natAbs ≤ 2 ^ k := by
  unfold add
  rw [hx, hy]
  dsimp only
  by_cases hz : signed a m + signed b n = 0
  · rw [if_pos hz, hz]
    refine ⟨_, _, value_zero _, ?_⟩
    rw [signed_zero]
    exact Nat.zero_le _
  · rw [if_neg hz]
    generalize signed a m + signed b n = z at hsum hz
    have hek : excess z.natAbs ≤ k := excess_le hsum
    have hle : roundShift z.natAbs (excess z.natAbs) ≤ 2 ^ 24 := roundShift_le (lt_excess _)
    refine ⟨_, _, value_round _ (by omega), ?_⟩
    have hbounds := roundShift_bounds z.natAbs (excess z.natAbs)
    have hunit : 2 ^ excess z.natAbs ≤ 2 ^ k := Nat.pow_le_pow_right (by decide) hek
    rw [signed_decide]
    split <;> omega

/-- A summand of the other sign that is below half of the unit under a word is lost. -/
theorem value_add_absorbed {x y : F32} {a : Bool} {m c s : ℕ} (hx : value x = .finite a m)
    (hy : value y = .finite (!a) c) (hc : 0 < c) (hs : c < 2 ^ s) (hm : 2 ^ (24 + s) < m) :
    value (add x y) = .finite a m := by
  have hcm : c < m := by
    have : 2 ^ s ≤ 2 ^ (24 + s) := Nat.pow_le_pow_right (by decide) (by omega)
    omega
  have hadd : add x y = round a (m - c) 0 := by
    unfold add
    rw [hx, hy]
    dsimp only
    have hz : signed a m + signed (!a) c = signed a (m - c : ℕ) := by
      cases a <;> (simp [signed]; omega)
    have hne : ¬signed a (m - c : ℕ) = 0 := by
      cases a <;> (simp [signed]; omega)
    have hneg : decide (signed a (m - c : ℕ) < 0) = a := by
      cases a with
      | false => simp [signed]
      | true => simpa [signed] using hcm
    have habs : (signed a (m - c : ℕ)).natAbs = m - c := by
      cases a <;> simp [signed]
    rw [hz, if_neg hne, roundSigned, hneg, habs]
  have hlarge : 2 ^ 24 < m := lt_of_le_of_lt (Nat.pow_le_pow_right (by decide) (by omega)) hm
  obtain ⟨f, k, hf, hk, rfl⟩ := value_large hx hlarge
  rw [hadd]
  have hsk : 24 + s < 24 + k := by
    refine (Nat.pow_lt_pow_iff_right (by decide)).mp (hm.trans (?_ : _ < 2 ^ (24 + k)))
    rw [pow_add]
    exact Nat.mul_lt_mul_of_pos_right (by omega) (Nat.two_pow_pos k)
  by_cases hf0 : f = 0
  · -- the word is a power of two, so the difference lies in the binade below
    subst hf0
    obtain ⟨k, rfl⟩ : ∃ j, k = j + 1 := ⟨k - 1, by omega⟩
    have htop : (2 ^ 23 + 0) * 2 ^ (k + 1) = 2 ^ 24 * 2 ^ k := by ring
    rw [htop] at hm hcm ⊢
    have hsk' : s < k := by
      have : 24 + s < 24 + k := by
        refine (Nat.pow_lt_pow_iff_right (by decide : 1 < 2)).mp ?_
        rwa [pow_add 2 24 k]
      omega
    have hhalf : 2 * 2 ^ s ≤ 2 ^ k := by
      rw [← pow_succ']
      exact Nat.pow_le_pow_right (by decide) hsk'
    have he : excess (2 ^ 24 * 2 ^ k - c) = k := by
      apply excess_eq <;> rw [pow_add] <;> omega
    have hrs : roundShift (2 ^ 24 * 2 ^ k - c) k = 2 ^ 24 := roundShift_sub hc (by omega) (by decide)
    rw [value_round a (by rw [he, hrs]; omega), he, hrs]
  · have hhalf : 2 * 2 ^ s ≤ 2 ^ k := by
      rw [← pow_succ']
      exact Nat.pow_le_pow_right (by decide) (by omega)
    have hm' : (2 ^ 23 + f) * 2 ^ k = 2 ^ 23 * 2 ^ k + f * 2 ^ k := by ring
    have hone : 2 ^ k ≤ f * 2 ^ k := Nat.le_mul_of_pos_left _ (by omega)
    have hup : f * 2 ^ k + 2 ^ k ≤ 2 ^ 23 * 2 ^ k := by
      rw [← Nat.succ_mul]
      exact Nat.mul_le_mul_right _ hf
    have he : excess ((2 ^ 23 + f) * 2 ^ k - c) = k := by
      apply excess_eq <;> rw [pow_add, hm'] <;> omega
    have hrs : roundShift ((2 ^ 23 + f) * 2 ^ k - c) k = 2 ^ 23 + f := roundShift_sub hc (by omega) (by omega)
    rw [value_round a (by rw [he, hrs]; omega), he, hrs]

end Binary32
