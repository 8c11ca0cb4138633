import CommonwealthMP.Binary32Rounding

/-! # Loops that wrap a word into one turn

A loop that takes a full turn away as long as the word is beyond half a turn. It ends on a NaN and on the finite
words up to the magnitude where a full turn is just more than half of the unit. Beyond, and at the infinities,
the subtraction gives back what it was given. -/
namespace Binary32

/-- `while (again(d)) d = step(d);`, or `none` when the fuel runs out first. -/
def whileStep {α : Type} (again : α → Bool) (step : α → α) : ℕ → α → Option α
  | 0, _ => none
  | fuel + 1, d => if again d then whileStep again step fuel (step d) else some d

section Loops
variable {α : Type} {again : α → Bool} {step : α → α}

theorem whileStep_stop {d : α} (h : again d = false) (fuel : ℕ) : whileStep again step (fuel + 1) d = some d := by
  rw [whileStep, h]
  rfl

theorem whileStep_again {d : α} (h : again d = true) (fuel : ℕ) :
    whileStep again step (fuel + 1) d = whileStep again step fuel (step d) := by
  rw [whileStep, h]
  rfl

theorem whileStep_mono {fuel fuel' : ℕ} {d r : α} (hle : fuel ≤ fuel') (h : whileStep again step fuel d = some r) :
    whileStep again step fuel' d = some r := by
  induction fuel generalizing fuel' d with
  | zero => exact absurd h nofun
  | succ fuel ih =>
    obtain ⟨fuel', rfl⟩ : ∃ n, fuel' = n + 1 := ⟨fuel' - 1, by omega⟩
    cases hd : again d with
    | false => rwa [whileStep_stop hd] at h ⊢
    | true =>
      rw [whileStep_again hd] at h ⊢
      exact ih (by omega) h

/-- What every round keeps keeps the loop going. -/
theorem whileStep_never {p : α → Prop} (hp : ∀ d, p d → again d = true ∧ p (step d)) (fuel : ℕ) {d : α}
    (hd : p d) : whileStep again step fuel d = none := by
  induction fuel generalizing d with
  | zero => rfl
  | succ fuel ih =>
    rw [whileStep_again (hp d hd).1]
    exact ih (hp d hd).2

/-- What every round keeps while a measure falls holds of the result. -/
theorem whileStep_ends {p : α → Prop} {f : α → ℕ}
    (hp : ∀ d, p d → again d = true → p (step d) ∧ f (step d) < f d) {d : α} (hd : p d) :
    ∃ fuel r, whileStep again step fuel d = some r ∧ p r := by
  induction hn : f d using Nat.strong_induction_on generalizing d with
  | h n ih =>
    cases ha : again d with
    | false => exact ⟨1, d, whileStep_stop ha 0, hd⟩
    | true =>
      obtain ⟨hkept, hlt⟩ := hp d hd ha
      obtain ⟨fuel, r, hr, hpr⟩ := ih _ (hn ▸ hlt) hkept rfl
      exact ⟨fuel + 1, r, (whileStep_again ha fuel).trans hr, hpr⟩

end Loops

/-- `while (d > half) d -= full; while (d < -half) d += full;` -/
def wrap (half full : F32) (fuel : ℕ) (d : F32) : Option F32 :=
  (whileStep (fun d => lt half d) (fun d => sub d full) fuel d).bind
    (whileStep (fun d => lt d (neg half)) (fun d => add d full) fuel)

theorem wrap_mono {half full : F32} {fuel fuel' : ℕ} {d r : F32} (hle : fuel ≤ fuel') (h : wrap half full fuel d = some r) :
    wrap half full fuel' d = some r := by
  obtain ⟨x, hx, hr⟩ := Option.bind_eq_some_iff.mp h
  rw [wrap, whileStep_mono hle hx, Option.bind_some]
  exact whileStep_mono hle hr

/-- The word is finite and its magnitude is at most this one. -/
def Within (magnitude : ℕ) (d : F32) : Prop := ∃ a m, value d = .finite a m ∧ m ≤ magnitude

/-- Half a turn and a full turn, where the full turn is just more than half of the unit above `2 ^ (24 + s)`. -/
structure Turn (half full : F32) (h c s : ℕ) : Prop where
  value_half : value half = .finite false h
  value_negHalf : value (neg half) = .finite true h
  value_full : value full = .finite false c
  value_negFull : value (neg full) = .finite true c
  full_lt : c < 2 ^ s
  lt_full : 2 ^ s < 2 * c
  half_le : h ≤ 2 ^ (24 + s)
  fits : s ≤ 252

/-- The magnitude on one side of zero. -/
def magnitudeOn (side : Bool) (d : F32) : ℕ :=
  match value d with
  | .finite a m => if a = side then m else 0
  | _ => 0

theorem magnitudeOn_finite {side a : Bool} {d : F32} {m : ℕ} (hd : value d = .finite a m) :
    magnitudeOn side d = if a = side then m else 0 := by
  rw [magnitudeOn, hd]

/-- One round: a step towards zero that goes not far beyond it. -/
theorem add_toward {side : Bool} {w : F32} {c s : ℕ} (hw : value w = .finite (!side) c) (hc : c < 2 ^ s)
    (hs : 2 ^ s < 2 * c) (hfits : s ≤ 252) {d : F32} {m : ℕ} (hd : value d = .finite side m) (hpos : 0 < m)
    (hm : m ≤ 2 ^ (24 + s)) : Within (2 ^ (24 + s)) (add d w) ∧ magnitudeOn side (add d w) < magnitudeOn side d := by
  have hpow : 2 ^ (24 + s) = 2 ^ 24 * 2 ^ s := pow_add 2 24 s
  have hsum : (signed side m + signed (!side) c).natAbs < 2 ^ (24 + s) := by
    cases side <;> simp only [signed, Bool.not_true, Bool.not_false, Bool.false_eq_true, if_true, if_false] <;> omega
  obtain ⟨b, l, hv, herr⟩ := value_add hd hw hfits hsum
  have hbounds : l ≤ 2 ^ (24 + s) ∧ (b = side → l < m) := by
    cases side <;> cases b <;>
      simp only [signed, Bool.not_true, Bool.not_false, Bool.false_eq_true, Bool.true_eq_false, if_true, if_false,
        forall_const, false_implies, and_true] at herr ⊢ <;> omega
  refine ⟨⟨b, l, hv, hbounds.1⟩, ?_⟩
  rw [magnitudeOn_finite hv, magnitudeOn_finite hd, if_pos rfl]
  split
  · rename_i h
    exact hbounds.2 h
  · exact hpos

section Wrap
variable {half full : F32} {h c s : ℕ}

theorem lt_half (hk : Turn half full h c s) {d : F32} {a : Bool} {m : ℕ} (hd : value d = .finite a m)
    (hlt : lt half d = true) : a = false ∧ 0 < m := by
  rw [lt, hk.value_half, hd, ltValue, decide_eq_true_eq] at hlt
  cases a <;> simp only [signed, Bool.false_eq_true, if_true, if_false] at hlt
  · exact ⟨rfl, by omega⟩
  · omega

theorem lt_negHalf (hk : Turn half full h c s) {d : F32} {a : Bool} {m : ℕ} (hd : value d = .finite a m)
    (hlt : lt d (neg half) = true) : a = true ∧ 0 < m := by
  rw [lt, hk.value_negHalf, hd, ltValue, decide_eq_true_eq] at hlt
  cases a <;> simp only [signed, Bool.false_eq_true, if_true, if_false] at hlt
  · omega
  · exact ⟨rfl, by omega⟩

theorem wrapDown_ends (hk : Turn half full h c s) {d : F32} (hd : Within (2 ^ (24 + s)) d) :
    ∃ fuel r, whileStep (fun d => lt half d) (fun d => sub d full) fuel d = some r ∧ Within (2 ^ (24 + s)) r := by
  refine whileStep_ends (f := magnitudeOn false) (fun d hd hlt => ?_) hd
  obtain ⟨a, m, hv, hm⟩ := hd
  obtain ⟨rfl, hpos⟩ := lt_half hk hv hlt
  exact add_toward hk.value_negFull hk.full_lt hk.lt_full hk.fits hv hpos hm

theorem wrapUp_ends (hk : Turn half full h c s) {d : F32} (hd : Within (2 ^ (24 + s)) d) :
    ∃ fuel r, whileStep (fun d => lt d (neg half)) (fun d => add d full) fuel d = some r ∧ Within (2 ^ (24 + s)) r := by
  refine whileStep_ends (f := magnitudeOn true) (fun d hd hlt => ?_) hd
  obtain ⟨a, m, hv, hm⟩ := hd
  obtain ⟨rfl, hpos⟩ := lt_negHalf hk hv hlt
  exact add_toward hk.value_full hk.full_lt hk.lt_full hk.fits hv hpos hm

/-- A word that is beyond half a turn on one side and gives itself back never comes down. -/
theorem wrap_never (hk : Turn half full h c s) {d : F32} (hnan : value d ≠ .nan) (hd : ¬Within (2 ^ (24 + s)) d) (fuel : ℕ) :
    wrap half full fuel d = none := by
  have hup : ∀ v, value d = v → (∀ e, value e = v → lt half e = true ∧ value (sub e full) = v) →
      wrap half full fuel d = none := fun v hv hstep => by
    rw [wrap, whileStep_never (p := fun e => value e = v) hstep fuel hv]
    rfl
  have hdown : ∀ v, value d = v → lt half d = false →
      (∀ e, value e = v → lt e (neg half) = true ∧ value (add e full) = v) → wrap half full fuel d = none := fun v hv hno hstep => by
    cases fuel with
    | zero => rfl
    | succ fuel =>
      rw [wrap, whileStep_stop hno]
      exact whileStep_never (p := fun e => value e = v) hstep _ hv
  cases hv : value d with
  | nan => exact absurd hv hnan
  | inf a =>
    cases a with
    | false =>
      refine hup _ hv fun e he => ⟨?_, ?_⟩
      · rw [lt, hk.value_half, he]
        rfl
      · rw [sub, add, he, hk.value_negFull]
        exact he
    | true =>
      refine hdown _ hv ?_ fun e he => ⟨?_, ?_⟩
      · rw [lt, hk.value_half, hv]
        rfl
      · rw [lt, hk.value_negHalf, he]
        rfl
      · rw [add, he, hk.value_full]
        exact he
  | finite a m =>
    have hm : 2 ^ (24 + s) < m := not_le.mp fun hle => hd ⟨a, m, hv, hle⟩
    have hhalf := hk.half_le
    have hc := hk.lt_full
    have hs := hk.full_lt
    cases a with
    | false =>
      refine hup _ hv fun e he => ⟨?_, value_add_absorbed he hk.value_negFull (by omega) hs hm⟩
      rw [lt, hk.value_half, he, ltValue, decide_eq_true_eq]
      simp only [signed, Bool.false_eq_true, if_false]
      omega
    | true =>
      refine hdown _ hv ?_ fun e he => ⟨?_, value_add_absorbed he hk.value_full (by omega) hs hm⟩
      · rw [lt, hk.value_half, hv, ltValue, decide_eq_false_iff_not]
        simp only [signed, Bool.false_eq_true, if_true, if_false]
        omega
      · rw [lt, hk.value_negHalf, he, ltValue, decide_eq_true_eq]
        simp only [signed, if_true]
        omega

theorem wrap_ends (hk : Turn half full h c s) {d : F32} (hd : Within (2 ^ (24 + s)) d) :
    ∃ fuel r, wrap half full fuel d = some r := by
  obtain ⟨n₁, r₁, hr₁, hw⟩ := wrapDown_ends hk hd
  obtain ⟨n₂, r₂, hr₂, -⟩ := wrapUp_ends hk hw
  refine ⟨max n₁ n₂, r₂, ?_⟩
  rw [wrap, whileStep_mono (Nat.le_max_left _ _) hr₁, Option.bind_some]
  exact whileStep_mono (Nat.le_max_right _ _) hr₂

theorem wrap_nan (hk : Turn half full h c s) {d : F32} (hd : value d = .nan) : wrap half full 1 d = some d := by
  have hdown : lt half d = false := by
    rw [lt, hk.value_half, hd]
    rfl
  have hup : lt d (neg half) = false := by
    rw [lt, hk.value_negHalf, hd]
    rfl
  rw [wrap, whileStep_stop hdown, Option.bind_some]
  refine whileStep_stop ?_ 0
  exact hup

theorem wrap_ends_iff (hk : Turn half full h c s) (d : F32) :
    (∃ fuel r, wrap half full fuel d = some r) ↔ value d = .nan ∨ Within (2 ^ (24 + s)) d := by
  constructor
  · rintro ⟨fuel, r, hr⟩
    by_contra hd
    rw [not_or] at hd
    rw [wrap_never hk hd.1 hd.2 fuel] at hr
    exact absurd hr nofun
  · rintro (hnan | hw)
    · exact ⟨1, d, wrap_nan hk hnan⟩
    · exact wrap_ends hk hw

end Wrap

end Binary32
