import CommonwealthMP.ServerState
import Mathlib.Tactic.Linarith

/-! # The rate limiter

Each key has a bucket of its own. A call that comes a second or more after the start of its bucket's window
opens the next window, and the calls of a window are accepted up to the maximum. -/
namespace CommonwealthMP
open ByteLayout OrderedTables

structure RateVerdict where
  key : Bytes
  time : Time
  opened : Bool
  accepted : Bool
  deriving DecidableEq

namespace RateBucket

def opens (b : RateBucket) (t : Time) : Bool := decide (1 ≤ t - b.windowStart)

def hit (b : RateBucket) (t : Time) : RateBucket :=
  if b.opens t then { windowStart := t, count := 1 } else { b with count := b.count + 1 }

def verdict (maxPerSec : ℤ) (key : Bytes) (b : RateBucket) (t : Time) : RateVerdict where
  key := key
  time := t
  opened := b.opens t
  accepted := decide ((b.hit t).count ≤ maxPerSec)

theorem hit_of_early {b : RateBucket} {t : Time} (h : t < b.windowStart + 1) : b.hit t = { b with count := b.count + 1 } := by
  rw [hit, opens, if_neg]
  simp only [decide_eq_true_eq, not_le]
  linarith

theorem hit_of_late {b : RateBucket} {t : Time} (h : b.windowStart + 1 ≤ t) : b.hit t = { windowStart := t, count := 1 } := by
  rw [hit, opens, if_pos]
  simp only [decide_eq_true_eq]
  linarith

end RateBucket

def bucketOf (buckets : RateTable) (key : Bytes) : RateBucket := (buckets.lookup key).getD {}

@[simp] theorem bucketOf_insert_self (buckets : RateTable) (key : Bytes) (b : RateBucket) :
    bucketOf (buckets.insert key b) key = b := by
  simp [bucketOf]

theorem bucketOf_insert_ne (buckets : RateTable) {key key' : Bytes} (b : RateBucket) (h : key ≠ key') :
    bucketOf (buckets.insert key' b) key = bucketOf buckets key := by
  simp [bucketOf, AList.lookup_insert_ne h]

theorem allowRate_eq (buckets : RateTable) (key : Bytes) (t : Time) (maxPerSec : ℤ) :
    allowRate buckets key t maxPerSec =
      (((bucketOf buckets key).verdict maxPerSec key t).accepted, buckets.insert key ((bucketOf buckets key).hit t)) := by
  unfold allowRate RateBucket.verdict RateBucket.hit RateBucket.opens bucketOf
  by_cases h : 1 ≤ t - ((buckets.lookup key).getD {}).windowStart <;> simp [h]

/-- The verdicts on a sequence of calls, each with its key and time. -/
def rateLog (maxPerSec : ℤ) : RateTable → List (Bytes × Time) → List RateVerdict
  | _, [] => []
  | buckets, (key, t) :: calls =>
    let (accepted, next) := allowRate buckets key t maxPerSec
    { key := key, time := t, opened := (bucketOf buckets key).opens t, accepted := accepted } :: rateLog maxPerSec next calls

/-- The verdicts on the calls for one key, from its bucket alone. -/
def bucketLog (maxPerSec : ℤ) (key : Bytes) : RateBucket → List Time → List RateVerdict
  | _, [] => []
  | b, t :: ts => b.verdict maxPerSec key t :: bucketLog maxPerSec key (b.hit t) ts

def timesOf (key : Bytes) (calls : List (Bytes × Time)) : List Time := (calls.filter (·.1 = key)).map (·.2)

theorem rateLog_cons (maxPerSec : ℤ) (buckets : RateTable) (key : Bytes) (t : Time) (calls : List (Bytes × Time)) :
    rateLog maxPerSec buckets ((key, t) :: calls) = (bucketOf buckets key).verdict maxPerSec key t ::
      rateLog maxPerSec (buckets.insert key ((bucketOf buckets key).hit t)) calls := by
  rw [rateLog, allowRate_eq]
  rfl

theorem rateLog_calls (maxPerSec : ℤ) (buckets : RateTable) (calls : List (Bytes × Time)) :
    (rateLog maxPerSec buckets calls).map (fun v => (v.key, v.time)) = calls := by
  induction calls generalizing buckets with
  | nil => rfl
  | cons call calls ih =>
    rw [rateLog_cons, List.map_cons, ih]
    rfl

/-- The calls for other keys have no say. -/
theorem rateLog_filter (maxPerSec : ℤ) (key : Bytes) (buckets : RateTable) (calls : List (Bytes × Time)) :
    (rateLog maxPerSec buckets calls).filter (·.key = key) =
      bucketLog maxPerSec key (bucketOf buckets key) (timesOf key calls) := by
  induction calls generalizing buckets with
  | nil => rfl
  | cons call calls ih =>
    obtain ⟨key', t⟩ := call
    rw [rateLog_cons]
    by_cases h : key' = key
    · subst h
      have hnext := ih (buckets.insert key' ((bucketOf buckets key').hit t))
      rw [bucketOf_insert_self] at hnext
      simp [RateBucket.verdict, timesOf, bucketLog, hnext]
    · have hnext := ih (buckets.insert key' ((bucketOf buckets key').hit t))
      rw [bucketOf_insert_ne _ _ (Ne.symm h)] at hnext
      simp [RateBucket.verdict, timesOf, h, hnext]

theorem timesOf_sorted {calls : List (Bytes × Time)} (h : calls.Pairwise (·.2 ≤ ·.2)) (key : Bytes) :
    (timesOf key calls).Pairwise (· ≤ ·) := by
  rw [timesOf, List.pairwise_map]
  exact h.filter _

section Counting
variable {maxPerSec : ℤ} {key : Bytes} {b : RateBucket} {ts : List Time}

/-- The time lies in the second from `x` on. -/
def withinSecond (x : Time) (v : RateVerdict) : Bool := decide (x ≤ v.time ∧ v.time < x + 1)

/-- The calls that are accepted in the second from `x` on. -/
def acceptedIn (x : Time) (log : List RateVerdict) : ℤ := log.countP fun v => v.accepted && withinSecond x v

/-- The calls that are made in the second from `x` on. -/
def calledIn (x : Time) (log : List RateVerdict) : ℤ := log.countP (withinSecond x)

theorem acceptedIn_cons (x : Time) (v : RateVerdict) (log : List RateVerdict) :
    acceptedIn x (v :: log) = acceptedIn x log + if v.accepted && withinSecond x v then 1 else 0 := by
  simp only [acceptedIn, List.countP_cons]
  split <;> simp

theorem calledIn_cons (x : Time) (v : RateVerdict) (log : List RateVerdict) :
    calledIn x (v :: log) = calledIn x log + if withinSecond x v then 1 else 0 := by
  simp only [calledIn, List.countP_cons]
  split <;> simp

theorem acceptedIn_le_calledIn (x : Time) (log : List RateVerdict) : acceptedIn x log ≤ calledIn x log := by
  unfold acceptedIn calledIn
  exact_mod_cast List.countP_mono_left fun v _ hv => (Bool.and_eq_true_iff.mp hv).2

theorem calledIn_of_late {x : Time} (h : ∀ t ∈ ts, x + 1 ≤ t) : calledIn x (bucketLog maxPerSec key b ts) = 0 := by
  induction ts generalizing b with
  | nil => rfl
  | cons t ts ih =>
    have hlate : ¬ t < x + 1 := not_lt.mpr (h t List.mem_cons_self)
    rw [bucketLog, calledIn_cons, ih fun t ht => h t (List.mem_cons_of_mem _ ht)]
    simp [withinSecond, RateBucket.verdict, hlate]

theorem acceptedIn_of_late {x : Time} (h : ∀ t ∈ ts, x + 1 ≤ t) : acceptedIn x (bucketLog maxPerSec key b ts) ≤ 0 :=
  (acceptedIn_le_calledIn x _).trans_eq (calledIn_of_late h)

/-- A second that begins within the window gets what the window has left. -/
theorem acceptedIn_of_window {x : Time} (hsorted : ts.Pairwise (· ≤ ·)) (hx : x ≤ b.windowStart) :
    acceptedIn x (bucketLog maxPerSec key b ts) ≤ max 0 (maxPerSec - b.count) := by
  induction ts generalizing b with
  | nil => exact le_max_left _ _
  | cons t ts ih =>
    obtain ⟨hle, htail⟩ := List.pairwise_cons.mp hsorted
    by_cases ht : t < b.windowStart + 1
    · have hnext := ih htail (b := b.hit t) (by rw [RateBucket.hit_of_early ht]; exact hx)
      rw [bucketLog, acceptedIn_cons]
      rw [RateBucket.hit_of_early ht] at hnext ⊢
      simp only [RateBucket.verdict, RateBucket.hit_of_early ht] at hnext ⊢
      split
      · rename_i hv
        have hc : b.count + 1 ≤ maxPerSec := by simpa using (Bool.and_eq_true_iff.mp hv).1
        rw [max_eq_right (by omega)] at hnext ⊢
        omega
      · omega
    · push Not at ht
      refine (acceptedIn_of_late fun t' hm => ?_).trans (le_max_left _ _)
      have hfirst : t ≤ t' := by
        rcases List.mem_cons.mp hm with rfl | hm
        · exact le_rfl
        · exact hle t' hm
      linarith

/-- A second meets at most one more window than the one it begins in. -/
theorem acceptedIn_of_started {x : Time} (hmax : 0 ≤ maxPerSec) (hsorted : ts.Pairwise (· ≤ ·)) (hx : ∀ t ∈ ts, x ≤ t) :
    acceptedIn x (bucketLog maxPerSec key b ts) ≤ max 0 (maxPerSec - b.count) + maxPerSec := by
  induction ts generalizing b with
  | nil =>
    have hzero : acceptedIn x (bucketLog maxPerSec key b []) = 0 := rfl
    omega
  | cons t ts ih =>
    obtain ⟨hle, htail⟩ := List.pairwise_cons.mp hsorted
    rw [bucketLog, acceptedIn_cons]
    by_cases ht : t < b.windowStart + 1
    · have hnext := ih htail (fun t ht => hx t (List.mem_cons_of_mem _ ht)) (b := b.hit t)
      simp only [RateBucket.verdict, RateBucket.hit_of_early ht] at hnext ⊢
      split
      · rename_i hv
        have hc : b.count + 1 ≤ maxPerSec := by simpa using (Bool.and_eq_true_iff.mp hv).1
        omega
      · omega
    · push Not at ht
      have hstart : x ≤ (b.hit t).windowStart := by
        rw [RateBucket.hit_of_late ht]
        exact hx t List.mem_cons_self
      have hnext : acceptedIn x (bucketLog maxPerSec key (b.hit t) ts) ≤ max 0 (maxPerSec - (b.hit t).count) :=
        acceptedIn_of_window htail hstart
      simp only [RateBucket.verdict, RateBucket.hit_of_late ht] at hnext ⊢
      split
      · rename_i hv
        have hc : 1 ≤ maxPerSec := by simpa using (Bool.and_eq_true_iff.mp hv).1
        omega
      · omega

theorem acceptedIn_le (hmax : 0 ≤ maxPerSec) (hcount : 0 ≤ b.count) (hsorted : ts.Pairwise (· ≤ ·)) (x : Time) :
    acceptedIn x (bucketLog maxPerSec key b ts) ≤ 2 * maxPerSec := by
  induction ts generalizing b with
  | nil =>
    have hzero : acceptedIn x (bucketLog maxPerSec key b []) = 0 := rfl
    omega
  | cons t ts ih =>
    obtain ⟨hle, htail⟩ := List.pairwise_cons.mp hsorted
    by_cases hx : x ≤ t
    · have hfirst : ∀ t' ∈ t :: ts, x ≤ t' := by
        intro t' hm
        rcases List.mem_cons.mp hm with rfl | hm
        · exact hx
        · exact hx.trans (hle t' hm)
      have hstarted : acceptedIn x (bucketLog maxPerSec key b (t :: ts)) ≤ max 0 (maxPerSec - b.count) + maxPerSec :=
        acceptedIn_of_started hmax hsorted hfirst
      omega
    · have hhit : 0 ≤ (b.hit t).count := by
        unfold RateBucket.hit
        split
        · exact Int.one_nonneg
        · exact Int.le_add_one hcount
      rw [bucketLog, acceptedIn_cons]
      have hnext := ih hhit htail
      simpa [withinSecond, RateBucket.verdict, hx] using hnext

theorem le_acceptedIn (hsorted : ts.Pairwise (· ≤ ·)) (hstart : ∀ t ∈ ts, b.windowStart ≤ t) :
    min (maxPerSec - b.count) (calledIn b.windowStart (bucketLog maxPerSec key b ts)) ≤
      acceptedIn b.windowStart (bucketLog maxPerSec key b ts) := by
  induction ts generalizing b with
  | nil => exact min_le_right _ _
  | cons t ts ih =>
    obtain ⟨hle, htail⟩ := List.pairwise_cons.mp hsorted
    have hb := hstart t List.mem_cons_self
    by_cases ht : t < b.windowStart + 1
    · have hnext := ih htail (b := b.hit t) (by
        rw [RateBucket.hit_of_early ht]
        exact fun t hm => hstart t (List.mem_cons_of_mem _ hm))
      rw [bucketLog, acceptedIn_cons, calledIn_cons]
      have hpos : 0 ≤ acceptedIn b.windowStart (bucketLog maxPerSec key (b.hit t) ts) := Int.natCast_nonneg _
      simp only [RateBucket.hit_of_early ht] at hnext hpos
      simp only [RateBucket.verdict, RateBucket.hit_of_early ht, withinSecond, hb, ht, and_self, decide_true, if_true,
        Bool.and_true, decide_eq_true_eq]
      split <;> omega
    · push Not at ht
      have hzero : calledIn b.windowStart (bucketLog maxPerSec key b (t :: ts)) = 0 := by
        refine calledIn_of_late fun t' hm => ?_
        rcases List.mem_cons.mp hm with rfl | hm
        · exact ht
        · exact ht.trans (hle t' hm)
      have hpos : 0 ≤ acceptedIn b.windowStart (bucketLog maxPerSec key b (t :: ts)) := Int.natCast_nonneg _
      omega

/-- A verdict is on a call to the bucket the calls before it have left. -/
theorem bucketLog_split {before after : List RateVerdict} {v : RateVerdict}
    (h : bucketLog maxPerSec key b ts = before ++ v :: after) :
    ∃ (c : RateBucket) (t : Time) (rest : List Time), v = c.verdict maxPerSec key t ∧
      after = bucketLog maxPerSec key (c.hit t) rest ∧ (t :: rest).Sublist ts := by
  induction before generalizing b ts with
  | nil =>
    cases ts with
    | nil => cases h
    | cons t ts =>
      obtain ⟨hv, hafter⟩ := List.cons.inj h
      exact ⟨b, t, ts, hv.symm, hafter.symm, List.Sublist.refl _⟩
  | cons w before ih =>
    cases ts with
    | nil => cases h
    | cons t ts =>
      obtain ⟨c, t', rest, hv, hafter, hrest⟩ := ih (List.cons.inj h).2
      exact ⟨c, t', rest, hv, hafter, hrest.cons t⟩

theorem le_acceptedIn_opened {before after : List RateVerdict} {v : RateVerdict} (hsorted : ts.Pairwise (· ≤ ·))
    (h : bucketLog maxPerSec key b ts = before ++ v :: after) (hopened : v.opened = true) :
    min maxPerSec (calledIn v.time (v :: after)) ≤ acceptedIn v.time (v :: after) := by
  obtain ⟨c, t, rest, hv, hafter, hrest⟩ := bucketLog_split h
  obtain ⟨hle, htail⟩ := List.pairwise_cons.mp (hsorted.sublist hrest)
  have hopens : c.opens t = true := by
    rw [hv] at hopened
    exact hopened
  have hhit : c.hit t = { windowStart := t, count := 1 } := by rw [RateBucket.hit, if_pos hopens]
  have htime : v.time = t := by rw [hv, RateBucket.verdict]
  have haccepted : v.accepted = decide (1 ≤ maxPerSec) := by rw [hv, RateBucket.verdict, hhit]
  have hwithin : withinSecond t v = true := by
    rw [withinSecond, htime]
    exact decide_eq_true ⟨le_rfl, lt_add_one t⟩
  have hnext : min (maxPerSec - 1) (calledIn t after) ≤ acceptedIn t after := by
    rw [hafter, hhit]
    exact le_acceptedIn (b := { windowStart := t, count := 1 }) htail hle
  have hpos : 0 ≤ acceptedIn t after := Int.natCast_nonneg _
  rw [htime, acceptedIn_cons, calledIn_cons, hwithin, haccepted, if_pos rfl, Bool.and_true]
  by_cases hone : 1 ≤ maxPerSec
  · rw [decide_eq_true hone, if_pos rfl]
    omega
  · rw [decide_eq_false hone, if_neg Bool.false_ne_true]
    omega

end Counting

/-- A limiter accepts at most twice the maximum for a key in any second, and in a window it opens at least the maximum,
if so many calls are made in it; the verdicts on a key are those it gives when no other key is called. -/
theorem allowRate_bounds {maxPerSec : ℤ} (hmax : 0 ≤ maxPerSec) {calls : List (Bytes × Time)}
    (hsorted : calls.Pairwise (·.2 ≤ ·.2)) (key : Bytes) :
    (∀ x, acceptedIn x ((rateLog maxPerSec ∅ calls).filter (·.key = key)) ≤ 2 * maxPerSec) ∧
    (∀ before v after, (rateLog maxPerSec ∅ calls).filter (·.key = key) = before ++ v :: after → v.opened = true →
      min maxPerSec (calledIn v.time (v :: after)) ≤ acceptedIn v.time (v :: after)) ∧
    (rateLog maxPerSec ∅ calls).filter (·.key = key) = rateLog maxPerSec ∅ (calls.filter (·.1 = key)) := by
  have hkey := timesOf_sorted hsorted key
  rw [rateLog_filter]
  refine ⟨fun x => acceptedIn_le hmax (Int.le_refl 0) hkey x, fun before v after h => le_acceptedIn_opened hkey h, ?_⟩
  have hself : timesOf key (calls.filter (·.1 = key)) = timesOf key calls := by
    simp [timesOf]
  have honly : (rateLog maxPerSec ∅ (calls.filter (·.1 = key))).filter (·.key = key) =
      rateLog maxPerSec ∅ (calls.filter (·.1 = key)) := by
    refine List.filter_eq_self.mpr fun v hv => ?_
    have hcall : (v.key, v.time) ∈ calls.filter (·.1 = key) := by
      rw [← rateLog_calls maxPerSec ∅ (calls.filter (·.1 = key))]
      exact List.mem_map_of_mem (f := fun v : RateVerdict => (v.key, v.time)) hv
    exact (List.mem_filter.mp hcall).2
  rw [← honly, rateLog_filter, hself]

/-- A window that is used up, and the next. -/
theorem allowRate_bounds_chat :
    acceptedIn 5 ((rateLog 2 ∅ [([97], 5), ([97], 5), ([98], 5), ([97], 11 / 2), ([97], 6)]).filter (·.key = [97])) ≤ 2 * 2 :=
  (allowRate_bounds (by decide) (by
    simp only [List.pairwise_cons, List.forall_mem_cons]
    norm_num) [97]).1 5

end CommonwealthMP
