import Mathlib.Data.List.Basic
import Mathlib.Data.List.Infix

/-! # Searching a text for a quoted word

A text is taken apart at its quotation marks into stretches. A search for a word between
two marks compares the word with every stretch that has a mark on both sides, in order,
whether the stretch was written as a word or stands between two of them. -/
namespace QuotedText
variable {α : Type*} [DecidableEq α]

/-- What follows the first occurrence of `needle`. -/
def after (needle : List α) : List α → Option (List α)
  | [] => if needle = [] then some [] else none
  | a :: l => if needle.isPrefixOf (a :: l) then some ((a :: l).drop needle.length) else after needle l

/-- What follows the first `c`. -/
def afterMark (c : α) : List α → Option (List α)
  | [] => none
  | a :: l => if a = c then some l else afterMark c l

/-- What stands before the first `c`, when there is one. -/
def upTo (c : α) : List α → Option (List α)
  | [] => none
  | a :: l => if a = c then some [] else (upTo c l).map (a :: ·)

def quoted (q : α) (w : List α) : List α := q :: (w ++ [q])

theorem afterMark_append {c : α} {s : List α} (hs : c ∉ s) (l : List α) : afterMark c (s ++ c :: l) = some l := by
  induction s with
  | nil => simp [afterMark]
  | cons a s ih =>
    simp only [List.mem_cons, not_or] at hs
    rw [List.cons_append, afterMark, if_neg (Ne.symm hs.1), ih hs.2]

theorem afterMark_append_left {c : α} {s : List α} (hs : c ∉ s) (l : List α) : afterMark c (s ++ l) = afterMark c l := by
  induction s with
  | nil => rfl
  | cons a s ih =>
    simp only [List.mem_cons, not_or] at hs
    rw [List.cons_append, afterMark, if_neg (Ne.symm hs.1), ih hs.2]

theorem afterMark_eq_none {c : α} {s : List α} (hs : c ∉ s) : afterMark c s = none := by
  simpa [afterMark] using afterMark_append_left hs []

theorem upTo_append {c : α} {s : List α} (hs : c ∉ s) (l : List α) : upTo c (s ++ c :: l) = some s := by
  induction s with
  | nil => simp [upTo]
  | cons a s ih =>
    simp only [List.mem_cons, not_or] at hs
    rw [List.cons_append, upTo, if_neg (Ne.symm hs.1), ih hs.2, Option.map_some]

theorem upTo_notMem {c : α} {l s : List α} (h : upTo c l = some s) : c ∉ s := by
  induction l generalizing s with
  | nil => simp [upTo] at h
  | cons a l ih =>
    rw [upTo] at h
    split at h
    · cases h
      exact List.not_mem_nil
    · rename_i ha
      obtain ⟨r, hr, rfl⟩ := Option.map_eq_some_iff.mp h
      rw [List.mem_cons, not_or]
      exact ⟨Ne.symm ha, ih hr⟩

/-- The stretch before the first mark is determined by the text. -/
theorem append_mark_inj {q : α} {s t l m : List α} (hs : q ∉ s) (ht : q ∉ t) (h : s ++ q :: l = t ++ q :: m) :
    s = t ∧ l = m := by
  have hst := (upTo_append hs l).symm.trans ((congrArg (upTo q) h).trans (upTo_append ht m))
  have hlm := (afterMark_append hs l).symm.trans ((congrArg (afterMark q) h).trans (afterMark_append ht m))
  exact ⟨Option.some.inj hst, Option.some.inj hlm⟩

/-- No quoted word begins inside a stretch without marks. -/
theorem after_quoted_append {q : α} {s : List α} (hs : q ∉ s) (w l : List α) :
    after (quoted q w) (s ++ l) = after (quoted q w) l := by
  induction s with
  | nil => rfl
  | cons a s ih =>
    simp only [List.mem_cons, not_or] at hs
    have hp : (quoted q w).isPrefixOf (a :: (s ++ l)) = false := by
      rw [quoted, List.isPrefixOf_cons_cons, beq_false_of_ne hs.1, Bool.false_and]
    rw [List.cons_append, after, hp, if_neg Bool.false_ne_true, ih hs.2]

theorem isPrefixOf_quoted {q : α} {w t : List α} (hw : q ∉ w) (ht : q ∉ t) (l : List α) :
    (quoted q w).isPrefixOf (q :: (t ++ q :: l)) = true ↔ t = w := by
  rw [List.isPrefixOf_iff_prefix, quoted, List.cons_prefix_cons]
  constructor
  · rintro ⟨-, r, hr⟩
    rw [List.append_assoc, List.singleton_append] at hr
    exact (append_mark_inj hw ht hr).1.symm
  · rintro rfl
    exact ⟨rfl, l, by rw [List.append_assoc, List.singleton_append]⟩

/-- At a mark the next stretch is compared with the word; past it the search goes on from
the mark that ends it. -/
theorem after_quoted_mark {q : α} {w t : List α} (hw : q ∉ w) (ht : q ∉ t) (l : List α) :
    after (quoted q w) (q :: (t ++ q :: l)) = if t = w then some l else after (quoted q w) (q :: l) := by
  have hp := isPrefixOf_quoted hw ht l
  rw [after]
  by_cases h : t = w
  · rw [if_pos (hp.mpr h), if_pos h, h]
    simp [quoted]
  · rw [if_neg (fun hc => h (hp.mp hc)), if_neg h, after_quoted_append ht]

end QuotedText
