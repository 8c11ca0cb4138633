import Mathlib.Data.List.Count
import Mathlib.Data.List.Nodup

/-! # Entries kept in a shared list

A list that others write, too, and the entries one keeps in it: the new ones go to its end, those given up are erased
one by one, and nothing else of the list changes. -/
namespace TrackedLists

variable {α : Type*} [DecidableEq α]

/-- The shared list, when the entries kept in it go from `old` to `next`. -/
def retrack (old next shared : List α) : List α := (shared ++ next.filter (· ∉ old)).diff (old.filter (· ∉ next))

theorem filter_diff_of_not {p : α → Bool} {m : List α} (h : ∀ a ∈ m, p a = false) (l : List α) : (l.diff m).filter p = l.filter p := by
  induction m generalizing l with
  | nil => rw [List.diff_nil]
  | cons a m ih =>
    obtain ⟨ha, hm⟩ := List.forall_mem_cons.mp h
    have hfree : a ∉ l.filter p := fun hmem => by simp [ha] at hmem
    rw [List.diff_cons, ih hm, ← List.erase_filter, List.erase_of_not_mem hfree]

variable {own : α → Bool} {old next shared : List α}

/-- The entries of others stay as they are, in their order. -/
theorem retrack_others (hold : ∀ a ∈ old, own a = true) (hnext : ∀ a ∈ next, own a = true) :
    (retrack old next shared).filter (fun a => !own a) = shared.filter fun a => !own a := by
  have hadded : (next.filter (· ∉ old)).filter (fun a => !own a) = [] := by
    refine List.filter_eq_nil_iff.mpr fun a ha => ?_
    rw [hnext a (List.mem_filter.mp ha).1]
    decide
  rw [retrack, filter_diff_of_not, List.filter_append, hadded, List.append_nil]
  intro a ha
  rw [hold a (List.mem_filter.mp ha).1]
  rfl

/-- One's own entries, each as often as it was, are the new ones. -/
theorem retrack_own (hnext : ∀ a ∈ next, own a = true) (hnodup : old.Nodup) (hnodup' : next.Nodup)
    (h : (shared.filter own).Perm old) : ((retrack old next shared).filter own).Perm next := by
  refine List.perm_iff_count.mpr fun a => ?_
  by_cases ha : own a = true
  · have hshared : shared.count a = old.count a := by
      rw [← List.perm_iff_count.mp h a, List.count_filter ha]
    rw [List.count_filter ha, retrack, List.count_diff, List.count_append, hshared]
    by_cases hin : a ∈ old <;> by_cases hin' : a ∈ next
    · rw [List.count_eq_zero_of_not_mem (l := next.filter _) (by simp [hin]), List.count_eq_zero_of_not_mem (l := old.filter _)
        (by simp [hin']), List.count_eq_one_of_mem hnodup hin, List.count_eq_one_of_mem hnodup' hin']
    · rw [List.count_eq_zero_of_not_mem (l := next.filter _) (by simp [hin]), List.count_filter (by simp [hin']),
        List.count_eq_zero_of_not_mem hin', Nat.add_zero, Nat.sub_self]
    · rw [List.count_filter (by simp [hin]), List.count_eq_zero_of_not_mem (l := old.filter _) (by simp [hin]),
        List.count_eq_zero_of_not_mem hin, Nat.zero_add, Nat.sub_zero]
    · rw [List.count_eq_zero_of_not_mem (l := next.filter _) (by simp [hin']), List.count_eq_zero_of_not_mem hin,
        List.count_eq_zero_of_not_mem hin', Nat.zero_add, Nat.zero_sub]
  · rw [List.count_eq_zero_of_not_mem fun hmem => ha (List.mem_filter.mp hmem).2, List.count_eq_zero_of_not_mem fun hmem => ha (hnext a hmem)]

end TrackedLists
