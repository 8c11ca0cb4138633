import Mathlib.Data.PEquiv

/-! # Partial pairings

A partial bijection that is edited one pair at a time: a right or a left element loses its
partner, or two elements become partners and lose the ones they had. -/
namespace PartialPairing

variable {α β : Type*}

section Drop
variable [DecidableEq β]

/-- `b` loses its partner. -/
def drop (e : α ≃. β) (b : β) : α ≃. β where
  toFun a := if e a = some b then none else e a
  invFun b' := if b' = b then none else e.symm b'
  inv a b' := by
    split
    · rename_i hb
      subst hb
      split <;> simp_all
    · rename_i hb
      rw [PEquiv.eq_some_iff]
      split
      · rename_i ha
        simp [ha, Ne.symm hb]
      · rfl

theorem drop_apply (e : α ≃. β) (b : β) (a : α) : drop e b a = if e a = some b then none else e a := rfl

theorem drop_symm_apply (e : α ≃. β) (b b' : β) : (drop e b).symm b' = if b' = b then none else e.symm b' := rfl

theorem drop_of_unpaired {e : α ≃. β} {b : β} (h : e.symm b = none) : drop e b = e := by
  ext1 a
  rw [drop_apply, if_neg]
  intro ha
  rw [← PEquiv.eq_some_iff, h] at ha
  cases ha

end Drop

section Free
variable [DecidableEq α]

/-- `a` loses its partner. -/
def free (e : α ≃. β) (a : α) : α ≃. β := (drop e.symm a).symm

theorem free_apply (e : α ≃. β) (a a' : α) : free e a a' = if a' = a then none else e a' := rfl

theorem free_symm_apply (e : α ≃. β) (a : α) (b : β) : (free e a).symm b = if e.symm b = some a then none else e.symm b := rfl

theorem free_of_unpaired {e : α ≃. β} {a : α} (h : e a = none) : free e a = e := by
  rw [free, drop_of_unpaired (by rwa [PEquiv.symm_symm]), PEquiv.symm_symm]

end Free

variable [DecidableEq α] [DecidableEq β]

/-- `a` and `b` become partners. -/
def pair (e : α ≃. β) (a : α) (b : β) : α ≃. β where
  toFun a' := if a' = a then some b else drop e b a'
  invFun b' := if b' = b then some a else (free e a).symm b'
  inv a' b' := by
    simp only [drop_apply, free_symm_apply]
    by_cases ha : a' = a
    · subst ha
      by_cases hb : b' = b
      · simp [hb]
      · simp only [if_neg hb, if_true, Option.some.injEq]
        constructor
        · intro h
          split at h
          · cases h
          · exact absurd h ‹_›
        · exact fun h => absurd h.symm hb
    · by_cases hb : b' = b
      · subst hb
        simp only [if_true, if_neg ha, Option.some.injEq]
        constructor
        · exact fun h => absurd h.symm ha
        · intro h
          split at h
          · cases h
          · exact absurd h ‹_›
      · simp only [if_neg ha, if_neg hb]
        constructor
        · intro h
          split at h
          · cases h
          · rw [PEquiv.eq_some_iff] at h
            rw [if_neg fun h' => hb (Option.some.inj (h.symm.trans h'))]
            exact h
        · intro h
          split at h
          · cases h
          · rw [← PEquiv.eq_some_iff] at h
            rw [if_neg fun h' => ha (Option.some.inj (h.symm.trans h'))]
            exact h

theorem pair_apply (e : α ≃. β) (a a' : α) (b : β) :
    pair e a b a' = if a' = a then some b else if e a' = some b then none else e a' := rfl

theorem pair_symm_apply (e : α ≃. β) (a : α) (b b' : β) :
    (pair e a b).symm b' = if b' = b then some a else if e.symm b' = some a then none else e.symm b' := rfl

end PartialPairing
