import CommonwealthMP.LineTexts

/-! # Texts in UTF-8

A letter below 0x80 is a character of its own and part of no other, so a text may be cut at it. -/
namespace Utf8
open LineTexts

/-- The bytes are those of a list of characters. -/
def Valid (s : List UInt8) : Prop := ∃ cs : List Char, s = cs.flatMap String.utf8EncodeChar

theorem valid_iff (s : List UInt8) : s.toByteArray.IsValidUTF8 ↔ Valid s := by
  constructor
  · rintro ⟨cs, hcs⟩
    exact ⟨cs, List.toByteArray_inj.mp hcs⟩
  · rintro ⟨cs, rfl⟩
    exact ⟨cs, rfl⟩

instance (s : List UInt8) : Decidable (Valid s) := decidable_of_iff _ (valid_iff s)

/-- Every byte is a character of its own. -/
def IsAscii (s : List UInt8) : Prop := ∀ c ∈ s, c < 0x80

theorem IsAscii.append {s t : List UInt8} (hs : IsAscii s) (ht : IsAscii t) : IsAscii (s ++ t) :=
  List.forall_mem_append.mpr ⟨hs, ht⟩

theorem IsAscii.take {s : List UInt8} (hs : IsAscii s) (n : ℕ) : IsAscii (s.take n) := fun c hc =>
  hs c (List.mem_of_mem_take hc)

theorem le_ofNat_mod {v k low : ℕ} (hlow : 0x80 ≤ low) (hk : 0 < k) (hhigh : k + low ≤ 256) :
    0x80 ≤ UInt8.ofNat (v % k + low) := by
  have hlt := Nat.mod_lt v hk
  rw [UInt8.le_iff_toNat_le, UInt8.toNat_ofNat_of_lt' (by rw [UInt8.size]; omega)]
  exact hlow.trans (Nat.le_add_left _ _)

/-- A character is one byte, or none of its bytes is a character. -/
theorem encode_cases (d : Char) : (∃ b, String.utf8EncodeChar d = [b]) ∨ ∀ b ∈ String.utf8EncodeChar d, 0x80 ≤ b := by
  unfold String.utf8EncodeChar
  dsimp only
  split_ifs
  · exact .inl ⟨_, rfl⟩
  all_goals
    right
    simp only [List.forall_mem_cons]
    and_intros
    all_goals first
      | exact le_ofNat_mod (by decide) (by decide) (by decide)
      | exact fun b hb => absurd hb List.not_mem_nil

theorem encode_ofUInt8 {c : UInt8} (hc : c < 0x80) : String.utf8EncodeChar (Char.ofUInt8 c) = [c] := by
  have hval : (Char.ofUInt8 c).val.toNat = c.toNat := UInt8.toNat_toUInt32 c
  have hle : c.toNat ≤ 0x7f := Nat.le_of_lt_succ (UInt8.lt_iff_toNat_lt.mp hc)
  unfold String.utf8EncodeChar
  dsimp only
  rw [hval, if_pos hle, UInt8.ofNat_toNat]

theorem Valid.append {s t : List UInt8} (hs : Valid s) (ht : Valid t) : Valid (s ++ t) := by
  obtain ⟨cs, rfl⟩ := hs
  obtain ⟨ds, rfl⟩ := ht
  exact ⟨cs ++ ds, List.flatMap_append.symm⟩

theorem valid_encode (d : Char) : Valid (String.utf8EncodeChar d) := ⟨[d], (List.flatMap_singleton _ _).symm⟩

theorem valid_singleton {c : UInt8} (hc : c < 0x80) : Valid [c] := encode_ofUInt8 hc ▸ valid_encode _

theorem valid_append_cons {c : UInt8} (hc : c < 0x80) {s t : List UInt8} : Valid (s ++ c :: t) ↔ Valid s ∧ Valid t := by
  constructor
  · rintro ⟨cs, hcs⟩
    induction cs generalizing s with
    | nil => exact absurd hcs (List.append_ne_nil_of_right_ne_nil _ (List.cons_ne_nil _ _))
    | cons d cs ih =>
      rw [List.flatMap_cons] at hcs
      rcases List.append_eq_append_iff.mp hcs with ⟨u, henc, hrest⟩ | ⟨u, rfl, hrest⟩
      · -- the byte is in what is left of the first character, so it is that character
        cases u with
        | nil =>
          rw [List.append_nil] at henc
          obtain ⟨-, ht⟩ := ih (s := []) hrest
          exact ⟨henc ▸ valid_encode d, ht⟩
        | cons b u =>
          obtain ⟨rfl, rfl⟩ := List.cons_eq_cons.mp hrest
          rcases encode_cases d with ⟨b, hb⟩ | hhigh
          · rw [hb] at henc
            rcases List.append_eq_singleton_iff.mp henc.symm with ⟨rfl, hu⟩ | ⟨-, hu⟩
            · rw [(List.cons_eq_cons.mp hu).2]
              exact ⟨⟨[], rfl⟩, cs, rfl⟩
            · exact absurd hu (List.cons_ne_nil _ _)
          · have hmem : c ∈ String.utf8EncodeChar d := by
              rw [henc]
              exact List.mem_append_right _ List.mem_cons_self
            exact absurd (hhigh c hmem) (UInt8.not_le.mpr hc)
      · obtain ⟨hs, ht⟩ := ih hrest.symm
        exact ⟨(valid_encode d).append hs, ht⟩
  · rintro ⟨hs, ht⟩
    exact hs.append ((valid_singleton hc).append ht)

theorem IsAscii.valid {s : List UInt8} (hs : IsAscii s) : Valid s := by
  induction s with
  | nil => exact ⟨[], rfl⟩
  | cons c s ih =>
    obtain ⟨hc, hs⟩ := List.forall_mem_cons.mp hs
    exact (valid_singleton hc).append (ih hs)

theorem valid_ascii_append {s t : List UInt8} (hs : IsAscii s) : Valid (s ++ t) ↔ Valid t := by
  induction s with
  | nil => exact Iff.rfl
  | cons c s ih =>
    obtain ⟨hc, hs⟩ := List.forall_mem_cons.mp hs
    rw [List.cons_append, ← ih hs, ← List.nil_append (c :: _), valid_append_cons hc]
    exact and_iff_right (IsAscii.valid (List.forall_mem_nil _))

theorem valid_append_ascii {s t : List UInt8} (ht : IsAscii t) : Valid (s ++ t) ↔ Valid s := by
  cases t with
  | nil => rw [List.append_nil]
  | cons c t =>
    obtain ⟨hc, ht⟩ := List.forall_mem_cons.mp ht
    rw [valid_append_cons hc]
    exact and_iff_left (IsAscii.valid ht)

/-- A text of lines is valid when its lines are. -/
theorem valid_unlines {nl : UInt8} (hnl : nl < 0x80) (ls : List (List UInt8)) : Valid (unlines nl ls) ↔ ∀ l ∈ ls, Valid l := by
  induction ls with
  | nil => exact iff_of_true ⟨[], rfl⟩ (List.forall_mem_nil _)
  | cons l ls ih =>
    rw [unlines, List.flatMap_cons, ← unlines, List.append_assoc, List.cons_append, List.nil_append, valid_append_cons hnl,
      ih, List.forall_mem_cons]

end Utf8
