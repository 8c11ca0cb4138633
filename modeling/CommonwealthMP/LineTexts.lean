import Mathlib.Data.List.Basic
import Mathlib.Data.List.Infix

/-! # Lines of a text and what is stripped from their ends

A text is cut at its line marks. The ends of a line lose every leading or trailing occurrence of a
list of patterns, one occurrence after the other. -/
namespace LineTexts
variable {α : Type*} [DecidableEq α]

def stripFuel (pats : List (List α)) : ℕ → List α → List α
  | 0, s => s
  | n + 1, s => match pats.find? (·.isPrefixOf s) with
    | none => s
    | some p => stripFuel pats n (s.drop p.length)

/-- The text without the patterns in front of it; every pattern takes at least one letter. -/
def stripFront (pats : List (List α)) (s : List α) : List α := stripFuel pats s.length s

def stripBack (pats : List (List α)) (s : List α) : List α := (stripFront (pats.map List.reverse) s.reverse).reverse

def trim (pats : List (List α)) (s : List α) : List α := stripBack pats (stripFront pats s)

/-- No pattern stands at an end of the text. -/
structure Unpadded (pats : List (List α)) (s : List α) : Prop where
  front : ∀ p ∈ pats, ¬ p <+: s
  back : ∀ p ∈ pats, ¬ p <:+ s

variable {pats : List (List α)} {s : List α}

theorem stripFuel_suffix (pats : List (List α)) (n : ℕ) (s : List α) : stripFuel pats n s <:+ s := by
  induction n generalizing s with
  | zero => exact List.suffix_rfl
  | succ n ih =>
    rw [stripFuel]
    cases pats.find? (·.isPrefixOf s) with
    | none => exact List.suffix_rfl
    | some p => exact (ih (s.drop p.length)).trans (List.drop_suffix _ _)

theorem stripFront_suffix (pats : List (List α)) (s : List α) : stripFront pats s <:+ s := stripFuel_suffix pats _ s

theorem stripBack_isPrefix (pats : List (List α)) (s : List α) : stripBack pats s <+: s := by
  have h := stripFront_suffix (pats.map List.reverse) s.reverse
  rw [← List.reverse_suffix, stripBack, List.reverse_reverse]
  exact h

theorem find?_eq_none (h : ∀ p ∈ pats, ¬ p <+: s) : pats.find? (·.isPrefixOf s) = none := by
  rw [List.find?_eq_none]
  intro p hp hpre
  exact h p hp (List.isPrefixOf_iff_prefix.mp hpre)

theorem stripFuel_eq_self (h : ∀ p ∈ pats, ¬ p <+: s) (n : ℕ) : stripFuel pats n s = s := by
  cases n with
  | zero => rfl
  | succ n => rw [stripFuel, find?_eq_none h]

theorem stripFront_eq_self (h : ∀ p ∈ pats, ¬ p <+: s) : stripFront pats s = s := stripFuel_eq_self h _

theorem stripBack_eq_self (h : ∀ p ∈ pats, ¬ p <:+ s) : stripBack pats s = s := by
  rw [stripBack, stripFront_eq_self, List.reverse_reverse]
  intro p hp hpre
  obtain ⟨q, hq, rfl⟩ := List.mem_map.mp hp
  exact h q hq (List.reverse_prefix.mp hpre)

theorem trim_eq_self (h : Unpadded pats s) : trim pats s = s := by
  rw [trim, stripFront_eq_self h.front, stripBack_eq_self h.back]

theorem stripFront_cons (c : α) (ps : List (List α)) (s : List α) :
    stripFront ([c] :: ps) (c :: s) = stripFront ([c] :: ps) s := by
  rw [stripFront, List.length_cons, stripFuel, List.find?_cons_of_pos (by simp)]
  rfl

theorem trim_cons (c : α) (ps : List (List α)) (s : List α) : trim ([c] :: ps) (c :: s) = trim ([c] :: ps) s := by
  rw [trim, stripFront_cons, trim]

theorem stripFront_append_eq {p : List α} (hp : p ≠ []) (s : List α) :
    ∃ n, s.length ≤ n ∧ stripFront [p] (p ++ s) = stripFuel [p] n s := by
  have hpos := List.length_pos_of_ne_nil hp
  obtain ⟨n, hn⟩ : ∃ n, (p ++ s).length = n + 1 := ⟨(p ++ s).length - 1, by rw [List.length_append]; omega⟩
  have hfind : [p].find? (·.isPrefixOf (p ++ s)) = some p :=
    List.find?_cons_of_pos (List.isPrefixOf_iff_prefix.mpr (List.prefix_append p s))
  refine ⟨n, ?_, ?_⟩
  · rw [List.length_append] at hn
    omega
  · rw [stripFront, hn, stripFuel, hfind]
    dsimp only
    rw [List.drop_left]

theorem stripFront_append {p : List α} (hp : p ≠ []) (hs : ¬ p <+: s) : stripFront [p] (p ++ s) = s := by
  obtain ⟨n, -, h⟩ := stripFront_append_eq hp s
  rw [h]
  exact stripFuel_eq_self (by simpa using hs) n

theorem stripFuel_concat {d : α} (hd : ∀ p ∈ pats, d ∉ p) (n : ℕ) (s : List α) :
    ∃ t, stripFuel pats n (s ++ [d]) = t ++ [d] := by
  induction n generalizing s with
  | zero => exact ⟨s, rfl⟩
  | succ n ih =>
    rw [stripFuel]
    cases h : pats.find? (·.isPrefixOf (s ++ [d])) with
    | none => exact ⟨s, rfl⟩
    | some p =>
      have hmem := List.mem_of_find?_eq_some h
      have hfound : p.isPrefixOf (s ++ [d]) = true := List.find?_some (p := fun q : List α => q.isPrefixOf (s ++ [d])) h
      have hpre := List.isPrefixOf_iff_prefix.mp hfound
      have hs : p <+: s := by
        rcases List.prefix_concat_iff.mp hpre with he | hpre
        · exact absurd (he ▸ List.mem_append_right s (List.mem_singleton.mpr rfl)) (hd p hmem)
        · exact hpre
      dsimp only
      rw [List.drop_append_of_le_length hs.length_le]
      exact ih _

theorem trim_concat {d : α} (hd : ∀ p ∈ pats, d ∉ p) (hne : [] ∉ pats) (s : List α) : ∃ t, trim pats (s ++ [d]) = t ++ [d] := by
  obtain ⟨t, ht⟩ := stripFuel_concat hd (s ++ [d]).length s
  refine ⟨t, ?_⟩
  rw [trim, stripFront, ht, stripBack_eq_self]
  intro p hp hsuf
  have hp0 : p ≠ [] := fun h0 => hne (h0 ▸ hp)
  have hlast := hsuf.getLast hp0
  rw [List.getLast_append_singleton] at hlast
  exact hd p hp (hlast ▸ List.getLast_mem hp0)

theorem stripFuel_length_lt (hne : [] ∉ pats) {p : List α} (hp : p ∈ pats) (hs : p <+: s) {n : ℕ} (hn : 0 < n) :
    (stripFuel pats n s).length < s.length := by
  obtain ⟨n, rfl⟩ := Nat.exists_eq_succ_of_ne_zero hn.ne'
  rw [stripFuel]
  cases h : pats.find? (·.isPrefixOf s) with
  | none =>
    rw [List.find?_eq_none] at h
    exact absurd (List.isPrefixOf_iff_prefix.mpr hs) (h p hp)
  | some q =>
    have hq : 0 < q.length := List.length_pos_of_ne_nil fun h0 => hne (h0 ▸ List.mem_of_find?_eq_some h)
    have hpos : 0 < s.length := (List.length_pos_of_ne_nil fun h0 => hne (h0 ▸ hp)).trans_le hs.length_le
    have hle := (stripFuel_suffix pats n (s.drop q.length)).length_le
    rw [List.length_drop] at hle
    dsimp only
    omega

theorem stripFront_length_lt (hne : [] ∉ pats) {p : List α} (hp : p ∈ pats) (hs : p <+: s) :
    (stripFront pats s).length < s.length :=
  stripFuel_length_lt hne hp hs ((List.length_pos_of_ne_nil fun h0 => hne (h0 ▸ hp)).trans_le hs.length_le)

theorem stripBack_length_lt (hne : [] ∉ pats) {p : List α} (hp : p ∈ pats) (hs : p <:+ s) :
    (stripBack pats s).length < s.length := by
  have hne' : [] ∉ pats.map List.reverse := by
    intro h
    obtain ⟨q, hq, he⟩ := List.mem_map.mp h
    exact hne (List.reverse_eq_nil_iff.mp he ▸ hq)
  have h := stripFront_length_lt hne' (List.mem_map_of_mem hp) (List.reverse_prefix.mpr hs)
  rw [List.length_reverse] at h
  rwa [stripBack, List.length_reverse]

theorem stripFront_append_length_lt {p : List α} (hp : p ≠ []) (hs : p <+: s) :
    (stripFront [p] (p ++ s)).length < s.length := by
  obtain ⟨n, hn, h⟩ := stripFront_append_eq hp s
  rw [h]
  refine stripFuel_length_lt ?_ (List.mem_singleton.mpr rfl) hs ?_
  · exact fun h0 => hp (List.mem_singleton.mp h0).symm
  · exact ((List.length_pos_of_ne_nil hp).trans_le hs.length_le).trans_le hn

theorem trim_length_le (pats : List (List α)) (s : List α) : (trim pats s).length ≤ s.length :=
  (stripBack_isPrefix pats _).length_le.trans (stripFront_suffix pats s).length_le

/-- Trimming keeps exactly the texts without padding. -/
theorem trim_eq_self_iff (hne : [] ∉ pats) : trim pats s = s ↔ Unpadded pats s := by
  refine ⟨fun h => ?_, trim_eq_self⟩
  have hfront : ∀ p ∈ pats, ¬ p <+: s := by
    intro p hp hs
    have hlt := stripFront_length_lt hne hp hs
    have hle := (stripBack_isPrefix pats (stripFront pats s)).length_le
    rw [← trim, h] at hle
    omega
  refine ⟨hfront, fun p hp hs => ?_⟩
  have hlt := stripBack_length_lt hne hp hs
  rw [trim, stripFront_eq_self hfront] at h
  rw [h] at hlt
  exact Nat.lt_irrefl _ hlt

/-- One carriage return at the end of a line belongs to its mark. -/
def dropReturn (cr : α) (l : List α) : List α := if l.getLast? = some cr then l.dropLast else l

def linesFrom (nl cr : α) (line : List α) : List α → List (List α)
  | [] => if line = [] then [] else [line]
  | c :: s => if c = nl then dropReturn cr line :: linesFrom nl cr [] s else linesFrom nl cr (line ++ [c]) s

def lines (nl cr : α) (s : List α) : List (List α) := linesFrom nl cr [] s

def unlines (nl : α) (ls : List (List α)) : List α := ls.flatMap (· ++ [nl])

theorem linesFrom_append {nl : α} (cr : α) {l : List α} (hl : nl ∉ l) (line rest : List α) :
    linesFrom nl cr line (l ++ nl :: rest) = dropReturn cr (line ++ l) :: lines nl cr rest := by
  induction l generalizing line with
  | nil => rw [List.nil_append, linesFrom, if_pos rfl, List.append_nil, lines]
  | cons c l ih =>
    simp only [List.mem_cons, not_or] at hl
    rw [List.cons_append, linesFrom, if_neg (Ne.symm hl.1), ih hl.2, List.append_assoc, List.singleton_append]

theorem lines_unlines {nl : α} (cr : α) {ls : List (List α)} (h : ∀ l ∈ ls, nl ∉ l) :
    lines nl cr (unlines nl ls) = ls.map (dropReturn cr) := by
  induction ls with
  | nil => rfl
  | cons l ls ih =>
    have hl := linesFrom_append cr (h l List.mem_cons_self) [] (unlines nl ls)
    rw [unlines, List.flatMap_cons, List.append_assoc, List.singleton_append, lines, ← unlines, hl, List.nil_append,
      List.map_cons, ih fun l' h' => h l' (List.mem_cons_of_mem _ h')]

theorem dropReturn_eq_self {cr : α} {l : List α} (h : cr ∉ l) : dropReturn cr l = l :=
  if_neg fun hl => h (List.mem_of_getLast? hl)

/-- What stands before the first occurrence of `pat`, or the whole text. -/
def before (pat : List α) : List α → List α
  | [] => []
  | c :: s => if pat.isPrefixOf (c :: s) then [] else c :: before pat s

theorem before_append {c : α} {s : List α} (hc : c ∉ s) (t : List α) : before [c] (s ++ c :: t) = s := by
  induction s with
  | nil => rw [List.nil_append, before, if_pos (by simp)]
  | cons a s ih =>
    simp only [List.mem_cons, not_or] at hc
    rw [List.cons_append, before, if_neg (by simpa using hc.1), ih hc.2]

def wordsFuel (pats : List (List α)) : ℕ → List α → List α → List (List α)
  | 0, word, _ => if word = [] then [] else [word]
  | _, word, [] => if word = [] then [] else [word]
  | n + 1, word, c :: s => match pats.find? (·.isPrefixOf (c :: s)) with
    | none => wordsFuel pats n (word ++ [c]) s
    | some p => (if word = [] then [] else [word]) ++ wordsFuel pats n [] ((c :: s).drop p.length)

/-- The stretches between the patterns that are not empty. -/
def words (pats : List (List α)) (s : List α) : List (List α) := wordsFuel pats s.length [] s

def StartsNone (pats : List (List α)) (c : α) : Prop := ∀ p ∈ pats, ∀ s, ¬ p <+: c :: s

theorem wordsFuel_append {w : List α} (hw : ∀ c ∈ w, StartsNone pats c) (n : ℕ) (word rest : List α) :
    wordsFuel pats (w.length + n) word (w ++ rest) = wordsFuel pats n (word ++ w) rest := by
  induction w generalizing word with
  | nil => rw [List.length_nil, Nat.zero_add, List.nil_append, List.append_nil]
  | cons c w ih =>
    have hnone := find?_eq_none fun p hp => hw c List.mem_cons_self p hp (w ++ rest)
    rw [List.length_cons, Nat.succ_add, List.cons_append, wordsFuel, hnone]
    dsimp only
    rw [ih fun d hd => hw d (List.mem_cons_of_mem _ hd), List.append_assoc, List.singleton_append]

theorem words_singleton {w : List α} (hw : ∀ c ∈ w, StartsNone pats c) (hne : w ≠ []) : words pats w = [w] := by
  have h := wordsFuel_append hw 0 [] []
  rw [Nat.add_zero, List.append_nil, List.nil_append, wordsFuel, if_neg hne] at h
  exact h

theorem words_cons {c : α} {ps : List (List α)} {w : List α} (hw : ∀ d ∈ w, StartsNone ([c] :: ps) d) (hne : w ≠ [])
    (rest : List α) : words ([c] :: ps) (w ++ c :: rest) = w :: words ([c] :: ps) rest := by
  have h := wordsFuel_append hw (rest.length + 1) [] (c :: rest)
  rw [words, List.length_append, List.length_cons, h, List.nil_append, wordsFuel, List.find?_cons_of_pos (by simp)]
  dsimp only
  rw [if_neg hne]
  rfl

omit [DecidableEq α] in
theorem infix_append_cons {c : α} {w a b : List α} (hc : c ∉ w) (h : w <:+: a ++ c :: b) : w <:+: a ∨ w <:+: b := by
  obtain ⟨s, t, h⟩ := h
  rw [List.append_assoc, List.append_eq_append_iff] at h
  obtain ⟨m, rfl, hw⟩ | ⟨m, rfl, hw⟩ := h
  · -- the word starts in `a`
    rw [List.append_eq_append_iff] at hw
    obtain ⟨k, rfl, -⟩ | ⟨k, hk, hb⟩ := hw
    · exact .inl ⟨s, k, by rw [List.append_assoc]⟩
    · cases k with
      | nil => exact .inl ⟨s, [], by rw [List.append_nil, hk, List.append_nil]⟩
      | cons d k =>
        rw [List.cons_append, List.cons.injEq] at hb
        rw [hk, ← hb.1] at hc
        exact absurd (List.mem_append_right _ List.mem_cons_self) hc
  · cases m with
    | nil =>
      cases w with
      | nil => exact .inr List.nil_infix
      | cons d w =>
        rw [List.nil_append, List.cons_append, List.cons.injEq] at hw
        rw [hw.1] at hc
        exact absurd List.mem_cons_self hc
    | cons d m =>
      rw [List.cons_append, List.cons.injEq] at hw
      exact .inr ⟨m, t, by rw [hw.2, List.append_assoc]⟩

end LineTexts
