import Mathlib.Data.List.Induction

/-! # Cutting a stream into frames

A cutter takes the first frame off a buffer. From what it does on whole frames and on
proper prefixes of them follows what it does on any stream of whole frames, however the
stream is cut into pieces on its way. -/
namespace FrameStream

/-- The first frame of a buffer, when it is complete, and the buffer after the call. -/
structure Cutter (α : Type*) where
  cut : List α → Option (List α) × List α
  Whole : List α → Prop
  whole_ne_nil : ∀ {frame}, Whole frame → frame ≠ []
  cut_nil : cut [] = (none, [])
  cut_whole : ∀ {frame} (rest), Whole frame → cut (frame ++ rest) = (some frame, rest)
  cut_short : ∀ {frame buf}, Whole frame → buf <+: frame → buf ≠ frame → cut buf = (none, buf)
  cut_shrinks : ∀ {buf frame rest}, cut buf = (some frame, rest) → rest.length < buf.length

variable {α : Type*}

/-- The buffer ends inside the first of the frames still to come. -/
def Short (buf : List α) (frames : List (List α)) : Prop :=
  match frames with
  | [] => buf = []
  | frame :: _ => buf <+: frame ∧ buf ≠ frame

theorem Short.length_lt {buf frame : List α} {frames : List (List α)} (h : Short buf (frame :: frames)) :
    buf.length < frame.length := by
  obtain ⟨hp, hne⟩ := h
  exact Nat.lt_of_le_of_ne hp.length_le fun he => hne (hp.eq_of_length he)

namespace Cutter
variable (C : Cutter α)

/-- All complete frames at the front of a buffer, and what is left. -/
def drain (buf : List α) : List (List α) × List α :=
  match _h : C.cut buf with
  | (none, rest) => ([], rest)
  | (some frame, rest) => (frame :: (drain rest).1, (drain rest).2)
termination_by buf.length
decreasing_by all_goals exact C.cut_shrinks ‹_›

theorem drain_of_none {buf rest : List α} (h : C.cut buf = (none, rest)) : C.drain buf = ([], rest) := by
  rw [drain]
  split
  · rename_i he
    rw [h] at he
    cases he
    rfl
  · rename_i he
    rw [h] at he
    cases he

theorem drain_of_some {buf frame rest : List α} (h : C.cut buf = (some frame, rest)) :
    C.drain buf = (frame :: (C.drain rest).1, (C.drain rest).2) := by
  rw [drain]
  split
  · rename_i he
    rw [h] at he
    cases he
  · rename_i he
    rw [h] at he
    cases he
    rfl

variable {C} {frames : List (List α)} {buf tail : List α}

/-- A buffer at the front of a stream of whole frames: it holds the first frame, or it ends
inside it and the cutter leaves it alone. -/
theorem cut_stream (hw : ∀ frame ∈ frames, C.Whole frame) (he : buf ++ tail = frames.flatten) :
    (C.cut buf = (none, buf) ∧ Short buf frames) ∨
      ∃ frame rest buf', frames = frame :: rest ∧ C.cut buf = (some frame, buf') ∧ buf = frame ++ buf' ∧
        buf' ++ tail = rest.flatten := by
  cases frames with
  | nil =>
    obtain ⟨rfl, -⟩ := List.append_eq_nil_iff.mp he
    exact .inl ⟨C.cut_nil, rfl⟩
  | cons frame rest =>
    have hf := hw frame List.mem_cons_self
    rw [List.flatten_cons] at he
    rcases List.append_eq_append_iff.mp he with ⟨suffix, hframe, htail⟩ | ⟨buf', hbuf, hrest⟩
    · by_cases hs : buf = frame
      · subst hs
        have hn : suffix = [] := by simpa using hframe
        subst hn
        refine .inr ⟨buf, rest, [], rfl, ?_, by simp, by simpa using htail⟩
        simpa using C.cut_whole [] hf
      · have hp : buf <+: frame := ⟨suffix, hframe.symm⟩
        exact .inl ⟨C.cut_short hf hp hs, hp, hs⟩
    · refine .inr ⟨frame, rest, buf', rfl, ?_, hbuf, hrest.symm⟩
      rw [hbuf]
      exact C.cut_whole buf' hf

/-- Draining the front of a stream takes its first frames and stops inside the next one. -/
theorem drain_stream (hw : ∀ frame ∈ frames, C.Whole frame) (he : buf ++ tail = frames.flatten) :
    ∃ done rest buf', frames = done ++ rest ∧ C.drain buf = (done, buf') ∧ Short buf' rest ∧ buf' ++ tail = rest.flatten := by
  induction frames generalizing buf with
  | nil =>
    rcases cut_stream hw he with ⟨hc, hs⟩ | ⟨frame, rest, buf', hf, -⟩
    · exact ⟨[], [], buf, rfl, C.drain_of_none hc, hs, he⟩
    · cases hf
  | cons first frames ih =>
    rcases cut_stream hw he with ⟨hc, hs⟩ | ⟨frame, rest, buf', hf, hc, -, hrest⟩
    · exact ⟨[], first :: frames, buf, rfl, C.drain_of_none hc, hs, he⟩
    · cases hf
      obtain ⟨done, later, left, rfl, hd, hs, hl⟩ := ih (fun f hm => hw f (List.mem_cons_of_mem _ hm)) hrest
      exact ⟨first :: done, later, left, rfl, by rw [C.drain_of_some hc, hd], hs, hl⟩

variable (C) in
/-- The frames taken by cutting once after each piece, and what is left. A reader of this kind
falls behind a burst: a frame leaves in time only when there are turns enough for it and for
the frames before it. -/
def serve (buf : List α) : List (List α) → List (List α) × List α
  | [] => ([], buf)
  | piece :: more =>
    match C.cut (buf ++ piece) with
    | (none, rest) => serve rest more
    | (some frame, rest) => (frame :: (serve rest more).1, (serve rest more).2)

theorem serve_concat (buf : List α) (pieces : List (List α)) (piece : List α) :
    C.serve buf (pieces ++ [piece]) =
      ((C.serve buf pieces).1 ++ (C.cut ((C.serve buf pieces).2 ++ piece)).1.toList,
        (C.cut ((C.serve buf pieces).2 ++ piece)).2) := by
  induction pieces generalizing buf with
  | nil =>
    rw [List.nil_append, serve]
    cases h : C.cut (buf ++ piece) with
    | mk front rest => cases front <;> simp [serve, h]
  | cons first pieces ih =>
    rw [List.cons_append, serve, serve]
    cases h : C.cut (buf ++ first) with
    | mk front rest => cases front <;> simp [ih]

/-- The first `k` frames have arrived early enough to be taken within the turns there are:
the last of them before the last turn, the one before it a turn earlier, and so on. -/
def InTime (frames pieces : List (List α)) (k : ℕ) : Prop :=
  ∀ i < k, i < pieces.length ∧
    (frames.take (k - i)).flatten.length ≤ (pieces.take (pieces.length - i)).flatten.length

theorem inTime_succ {frames pieces : List (List α)} {piece : List α} {k : ℕ} :
    InTime frames (pieces ++ [piece]) (k + 1) ↔
      (frames.take (k + 1)).flatten.length ≤ (pieces ++ [piece]).flatten.length ∧ InTime frames pieces k := by
  constructor
  · intro h
    constructor
    · have hl := (h 0 (by omega)).2
      rwa [Nat.sub_zero, Nat.sub_zero, List.take_length] at hl
    · intro i hi
      have hs := h (i + 1) (by omega)
      rw [List.length_append, List.length_singleton] at hs
      obtain ⟨hlt, hle⟩ := hs
      have ht : k + 1 - (i + 1) = k - i := by omega
      have hp : pieces.length + 1 - (i + 1) = pieces.length - i := by omega
      rw [ht, hp, List.take_append_of_le_length (by omega)] at hle
      exact ⟨by omega, hle⟩
  · rintro ⟨hfirst, h⟩ i hi
    rw [List.length_append, List.length_singleton]
    cases i with
    | zero =>
      refine ⟨by omega, ?_⟩
      rw [Nat.sub_zero, Nat.sub_zero, List.take_of_length_le (l := pieces ++ [piece]) (by simp)]
      exact hfirst
    | succ i =>
      obtain ⟨hlt, hle⟩ := h i (by omega)
      have ht : k + 1 - (i + 1) = k - i := by omega
      have hp : pieces.length + 1 - (i + 1) = pieces.length - i := by omega
      rw [ht, hp, List.take_append_of_le_length (by omega)]
      exact ⟨by omega, hle⟩

theorem flatten_take_mono (frames : List (List α)) {j k : ℕ} (h : j ≤ k) :
    (frames.take j).flatten.length ≤ (frames.take k).flatten.length := by
  have hp : frames.take j <+: frames.take k := List.take_prefix_take_left h
  obtain ⟨rest, hr⟩ := hp
  rw [← hr, List.flatten_append, List.length_append]
  exact Nat.le_add_right _ _

/-- What a reader of one frame a turn has taken from a stream of whole frames: the first
`h` of them, all whose time has come. -/
theorem serve_stream (hw : ∀ frame ∈ frames, C.Whole frame) {pieces : List (List α)}
    (he : pieces.flatten ++ tail = frames.flatten) :
    ∃ h ≤ frames.length, (C.serve [] pieces).1 = frames.take h ∧
      (frames.take h).flatten ++ (C.serve [] pieces).2 = pieces.flatten ∧
      ∀ k ≤ frames.length, k ≤ h ↔ InTime frames pieces k := by
  induction pieces using List.reverseRecOn generalizing tail with
  | nil =>
    refine ⟨0, Nat.zero_le _, rfl, rfl, fun k _ => ?_⟩
    constructor
    · intro hk i hi
      omega
    · intro h
      by_contra hk
      exact absurd (h 0 (by omega)).1 (Nat.not_lt_zero _)
  | append_singleton pieces piece ih =>
    have he' : pieces.flatten ++ (piece ++ tail) = frames.flatten := by
      rw [← he]
      simp
    obtain ⟨h, hle, hfront, hrest, hcount⟩ := ih he'
    have hsplit : (frames.take h).flatten ++ (frames.drop h).flatten = frames.flatten := by
      rw [← List.flatten_append, List.take_append_drop]
    -- the buffer and what is to come are the frames not yet taken
    have hlater : (C.serve [] pieces).2 ++ piece ++ tail = (frames.drop h).flatten := by
      rw [← hrest, ← hsplit] at he'
      simpa [List.append_assoc] using he'
    have htotal : (pieces ++ [piece]).flatten = (frames.take h).flatten ++ ((C.serve [] pieces).2 ++ piece) := by
      rw [List.flatten_append, ← hrest]
      simp
    rw [serve_concat, hfront]
    rcases cut_stream (C := C) (fun f hm => hw f (List.mem_of_mem_drop hm)) hlater with
      ⟨hcut, hshort⟩ | ⟨frame, rest, buf', hdrop, hcut, hbuf, -⟩
    · refine ⟨h, hle, by rw [hcut]; simp, by rw [hcut, htotal], fun k hk => ?_⟩
      cases k with
      | zero => exact iff_of_true (Nat.zero_le _) fun i hi => absurd hi (Nat.not_lt_zero _)
      | succ k =>
        rw [inTime_succ, ← hcount k (by omega)]
        constructor
        · intro hkh
          have hin := (hcount (k + 1) hk).mp hkh
          refine ⟨Nat.le_trans (hin 0 (by omega)).2 ?_, by omega⟩
          rw [Nat.sub_zero, List.take_length, List.flatten_append, List.length_append]
          exact Nat.le_add_right _ _
        · rintro ⟨hneed, hkh⟩
          by_contra hlt
          obtain rfl : k = h := by omega
          -- the next frame has not arrived whole
          have hnext : frames.drop k = frames[k] :: frames.drop (k + 1) := List.drop_eq_getElem_cons (by omega)
          rw [hnext] at hshort
          have hs := hshort.length_lt
          rw [List.take_add_one, List.getElem?_eq_getElem (by omega), htotal] at hneed
          simp only [Option.toList_some, List.flatten_append, List.flatten_singleton, List.length_append] at hneed hs
          omega
    · have hlt : h < frames.length := by
        by_contra hge
        rw [List.drop_of_length_le (by omega)] at hdrop
        cases hdrop
      have hnext : frames[h] = frame := by
        have hc := List.drop_eq_getElem_cons hlt
        rw [hdrop] at hc
        exact (List.cons.inj hc).1.symm
      have htake : frames.take (h + 1) = frames.take h ++ [frame] := by
        rw [List.take_add_one, List.getElem?_eq_getElem hlt, hnext, Option.toList_some]
      refine ⟨h + 1, hlt, by rw [hcut, htake, Option.toList_some], ?_, fun k hk => ?_⟩
      · rw [htake, hcut, htotal, hbuf]
        simp
      · cases k with
        | zero => exact iff_of_true (Nat.zero_le _) fun i hi => absurd hi (Nat.not_lt_zero _)
        | succ k =>
          rw [inTime_succ, ← hcount k (by omega)]
          constructor
          · intro hkh
            refine ⟨Nat.le_trans (flatten_take_mono frames hkh) ?_, by omega⟩
            rw [htake, htotal, hbuf]
            simp only [List.flatten_append, List.flatten_singleton, List.length_append]
            omega
          · rintro ⟨-, hkh⟩
            omega

end Cutter
end FrameStream
