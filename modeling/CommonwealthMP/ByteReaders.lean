import CommonwealthMP.ByteLayout

/-! # Reading a byte string front to back

A reading copies pieces out of a byte string behind a cursor, may change a state on the way,
and stops at the first piece that is not there. What it accepts is described exactly by a
relation between the pieces it copies, the state before, the value and the state after. -/
namespace ByteReaders
open ByteLayout

structure Cursor where
  bytes : Bytes
  p : ℕ := 0
  /-- The ranges copied out so far, each with its offset and its length. -/
  copied : List (ℕ × ℕ) := []

namespace Cursor

def left (c : Cursor) : Bytes := c.bytes.drop c.p

def copy (c : Cursor) (n : ℕ) : Cursor := { c with p := c.p + n, copied := (c.p, n) :: c.copied }

/-- The cursor stands within the byte string, and nothing outside has been read. -/
structure Within (c : Cursor) : Prop where
  p_le : c.p ≤ c.bytes.length
  copied_le : ∀ range ∈ c.copied, range.1 + range.2 ≤ c.bytes.length

theorem within_start (bytes : Bytes) : Within { bytes } where
  p_le := Nat.zero_le _
  copied_le := fun _ h => absurd h List.not_mem_nil

theorem left_length (c : Cursor) : c.left.length = c.bytes.length - c.p := List.length_drop

theorem within_copy {c : Cursor} (h : c.Within) {n : ℕ} (hn : n ≤ c.left.length) : (c.copy n).Within := by
  have hp := h.p_le
  rw [left_length] at hn
  have hend : c.p + n ≤ c.bytes.length := by omega
  exact ⟨hend, List.forall_mem_cons.mpr ⟨hend, h.copied_le⟩⟩

theorem left_copy (c : Cursor) (n : ℕ) : (c.copy n).left = c.left.drop n := List.drop_drop.symm

/-- The cursor after the pieces have been copied one by one. -/
def copyAll (c : Cursor) (pieces : List Bytes) : Cursor := pieces.foldl (fun c piece => c.copy piece.length) c

theorem copyAll_append (c : Cursor) (pieces more : List Bytes) : c.copyAll (pieces ++ more) = (c.copyAll pieces).copyAll more :=
  List.foldl_append

theorem left_copyAll (c : Cursor) (pieces : List Bytes) : (c.copyAll pieces).left = c.left.drop pieces.flatten.length := by
  induction pieces generalizing c with
  | nil => rfl
  | cons piece pieces ih =>
    change ((c.copy piece.length).copyAll pieces).left = _
    rw [ih, left_copy, List.drop_drop, List.flatten_cons, List.length_append]

/-- Pieces that lie ahead, and more behind them. -/
theorem prefix_append (c : Cursor) (pieces more : List Bytes) : (pieces ++ more).flatten <+: c.left ↔
    pieces.flatten <+: c.left ∧ more.flatten <+: (c.copyAll pieces).left := by
  rw [left_copyAll, List.flatten_append]
  constructor
  · rintro ⟨rest, hrest⟩
    rw [← hrest, List.append_assoc, List.drop_left]
    exact ⟨List.prefix_append _ _, List.prefix_append _ _⟩
  · rintro ⟨⟨rest, hrest⟩, hmore⟩
    rw [← hrest, List.drop_left] at hmore
    rw [← hrest]
    exact (List.prefix_append_right_inj _).mpr hmore

end Cursor

/-- The value is `none` where the source returns early. -/
def Reading (σ α : Type) := Cursor × σ → Option α × Cursor × σ

namespace Reading
variable {σ α β : Type}

def andThen (m : Reading σ α) (k : α → Reading σ β) : Reading σ β := fun s =>
  match m s with
  | (some a, s) => k a s
  | (none, s) => (none, s)

instance : Monad (Reading σ) where
  pure a := fun s => (some a, s)
  bind := andThen

def raw (n : ℕ) : Reading σ Bytes := fun s =>
  if n ≤ s.1.bytes.length - s.1.p then (some (slice s.1.bytes s.1.p n), s.1.copy n, s.2) else (none, s)

def u8 : Reading σ UInt8 := do
  let bytes ← raw 1
  pure (u8At bytes 0)

def u16 : Reading σ UInt16 := do
  let bytes ← raw 2
  pure (u16At bytes 0)

def u32 : Reading σ UInt32 := do
  let bytes ← raw 4
  pure (u32At bytes 0)

def stop : Reading σ α := fun s => (none, s)

def update (f : σ → σ) : Reading σ Unit := fun s => (some (), s.1, f s.2)

def times : ℕ → Reading σ α → Reading σ (List α)
  | 0, _ => pure []
  | n+1, m => do
    let a ← m
    let as ← times n m
    pure (a :: as)

def counted (m : Reading σ α) : Reading σ (List α) := do
  let n ← u8
  times n.toNat m

theorem bind_none {m : Reading σ α} (k : α → Reading σ β) {s t : Cursor × σ} (h : m s = (none, t)) :
    (m >>= k) s = (none, t) := by
  change andThen m k s = _
  rw [andThen, h]

theorem bind_some {m : Reading σ α} (k : α → Reading σ β) {s t : Cursor × σ} {a : α} (h : m s = (some a, t)) :
    (m >>= k) s = k a t := by
  change andThen m k s = _
  rw [andThen, h]

theorem bind_eq_some {m : Reading σ α} {k : α → Reading σ β} {s t : Cursor × σ} {b : β} :
    (m >>= k) s = (some b, t) ↔ ∃ a u, m s = (some a, u) ∧ k a u = (some b, t) := by
  constructor
  · intro h
    rcases hm : m s with ⟨_ | a, u⟩
    · rw [bind_none k hm] at h
      cases h
    · exact ⟨a, u, rfl, (bind_some k hm).symm.trans h⟩
  · rintro ⟨a, u, hm, hk⟩
    exact (bind_some k hm).trans hk

/-- The pieces copied, the state before, the value and the state after. -/
abbrev Effect (σ α : Type) := List Bytes → σ → α → σ → Prop

structure Accepts (m : Reading σ α) (E : Effect σ α) : Prop where
  within : ∀ s, s.1.Within → (m s).2.1.Within ∧ (m s).2.1.bytes = s.1.bytes
  accepted : ∀ s a t, s.1.Within →
    (m s = (some a, t) ↔ ∃ pieces, t.1 = s.1.copyAll pieces ∧ pieces.flatten <+: s.1.left ∧ E pieces s.2 a t.2)

/-- Pieces of the language that lie ahead are read. -/
theorem Accepts.run {m : Reading σ α} {E : Effect σ α} (h : Accepts m E) {c : Cursor} {x y : σ} {a : α} {pieces : List Bytes}
    (hc : c.Within) (hpieces : pieces.flatten <+: c.left) (hE : E pieces x a y) :
    m (c, x) = (some a, c.copyAll pieces, y) ∧ (c.copyAll pieces).Within := by
  have hm := (h.accepted (c, x) a (c.copyAll pieces, y) hc).mpr ⟨pieces, rfl, hpieces, hE⟩
  have hin := (h.within (c, x) hc).1
  rw [hm] at hin
  exact ⟨hm, hin⟩

theorem Accepts.congr {m : Reading σ α} {E E' : Effect σ α} (h : Accepts m E)
    (hE : ∀ pieces x a y, E pieces x a y ↔ E' pieces x a y) : Accepts m E' where
  within := h.within
  accepted := fun s a t hs => (h.accepted s a t hs).trans
    (exists_congr fun _ => and_congr_right fun _ => and_congr_right fun _ => hE _ _ _ _)

theorem accepts_pure (a : α) : Accepts (pure a : Reading σ α) fun pieces x b y => pieces = [] ∧ b = a ∧ y = x where
  within := fun s hs => ⟨hs, rfl⟩
  accepted := by
    intro s b t _
    constructor
    · intro h
      cases h
      exact ⟨[], rfl, List.nil_prefix, rfl, rfl, rfl⟩
    · rintro ⟨_, ht, -, rfl, rfl, hy⟩
      rw [← Prod.mk.eta (p := t), ht, hy]
      rfl

theorem accepts_stop : Accepts (stop : Reading σ α) fun _ _ _ _ => False where
  within := fun s hs => ⟨hs, rfl⟩
  accepted := by
    intro s a t _
    constructor
    · intro h
      cases h
    · rintro ⟨_, -, -, h⟩
      exact h.elim

theorem accepts_update (f : σ → σ) : Accepts (update f) fun pieces x _ y => pieces = [] ∧ y = f x where
  within := fun s hs => ⟨hs, rfl⟩
  accepted := by
    intro s a t _
    constructor
    · intro h
      cases h
      exact ⟨[], rfl, List.nil_prefix, rfl, rfl⟩
    · rintro ⟨_, ht, -, rfl, hy⟩
      rw [← Prod.mk.eta (p := t), ht, hy]
      rfl

theorem accepts_raw (n : ℕ) : Accepts (raw n : Reading σ Bytes) fun pieces x a y => pieces = [a] ∧ a.length = n ∧ y = x where
  within := by
    intro s hs
    unfold raw
    split
    · rename_i hn
      exact ⟨s.1.within_copy hs (s.1.left_length ▸ hn), rfl⟩
    · exact ⟨hs, rfl⟩
  accepted := by
    intro s a t _
    have hlen := s.1.left_length
    constructor
    · intro h
      unfold raw at h
      split at h
      · rename_i hn
        cases h
        have htake : (s.1.left.take n).length = n := by
          rw [List.length_take]
          omega
        refine ⟨[s.1.left.take n], ?_, ?_, rfl, htake, rfl⟩
        · change s.1.copy n = s.1.copy (s.1.left.take n).length
          rw [htake]
        · rw [List.flatten_singleton]
          exact List.take_prefix n _
      · cases h
    · rintro ⟨_, ht, hprefix, rfl, rfl, hy⟩
      rw [List.flatten_singleton] at hprefix
      have hle := hprefix.length_le
      have hpiece : slice s.1.bytes s.1.p a.length = a := (List.prefix_iff_eq_take.mp hprefix).symm
      rw [raw, if_pos (by omega), ← Prod.mk.eta (p := t), ht, hy, hpiece]
      rfl

theorem Accepts.bind {m : Reading σ α} {k : α → Reading σ β} {E : Effect σ α} {F : α → Effect σ β} (hm : Accepts m E)
    (hk : ∀ a, Accepts (k a) (F a)) :
    Accepts (m >>= k) fun pieces x b z => ∃ first next a y, pieces = first ++ next ∧ E first x a y ∧ F a next y b z where
  within := by
    intro s hs
    obtain ⟨hin, hbytes⟩ := hm.within s hs
    rcases h : m s with ⟨_ | a, t⟩
    · rw [bind_none k h]
      rw [h] at hin hbytes
      exact ⟨hin, hbytes⟩
    · rw [bind_some k h]
      rw [h] at hin hbytes
      obtain ⟨hin', hbytes'⟩ := (hk a).within t hin
      exact ⟨hin', hbytes'.trans hbytes⟩
  accepted := by
    intro s b t hs
    obtain ⟨hin, -⟩ := hm.within s hs
    rw [bind_eq_some]
    constructor
    · rintro ⟨a, u, hmu, hku⟩
      rw [hmu] at hin
      obtain ⟨first, hu, hfirst, hE⟩ := (hm.accepted s a u hs).mp hmu
      obtain ⟨next, ht, hnext, hF⟩ := (hk a).accepted u b t hin |>.mp hku
      rw [hu] at ht hnext
      exact ⟨first ++ next, by rw [ht, Cursor.copyAll_append], (s.1.prefix_append first next).mpr ⟨hfirst, hnext⟩,
        first, next, a, u.2, rfl, hE, hF⟩
    · rintro ⟨_, ht, hprefix, first, next, a, y, rfl, hE, hF⟩
      obtain ⟨hfirst, hnext⟩ := (s.1.prefix_append first next).mp hprefix
      have hmu : m s = (some a, s.1.copyAll first, y) := (hm.accepted s a _ hs).mpr ⟨first, rfl, hfirst, hE⟩
      rw [hmu] at hin
      rw [Cursor.copyAll_append] at ht
      exact ⟨a, _, hmu, ((hk a).accepted _ b t hin).mpr ⟨next, ht, hnext, hF⟩⟩

theorem Accepts.ite {p : Prop} [Decidable p] {m k : Reading σ α} {E F : Effect σ α} (hm : Accepts m E) (hk : Accepts k F) :
    Accepts (if p then m else k) fun pieces x a y => if p then E pieces x a y else F pieces x a y := by
  split
  · exact hm
  · exact hk

theorem Accepts.bindField {m : Reading σ α} {k : α → Reading σ β} {write : α → Bytes} {F : α → Effect σ β}
    (hm : Accepts m fun pieces x a y => pieces = [write a] ∧ y = x) (hk : ∀ a, Accepts (k a) (F a)) :
    Accepts (m >>= k) fun pieces x b z => ∃ a next, pieces = write a :: next ∧ F a next x b z := by
  refine (hm.bind hk).congr fun pieces x b z => ?_
  constructor
  · rintro ⟨_, next, a, _, rfl, ⟨rfl, rfl⟩, h⟩
    exact ⟨a, next, rfl, h⟩
  · rintro ⟨a, next, rfl, h⟩
    exact ⟨[write a], next, a, x, rfl, ⟨rfl, rfl⟩, h⟩

theorem Accepts.bindUpdate (f : σ → σ) {k : Unit → Reading σ β} {F : Effect σ β} (hk : Accepts (k ()) F) :
    Accepts (update f >>= k) fun pieces x b z => F pieces (f x) b z := by
  refine ((accepts_update f).bind (F := fun _ => F) fun _ => hk).congr fun pieces x b z => ?_
  constructor
  · rintro ⟨_, _, _, _, rfl, ⟨rfl, rfl⟩, h⟩
    exact h
  · exact fun h => ⟨[], pieces, (), f x, rfl, ⟨rfl, rfl⟩, h⟩

/-- The reading accepts the legal texts; it gives each its value and lets that act on the state. -/
abbrev Reads {τ : Type} (m : Reading σ α) (legal : τ → Prop) (text : τ → List Bytes) (value : τ → α) (f : α → σ → σ) : Prop :=
  Accepts m fun pieces x a y => ∃ t, legal t ∧ pieces = text t ∧ a = value t ∧ y = f (value t) x

theorem Reads.bind {τ : Type} {m : Reading σ α} {legal : τ → Prop} {text : τ → List Bytes} {value : τ → α} {f : α → σ → σ}
    {k : α → Reading σ β} {F : α → Effect σ β} (hm : Reads m legal text value f) (hk : ∀ a, Accepts (k a) (F a)) :
    Accepts (m >>= k) fun pieces x b z =>
      ∃ t next, legal t ∧ pieces = text t ++ next ∧ F (value t) next (f (value t) x) b z := by
  refine (Accepts.bind hm hk).congr fun pieces x b z => ?_
  constructor
  · rintro ⟨_, next, _, _, rfl, ⟨t, ht, rfl, rfl, rfl⟩, h⟩
    exact ⟨t, next, ht, rfl, h⟩
  · rintro ⟨t, next, ht, rfl, h⟩
    exact ⟨text t, next, value t, f (value t) x, rfl, ⟨t, ht, rfl, rfl, rfl⟩, h⟩

theorem u8_u8At {bytes : Bytes} (h : bytes.length = 1) : ByteLayout.u8 (u8At bytes 0) = bytes := by
  obtain ⟨b, rfl⟩ := List.length_eq_one_iff.mp h
  simp [ByteLayout.u8, u8At, slice, leNat]

theorem leBytes_leNat (bytes : Bytes) : leBytes bytes.length (leNat bytes) = bytes := by
  induction bytes with
  | nil => rfl
  | cons b bytes ih =>
    have hb := b.toNat_lt
    have hdiv : (b.toNat + 256 * leNat bytes) / 256 = leNat bytes := by omega
    rw [leNat, List.length_cons, leBytes, hdiv, ih]
    congr 1
    apply UInt8.toNat_inj.mp
    rw [UInt8.toNat_ofNat']
    omega

theorem leNat_lt (bytes : Bytes) : leNat bytes < 256 ^ bytes.length := by
  induction bytes with
  | nil => exact Nat.one_pos
  | cons b bytes ih =>
    have hb := b.toNat_lt
    rw [leNat, List.length_cons, pow_succ]
    omega

theorem u16_u16At {bytes : Bytes} (h : bytes.length = 2) : ByteLayout.u16 (u16At bytes 0) = bytes := by
  have hlt := leNat_lt bytes
  have hbytes := leBytes_leNat bytes
  rw [h] at hlt hbytes
  rw [ByteLayout.u16, u16At, slice_all h, UInt16.toNat_ofNat', Nat.mod_eq_of_lt (by omega)]
  exact hbytes

theorem u32_u32At {bytes : Bytes} (h : bytes.length = 4) : ByteLayout.u32 (u32At bytes 0) = bytes := by
  have hlt := leNat_lt bytes
  have hbytes := leBytes_leNat bytes
  rw [h] at hlt hbytes
  rw [ByteLayout.u32, u32At, slice_all h, UInt32.toNat_ofNat', Nat.mod_eq_of_lt (by omega)]
  exact hbytes

theorem accepts_field {n : ℕ} {read : Bytes → α} {write : α → Bytes} (hlength : ∀ a, (write a).length = n)
    (hread : ∀ a, read (write a) = a) (hwrite : ∀ bytes, bytes.length = n → write (read bytes) = bytes) :
    Accepts (do
      let bytes ← raw n
      pure (read bytes) : Reading σ α) fun pieces x a y => pieces = [write a] ∧ y = x := by
  refine ((accepts_raw n).bind fun bytes => accepts_pure (read bytes)).congr fun pieces x a y => ?_
  constructor
  · rintro ⟨_, _, bytes, _, rfl, ⟨rfl, hlen, rfl⟩, rfl, rfl, rfl⟩
    exact ⟨by rw [List.append_nil, hwrite _ hlen], rfl⟩
  · rintro ⟨rfl, rfl⟩
    exact ⟨[write a], [], write a, y, rfl, ⟨rfl, hlength a, rfl⟩, rfl, (hread a).symm, rfl⟩

theorem accepts_u8 : Accepts (u8 : Reading σ UInt8) fun pieces x a y => pieces = [ByteLayout.u8 a] ∧ y = x :=
  accepts_field u8_length (fun a => by simpa using u8At_u8 a []) fun _ => u8_u8At

theorem accepts_u16 : Accepts (u16 : Reading σ UInt16) fun pieces x a y => pieces = [ByteLayout.u16 a] ∧ y = x :=
  accepts_field u16_length (fun a => by simpa using u16At_u16 a []) fun _ => u16_u16At

theorem accepts_u32 : Accepts (u32 : Reading σ UInt32) fun pieces x a y => pieces = [ByteLayout.u32 a] ∧ y = x :=
  accepts_field u32_length u32At_u32_last fun _ => u32_u32At

section Rows
variable {τ : Type} {m : Reading σ α} {legal : τ → Prop} {text : τ → List Bytes} {value : τ → α} {f : α → σ → σ}

def foldRows (f : α → σ → σ) (as : List α) (x : σ) : σ := as.foldl (fun x a => f a x) x

theorem reads_times (hm : Reads m legal text value f) (n : ℕ) :
    Reads (times n m) (fun ts => ts.length = n ∧ ∀ t ∈ ts, legal t) (fun ts => ts.flatMap text) (List.map value) (foldRows f) := by
  induction n with
  | zero =>
    refine (accepts_pure []).congr fun pieces x as y => ?_
    constructor
    · rintro ⟨rfl, rfl, rfl⟩
      exact ⟨[], ⟨rfl, List.forall_mem_nil _⟩, rfl, rfl, rfl⟩
    · rintro ⟨ts, ⟨hlen, -⟩, rfl, rfl, rfl⟩
      obtain rfl := List.length_eq_zero_iff.mp hlen
      exact ⟨rfl, rfl, rfl⟩
  | succ n ih =>
    refine (hm.bind fun a => ih.bind fun as => accepts_pure (a :: as)).congr fun pieces x as y => ?_
    constructor
    · rintro ⟨t, _, ht, rfl, ts, _, ⟨hlen, hts⟩, rfl, rfl, rfl, rfl⟩
      exact ⟨t :: ts, ⟨by rw [List.length_cons, hlen], List.forall_mem_cons.mpr ⟨ht, hts⟩⟩, by simp, rfl, rfl⟩
    · rintro ⟨ts, ⟨hlen, hts⟩, rfl, rfl, rfl⟩
      cases ts with
      | nil => cases hlen
      | cons t ts =>
        obtain ⟨ht, hts⟩ := List.forall_mem_cons.mp hts
        exact ⟨t, ts.flatMap text, ht, rfl, ts, [], ⟨Nat.succ_inj.mp hlen, hts⟩, (List.append_nil _).symm, rfl, rfl, rfl⟩

theorem toNat_ofNat_length {ts : List τ} (h : ts.length < 256) : (UInt8.ofNat ts.length).toNat = ts.length := by
  rw [UInt8.toNat_ofNat']
  exact Nat.mod_eq_of_lt h

def countedText (text : τ → List Bytes) (ts : List τ) : List Bytes := ByteLayout.u8 (UInt8.ofNat ts.length) :: ts.flatMap text

theorem reads_counted (hm : Reads m legal text value f) :
    Reads (counted m) (fun ts => ts.length < 256 ∧ ∀ t ∈ ts, legal t) (countedText text) (List.map value) (foldRows f) := by
  refine (accepts_u8.bindField fun n => reads_times hm n.toNat).congr fun pieces x as y => ?_
  constructor
  · rintro ⟨n, _, rfl, ts, ⟨hlen, hts⟩, rfl, rfl, rfl⟩
    refine ⟨ts, ⟨hlen ▸ n.toNat_lt, hts⟩, ?_, rfl, rfl⟩
    rw [countedText, hlen, UInt8.ofNat_toNat]
  · rintro ⟨ts, ⟨hlt, hts⟩, rfl, rfl, rfl⟩
    exact ⟨UInt8.ofNat ts.length, _, rfl, ts, ⟨(toNat_ofNat_length hlt).symm, hts⟩, rfl, rfl, rfl⟩

end Rows

end Reading

structure Writer where
  bytes : Bytes := []
  /-- The pieces appended so far, each with its offset and its length. -/
  written : List (ℕ × ℕ) := []

namespace Writer

def raw (w : Writer) (piece : Bytes) : Writer where
  bytes := w.bytes ++ piece
  written := (w.bytes.length, piece.length) :: w.written

def rawAll (w : Writer) (pieces : List Bytes) : Writer := pieces.foldl raw w

def patch (w : Writer) (offset : ℕ) (b : UInt8) : Writer := { w with bytes := w.bytes.set offset b }

theorem rawAll_append (w : Writer) (pieces more : List Bytes) : w.rawAll (pieces ++ more) = (w.rawAll pieces).rawAll more :=
  List.foldl_append

theorem rawAll_bytes (w : Writer) (pieces : List Bytes) : (w.rawAll pieces).bytes = w.bytes ++ pieces.flatten := by
  induction pieces generalizing w with
  | nil => exact (List.append_nil _).symm
  | cons piece pieces ih =>
    change ((w.raw piece).rawAll pieces).bytes = _
    rw [ih, raw, List.flatten_cons, List.append_assoc]

theorem rawAll_written (w v : Writer) (pieces : List Bytes) (hlen : w.bytes.length = v.bytes.length) (hw : w.written = v.written) :
    (w.rawAll pieces).written = (v.rawAll pieces).written := by
  induction pieces generalizing w v with
  | nil => exact hw
  | cons piece pieces ih =>
    refine ih (w.raw piece) (v.raw piece) ?_ ?_
    · rw [raw, raw, List.length_append, List.length_append, hlen]
    · rw [raw, raw, hlen, hw]

/-- A count that is patched in after the rows it counts. -/
theorem patch_rawAll (w : Writer) (b c : UInt8) (pieces : List Bytes) :
    ((w.raw (ByteLayout.u8 b)).rawAll pieces).patch w.bytes.length c = (w.raw (ByteLayout.u8 c)).rawAll pieces := by
  have hwritten := rawAll_written (w.raw (ByteLayout.u8 b)) (w.raw (ByteLayout.u8 c)) pieces (by simp [raw]) rfl
  have hbytes : (w.bytes ++ ByteLayout.u8 b ++ pieces.flatten).set w.bytes.length c = w.bytes ++ ByteLayout.u8 c ++ pieces.flatten := by
    simp [ByteLayout.u8]
  rw [patch, hwritten, rawAll_bytes, raw, hbytes]
  exact congrArg (Writer.mk · _) (rawAll_bytes (w.raw (ByteLayout.u8 c)) pieces).symm

/-- A cursor that copies the pieces reads exactly where they have been written. -/
theorem copied_copyAll {w : Writer} {c : Cursor} (hp : c.p = w.bytes.length) (hcopied : c.copied = w.written) (pieces : List Bytes) :
    (c.copyAll pieces).copied = (w.rawAll pieces).written ∧ (c.copyAll pieces).p = (w.rawAll pieces).bytes.length := by
  induction pieces generalizing w c with
  | nil => exact ⟨hcopied, hp⟩
  | cons piece pieces ih =>
    refine ih (w := w.raw piece) (c := c.copy piece.length) ?_ ?_
    · change c.p + piece.length = (w.bytes ++ piece).length
      rw [hp, List.length_append]
    · change (c.p, piece.length) :: c.copied = (w.bytes.length, piece.length) :: w.written
      rw [hp, hcopied]

end Writer
end ByteReaders
