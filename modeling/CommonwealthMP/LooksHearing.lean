import CommonwealthMP.ClientHearing
import CommonwealthMP.BlobAssembly

/-! # The looks a client holds

What the client has stored and begun of every other player's two blobs, and what the frames of
the server make of it: the packets of a blob, sent one after another, replace what is stored,
and a Bye takes it out. -/
namespace CommonwealthMP
open ByteLayout OrderedTables SessionTable StepRuns Plugin

/-- One kind of blob: what is stored, and what is begun but for the time it began. -/
structure Look where
  stored : UInt32 → Option Bytes
  begun : UInt32 → Option BlobAssembly

structure Looks where
  appearance : Look
  inventory : Look

namespace Look

def blank : Look := ⟨fun _ => none, fun _ => none⟩

def take (l : Look) (buf : Bytes) : Look :=
  if buf.length < sizeofBlobChunk then l
  else
    let p := (BlobChunk.decode buf).peerId
    match assembleBlobChunk 0 ((l.begun p).getD {}) buf with
    | (_, .Complete, complete) => ⟨Function.update l.stored p (some complete), Function.update l.begun p none⟩
    | (a, _, _) => ⟨l.stored, Function.update l.begun p (some a.unstamped)⟩

def forget (l : Look) (p : UInt32) : Look := { l with stored := Function.update l.stored p none }

/-- What the tables of a client hold. -/
def ofTables (stored : Table UInt32 Bytes) (parts : Table UInt32 BlobAssembly) : Look :=
  ⟨stored.lookup, fun p => (parts.lookup p).map BlobAssembly.unstamped⟩

theorem ofTables_insert (stored : Table UInt32 Bytes) (parts : Table UInt32 BlobAssembly) (p : UInt32) (a : BlobAssembly) :
    ofTables stored (parts.insert p a) = ⟨stored.lookup, Function.update (ofTables stored parts).begun p (some a.unstamped)⟩ := by
  rw [ofTables, Look.mk.injEq]
  refine ⟨rfl, funext fun q => ?_⟩
  rw [Table.lookup_insert, Function.update_apply]
  split <;> rfl

theorem ofTables_store (stored : Table UInt32 Bytes) (parts : Table UInt32 BlobAssembly) (p : UInt32) (blob : Bytes) :
    ofTables (stored.insert p blob) (parts.erase p) =
      ⟨Function.update stored.lookup p (some blob), Function.update (ofTables stored parts).begun p none⟩ := by
  rw [ofTables, Look.mk.injEq]
  constructor
  · funext q
    rw [Table.lookup_insert, Function.update_apply]
  · funext q
    rw [Table.lookup_erase, Function.update_apply]
    split <;> rfl

theorem ofTables_erase (stored : Table UInt32 Bytes) (parts : Table UInt32 BlobAssembly) (p : UInt32) :
    ofTables (stored.erase p) parts = (ofTables stored parts).forget p := by
  rw [forget, ofTables, Look.mk.injEq]
  refine ⟨funext fun q => ?_, rfl⟩
  rw [Table.lookup_erase, Function.update_apply]
  rfl

theorem take_ofTables (now : Time) (stored : Table UInt32 Bytes) (parts : Table UInt32 BlobAssembly) (buf : Bytes)
    (h : ¬ buf.length < sizeofBlobChunk) :
    (ofTables stored parts).take buf =
      match assembleBlobChunk now
        (let a := (parts.lookup (BlobChunk.decode buf).peerId).getD {}
         if a.startedSec ≤ 0 then { a with startedSec := now } else a) buf with
      | (_, .Complete, complete) =>
        ofTables (stored.insert (BlobChunk.decode buf).peerId complete) (parts.erase (BlobChunk.decode buf).peerId)
      | (a, _, _) => ofTables stored (parts.insert (BlobChunk.decode buf).peerId a) := by
  generalize hp : (BlobChunk.decode buf).peerId = p
  have hstart : BlobAssembly.unstamped
      (let a := (parts.lookup p).getD {}; if a.startedSec ≤ 0 then { a with startedSec := now } else a) =
      BlobAssembly.unstamped (((ofTables stored parts).begun p).getD {}) := by
    dsimp only [ofTables]
    cases parts.lookup p with
    | none => simp [BlobAssembly.unstamped]
    | some a =>
      simp only [Option.getD_some, Option.map_some]
      split <;> rfl
  obtain ⟨ha, hr⟩ := assembleBlobChunk_unstamped now 0 hstart buf
  rw [take, if_neg h]
  dsimp only
  rw [hp]
  generalize assembleBlobChunk now _ buf = r at ha hr ⊢
  generalize assembleBlobChunk 0 _ buf = r' at ha hr ⊢
  obtain ⟨a, status, out⟩ := r
  obtain ⟨a', status', out'⟩ := r'
  cases hr
  dsimp only at ha
  cases status with
  | Complete =>
    dsimp only
    rw [ofTables_store]
    rfl
  | _ =>
    dsimp only
    rw [ofTables_insert, ha]
    rfl

/-- The packets of a blob, taken by a look that has nothing of it begun. -/
theorem foldl_take (l : Look) (type : Msg) (p : UInt32) {blob : Bytes} (hne : blob ≠ []) (hb : blob.length ≤ 0xFFFF)
    (hbegun : l.begun p = none) :
    ((List.range (chunkCountOf blob)).map (chunkPacket type p blob)).foldl take l =
      ⟨Function.update l.stored p (some blob), l.begun⟩ := by
  -- before the last packet, the ones before it are begun
  have hpart : ∀ i, i < chunkCountOf blob → ∃ a, Begun blob i (a.getD {}) ∧
      ((List.range i).map (chunkPacket type p blob)).foldl take l = ⟨l.stored, Function.update l.begun p a⟩ := by
    intro i hi
    induction i with
    | zero =>
      refine ⟨none, .inr ⟨rfl, rfl⟩, ?_⟩
      rw [← hbegun, Function.update_eq_self]
      rfl
    | succ i ih =>
      obtain ⟨a, ha, he⟩ := ih (by omega)
      have hstep := assembleBlobChunk_taken 0 type p hne hb (show i < chunkCountOf blob by omega) ha
      rw [if_neg (by omega)] at hstep
      obtain ⟨a', ha', hassemble⟩ := hstep
      refine ⟨some a'.unstamped, .inl ha', ?_⟩
      rw [List.range_succ, List.map_append, List.foldl_append, he, List.map_singleton, List.foldl_cons, List.foldl_nil, take,
        if_neg (not_short_chunkPacket type p blob i), decode_chunkPacket]
      dsimp only
      rw [Function.update_self, hassemble]
      dsimp only
      rw [Function.update_idem]
  obtain ⟨n, hn⟩ : ∃ n, chunkCountOf blob = n + 1 := ⟨chunkCountOf blob - 1, by have := chunkCountOf_pos hne; omega⟩
  obtain ⟨a, ha, he⟩ := hpart n (by omega)
  have hstep := assembleBlobChunk_taken 0 type p hne hb (show n < chunkCountOf blob by omega) ha
  rw [if_pos hn.symm] at hstep
  rw [hn, List.range_succ, List.map_append, List.foldl_append, he, List.map_singleton, List.foldl_cons, List.foldl_nil, take,
    if_neg (not_short_chunkPacket type p blob n), decode_chunkPacket]
  dsimp only
  rw [Function.update_self, hstep]
  dsimp only
  rw [Function.update_idem, ← hbegun, Function.update_eq_self]

end Look

namespace Looks

def blank : Looks := ⟨.blank, .blank⟩

/-- The kind of blob a chunk type is for. -/
def of (x : Looks) (type : Msg) : Look := if type = .AppearanceChunk then x.appearance else x.inventory

def set (x : Looks) (type : Msg) (l : Look) : Looks :=
  if type = .AppearanceChunk then { x with appearance := l } else { x with inventory := l }

def forget (x : Looks) (p : UInt32) : Looks := ⟨x.appearance.forget p, x.inventory.forget p⟩

def hear (x : Looks) (buf : Bytes) : Looks :=
  match headerOk (Header.decode buf) buf.length with
  | some .AppearanceChunk => x.set .AppearanceChunk ((x.of .AppearanceChunk).take buf)
  | some .InventoryChunk => x.set .InventoryChunk ((x.of .InventoryChunk).take buf)
  | some .Bye => x.forget (Bye.decode buf).peerId
  | _ => x

@[simp] theorem set_of (x : Looks) (type : Msg) : x.set type (x.of type) = x := by
  unfold set of
  split <;> rfl

@[simp] theorem set_set (x : Looks) (type : Msg) (l l' : Look) : (x.set type l).set type l' = x.set type l' := by
  unfold set
  split <;> rfl

def SameKind (type type' : Msg) : Prop := type = .AppearanceChunk ↔ type' = .AppearanceChunk

instance (type type' : Msg) : Decidable (SameKind type type') := inferInstanceAs (Decidable (_ ↔ _))

theorem of_set (x : Looks) (type type' : Msg) (l : Look) :
    (x.set type l).of type' = if SameKind type' type then l else x.of type' := by
  unfold set of SameKind
  by_cases ht : type = .AppearanceChunk <;> by_cases ht' : type' = .AppearanceChunk <;> simp [ht, ht']

@[simp] theorem of_set_self (x : Looks) (type : Msg) (l : Look) : (x.set type l).of type = l := by
  rw [of_set, if_pos (show SameKind type type from Iff.rfl)]

theorem of_sameKind (x : Looks) {type type' : Msg} (h : SameKind type' type) : x.of type' = x.of type := by
  unfold of
  rw [if_congr h rfl rfl]

def store (x : Looks) (type : Msg) (p : UInt32) (blob : Bytes) : Looks :=
  x.set type ⟨Function.update (x.of type).stored p (some blob), (x.of type).begun⟩

theorem stored_store (x : Looks) (type type' : Msg) (p q : UInt32) (blob : Bytes) :
    ((x.store type p blob).of type').stored q = if SameKind type' type ∧ q = p then some blob else (x.of type').stored q := by
  rw [store, of_set]
  by_cases hkind : SameKind type' type
  · rw [if_pos hkind, of_sameKind x hkind]
    dsimp only
    rw [Function.update_apply]
    simp [hkind]
  · rw [if_neg hkind, if_neg fun h => hkind h.1]

theorem begun_store (x : Looks) (type type' : Msg) (p q : UInt32) (blob : Bytes) :
    ((x.store type p blob).of type').begun q = (x.of type').begun q := by
  rw [store, of_set]
  split
  · rename_i hkind
    rw [of_sameKind x hkind]
  · rfl

theorem stored_forget (x : Looks) (type : Msg) (p q : UInt32) :
    ((x.forget p).of type).stored q = if q = p then none else (x.of type).stored q := by
  unfold of forget Look.forget
  split <;> exact Function.update_apply ..

theorem begun_forget (x : Looks) (type : Msg) (p q : UInt32) : ((x.forget p).of type).begun q = (x.of type).begun q := by
  unfold of forget Look.forget
  split <;> rfl

theorem headerOk_chunkPacket {type : Msg} (ht : type = .AppearanceChunk ∨ type = .InventoryChunk) (p : UInt32) (blob : Bytes)
    (i : ℕ) : headerOk (Header.decode (chunkPacket type p blob i)) (chunkPacket type p blob i).length = some type :=
  (headerOk_chunkPacket_iff type p blob i).mpr (expectedMsgSize_chunkPacket ht p blob i)

theorem hear_chunk {type : Msg} (ht : type = .AppearanceChunk ∨ type = .InventoryChunk) (x : Looks) (p : UInt32) (blob : Bytes)
    (i : ℕ) : x.hear (chunkPacket type p blob i) = x.set type ((x.of type).take (chunkPacket type p blob i)) := by
  rw [hear, headerOk_chunkPacket ht]
  rcases ht with rfl | rfl <;> rfl

/-- A blob that is sent whole is stored. -/
theorem foldl_hear_blob {type : Msg} (ht : type = .AppearanceChunk ∨ type = .InventoryChunk) (x : Looks) (p : UInt32)
    {blob : Bytes} (hne : blob ≠ []) (hb : blob.length ≤ 0xFFFF) (hbegun : (x.of type).begun p = none) :
    ((List.range (chunkCountOf blob)).map (chunkPacket type p blob)).foldl hear x = x.store type p blob := by
  have hfold : ∀ is : List ℕ, (is.map (chunkPacket type p blob)).foldl hear x =
      x.set type ((is.map (chunkPacket type p blob)).foldl Look.take (x.of type)) := by
    intro is
    induction is using List.reverseRecOn with
    | nil => simp
    | append_singleton is i ih =>
      rw [List.map_append, List.foldl_append, List.foldl_append, ih, List.map_singleton, List.foldl_cons, List.foldl_nil,
        List.foldl_cons, List.foldl_nil, hear_chunk ht, of_set_self, set_set]
  rw [hfold, Look.foldl_take (x.of type) type p hne hb hbegun, store]

theorem hear_bye (x : Looks) (p : UInt32) : x.hear (makeBye p).encode = x.forget p := by
  have hlen : (makeBye p).encode.length = 16 := by simp [Bye.encode]
  have hok : headerOk (Header.decode (makeBye p).encode) (makeBye p).encode.length = some .Bye := by
    rw [hlen, Bye.encode, Header.decode_encode_append]
    exact headerOk_fill rfl (by decide) (by decide)
  have hdecode : (Bye.decode (makeBye p).encode).peerId = p := by
    simp [Bye.decode, Bye.encode, makeBye, u32At_skip]
  rw [hear, hok]
  dsimp only
  rw [hdecode]

/-- The frame is neither a chunk nor a Bye. -/
def Unlooked (buf : Bytes) : Prop :=
  u8At buf 4 ≠ Msg.AppearanceChunk.code ∧ u8At buf 4 ≠ Msg.InventoryChunk.code ∧ u8At buf 4 ≠ Msg.Bye.code

theorem hear_unlooked (x : Looks) {buf : Bytes} (h : Unlooked buf) : x.hear buf = x := by
  unfold hear
  split
  · rename_i hok
    exact absurd (headerOk_spec hok).1 h.1
  · rename_i hok
    exact absurd (headerOk_spec hok).1 h.2.1
  · rename_i hok
    exact absurd (headerOk_spec hok).1 h.2.2
  · rfl

theorem foldl_hear_unlooked (x : Looks) {frames : List Bytes} (h : ∀ buf ∈ frames, Unlooked buf) : frames.foldl hear x = x := by
  induction frames with
  | nil => rfl
  | cons buf frames ih =>
    rw [List.foldl_cons, hear_unlooked x (h buf List.mem_cons_self)]
    exact ih fun b hb => h b (List.mem_cons_of_mem _ hb)

end Looks

def looksOf (b : BlobRuntime) : Looks :=
  ⟨.ofTables b.appearances b.appearanceParts, .ofTables b.inventories b.inventoryParts⟩

theorem looksOf_undisturbed {s s' : Session} (h : Call.Undisturbed s s') : looksOf s'.blobs = looksOf s.blobs := by
  rw [looksOf, looksOf, h.appearanceParts, h.inventoryParts, show s'.blobs.appearances = s.blobs.appearances from
    congrArg Core.appearances h.core, show s'.blobs.inventories = s.blobs.inventories from congrArg Core.inventories h.core]

theorem of_looksOf (b : BlobRuntime) (type : Msg) :
    (looksOf b).of type = .ofTables (if type = .AppearanceChunk then b.appearances else b.inventories) (b.parts type) := by
  unfold Looks.of BlobRuntime.parts looksOf
  split <;> rfl

theorem looksOf_setParts (b : BlobRuntime) (type : Msg) (parts : Table UInt32 BlobAssembly) :
    looksOf (b.setParts type parts) =
      (looksOf b).set type (.ofTables (if type = .AppearanceChunk then b.appearances else b.inventories) parts) := by
  unfold BlobRuntime.setParts Looks.set looksOf
  split <;> rfl

theorem looksOf_store (b : BlobRuntime) (type : Msg) (p : UInt32) (blob : Bytes) (parts : Table UInt32 BlobAssembly) :
    looksOf ((b.store type p blob).setParts type parts) =
      (looksOf b).set type (.ofTables ((if type = .AppearanceChunk then b.appearances else b.inventories).insert p blob) parts) := by
  unfold BlobRuntime.store BlobRuntime.setParts Looks.set looksOf
  split_ifs <;> rfl

theorem looksOf_handleBlobChunk (type : Msg) (now : Time) (buf : Bytes) (b : BlobRuntime) :
    looksOf (handleBlobChunk type now buf b) = (looksOf b).set type (((looksOf b).of type).take buf) := by
  unfold handleBlobChunk
  split
  · rename_i hshort
    rw [Look.take, if_pos hshort, Looks.set_of]
  · rename_i hlong
    rw [of_looksOf, Look.take_ofTables now _ _ _ hlong]
    dsimp only
    generalize assembleBlobChunk now _ buf = r
    obtain ⟨a, status, complete⟩ := r
    cases status with
    | Complete => exact looksOf_store b type _ complete _
    | _ => exact looksOf_setParts b type _

theorem looks_handled (game : LocalGame) {buf : Bytes} {c : Plugin.Client Link}
    (h : endsSession c.session.net.myPeerId buf = false) :
    looksOf (handleMessage linkSockets game buf c).session.blobs = (looksOf c.session.blobs).hear buf := by
  unfold endsSession at h
  unfold handleMessage Looks.hear
  cases hh : headerOk (Header.decode buf) buf.length with
  | none => rfl
  | some type =>
    rw [hh] at h
    dsimp only
    cases type <;> simp only [reduceCtorEq, decide_eq_false_iff_not] at h
    case Welcome =>
      have hl : sizeofWelcome ≤ buf.length := headerOk_length hh fun _ => of_decide_eq_true
      rw [message, if_pos hl]
      have hw := Call.undisturbed_handleWelcome (S := linkSockets) game (Welcome.decode buf)
        { c with session.lastRecvSec := linkSockets.nowSec c.sockets }
      exact (looksOf_undisturbed hw).trans rfl
    case Bye =>
      have hl : sizeofBye ≤ buf.length := headerOk_length hh fun _ => of_decide_eq_true
      rw [message, if_pos hl]
      dsimp only
      rw [if_neg h]
      exact congrArg₂ Looks.mk (Look.ofTables_erase _ _ _) (Look.ofTables_erase _ _ _)
    case AppearanceChunk => exact looksOf_handleBlobChunk _ _ _ _
    case InventoryChunk => exact looksOf_handleBlobChunk _ _ _ _
    all_goals
      unfold message
      dsimp only
      try (split <;> rfl)

/-- The looks of the others, as the frames under way will leave them. -/
def looksHearing : Call.Hearing Looks where
  part s := looksOf s.blobs
  blank := .blank
  hear := Looks.hear
  joined h := by
    rw [looksOf, h.appearances, h.inventories, h.appearanceParts, h.inventoryParts]
    rfl
  undisturbed := looksOf_undisturbed
  merged _ := rfl
  message := looks_handled
  invalid x buf h := by rw [Looks.hear, h]
  pose x buf h := by
    refine Looks.hear_unlooked x ?_
    unfold typeIs at h
    unfold Looks.Unlooked
    rcases h with h | h <;> rw [h] <;> decide

end CommonwealthMP
