import CommonwealthMP.StepParts

/-! # Tables by peer

The assemblies of blobs and four of the rate tables have an entry for each client that ever
used them. No removal clears them, so they hold live clients only as long as nobody leaves
who has an entry. -/
namespace CommonwealthMP
open ByteLayout Binary32 OrderedTables SessionTable
namespace ServerRuntime

/-- Every key of `m` belongs to a live client. -/
def KeysLive {K V : Type} [DecidableEq K] (clients : ClientTable) (key : PeerId → K) (m : Table K V) : Prop :=
  ∀ k ∈ m, ∃ p ∈ clients, k = key p

/-- `std::to_string(client.peerId)` -/
def peerKey (p : PeerId) : Bytes := decimal p.toNat

theorem peerKey_injective : Function.Injective peerKey := fun _ _ h => UInt32.toNat_inj.mp (decimal_injective h)

structure TablesLive (s : ServerRuntime) : Prop where
  appear : KeysLive s.clients id s.appearAsm
  inv : KeysLive s.clients id s.invAsm
  hit : KeysLive s.clients peerKey s.hitRates
  pose : KeysLive s.clients peerKey s.poseRates
  chat : KeysLive s.clients peerKey s.chatRates
  blob : KeysLive s.clients peerKey s.blobRates

/-- No table has more entries than there are players. -/
structure TablesBounded (s : ServerRuntime) : Prop where
  appear : s.appearAsm.size ≤ s.clients.size
  inv : s.invAsm.size ≤ s.clients.size
  hit : s.hitRates.size ≤ s.clients.size
  pose : s.poseRates.size ≤ s.clients.size
  chat : s.chatRates.size ≤ s.clients.size
  blob : s.blobRates.size ≤ s.clients.size

structure HasNoEntry (s : ServerRuntime) (p : PeerId) : Prop where
  appear : p ∉ s.appearAsm
  inv : p ∉ s.invAsm
  hit : peerKey p ∉ s.hitRates
  pose : peerKey p ∉ s.poseRates
  chat : peerKey p ∉ s.chatRates
  blob : peerKey p ∉ s.blobRates

variable {s₀ s s' : ServerRuntime} {i : Env × Input}

theorem TablesLive.bounded (h : TablesLive s) : TablesBounded s where
  appear := Table.size_le_of_keys h.appear
  inv := Table.size_le_of_keys h.inv
  hit := Table.size_le_of_keys h.hit
  pose := Table.size_le_of_keys h.pose
  chat := Table.size_le_of_keys h.chat
  blob := Table.size_le_of_keys h.blob

section Keys
variable {K V : Type} [DecidableEq K] {clients clients' : ClientTable} {key : PeerId → K} {m m' : Table K V}

theorem KeysLive.mono (h : KeysLive clients key m) (hc : ∀ p ∈ clients, p ∈ clients') : KeysLive clients' key m := by
  intro k hk
  obtain ⟨p, hp, he⟩ := h k hk
  exact ⟨p, hc p hp, he⟩

theorem mem_of_sameBut {k q : K} (hs : SameBut k m m') (hq : q ≠ k) : q ∈ m' ↔ q ∈ m := by
  rw [← AList.lookup_isSome, hs q hq, AList.lookup_isSome]

theorem KeysLive.sameBut (h : KeysLive clients key m) {p : PeerId} (hp : p ∈ clients) (hs : SameBut (key p) m m') :
    KeysLive clients key m' := by
  intro k hk
  by_cases he : k = key p
  · exact ⟨p, hp, he⟩
  · exact h k ((mem_of_sameBut hs he).mp hk)

theorem KeysLive.erase (h : KeysLive clients key m) {p : PeerId} (hp : key p ∉ m) : KeysLive (clients.erase p) key m := by
  intro k hk
  obtain ⟨q, hq, rfl⟩ := h k hk
  refine ⟨q, (AList.mem_erase).mpr ⟨?_, hq⟩, rfl⟩
  rintro rfl
  exact hp hk

end Keys

/-- The six tables are left alone. -/
structure SameTables (s s' : ServerRuntime) : Prop where
  appear : s'.appearAsm = s.appearAsm
  inv : s'.invAsm = s.invAsm
  hit : s'.hitRates = s.hitRates
  pose : s'.poseRates = s.poseRates
  chat : s'.chatRates = s.chatRates
  blob : s'.blobRates = s.blobRates

theorem TablesLive.same (h : TablesLive s) (ht : SameTables s s') (hc : ∀ p ∈ s.clients, p ∈ s'.clients) : TablesLive s' where
  appear := ht.appear ▸ h.appear.mono hc
  inv := ht.inv ▸ h.inv.mono hc
  hit := ht.hit ▸ h.hit.mono hc
  pose := ht.pose ▸ h.pose.mono hc
  chat := ht.chat ▸ h.chat.mono hc
  blob := ht.blob ▸ h.blob.mono hc

theorem HasNoEntry.same {p : PeerId} (h : HasNoEntry s p) (ht : SameTables s s') : HasNoEntry s' p where
  appear := ht.appear ▸ h.appear
  inv := ht.inv ▸ h.inv
  hit := ht.hit ▸ h.hit
  pose := ht.pose ▸ h.pose
  chat := ht.chat ▸ h.chat
  blob := ht.blob ▸ h.blob

theorem SameTables.symm (h : SameTables s s') : SameTables s' s :=
  ⟨h.appear.symm, h.inv.symm, h.hit.symm, h.pose.symm, h.chat.symm, h.blob.symm⟩

/-- How a part of the step relates to the tables: it leaves them alone, or writes an entry of a
live client that stays, or removes a client that leaves. -/
inductive TablePart (s₀ : ServerRuntime) (i : Env × Input) (s s' : ServerRuntime) : Prop
  | same (ht : SameTables s s') (hc : ∀ p ∈ s.clients, p ∈ s'.clients)
  | count (id : PeerId) (hid : id ∈ s.clients) (hstay : ¬ Leaves s₀ i id) (hc : s'.clients = s.clients)
      (happear : SameBut id s.appearAsm s'.appearAsm) (hinv : SameBut id s.invAsm s'.invAsm)
      (hhit : SameBut (peerKey id) s.hitRates s'.hitRates) (hpose : SameBut (peerKey id) s.poseRates s'.poseRates)
      (hchat : SameBut (peerKey id) s.chatRates s'.chatRates) (hblob : SameBut (peerKey id) s.blobRates s'.blobRates)
  | erase (id : PeerId) (hleave : Leaves s₀ i id) (ht : SameTables s s') (hc : s'.clients = s.clients.erase id)

theorem Part.tablePart (h : Part s₀ i s s') : TablePart s₀ i s s' := by
  have same : ∀ {s s' : ServerRuntime}, SameTables s s' → s'.clients = s.clients → TablePart s₀ i s s' :=
    fun ht hc => .same ht fun p hp => hc ▸ hp
  have modified : ∀ {s s' : ServerRuntime} (id : PeerId) (f : Client → Client), SameTables s s' →
      s'.clients = s.clients.modify id f → TablePart s₀ i s s' :=
    fun id f ht hc => .same ht fun p hp => hc ▸ Table.mem_modify.mpr hp
  cases h with
  | aside h => exact same ⟨h.appearAsm, h.invAsm, h.hitRates, h.poseRates, h.chatRates, h.blobRates⟩ h.clients
  | touch id f hf => exact modified id f ⟨rfl, rfl, rfl, rfl, rfl, rfl⟩ rfl
  | remember id client hl => exact same ⟨rfl, rfl, rfl, rfl, rfl, rfl⟩ rfl
  | snapshot world => exact same ⟨rfl, rfl, rfl, rfl, rfl, rfl⟩ rfl
  | host id => exact same ⟨rfl, rfl, rfl, rfl, rfl, rfl⟩ rfl
  | count id hid hstay hit pose chat blob hhit hpose hchat hblob =>
    exact .count id hid hstay rfl (sameBut_refl _ _) (sameBut_refl _ _) hhit hpose hchat hblob
  | assemble type id hid hstay asm h hslots =>
    unfold assemblies at h
    unfold setAssemblies
    by_cases ht : type = .AppearanceChunk
    · rw [if_pos ht] at h ⊢
      exact .count id hid hstay rfl h (sameBut_refl _ _) (sameBut_refl _ _) (sameBut_refl _ _) (sameBut_refl _ _)
        (sameBut_refl _ _)
    · rw [if_neg ht] at h ⊢
      exact .count id hid hstay rfl (sameBut_refl _ _) h (sameBut_refl _ _) (sameBut_refl _ _) (sameBut_refl _ _)
        (sameBut_refl _ _)
  | store type id client hl blob hblob => exact modified id _ ⟨rfl, rfl, rfl, rfl, rfl, rfl⟩ rfl
  | pose id client hl pose => exact modified id _ ⟨rfl, rfl, rfl, rfl, rfl, rfl⟩ rfl
  | enter hello ha hp hd hj => exact same ⟨rfl, rfl, rfl, rfl, rfl, rfl⟩ rfl
  | join env pending hello rec_ t hnone hkey hrec =>
    refine .same ⟨rfl, rfl, rfl, rfl, rfl, rfl⟩ fun p hp => ?_
    unfold insertJoining
    dsimp only
    by_cases hn : s.nextPeer ∈ s.clients
    · rw [Table.emplace_of_mem _ _ hn]
      exact hp
    · rw [← AList.lookup_isSome, Table.lookup_emplace _ _ hn, if_neg (fun he : p = s.nextPeer => hn (he ▸ hp)), AList.lookup_isSome]
      exact hp
  | reconnect id client hl pending hello hkey rec_ hrec token t => exact modified id _ ⟨rfl, rfl, rfl, rfl, rfl, rfl⟩ rfl
  | mark dirty h => exact same ⟨rfl, rfl, rfl, rfl, rfl, rfl⟩ rfl
  | markWorld => exact same ⟨rfl, rfl, rfl, rfl, rfl, rfl⟩ rfl
  | erase id hleave hnoted => exact .erase id hleave ⟨rfl, rfl, rfl, rfl, rfl, rfl⟩ rfl
  | flush =>
    rw [flushDirtyAsync_eq]
    exact same ⟨rfl, rfl, rfl, rfl, rfl, rfl⟩ rfl
  | bans keys => exact same ⟨rfl, rfl, rfl, rfl, rfl, rfl⟩ rfl

/-- The entries of a client that leaves are neither made nor cleared. -/
theorem TablePart.entries (h : TablePart s₀ i s s') {p : PeerId} (hp : Leaves s₀ i p) : HasNoEntry s' p ↔ HasNoEntry s p := by
  cases h with
  | same ht hc => exact ⟨fun h => h.same ht.symm, fun h => h.same ht⟩
  | erase id hleave ht hc => exact ⟨fun h => h.same ht.symm, fun h => h.same ht⟩
  | count id hid hstay hc happear hinv hhit hpose hchat hblob =>
    have hne : p ≠ id := by
      rintro rfl
      exact hstay hp
    have hkey : peerKey p ≠ peerKey id := fun he => hne (peerKey_injective he)
    have ha := mem_of_sameBut happear hne
    have hi := mem_of_sameBut hinv hne
    have hh := mem_of_sameBut hhit hkey
    have ho := mem_of_sameBut hpose hkey
    have hc := mem_of_sameBut hchat hkey
    have hb := mem_of_sameBut hblob hkey
    constructor
    · intro h
      exact ⟨mt ha.mpr h.appear, mt hi.mpr h.inv, mt hh.mpr h.hit, mt ho.mpr h.pose, mt hc.mpr h.chat, mt hb.mpr h.blob⟩
    · intro h
      exact ⟨mt ha.mp h.appear, mt hi.mp h.inv, mt hh.mp h.hit, mt ho.mp h.pose, mt hc.mp h.chat, mt hb.mp h.blob⟩

theorem TablePart.live (h : TablePart s₀ i s s') (hl : TablesLive s) (hno : ∀ p, Leaves s₀ i p → HasNoEntry s p) :
    TablesLive s' := by
  cases h with
  | same ht hc => exact hl.same ht hc
  | count id hid hstay hc happear hinv hhit hpose hchat hblob =>
    constructor
    · exact hc ▸ hl.appear.sameBut hid happear
    · exact hc ▸ hl.inv.sameBut hid hinv
    · exact hc ▸ hl.hit.sameBut hid hhit
    · exact hc ▸ hl.pose.sameBut hid hpose
    · exact hc ▸ hl.chat.sameBut hid hchat
    · exact hc ▸ hl.blob.sameBut hid hblob
  | erase id hleave ht hc =>
    have hid := hno id hleave
    constructor
    · exact hc ▸ ht.appear ▸ hl.appear.erase hid.appear
    · exact hc ▸ ht.inv ▸ hl.inv.erase hid.inv
    · exact hc ▸ ht.hit ▸ hl.hit.erase hid.hit
    · exact hc ▸ ht.pose ▸ hl.pose.erase hid.pose
    · exact hc ▸ ht.chat ▸ hl.chat.erase hid.chat
    · exact hc ▸ ht.blob ▸ hl.blob.erase hid.blob

/-- The clients a step removes leave no entry behind. -/
def LeavesNoEntry (s : ServerRuntime) (i : Env × Input) : Prop := ∀ p, Leaves s.ready i p → HasNoEntry s p

theorem TablesLive.step (hw : WellFormed s) (h : TablesLive s) (hno : LeavesNoEntry s i) : TablesLive (s.step i) := by
  have hinv : TablesLive (s.step i) ∧ ∀ p, Leaves s.ready i p → HasNoEntry (s.step i) p := by
    refine Parts.invariant (I := fun r => TablesLive r ∧ ∀ p, Leaves s.ready i p → HasNoEntry r p) (step_parts hw i)
      (fun r r' hp hr => ⟨hp.tablePart.live hr.1 hr.2, fun p hl => ?_⟩) ⟨?_, fun p hl => ?_⟩
    · exact (hp.tablePart.entries hl).mpr (hr.2 p hl)
    · exact h.same ⟨rfl, rfl, rfl, rfl, rfl, rfl⟩ fun p hp => hp
    · exact (hno p hl).same ⟨rfl, rfl, rfl, rfl, rfl, rfl⟩
  exact hinv.1

theorem leavesNoEntry_of_live (hw : WellFormed s) (h : TablesLive (s.step i)) : LeavesNoEntry s i := by
  intro p hl
  have hgone := not_mem_of_leaves hw hl
  have hnone : HasNoEntry (s.step i) p := by
    have hkey : ∀ {m : RateTable}, KeysLive (s.step i).clients peerKey m → peerKey p ∉ m := by
      intro m hm hp
      obtain ⟨q, hq, he⟩ := hm _ hp
      exact hgone (peerKey_injective he ▸ hq)
    have hid : ∀ {m : Table PeerId BlobAssembly}, KeysLive (s.step i).clients id m → p ∉ m := by
      intro m hm hp
      obtain ⟨q, hq, rfl⟩ := hm _ hp
      exact hgone hq
    exact ⟨hid h.appear, hid h.inv, hkey h.hit, hkey h.pose, hkey h.chat, hkey h.blob⟩
  have hback : HasNoEntry (s.step i) p → HasNoEntry s.ready p :=
    Parts.invariant (I := fun r => HasNoEntry r p → HasNoEntry s.ready p) (step_parts hw i)
      (fun r r' hp hr h => hr ((hp.tablePart.entries hl).mp h)) fun h => h
  exact (hback hnone).same ⟨rfl, rfl, rfl, rfl, rfl, rfl⟩

theorem tablesLive_initial (b : Startup) : TablesLive b.runtime where
  appear := nofun
  inv := nofun
  hit := nofun
  pose := nofun
  chat := nofun
  blob := nofun

/-- In every state of a run the tables by peer hold live clients only, and no more entries than
there are players, exactly if no step of it removes a client that has an entry. -/
theorem tablesLive_iff (b : Startup) (is : List (Env × Input)) :
    (∀ before after, is = before ++ after → TablesLive (runFrom b before) ∧ TablesBounded (runFrom b before)) ↔
      StepRuns.AllSteps ServerRuntime.step LeavesNoEntry b.runtime is := by
  rw [StepRuns.allSteps_iff_split]
  constructor
  · rintro h before i after rfl
    have hlive := (h (before ++ [i]) after (by simp)).1
    rw [runFrom_concat] at hlive
    exact leavesNoEntry_of_live (runFrom_reachable b before).wellFormed hlive
  · rintro h before after rfl
    have hlive : TablesLive (runFrom b before) := by
      induction before using List.reverseRecOn generalizing after with
      | nil => exact tablesLive_initial b
      | append_singleton before i ih =>
        have hbefore := ih (i :: after) fun before' j after' he => h before' j after' (by rw [← he]; simp)
        rw [runFrom_concat]
        exact hbefore.step (runFrom_reachable b before).wellFormed (h before i after (by simp))
    exact ⟨hlive, hlive.bounded⟩

def halfAppearance : Bytes :=
  ({ header := fillHeader .AppearanceChunk 25, peerId := 1, chunkIndex := 0, chunkCount := 2, blobBytes := 2
     payloadBytes := 1 } : BlobChunk).encode ++ [7]

def departsHalfSent : List (Env × Input) :=
  [acceptAt 1 ⟨10, 0, 0, 1, 1000⟩, frameAt 1 0 (helloFrame (ascii "a")), frameAt 1 1 halfAppearance,
    frameAt 1 1 (makeBye 1).encode]

theorem not_tablesLive_departsHalfSent :
    Reachable (runFrom freshStart departsHalfSent) ∧ ¬ TablesLive (runFrom freshStart departsHalfSent) := by
  refine ⟨runFrom_reachable _ _, fun h => ?_⟩
  have hasm : (1 : PeerId) ∈ (runFrom freshStart departsHalfSent).appearAsm := by decide +kernel
  have hgone : (1 : PeerId) ∉ (runFrom freshStart departsHalfSent).clients := by decide +kernel
  obtain ⟨p, hp, rfl⟩ := h.appear 1 hasm
  exact hgone hp

end ServerRuntime
end CommonwealthMP
