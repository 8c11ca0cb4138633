import CommonwealthMP.StepParts

/-! # Live clients and their records

A live client and the record of its player are two copies of one thing: the blobs and the
last pose are written to both wherever they are written. -/
namespace CommonwealthMP
open ByteLayout Binary32 OrderedTables SessionTable
namespace ServerRuntime

structure Mirrors (c : Client) (rec_ : PlayerRec) : Prop where
  key : rec_.key = c.playerKey
  appearance : c.appearance = rec_.appearance
  inventory : c.inventory = rec_.inventory
  havePose : c.havePose = true
  place : rec_.havePose = true → c.lastPose.locationFormId = rec_.locationFormId ∧ c.lastPose.x = rec_.x ∧
    c.lastPose.y = rec_.y ∧ c.lastPose.z = rec_.z ∧ c.lastPose.yaw = rec_.yaw

def AllMirrored (s : ServerRuntime) : Prop :=
  ∀ id c, s.clients.lookup id = some c → ∃ rec_, s.players.lookup c.playerKey = some rec_ ∧ Mirrors c rec_

def KeysDistinct (clients : ClientTable) : Prop :=
  ∀ id id' c c', clients.lookup id = some c → clients.lookup id' = some c' → c.playerKey = c'.playerKey → id = id'

/-- The mirror, and that no two clients share a record. -/
structure Mirrored (s : ServerRuntime) : Prop where
  all : AllMirrored s
  distinct : KeysDistinct s.clients

variable {s₀ s s' : ServerRuntime} {i : Env × Input}

theorem Mirrors.of_look {c c' : Client} {rec_ : PlayerRec} (h : Mirrors c rec_) (hlook : Client.look c' = Client.look c) :
    Mirrors c' rec_ := by
  simp only [Client.look, Prod.mk.injEq] at hlook
  obtain ⟨-, hkey, hpose, hhave, happ, hinv⟩ := hlook
  constructor
  · rw [h.key, hkey]
  · rw [happ, h.appearance]
  · rw [hinv, h.inventory]
  · rw [hhave, h.havePose]
  · rw [hpose]
    exact h.place

theorem Mirrored.of_look (h : Mirrored s) (hp : s'.players = s.players)
    (hc : ∀ id c', s'.clients.lookup id = some c' → ∃ c, s.clients.lookup id = some c ∧ Client.look c' = Client.look c) :
    Mirrored s' := by
  have hkey : ∀ {c c' : Client}, Client.look c' = Client.look c → c'.playerKey = c.playerKey :=
    fun hlook => (Prod.mk.inj (Prod.mk.inj hlook).2).1
  constructor
  · intro id c' hc'
    obtain ⟨c, hl, hlook⟩ := hc id c' hc'
    obtain ⟨rec_, hr, hm⟩ := h.all id c hl
    exact ⟨rec_, by rw [hp, hkey hlook, hr], hm.of_look hlook⟩
  · intro id id' c c' hl hl' he
    obtain ⟨d, hd, hlook⟩ := hc id c hl
    obtain ⟨d', hd', hlook'⟩ := hc id' c' hl'
    exact h.distinct id id' d d' hd hd' ((hkey hlook).symm.trans (he.trans (hkey hlook')))

theorem Mirrored.of_eq (h : Mirrored s) (hc : s'.clients = s.clients) (hp : s'.players = s.players) : Mirrored s' :=
  h.of_look hp fun _ c hl => ⟨c, hc ▸ hl, rfl⟩

theorem Mirrored.write (h : Mirrored s) {id : PeerId} {c c' : Client} {r : PlayerRec} (hl : s.clients.lookup id = some c)
    (hkey : c'.playerKey = c.playerKey) (hm : Mirrors c' r)
    (hc : ∀ q, s'.clients.lookup q = if q = id then some c' else s.clients.lookup q)
    (hp : ∀ k, s'.players.lookup k = if k = c.playerKey then some r else s.players.lookup k) : Mirrored s' := by
  have hback : ∀ q d', s'.clients.lookup q = some d' → ∃ d, s.clients.lookup q = some d ∧ d'.playerKey = d.playerKey := by
    intro q d' hd'
    rw [hc] at hd'
    by_cases hq : q = id
    · rw [if_pos hq] at hd'
      exact ⟨c, hq ▸ hl, Option.some.inj hd' ▸ hkey⟩
    · rw [if_neg hq] at hd'
      exact ⟨d', hd', rfl⟩
  constructor
  · intro q d' hd'
    obtain ⟨d, hd, hkd⟩ := hback q d' hd'
    rw [hc] at hd'
    rw [hp]
    by_cases hq : q = id
    · rw [if_pos hq] at hd'
      cases hd'
      exact ⟨r, if_pos hkey, hm⟩
    · rw [if_neg hq] at hd'
      have hne : d'.playerKey ≠ c.playerKey := fun he => hq (h.distinct q id d c hd hl (hkd.symm.trans he))
      rw [if_neg hne]
      exact h.all q d' hd'
  · intro q q' d d' hd hd' he
    obtain ⟨x, hx, hkx⟩ := hback q d hd
    obtain ⟨x', hx', hkx'⟩ := hback q' d' hd'
    exact h.distinct q q' x x' hx hx' (hkx.symm.trans (he.trans hkx'))

theorem lookup_modify_of {clients : ClientTable} {id : PeerId} {c : Client} (hl : clients.lookup id = some c) (f : Client → Client)
    (q : PeerId) : (clients.modify id f).lookup q = if q = id then some (f c) else clients.lookup q := by
  rw [Table.lookup_modify]
  by_cases hq : q = id
  · rw [if_pos hq, if_pos hq, hq, hl]
    rfl
  · rw [if_neg hq, if_neg hq]

theorem Mirrored.recall (h : Mirrored s) {id : PeerId} {c : Client} (hl : s.clients.lookup id = some c) :
    Mirrored { s with players := s.players.insert c.playerKey ((s.players.lookup c.playerKey).getD {}) } := by
  obtain ⟨rec_, hr, hm⟩ := h.all id c hl
  refine h.write hl rfl hm (fun q => ?_) fun k => ?_
  · by_cases hq : q = id
    · rw [if_pos hq, hq, hl]
    · rw [if_neg hq]
  · rw [Table.lookup_insert, hr, Option.getD_some]

theorem Mirrored.store (h : Mirrored s) (type : Msg) {id : PeerId} {c : Client} (hl : s.clients.lookup id = some c) (blob : Bytes) :
    Mirrored (storeBlob s type id c blob) := by
  obtain ⟨rec_, hr, hm⟩ := h.all id c hl
  refine h.write hl ?_ ?_ (lookup_modify_of hl _) fun k => Table.lookup_insert _ _ _ _
  · unfold Client.storeBlob
    split <;> rfl
  · rw [hr, Option.getD_some]
    unfold Client.storeBlob PlayerRec.storeBlob
    split
    · exact ⟨rfl, rfl, hm.inventory, hm.havePose, hm.place⟩
    · exact ⟨rfl, hm.appearance, rfl, hm.havePose, hm.place⟩

theorem Mirrored.pose (h : Mirrored s) {id : PeerId} {c : Client} (hl : s.clients.lookup id = some c) (pose : PlayerPose)
    (dirty : List Bytes) :
    Mirrored { s with
      clients := s.clients.modify id fun c => { c with posesIn := c.posesIn + 1, lastPose := pose, havePose := true }
      players := s.players.insert c.playerKey (PlayerRec.follow c.playerKey pose ((s.players.lookup c.playerKey).getD {}))
      dirtyPlayers := dirty } := by
  obtain ⟨rec_, hr, hm⟩ := h.all id c hl
  refine h.write hl ?_ ?_ (lookup_modify_of hl _) fun k => Table.lookup_insert _ _ _ _
  · rfl
  · rw [hr, Option.getD_some]
    exact ⟨rfl, hm.appearance, hm.inventory, rfl, fun _ => ⟨rfl, rfl, rfl, rfl, rfl⟩⟩

/-- The record of a Hello keeps what the mirror is about. -/
theorem Mirrored.enter (h : Mirrored s) (hello : Hello) : Mirrored (enterRecord s hello) := by
  refine ⟨fun id c hl => ?_, h.distinct⟩
  obtain ⟨rec_, hr, hm⟩ := h.all id c hl
  by_cases hk : c.playerKey = helloKey hello
  · refine ⟨helloRecord s hello, ?_, ?_⟩
    · rw [hk]
      exact AList.lookup_insert _
    · rw [hk] at hr
      unfold helloRecord
      rw [hr, Option.getD_some]
      exact ⟨hk.symm, hm.appearance, hm.inventory, hm.havePose, hm.place⟩
  · exact ⟨rec_, (AList.lookup_insert_ne hk).trans hr, hm⟩

theorem Mirrored.join (h : Mirrored s) (env : Env) (pending : PendingTcp) {hello : Hello} {rec_ : PlayerRec} (t : Time)
    (hnone : findByKey s (helloKey hello) = none) (hkey : rec_.key = helloKey hello)
    (hrec : s.players.lookup (helloKey hello) = some rec_) : Mirrored (insertJoining env s pending hello rec_ t) := by
  by_cases hn : s.nextPeer ∈ s.clients
  · exact h.of_eq (Table.emplace_of_mem _ _ hn) rfl
  · have hlookup : ∀ q, (insertJoining env s pending hello rec_ t).clients.lookup q =
        if q = s.nextPeer then some (joiningClient s pending hello rec_ t) else s.clients.lookup q :=
      Table.lookup_emplace env.placement _ hn
    have hnew : ∀ q c, q ≠ s.nextPeer → (insertJoining env s pending hello rec_ t).clients.lookup q = some c →
        s.clients.lookup q = some c ∧ c.playerKey ≠ helloKey hello := by
      intro q c hq hc
      rw [hlookup, if_neg hq] at hc
      exact ⟨hc, findByKey_none hnone hc⟩
    constructor
    · intro q c hc
      by_cases hq : q = s.nextPeer
      · rw [hlookup, if_pos hq] at hc
        cases hc
        refine ⟨rec_, hrec, hkey, rfl, rfl, rfl, fun hp => ?_⟩
        unfold joiningClient
        dsimp only
        rw [if_pos hp]
        exact ⟨rfl, rfl, rfl, rfl, rfl⟩
      · exact h.all q c (hnew q c hq hc).1
    · intro q q' c c' hc hc' he
      by_cases hq : q = s.nextPeer
      · by_cases hq' : q' = s.nextPeer
        · rw [hq, hq']
        · rw [hlookup, if_pos hq] at hc
          cases hc
          exact absurd he.symm (hnew q' c' hq' hc').2
      · by_cases hq' : q' = s.nextPeer
        · rw [hlookup, if_pos hq'] at hc'
          cases hc'
          exact absurd he (hnew q c hq hc).2
        · exact h.distinct q q' c c' (hnew q c hq hc).1 (hnew q' c' hq' hc').1 he

/-- A reconnecting client takes from its record what it has already. -/
theorem Mirrored.reconnect (h : Mirrored s) {id : PeerId} {c : Client} (hl : s.clients.lookup id = some c)
    (pending : PendingTcp) {hello : Hello} (hkey : c.playerKey = helloKey hello) {rec_ : PlayerRec}
    (hrec : s.players.lookup (helloKey hello) = some rec_) (token : UInt32) (t : Time) :
    Mirrored { s with
      clients := s.clients.modify id fun c => reconnectedClient pending hello rec_ token t (Client.unbound c) } := by
  obtain ⟨rec', hr, hm⟩ := h.all id c hl
  rw [hkey, hrec] at hr
  cases hr
  have hm' := hm.of_look (Client.look_unbound c)
  refine h.write hl hkey.symm (r := rec_) ?_ (lookup_modify_of hl _) fun k => ?_
  · refine ⟨hm.key.trans hkey, ?_, ?_, ?_, ?_⟩
    · unfold reconnectedClient
      by_cases ha : rec_.appearance = []
      · simpa [ha] using hm'.appearance
      · simp [ha]
    · unfold reconnectedClient
      by_cases ha : rec_.inventory = []
      · simpa [ha] using hm'.inventory
      · simp [ha]
    · simp [reconnectedClient, hm'.havePose]
    · simpa [reconnectedClient, hm'.havePose] using hm'.place
  · by_cases hk : k = c.playerKey
    · rw [if_pos hk, hk, hkey, hrec]
    · rw [if_neg hk]

theorem Part.mirrored (hp : Part s₀ i s s') (h : Mirrored s) : Mirrored s' := by
  cases hp with
  | aside ha => exact h.of_eq ha.clients ha.players
  | touch id f hf =>
    refine h.of_look rfl fun q c' hc' => ?_
    rw [Table.lookup_modify] at hc'
    split at hc'
    · obtain ⟨c, hc, rfl⟩ := Option.map_eq_some_iff.mp hc'
      exact ⟨c, hc, hf c⟩
    · exact ⟨c', hc', rfl⟩
  | remember id client hl => exact h.recall hl
  | assemble type id hid hstay asm hs hslots =>
    rw [setAssemblies_eq]
    exact h.of_eq rfl rfl
  | store type id client hl blob hblob => exact h.store type hl blob
  | pose id client hl pose => exact h.pose hl pose _
  | enter hello ha hpl hd hj => exact h.enter hello
  | join env pending hello rec_ t hnone hkey hrec => exact h.join env pending t hnone hkey hrec
  | reconnect id client hl pending hello hkey rec_ hrec token t => exact h.reconnect hl pending hkey hrec token t
  | erase id hleave hnoted =>
    refine h.of_look rfl fun q c' hc' => ?_
    rw [Table.lookup_erase] at hc'
    split at hc'
    · cases hc'
    · exact ⟨c', hc', rfl⟩
  | flush =>
    rw [flushDirtyAsync_eq]
    exact h.of_eq rfl rfl
  | _ => exact h.of_eq rfl rfl

theorem mirrored_initial (b : Startup) : Mirrored b.runtime := by
  constructor
  · intro id c hc
    simp [Startup.runtime, initial] at hc
  · intro id id' c c' hc
    simp [Startup.runtime, initial] at hc

theorem Reachable.mirrored {s : ServerRuntime} (h : Reachable s) : Mirrored s := by
  have hboth : WellFormed s ∧ Mirrored s :=
    h.induction (I := fun s => WellFormed s ∧ Mirrored s) (fun b => ⟨wellFormed_initial b, mirrored_initial b⟩)
      fun s i h => ⟨h.1.step i, Parts.invariant (step_parts h.1 i) (fun _ _ => Part.mirrored) (h.2.of_eq rfl rfl)⟩
  exact hboth.2

/-- In every state a run reaches, whatever was loaded at the start, a live client mirrors the
record of its player. -/
theorem allMirrored_runFrom (b : Startup) (is : List (Env × Input)) : AllMirrored (runFrom b is) :=
  (runFrom_reachable b is).mirrored.all

def KeyedRecords (players : Table Bytes PlayerRec) : Prop := ∀ k rec_, players.lookup k = some rec_ → rec_.key = k

/-- The later record has what the earlier one had. -/
structure Grown (r r' : PlayerRec) : Prop where
  appearance : r.appearance ≠ [] → r'.appearance ≠ []
  inventory : r.inventory ≠ [] → r'.inventory ≠ []

theorem Grown.refl (r : PlayerRec) : Grown r r := ⟨id, id⟩

theorem Grown.trans {r r' r'' : PlayerRec} (h : Grown r r') (h' : Grown r' r'') : Grown r r'' :=
  ⟨fun hr => h'.appearance (h.appearance hr), fun hr => h'.inventory (h.inventory hr)⟩

/-- A record is rewritten under its own key, and never loses a blob. -/
def Rewritten (s₀ s s' : ServerRuntime) (k : Bytes) : Prop :=
  ∃ rec_, s'.players.lookup k = some rec_ ∧ rec_.key = k ∧ (Slotted s₀ → Grown ((s.players.lookup k).getD {}) rec_)

theorem storeBlob_key (type : Msg) (blob : Bytes) (r : PlayerRec) : (PlayerRec.storeBlob type blob r).key = r.key := by
  unfold PlayerRec.storeBlob
  split <;> rfl

theorem Part.records (hp : Part s₀ i s s') (h : Mirrored s) (k : Bytes) :
    s'.players.lookup k = s.players.lookup k ∨ Rewritten s₀ s s' k := by
  have insert : ∀ {key : Bytes} {rec_ : PlayerRec}, s'.players = s.players.insert key rec_ → rec_.key = key →
      (Slotted s₀ → Grown ((s.players.lookup key).getD {}) rec_) →
      s'.players.lookup k = s.players.lookup k ∨ Rewritten s₀ s s' k := by
    intro key rec_ he hkey hg
    by_cases hk : k = key
    · subst hk
      exact .inr ⟨rec_, by rw [he, AList.lookup_insert], hkey, hg⟩
    · exact .inl (by rw [he, AList.lookup_insert_ne hk])
  cases hp with
  | aside ha => exact .inl (by rw [ha.players])
  | remember id client hl =>
    obtain ⟨rec_, hr, hm⟩ := h.all id client hl
    refine insert rfl ?_ fun _ => .refl _
    rw [hr, Option.getD_some, hm.key]
  | assemble type id hid hstay asm hs hslots =>
    left
    rw [setAssemblies_eq]
  | store type id client hl blob hblob =>
    refine insert rfl (storeBlob_key _ _ _) fun hs => ?_
    unfold PlayerRec.storeBlob
    split
    · exact ⟨fun _ => hblob hs, fun hr => hr⟩
    · exact ⟨fun hr => hr, fun _ => hblob hs⟩
  | pose id client hl pose => exact insert rfl rfl fun _ => ⟨fun hr => hr, fun hr => hr⟩
  | enter hello ha hpl hd hj => exact insert rfl rfl fun _ => ⟨fun hr => hr, fun hr => hr⟩
  | flush =>
    rw [flushDirtyAsync_eq]
    exact .inl rfl
  | _ => exact .inl rfl

theorem Part.keyedRecords (hp : Part s₀ i s s') (h : Mirrored s) (hk : KeyedRecords s.players) : KeyedRecords s'.players := by
  intro k rec_ hl
  rcases hp.records h k with he | ⟨rec', hl', hkey, -⟩
  · exact hk k rec_ (he ▸ hl)
  · rw [hl'] at hl
    exact Option.some.inj hl ▸ hkey

/-- A record stays in the table, with its blobs. -/
def Outlived (players : Table Bytes PlayerRec) (r : PlayerRec) : Prop :=
  ∃ rec_, players.lookup r.key = some rec_ ∧ Grown r rec_

theorem Part.outlived (hp : Part s₀ i s s') (h : Mirrored s) (hs : Slotted s₀) {r : PlayerRec} (ho : Outlived s.players r) :
    Outlived s'.players r := by
  obtain ⟨rec_, hl, hg⟩ := ho
  rcases hp.records h r.key with he | ⟨rec', hl', -, hg'⟩
  · exact ⟨rec_, he ▸ hl, hg⟩
  · rw [hl] at hg'
    exact ⟨rec', hl', hg.trans (hg' hs)⟩

end ServerRuntime
end CommonwealthMP
