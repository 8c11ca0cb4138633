import CommonwealthMP.CrashNotes
import CommonwealthMP.StepRuns

/-! # Guarded calls on one thread

`CMP_SehCall` runs a function of the plugin inside a structured exception region, and the vectored
handler asks the depth counter of the thread whether such a region is open. -/
namespace CommonwealthMP
open ByteLayout
namespace Crash

/-- `SehPack`, with the name the call was made under. -/
structure SehPack where
  what : Option Bytes
  code : UInt32 := 0
  ip : UInt64 := 0
  deriving DecidableEq, Repr

/-- `sehDepth` is `g_sehDepth`; `packs` are the calls whose bodies run, the innermost first;
`crashes` are the calls of `WriteCrash`, with their origins. -/
structure SehThread where
  sehDepth : ℕ := 0
  packs : List SehPack := []
  notes : CrashNotes := {}
  crashes : List (Bytes × ExceptionRecord) := []
  deriving DecidableEq, Repr

/-- What happens on a thread: a call of `CMP_SehCall` (with a function or with null), the end of the
innermost body, and an exception, which a handler inside the innermost body may take. -/
inductive SehEvent
  | sehCall (what : Option Bytes) (fn : Bool)
  | bodyReturns
  | raise (record : ExceptionRecord) (rip : UInt64) (handledInside : Bool)
  deriving DecidableEq, Repr

def writeCrash (t : SehThread) (origin : Bytes) (record : ExceptionRecord) : SehThread :=
  { t with crashes := t.crashes ++ [(origin, record)] }

def veh (t : SehThread) (record : ExceptionRecord) : SehThread :=
  if !isFatal record.exceptionCode then t
  else if 0 < t.sehDepth then t
  else writeCrash t (ascii "veh") record

def unhandled (t : SehThread) (record : ExceptionRecord) : SehThread := writeCrash t (ascii "unhandled") record

def sehFilter (record : ExceptionRecord) (rip : UInt64) (pack : SehPack) : SehPack :=
  { pack with code := record.exceptionCode, ip := rip }

/-- `CMP_SehCall` and `SehRun` up to the call of the function. -/
def sehCall (t : SehThread) (what : Option Bytes) (fn : Bool) : SehThread :=
  if !fn then t
  else { t with notes := crashNote t.notes what, packs := ⟨what, 0, 0⟩ :: t.packs, sehDepth := t.sehDepth + 1 }

/-- The line of `CMP_SehCall` about a fault, as `snprintf` leaves it in 160 bytes. -/
def sehLine (pack : SehPack) : Bytes :=
  (ascii "SEH " ++ (match pack.what with | none => ascii "-" | some what => cString what) ++ ascii " " ++
    codeName pack.code ++ ascii " " ++ hexPadded 8 pack.code.toNat ++ ascii " ip=" ++ hex pack.ip.toNat).take 159

/-- `SehRun` after the region, and `CMP_SehCall` after it. -/
def sehReturn (t : SehThread) (pack : SehPack) (packs : List SehPack) : SehThread :=
  { t with packs := packs
           notes := if pack.code ≠ 0 then crashNote t.notes (some (sehLine pack)) else t.notes }

/-- The vectored handler sees an exception first; then the handlers of the frames take it, from the inside. -/
def raise (t : SehThread) (record : ExceptionRecord) (rip : UInt64) (handledInside : Bool) : SehThread :=
  let t := veh t record
  if handledInside then t
  else match t.packs with
    | [] => unhandled t record
    | pack :: packs => sehReturn t (sehFilter record rip pack) packs

def sehStep (t : SehThread) : SehEvent → SehThread
  | .sehCall what fn => sehCall t what fn
  | .bodyReturns => match t.packs with
    | [] => t
    | pack :: packs => sehReturn t pack packs
  | .raise record rip handledInside => raise t record rip handledInside

def sehRun (events : List SehEvent) : SehThread := StepRuns.run sehStep {} events

/-- The event ends the body of a guarded call. -/
def Finishes (t : SehThread) : SehEvent → Prop
  | .sehCall _ _ => False
  | .bodyReturns => t.packs ≠ []
  | .raise _ _ handledInside => handledInside = false ∧ t.packs ≠ []

instance : (t : SehThread) → (e : SehEvent) → Decidable (Finishes t e)
  | _, .sehCall _ _ => inferInstanceAs (Decidable False)
  | t, .bodyReturns => inferInstanceAs (Decidable (t.packs ≠ []))
  | t, .raise _ _ handledInside => inferInstanceAs (Decidable (handledInside = false ∧ t.packs ≠ []))

/-- The counter is the number of the bodies that run, and a fatal exception outside them is reported. -/
structure CrashReady (t : SehThread) : Prop where
  depth : t.sehDepth = t.packs.length
  reports : t.packs = [] → ∀ record, isFatal record.exceptionCode = true →
    (veh t record).crashes = t.crashes ++ [(ascii "veh", record)]

@[simp] theorem veh_sehDepth (t : SehThread) (record : ExceptionRecord) : (veh t record).sehDepth = t.sehDepth := by
  unfold veh
  split_ifs <;> rfl

@[simp] theorem veh_packs (t : SehThread) (record : ExceptionRecord) : (veh t record).packs = t.packs := by
  unfold veh
  split_ifs <;> rfl

theorem crashReady_iff {t : SehThread} : CrashReady t ↔ t.sehDepth = t.packs.length := by
  refine ⟨fun h => h.depth, fun h => ⟨h, fun hnil record hfatal => ?_⟩⟩
  have hzero : t.sehDepth = 0 := by rw [h, hnil, List.length_nil]
  simp [veh, writeCrash, hfatal, hzero]

/-- Nothing counts the depth down: a call that ends leaves the counter one too high. -/
theorem sehStep_depth (t : SehThread) (e : SehEvent) :
    (sehStep t e).sehDepth + t.packs.length =
      t.sehDepth + (sehStep t e).packs.length + if Finishes t e then 1 else 0 := by
  cases e with
  | sehCall what fn =>
    cases fn
    · simp [sehStep, sehCall, Finishes]
    · simp [sehStep, sehCall, Finishes]
      omega
  | bodyReturns =>
    cases h : t.packs with
    | nil => simp [sehStep, Finishes, h]
    | cons pack packs =>
      simp [sehStep, sehReturn, Finishes, h]
      omega
  | raise record rip handledInside =>
    cases handledInside
    · cases h : t.packs with
      | nil => simp [sehStep, raise, unhandled, writeCrash, Finishes, h]
      | cons pack packs =>
        simp [sehStep, raise, sehReturn, Finishes, h]
        omega
    · simp [sehStep, raise, Finishes]

theorem crashReady_step {t : SehThread} {e : SehEvent} (h : CrashReady t) :
    CrashReady (sehStep t e) ↔ ¬ Finishes t e := by
  have hstep := sehStep_depth t e
  rw [crashReady_iff] at h ⊢
  split_ifs at hstep with hfin
  · simp only [hfin, not_true, iff_false]
    omega
  · simp only [hfin, not_false_eq_true, iff_true]
    omega

/-- Crash reporting stays as it should be on exactly the runs in which no guarded call ends. -/
theorem sehRun_crashReady (events : List SehEvent) :
    (∀ past rest, events = past ++ rest → CrashReady (sehRun past)) ↔
      StepRuns.AllSteps sehStep (fun t e => ¬ Finishes t e) {} events := by
  constructor
  · intro h
    rw [StepRuns.allSteps_iff_split]
    intro past e rest he
    have hbefore := h past (e :: rest) he
    have hafter := h (past ++ [e]) rest (by rw [he, List.append_assoc, List.singleton_append])
    rw [sehRun, StepRuns.run_concat] at hafter
    exact (crashReady_step hbefore).mp hafter
  · intro h past rest he
    rw [he, StepRuns.allSteps_append] at h
    refine StepRuns.run_invariant (I := CrashReady) ?_ (crashReady_iff.mpr rfl) h.1
    intro t e ht hnot
    exact (crashReady_step ht).mpr hnot

/-- One guarded call that returns, and an access violation after it: only the last filter reports. -/
theorem not_sehRun_crashReady_returned :
    ¬ (∀ past rest, [SehEvent.sehCall (some (ascii "ghosts")) true, .bodyReturns] = past ++ rest →
        CrashReady (sehRun past)) ∧
      (sehRun [.sehCall (some (ascii "ghosts")) true, .bodyReturns]).packs = [] ∧
      (sehRun [.sehCall (some (ascii "ghosts")) true, .bodyReturns, .raise ⟨0xC0000005, 0, 0, 0, 0⟩ 0 true]).crashes = [] := by
  refine ⟨fun h => ?_, by decide, by decide⟩
  have hready := h _ [] (List.append_nil _).symm
  exact absurd hready.depth (by decide)

end Crash
end CommonwealthMP
