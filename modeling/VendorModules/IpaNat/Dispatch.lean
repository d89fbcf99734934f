import VendorModules.IpaNat.Run
import VendorModules.IpaNat.StateMach

namespace VendorModules.IpaNat

/-! What the dispatcher reports, against what its callbacks report. -/

section

variable (callbacks : NatiState → NatiTrigger → Nati Status)
  (trigger : NatiTrigger) (world : World)

def afterTake : World := (takeMutex world).2

def clockVoted : Bool × World :=
  if voteRequired (afterTake world).obj trigger then
    ask .clockVote (afterTake world)
  else (true, afterTake world)

def CallbackSucceeds : Prop :=
  (takeMutex world).1 = .ok () ∧ (clockVoted trigger world).1 = true ∧
    (callbacks (clockVoted trigger world).2.obj.currState trigger
      (clockVoted trigger world).2).1 = .ok ()

def ReportsCallback : Prop :=
  (dispatch callbacks trigger world).1 = .ok () →
    CallbackSucceeds callbacks trigger world

def beforeGive : World := (voteAndRun callbacks trigger (afterTake world)).2

theorem dispatch_apply :
    dispatch callbacks trigger world =
      match (takeMutex world).1 with
      | .error errno => (.error errno, afterTake world)
      | .ok () => giveMutex (beforeGive callbacks trigger world) := by
  rw [dispatch]
  change (match (takeMutex world).1 with
    | .error errno => _
    | .ok () => _ : Nati Status) (takeMutex world).2 = _
  cases (takeMutex world).1 <;> rfl

def devote (world : World) : World :=
  if voteRequired (afterTake world).obj trigger then
    (ask .clockDevote (callbacks (clockVoted trigger world).2.obj.currState trigger
      (clockVoted trigger world).2).2).2
  else
    (callbacks (clockVoted trigger world).2.obj.currState trigger
      (clockVoted trigger world).2).2

theorem beforeGive_voted (voted : (clockVoted trigger world).1 = true) :
    beforeGive callbacks trigger world = devote callbacks trigger world := by
  have unfolded : beforeGive callbacks trigger world =
      (withVote (voteRequired (afterTake world).obj trigger)
        (do callbacks (← get).obj.currState trigger) (afterTake world)).2 := rfl
  rw [unfolded]
  simp only [clockVoted] at voted
  simp only [devote, clockVoted, withVote]
  cases required : voteRequired (afterTake world).obj trigger with
  | false => rfl
  | true =>
    rw [required, if_pos rfl] at voted
    simp only [if_true, bind_apply, voted, get_apply, pure_apply]

theorem dispatch_ok_iff :
    (dispatch callbacks trigger world).1 = .ok () ↔
      (takeMutex world).1 = .ok () ∧
        (giveMutex (beforeGive callbacks trigger world)).1 = .ok () := by
  rw [dispatch_apply]
  cases (takeMutex world).1 with
  | error errno => simp
  | ok => simp

/-- A failure of the callback is lost exactly when the mutex operations around
it succeed. -/
theorem reportsCallback_iff :
    ReportsCallback callbacks trigger world ↔
      (takeMutex world).1 ≠ .ok () ∨
      (giveMutex (beforeGive callbacks trigger world)).1 ≠ .ok () ∨
      ((clockVoted trigger world).1 = true ∧
        (callbacks (clockVoted trigger world).2.obj.currState trigger
          (clockVoted trigger world).2).1 = .ok ()) := by
  rw [ReportsCallback, dispatch_ok_iff, CallbackSucceeds]
  tauto

end

/-! ### A deletion that fails unseen -/

def TableSizing.sample : TableSizing where
  shares := fun _ entries => ⟨entries, 0, Nat.zero_le entries⟩
  numSramTableEntries := fun _ => 4

def NatiObj.sample (state : NatiState) : NatiObj where
  prevState := .hybrid
  currState := state
  holdState := false
  stateToHold := .null
  ddrTblHdl := makeTblHdl 1 .ddr
  sramTblHdl := makeTblHdl 1 .sram
  totSlotsInSram := 4
  backToSramThresh := 1
  totRulesInTable := fun _ => 0
  mapPairs := fun _ => NatiMapPair.empty
  swStats := fun _ => ⟨0, 0⟩

def Env.failing (fails : ExtCall → Nat → Bool) : Env where
  answer := fun call n => !fails call n
  asked := 0
  sramMemAvailableForNat := 4096

def Env.allOk : Env := Env.failing fun _ _ => false

def World.sample (state : NatiState) : World where
  obj := NatiObj.sample state
  drv := NatDrv.sample fun mem => some (Ip4TableCache.create mem .smallest)
  natMutexInit := true
  out := ⟨0, 0, 0⟩
  env := Env.allOk

/-- No rule has the handle 2, and the client is told that it is deleted. -/
theorem delRule_failure_unseen :
    ¬ReportsCallback
      (stateMachTbl .sample (ipaNatiStatemachAt .sample 2)) (.delRule 1 2)
      (.sample .ddrOnly) := by
  intro reports
  have reported : (dispatch (stateMachTbl .sample (ipaNatiStatemachAt .sample 2))
      (.delRule 1 2) (.sample .ddrOnly)).1 = .ok () := by decide +kernel
  exact absurd (reports reported).2.2 (by decide +kernel)

end VendorModules.IpaNat
