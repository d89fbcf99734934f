import Mathlib.Data.List.GetD
import Mathlib.Data.Nat.ModEq

namespace VendorModules.HwFence

/-! The queues between the driver and the fence controller: payloads in shared
memory, and a read and a write index in a unit of the client's choice. -/

def EINVAL : Int := 22

/-- `SYNX_HW_FENCE_HANDLE_FLAG` -/
def handleFlag : BitVec 64 := 0x80000000

/-- `sizeof(struct msm_hw_fence_queue_payload)` in words. -/
def payloadSizeU32 : Nat := 16

structure QueuePayload where
  type : BitVec 16
  ctxtId : BitVec 64
  seqno : BitVec 64
  hash : BitVec 64
  flags : BitVec 64
  clientData : BitVec 64
  error : BitVec 32
  timestamp : BitVec 64

def lowHigh (value : BitVec 64) : List (BitVec 32) :=
  [value.truncate 32, (value >>> 32).truncate 32]

/-- The words of the payload in the queue, without the last one, `reserve`. -/
def QueuePayload.words (payload : QueuePayload) : List (BitVec 32) :=
  [64, (0x100#16 ++ payload.type)] ++ lowHigh payload.ctxtId ++ lowHigh payload.seqno ++
    lowHigh (payload.hash ||| handleFlag) ++ lowHigh payload.flags ++
    lowHigh payload.clientData ++ [payload.error] ++ lowHigh payload.timestamp

@[simp] theorem QueuePayload.length_words (payload : QueuePayload) :
    payload.words.length = 15 := rfl

/-- `struct msm_hw_fence_queue`, its numbers of 32 bits, with the client that
updates it and how many locks of clients there are. -/
structure MsmHwFenceQueue where
  qSizeBytes : Nat
  rdWrIdxStart : Nat
  rdWrIdxFactor : Nat
  clientId : Nat
  lockClient : Bool
  clientLockTblCnt : Nat

structure QueueMem where
  words : Nat → BitVec 32
  readIndex : Nat
  writeIndex : Nat

/-- What a call returns, with the payload it read, and the words it touched:
the first of them and how many. -/
structure QueueOutcome where
  ret : Int
  payload : Option (List (BitVec 32))
  access : Option (Nat × Nat)

def sub32 (a b : Nat) : Nat := (a + 2 ^ 32 - b) % 2 ^ 32

namespace MsmHwFenceQueue

variable (queue : MsmHwFenceQueue)

def RequiresIdxTranslation : Prop :=
  queue.rdWrIdxFactor ≠ 0 ∧ (queue.rdWrIdxStart ≠ 0 ∨ queue.rdWrIdxFactor > 1)

instance : Decidable queue.RequiresIdxTranslation := inferInstanceAs (Decidable (_ ∧ _))

/-- `IDX_TRANSLATE_CUSTOM_TO_DEFAULT` where it is required. -/
def toDefault (idx : Nat) : Nat :=
  if queue.RequiresIdxTranslation then
    sub32 idx queue.rdWrIdxStart * queue.rdWrIdxFactor % 2 ^ 32
  else idx

/-- `IDX_TRANSLATE_DEFAULT_TO_CUSTOM` where it is required. -/
def toCustom (idx : Nat) : Nat :=
  if queue.RequiresIdxTranslation then
    (idx / queue.rdWrIdxFactor + queue.rdWrIdxStart) % 2 ^ 32
  else idx

def qSizeU32 : Nat := queue.qSizeBytes / 4

def advance (idx : Nat) : Nat :=
  let next := (idx + payloadSizeU32) % 2 ^ 32
  if next ≥ queue.qSizeU32 then 0 else next

def lockIdx : Nat := sub32 queue.clientId 1 * 8 % 2 ^ 32

end MsmHwFenceQueue

def QueueMem.window (mem : QueueMem) (first count : Nat) : List (BitVec 32) :=
  (List.range count).map fun j => mem.words (first + j)

def QueueMem.put (mem : QueueMem) (first : Nat) (words : List (BitVec 32)) : QueueMem :=
  { mem with
    words := fun i =>
      if first ≤ i ∧ i < first + words.length then words.getD (i - first) 0 else mem.words i }

/-- `hw_fence_read_queue_helper` -/
def readQueueHelper (queue : MsmHwFenceQueue) (mem : QueueMem) : QueueMem × QueueOutcome :=
  let readIdx := queue.toDefault mem.readIndex
  let writeIdx := queue.toDefault mem.writeIndex
  if readIdx = writeIdx then (mem, ⟨-EINVAL, none, none⟩)
  else
    let toReadIdx := queue.toCustom (queue.advance readIdx)
    ({ mem with readIndex := toReadIdx },
      ⟨if toReadIdx = writeIdx then 0 else 1, some (mem.window readIdx payloadSizeU32),
        some (readIdx, payloadSizeU32)⟩)

/-- `hw_fence_update_queue_helper`, with the write index in use. -/
def updateQueueHelper (queue : MsmHwFenceQueue) (mem : QueueMem) (payload : QueuePayload) :
    QueueMem × QueueOutcome :=
  if queue.lockClient ∧ queue.lockIdx ≥ queue.clientLockTblCnt then (mem, ⟨-EINVAL, none, none⟩)
  else
    let readIdx := queue.toDefault mem.readIndex
    let writeIdx := queue.toDefault mem.writeIndex
    let qFreeU32 :=
      if readIdx ≤ writeIdx then sub32 queue.qSizeU32 (writeIdx - readIdx)
      else readIdx - writeIdx
    if qFreeU32 ≤ payloadSizeU32 then (mem, ⟨-EINVAL, none, none⟩)
    else
      ({ mem.put writeIdx payload.words with
          writeIndex := queue.toCustom (queue.advance writeIdx) },
        ⟨0, none, some (writeIdx, payload.words.length)⟩)

inductive QueueCall where
  | update (payload : QueuePayload)
  | read

def QueueCall.run (queue : MsmHwFenceQueue) (mem : QueueMem) :
    QueueCall → QueueMem × QueueOutcome
  | .update payload => updateQueueHelper queue mem payload
  | .read => readQueueHelper queue mem

/-! ## A bounded FIFO -/

def QueueCall.next (slots : Nat) (stored : List QueuePayload) : QueueCall → List QueuePayload
  | .update payload => if stored.length < slots - 1 then stored ++ [payload] else stored
  | .read => stored.tail

def QueueCall.Answers (slots : Nat) (stored : List QueuePayload) (outcome : QueueOutcome) :
    QueueCall → Prop
  | .update _ => outcome.ret = if stored.length < slots - 1 then 0 else -EINVAL
  | .read =>
    match stored with
    | [] => outcome.ret = -EINVAL
    | payload :: rest =>
      outcome.payload.map (List.take 15) = some payload.words ∧
        outcome.ret = if rest = [] then 0 else 1

def QueueOutcome.Inside (outcome : QueueOutcome) (queue : MsmHwFenceQueue) : Prop :=
  ∀ access ∈ outcome.access, 4 * (access.1 + access.2) ≤ queue.qSizeBytes

def IsFifo (queue : MsmHwFenceQueue) (slots : Nat) :
    QueueMem → List QueuePayload → List QueueCall → Prop
  | _, _, [] => True
  | mem, stored, call :: rest =>
    call.Answers slots stored (call.run queue mem).2 ∧ (call.run queue mem).2.Inside queue ∧
      IsFifo queue slots (call.run queue mem).1 (call.next slots stored) rest

/-- As `init_hw_fences_queues` leaves it, whatever is in the memory. -/
def emptyQueue (queue : MsmHwFenceQueue) (words : Nat → BitVec 32) : QueueMem :=
  ⟨words, queue.toCustom 0, queue.toCustom 0⟩

structure MsmHwFenceQueue.Fits (queue : MsmHwFenceQueue) (slots : Nat) : Prop where
  several : 2 ≤ slots
  size : queue.qSizeBytes = 64 * slots
  bytes : queue.qSizeBytes < 2 ^ 32
  start : queue.rdWrIdxStart < 2 ^ 32
  factor : queue.rdWrIdxFactor = 0 ∨ queue.rdWrIdxFactor ∣ payloadSizeU32
  lock : queue.lockClient → queue.lockIdx < queue.clientLockTblCnt

/-! ## Slots and indexes -/

def slotAt (slots first k : Nat) : Nat := (first + k) % slots

section

variable {queue : MsmHwFenceQueue} {slots first : Nat} {mem : QueueMem}
  {stored : List QueuePayload}

theorem slotAt_eq (_ : first < slots) {k : Nat} (_ : k < slots) :
    slotAt slots first k = if first + k < slots then first + k else first + k - slots := by
  unfold slotAt
  split
  · exact Nat.mod_eq_of_lt ‹_›
  · rw [Nat.mod_eq_sub_mod (by omega), Nat.mod_eq_of_lt (by omega)]

theorem slotAt_next (slots first k : Nat) :
    slotAt slots (slotAt slots first 1) k = slotAt slots first (k + 1) := by
  unfold slotAt
  rw [Nat.mod_add_mod, Nat.add_assoc, Nat.add_comm 1]

theorem toDefault_toCustom (fits : queue.Fits slots) {i : Nat} (inside : i < slots) :
    queue.toDefault (queue.toCustom (16 * i)) = 16 * i := by
  unfold MsmHwFenceQueue.toDefault MsmHwFenceQueue.toCustom
  split
  · rename_i required
    have small : 16 * i < 2 ^ 32 := by
      have := fits.bytes
      have := fits.size
      omega
    have divides : queue.rdWrIdxFactor ∣ 16 * i :=
      (fits.factor.resolve_left required.1).mul_right i
    have bound := fits.start
    have less := Nat.div_le_self (16 * i) queue.rdWrIdxFactor
    have back : sub32 ((16 * i / queue.rdWrIdxFactor + queue.rdWrIdxStart) % 2 ^ 32)
        queue.rdWrIdxStart = 16 * i / queue.rdWrIdxFactor := by
      generalize 16 * i / queue.rdWrIdxFactor = unit at less
      unfold sub32
      omega
    rw [back, Nat.div_mul_cancel divides, Nat.mod_eq_of_lt small]
  · rfl

theorem advance_slot (fits : queue.Fits slots) {i : Nat} (inside : i < slots) :
    queue.advance (16 * i) = 16 * slotAt slots i 1 := by
  have := fits.bytes
  have size := fits.size
  rw [slotAt_eq inside fits.several]
  unfold MsmHwFenceQueue.advance MsmHwFenceQueue.qSizeU32 payloadSizeU32
  simp only
  split <;> split <;> omega

/-! ## What a memory holds -/

structure QueueMem.Holds (mem : QueueMem) (queue : MsmHwFenceQueue) (slots first : Nat)
    (stored : List QueuePayload) : Prop where
  inside : first < slots
  room : stored.length < slots
  read : mem.readIndex = queue.toCustom (16 * first)
  write : mem.writeIndex = queue.toCustom (16 * slotAt slots first stored.length)
  kept : ∀ k payload, stored[k]? = some payload →
    mem.window (16 * slotAt slots first k) 15 = payload.words

theorem slotAt_lt (inside : first < slots) (k : Nat) : slotAt slots first k < slots :=
  Nat.mod_lt _ (Nat.zero_lt_of_lt inside)

theorem QueueMem.Holds.indexes (holds : mem.Holds queue slots first stored)
    (fits : queue.Fits slots) :
    queue.toDefault mem.readIndex = 16 * first ∧
      queue.toDefault mem.writeIndex = 16 * slotAt slots first stored.length := by
  rw [holds.read, holds.write, toDefault_toCustom fits holds.inside,
    toDefault_toCustom fits (slotAt_lt holds.inside _)]
  exact ⟨rfl, rfl⟩

theorem emptyQueue_holds (fits : queue.Fits slots) (words : Nat → BitVec 32) :
    (emptyQueue queue words).Holds queue slots 0 [] :=
  have several := fits.several
  ⟨by omega, by simp only [List.length_nil]; omega, rfl, by simp [emptyQueue, slotAt],
    fun k payload stored => by simp at stored⟩

theorem window_put_self (mem : QueueMem) (place : Nat) (payload : QueuePayload) :
    (mem.put place payload.words).window place 15 = payload.words := by
  refine List.ext_getElem rfl fun j inside other => ?_
  simp only [QueueMem.window, QueueMem.put, List.getElem_map, List.getElem_range]
  rw [if_pos ⟨Nat.le_add_right _ _, Nat.add_lt_add_left other _⟩, Nat.add_sub_cancel_left,
    List.getD_eq_getElem _ _ other]

theorem window_put_other (mem : QueueMem) {place first : Nat} (payload : QueuePayload)
    (apart : first + 15 ≤ place ∨ place + 15 ≤ first) :
    (mem.put place payload.words).window first 15 = mem.window first 15 := by
  refine List.map_congr_left fun j inside => ?_
  have bound := List.mem_range.mp inside
  have length := payload.length_words
  exact if_neg (by omega)

theorem readQueueHelper_empty (fits : queue.Fits slots) (holds : mem.Holds queue slots first []) :
    readQueueHelper queue mem = (mem, ⟨-EINVAL, none, none⟩) := by
  obtain ⟨read, write⟩ := holds.indexes fits
  have same : slotAt slots first ([] : List QueuePayload).length = first :=
    Nat.mod_eq_of_lt holds.inside
  rw [same] at write
  simp only [readQueueHelper, read, write, if_true]

/-- A read takes the first payload. What it says of the others compares the new
read index with the words the payloads end at. -/
theorem readQueueHelper_stored (fits : queue.Fits slots) {payload : QueuePayload}
    {rest : List QueuePayload} (holds : mem.Holds queue slots first (payload :: rest)) :
    ∃ mem' outcome, readQueueHelper queue mem = (mem', outcome) ∧
      mem'.Holds queue slots (slotAt slots first 1) rest ∧ outcome.Inside queue ∧
      outcome.payload.map (List.take 15) = some payload.words ∧
      outcome.ret = if queue.toCustom (16 * slotAt slots first 1) =
        16 * slotAt slots first (rest.length + 1) then 0 else 1 := by
  obtain ⟨read, write⟩ := holds.indexes fits
  have inside := holds.inside
  have room : rest.length + 1 < slots := holds.room
  have filled : 16 * first ≠ 16 * slotAt slots first (rest.length + 1) := by
    rw [slotAt_eq inside room]
    split <;> omega
  refine ⟨{ mem with readIndex := queue.toCustom (16 * slotAt slots first 1) },
    ⟨_, some (mem.window (16 * first) 16), some (16 * first, 16)⟩, ?_, ?_, ?_, ?_, rfl⟩
  · simp only [readQueueHelper, read, write, List.length_cons, if_neg filled,
      advance_slot fits inside]
    rfl
  · refine ⟨slotAt_lt inside 1, Nat.lt_of_succ_lt room, rfl, ?_, fun k later found => ?_⟩
    · rw [slotAt_next]
      exact holds.write
    · rw [slotAt_next]
      exact holds.kept (k + 1) later found
  · rintro access ⟨⟩
    have := fits.size
    simp only
    omega
  · have kept := holds.kept 0 payload rfl
    have here : slotAt slots first 0 = first := Nat.mod_eq_of_lt inside
    rw [here] at kept
    exact congrArg some kept

theorem updateQueueHelper_stores (fits : queue.Fits slots)
    (holds : mem.Holds queue slots first stored) (payload : QueuePayload) :
    ∃ mem' outcome, updateQueueHelper queue mem payload = (mem', outcome) ∧
      mem'.Holds queue slots first ((QueueCall.update payload).next slots stored) ∧
      outcome.Inside queue ∧ outcome.ret = if stored.length < slots - 1 then 0 else -EINVAL := by
  obtain ⟨read, write⟩ := holds.indexes fits
  have inside := holds.inside
  have room := holds.room
  have behind := slotAt_lt inside stored.length
  have size := fits.size
  have bytes := fits.bytes
  have unlocked : ¬ (queue.lockClient ∧ queue.lockIdx ≥ queue.clientLockTblCnt) := by
    rintro ⟨locks, beyond⟩
    exact absurd (fits.lock locks) (Nat.not_lt.mpr beyond)
  have free : (if 16 * first ≤ 16 * slotAt slots first stored.length then
      sub32 queue.qSizeU32 (16 * slotAt slots first stored.length - 16 * first)
      else 16 * first - 16 * slotAt slots first stored.length) = 16 * (slots - stored.length) := by
    rw [slotAt_eq inside room]
    unfold sub32 MsmHwFenceQueue.qSizeU32
    split <;> split <;> omega
  rw [updateQueueHelper, if_neg unlocked]
  simp only [read, write, free, payloadSizeU32]
  by_cases fit : stored.length < slots - 1
  · rw [if_neg (by omega)]
    refine ⟨_, _, rfl, ?_, ?_, by rw [if_pos fit]⟩
    · rw [QueueCall.next, if_pos fit, advance_slot fits behind]
      refine ⟨inside, by simp only [List.length_append, List.length_singleton]; omega,
        holds.read, ?_, fun k later found => ?_⟩
      · simp only [List.length_append, List.length_singleton, slotAt, Nat.mod_add_mod,
          Nat.add_assoc]
      · obtain old | new := Nat.lt_or_ge k stored.length
        · rw [List.getElem?_append_left old] at found
          have apart : slotAt slots first k ≠ slotAt slots first stored.length := by
            rw [slotAt_eq inside room, slotAt_eq inside (old.trans room)]
            split <;> split <;> omega
          rw [← holds.kept k later found]
          exact window_put_other mem payload (by omega)
        · rw [List.getElem?_append_right new] at found
          have last : k = stored.length := by
            have := (List.getElem?_eq_some_iff.mp found).1
            simp only [List.length_singleton] at this
            omega
          subst last
          obtain rfl : payload = later := by simpa using found
          exact window_put_self mem _ payload
    · rintro access ⟨⟩
      simp only [QueuePayload.length_words]
      omega
  · rw [if_pos (by omega)]
    refine ⟨mem, _, rfl, ?_, fun access none => ?_, by rw [if_neg fit]⟩
    · rw [QueueCall.next, if_neg fit]
      exact holds
    · simp at none

/-! ## When the queue is a FIFO -/

theorem isFifo_of_default (fits : queue.Fits slots) (default : ¬ queue.RequiresIdxTranslation)
    (holds : mem.Holds queue slots first stored) (calls : List QueueCall) :
    IsFifo queue slots mem stored calls := by
  induction calls generalizing mem first stored with
  | nil => trivial
  | cons call rest ih =>
    cases call with
    | update payload =>
      obtain ⟨mem', outcome, ran, after, inside, answer⟩ :=
        updateQueueHelper_stores fits holds payload
      rw [IsFifo, QueueCall.run, ran]
      exact ⟨answer, inside, ih after⟩
    | read =>
      cases stored with
      | nil =>
        rw [IsFifo, QueueCall.run, readQueueHelper_empty fits holds]
        exact ⟨rfl, fun access none => by simp at none, ih holds⟩
      | cons payload later =>
        obtain ⟨mem', outcome, ran, after, inside, taken, more⟩ :=
          readQueueHelper_stored fits holds
        rw [IsFifo, QueueCall.run, ran]
        refine ⟨⟨taken, ?_⟩, inside, ih after⟩
        have room : later.length + 1 < slots := holds.room
        have several := fits.several
        have custom (idx : Nat) : queue.toCustom idx = idx := if_neg default
        have last : 16 * slotAt slots first 1 = 16 * slotAt slots first (later.length + 1) ↔
            later = [] := by
          rw [slotAt_eq holds.inside room, slotAt_eq holds.inside several,
            ← List.length_eq_zero_iff]
          split <;> split <;> omega
        rw [more, custom]
        simp only [last]

def somePayload : QueuePayload := ⟨1, 0, 0, 0, 0, 0, 0, 0⟩

theorem IsFifo.roundTrip (fits : queue.Fits slots) (holds : mem.Holds queue slots first [])
    {rest : List QueueCall}
    (fifo : IsFifo queue slots mem [] (.update somePayload :: .read :: rest)) :
    queue.toCustom (16 * slotAt slots first 1) = 16 * slotAt slots first 1 ∧
      ∃ mem' : QueueMem, mem'.Holds queue slots (slotAt slots first 1) [] ∧
        IsFifo queue slots mem' [] rest := by
  have room : ([] : List QueuePayload).length < slots - 1 := by
    have several := fits.several
    simp only [List.length_nil]
    omega
  obtain ⟨mem', outcome, wrote, filled, -, -⟩ :=
    updateQueueHelper_stores fits holds somePayload
  rw [QueueCall.next, if_pos room] at filled
  obtain ⟨mem'', outcome', took, emptied, -, -, more⟩ := readQueueHelper_stored fits filled
  simp only [IsFifo, QueueCall.run, wrote, took] at fifo
  obtain ⟨-, -, fifo⟩ := fifo
  rw [QueueCall.next, if_pos room] at fifo
  obtain ⟨⟨-, none⟩, -, later⟩ := fifo
  refine ⟨?_, mem'', emptied, later⟩
  rw [more] at none
  by_contra differ
  rw [List.length_nil, Nat.zero_add, if_neg differ] at none
  exact absurd none (by decide)

def roundTrips : Nat → List QueueCall
  | 0 => []
  | k + 1 => .update somePayload :: .read :: roundTrips k

theorem roundTrips_agree (fits : queue.Fits slots) (holds : mem.Holds queue slots first [])
    {k : Nat} (fifo : IsFifo queue slots mem [] (roundTrips (k + 1))) :
    queue.toCustom (16 * slotAt slots first (k + 1)) = 16 * slotAt slots first (k + 1) := by
  obtain ⟨agree, mem', after, later⟩ := fifo.roundTrip fits holds
  induction k generalizing mem first mem' with
  | zero => exact agree
  | succ k ih =>
    obtain ⟨agree, mem'', next, last⟩ := later.roundTrip fits after
    rw [← slotAt_next]
    exact ih after later agree mem'' next last

/-- The queue is a bounded FIFO exactly when its indexes need no translation: a
read compares its index in the client's unit with the write index in words. -/
theorem isFifo_iff (fits : queue.Fits slots) :
    (∀ words calls, IsFifo queue slots (emptyQueue queue words) [] calls) ↔
      ¬ queue.RequiresIdxTranslation := by
  constructor
  · intro fifo required
    have several := fits.several
    have agree (k : Nat) :=
      roundTrips_agree fits (emptyQueue_holds fits fun _ => 0) (fifo (fun _ => 0) (roundTrips (k + 1)))
    have second := agree 0
    have first := agree (slots - 1)
    rw [slotAt_eq (by omega) (by omega), if_pos (by omega)] at second
    rw [Nat.sub_add_cancel (by omega), slotAt, Nat.zero_add, Nat.mod_self] at first
    simp only [MsmHwFenceQueue.toCustom, if_pos required] at first second
    have start := fits.start
    rw [Nat.mul_zero, Nat.zero_div, Nat.zero_add] at first
    have zero : queue.rdWrIdxStart = 0 := by omega
    have unit : queue.rdWrIdxFactor > 1 := required.2.resolve_left (absurd zero)
    have less : 16 / queue.rdWrIdxFactor < 16 := Nat.div_lt_self (by omega) unit
    rw [zero] at second
    simp only [Nat.zero_add, Nat.mul_one, Nat.add_zero] at second
    generalize 16 / queue.rdWrIdxFactor = words at less second
    omega
  · intro default words calls
    exact isFifo_of_default fits default (emptyQueue_holds fits words) calls

end

def payloadIndexed : MsmHwFenceQueue := ⟨128, 0, 16, 1, false, 0⟩

theorem payloadIndexed_fits : payloadIndexed.Fits 2 :=
  ⟨le_rfl, rfl, by decide, by decide, .inr ⟨1, rfl⟩, by decide⟩

theorem isFifo_iff_payloadIndexed :
    (∀ words calls, IsFifo payloadIndexed 2 (emptyQueue payloadIndexed words) [] calls) ↔
      ¬ payloadIndexed.RequiresIdxTranslation :=
  isFifo_iff payloadIndexed_fits

/-- The read that empties this queue says that payloads remain. -/
theorem not_isFifo_payloadIndexed :
    ¬ IsFifo payloadIndexed 2 (emptyQueue payloadIndexed fun _ => 0) []
      [.update somePayload, .read] := by
  rintro ⟨-, -, ⟨-, emptied⟩, -⟩
  exact absurd emptied (by decide)

end VendorModules.HwFence
