import VendorModules.Lib.Tally
import VendorModules.Lib.Workers
import VendorModules.Synx.Sections

namespace VendorModules.Synx

open Lib

variable {s : State}

/-! ## What is under way -/

def Activity.flight (pIdx child : Nat) : Activity → Nat
  | .signaling notes => notes.countP fun note => note.idx = pIdx ∧ note.child = some child
  | _ => 0

theorem State.inFlight_eq (s : State) (pIdx child : Nat) :
    s.inFlight pIdx child = (s.running.map (Activity.flight pIdx child)).sum := by
  refine congrArg List.sum (List.map_congr_left fun activity _ => ?_)
  cases activity <;> rfl

def Activity.target : Activity → Option Nat
  | .merging work => some work.pIdx
  | _ => none

theorem countP_notesFor {idx status pIdx child : Nat} {slots : List Nat} :
    (notesFor idx status slots).countP (fun note => note.idx = pIdx ∧ note.child = some child) =
      if child = idx ∧ pIdx ≠ 0 then slots.count pIdx else 0 := by
  simp only [notesFor, List.countP_map, List.countP_filter, List.count, Function.comp_def]
  split
  · obtain ⟨rfl, taken⟩ := ‹_›
    refine List.countP_congr fun slot _ => ?_
    simp only [decide_eq_true_eq, Bool.and_eq_true, beq_iff_eq, and_true]
    exact ⟨fun both => both.1, fun same => ⟨same, same ▸ taken⟩⟩
  · rename_i other
    refine List.countP_eq_zero.mpr fun slot _ => ?_
    simp only [decide_eq_true_eq, Bool.and_eq_true, not_and, Option.some.injEq, and_imp]
    rintro rfl rfl taken
    exact other ⟨rfl, taken⟩

/-! ## The entries and the operations that an allowed run gets to -/

def State.Grouped (s : State) (idx : Nat) : Prop :=
  s.history.phase idx = .merging ∨ s.history.phase idx = .merged

theorem State.Grouped.ne_plain {pIdx : Nat} (grouped : s.Grouped pIdx) :
    s.history.phase pIdx ≠ .plain := by
  rcases grouped with phase | phase <;> simp [phase]

structure Merging.Sound (s : State) (work : Merging) : Prop where
  phase : s.history.phase work.pIdx = .merging
  members : s.history.members work.pIdx = work.linked
  counted : work.numChild + (s.history.notified work.pIdx).length = work.linked.length
  active : work.parentStatus = SYNX_STATE_ACTIVE → work.numChild = work.linked.length
  published : ∀ idx ∈ work.rest, s.Published idx
  nonempty : work.idxList ≠ []

def Note.Sound (s : State) (note : Note) : Prop :=
  SYNX_STATE_ACTIVE < note.status ∧
    match note.child with
    | none => ¬ s.Unfinished note.idx
    | some _ => s.history.phase note.idx ≠ .plain

def Activity.Sound (s : State) : Activity → Prop
  | .signaling notes => ∀ note ∈ notes, note.Sound s
  | .merging work => work.Sound s
  | .undoing _ pIdx _ => s.history.phase pIdx = .failed

structure Coredata.Clean (obj : Coredata) : Prop where
  status : obj.status = 0
  handle : obj.handle = 0
  refcount : obj.refcount = 0
  numChild : obj.numChild = 0
  subscribers : ∀ id, obj.subscribers id = false
  slots : obj.parents.slots = Parents.none.slots

structure State.Inv (s : State) : Prop where
  reserved : s.bitmap 0 = true
  clean : ∀ idx, ¬ s.Created idx → (s.table idx).Clean
  valid : ∀ idx, s.Created idx → idx < SYNX_GLOBAL_MAX_OBJS
  phased : ∀ idx, s.history.phase idx ≠ .plain → s.Created idx
  refs : ∀ idx, s.Created idx →
    (s.table idx).refcount = if (s.table idx).numChild = 0 then 1 else 2
  plain : ∀ idx, s.history.phase idx = .plain →
    s.history.members idx = [] ∧ s.history.notified idx = []
  slotted : ∀ idx, ∀ pIdx ∈ (s.table idx).parents.slots, pIdx ≠ 0 →
    s.history.phase pIdx ≠ .plain
  linked : ∀ pIdx, s.Grouped pIdx → ∀ idx,
    (s.table idx).parents.slots.count pIdx = (s.history.members pIdx).count idx
  tally : ∀ pIdx, s.Grouped pIdx →
    Tally (s.history.members pIdx) (s.history.notified pIdx) (s.inFlight pIdx) s.Complete
  published : ∀ pIdx, s.Grouped pIdx → ∀ idx ∈ s.history.members pIdx, s.Published idx
  counted : ∀ pIdx, s.history.phase pIdx = .merged →
    (s.table pIdx).numChild + (s.history.notified pIdx).length =
      (s.history.members pIdx).length
  settled : ∀ pIdx, s.history.phase pIdx = .merged → (s.table pIdx).numChild = 0 →
    (s.table pIdx).status ≠ SYNX_STATE_ACTIVE
  leaf : ∀ idx, s.history.phase idx ≠ .merged → (s.table idx).numChild = 0
  hidden : ∀ pIdx, s.history.phase pIdx = .merging →
    (s.table pIdx).parents.slots = Parents.none.slots
  sound : ∀ activity ∈ s.running, activity.Sound s
  targets : (s.running.filterMap Activity.target).Nodup

section Running

variable {s' : State} {k : Nat} {activity activity' : Activity}

theorem inFlight_set (here : s.running[k]? = some activity)
    (moved : s'.running = s.running.set k activity') (pIdx child : Nat) :
    s'.inFlight pIdx child + activity.flight pIdx child =
      s.inFlight pIdx child + activity'.flight pIdx child := by
  rw [State.inFlight_eq, State.inFlight_eq, moved]
  exact sum_map_set_add here (Activity.flight pIdx child)

theorem inFlight_set_same {pIdx child : Nat} (here : s.running[k]? = some activity)
    (moved : s'.running = s.running.set k activity')
    (same : activity'.flight pIdx child = activity.flight pIdx child) :
    s'.inFlight pIdx child = s.inFlight pIdx child := by
  have total := inFlight_set here moved pIdx child
  omega

theorem inFlight_append (moved : s'.running = s.running ++ [activity]) (pIdx child : Nat) :
    s'.inFlight pIdx child = s.inFlight pIdx child + activity.flight pIdx child := by
  rw [State.inFlight_eq, State.inFlight_eq, moved]
  simp

theorem inFlight_append_none {pIdx child : Nat} (moved : s'.running = s.running ++ [activity])
    (none : activity.flight pIdx child = 0) : s'.inFlight pIdx child = s.inFlight pIdx child := by
  rw [inFlight_append moved, none, Nat.add_zero]

theorem inFlight_signal {note : Note} {notes more : List Note}
    (here : s.running[k]? = some (.signaling (note :: notes)))
    (moved : s'.running = s.running.set k (.signaling (more ++ notes))) (pIdx child : Nat) :
    s'.inFlight pIdx child + (if note.idx = pIdx ∧ note.child = some child then 1 else 0) =
      s.inFlight pIdx child +
        more.countP fun note => note.idx = pIdx ∧ note.child = some child := by
  have total := inFlight_set here moved pIdx child
  simp only [Activity.flight, List.countP_append, List.countP_cons, decide_eq_true_eq] at total
  omega

theorem inFlight_child (s' : State) {idx status sender : Nat} {notes more : List Note}
    (here : s.running[k]? = some (.signaling (⟨idx, status, some sender⟩ :: notes)))
    (moved : s'.running = s.running.set k (.signaling (more ++ notes))) (pIdx child : Nat) :
    s'.inFlight pIdx child + (if idx = pIdx ∧ sender = child then 1 else 0) =
      s.inFlight pIdx child +
        more.countP fun note => note.idx = pIdx ∧ note.child = some child := by
  have total := inFlight_signal here moved pIdx child
  simpa only [Option.some.injEq] using total

theorem inFlight_leaf {idx status : Nat} {slots : List Nat} {notes : List Note}
    {pIdx child : Nat}
    (here : s.running[k]? = some (.signaling (⟨idx, status, none⟩ :: notes)))
    (moved : s'.running = s.running.set k (.signaling (notesFor idx status slots ++ notes))) :
    s'.inFlight pIdx child =
      s.inFlight pIdx child + if child = idx ∧ pIdx ≠ 0 then slots.count pIdx else 0 := by
  have total := inFlight_signal here moved pIdx child
  rw [countP_notesFor] at total
  simpa using total

theorem inFlight_congr (same : s'.running = s.running) : s'.inFlight = s.inFlight := by
  funext pIdx child
  rw [State.inFlight_eq, State.inFlight_eq, same]

theorem inFlight_pos {note : Note} {notes : List Note} {child : Nat}
    (here : s.running[k]? = some (.signaling (note :: notes))) (sender : note.child = some child) :
    0 < s.inFlight note.idx child := by
  obtain ⟨before, after, split, -⟩ := split_of_getElem? here
  rw [State.inFlight_eq, split]
  simp [Activity.flight, sender]

namespace State.Inv

variable (inv : s.Inv)

include inv

theorem targets_set (here : s.running[k]? = some activity)
    (target : activity'.target = activity.target ∨ activity'.target = none) :
    ((s.running.set k activity').filterMap Activity.target).Nodup :=
  nodup_filterMap_set inv.targets here target

theorem forall_set {P : Activity → Prop} (here : s.running[k]? = some activity)
    (new : P activity') (others : ∀ other ∈ s.running, (∀ pIdx, other.target = some pIdx →
      activity.target ≠ some pIdx) → P other) :
    ∀ other ∈ s.running.set k activity', P other :=
  forall_mem_set inv.targets here new others

theorem sound_set (here : s.running[k]? = some activity) (new : activity'.Sound s')
    (others : ∀ other ∈ s.running, (∀ pIdx, other.target = some pIdx →
      activity.target ≠ some pIdx) → other.Sound s → other.Sound s') :
    ∀ other ∈ s.running.set k activity', other.Sound s' :=
  inv.forall_set here new fun other running distinct =>
    others other running distinct (inv.sound other running)

theorem sound_of_get (here : s.running[k]? = some activity) : activity.Sound s :=
  inv.sound activity (List.mem_of_getElem? here)

theorem ne_zero {pIdx : Nat} (phase : s.history.phase pIdx ≠ .plain) : pIdx ≠ 0 :=
  (inv.phased pIdx phase).1

theorem created_of_active {idx : Nat} (active : (s.table idx).status = SYNX_STATE_ACTIVE) :
    s.Created idx := Decidable.by_contra fun absent => by
  rw [(inv.clean idx absent).status] at active
  cases active

theorem inFlight_plain {pIdx : Nat} (plain : s.history.phase pIdx = .plain) (child : Nat) :
    s.inFlight pIdx child = 0 := by
  rw [State.inFlight_eq]
  refine List.sum_eq_zero fun n member => ?_
  obtain ⟨activity, running, rfl⟩ := List.mem_map.mp member
  cases activity with
  | signaling notes =>
    refine List.countP_eq_zero.mpr fun note held => ?_
    have sound := (inv.sound _ running note held).2
    simp only [decide_eq_true_eq, not_and]
    rintro rfl sender
    rw [sender] at sound
    exact sound plain
  | merging work => rfl
  | undoing idxList pIdx numChild => rfl

end State.Inv

end Running

end VendorModules.Synx
