import Mathlib.Data.List.Nodup
import Mathlib.Logic.Function.Basic
import VendorModules.CamSync.Table

namespace VendorModules.CamSync

open Function SyncTableRow

/-! A merge that fails, with nobody else at work on the table. -/

/-- `struct sync_device`, and which row locks are held. -/
structure SyncDevice where
  bitmap : Nat → Bool
  syncTable : Nat → SyncTableRow
  rowSpinlocks : Nat → Bool

inductive MergeErrno
  | EINVAL
  | ENOMEM
  deriving DecidableEq, Repr

/-- `newRow` is the row that was taken for the group. -/
structure MergeOutcome where
  rc : Except MergeErrno Nat
  dev : SyncDevice
  newRow : Option Nat

/-- The loop of `cam_common_util_remove_duplicate_arr`. -/
def removeDuplicateArr (arr : List Int) : List Int :=
  arr.foldl (fun kept obj => if obj ∈ kept then kept else kept ++ [obj]) []

namespace SyncDevice

variable (dev : SyncDevice)

def idle (bitmap : Nat → Bool) (syncTable : Nat → SyncTableRow) : SyncDevice :=
  ⟨bitmap, syncTable, fun _ => false⟩

def lock (idx : Nat) : SyncDevice :=
  { dev with rowSpinlocks := update dev.rowSpinlocks idx true }

def unlock (idx : Nat) : SyncDevice :=
  { dev with rowSpinlocks := update dev.rowSpinlocks idx false }

def setRow (idx : Nat) (row : SyncTableRow) : SyncDevice :=
  { dev with syncTable := update dev.syncTable idx row }

/-- `cam_sync_check_valid` -/
def checkValid (syncObj : Int) : Option MergeErrno :=
  if (CAM_SYNC_MAX_OBJS : Int) ≤ syncObj ∨ syncObj ≤ 0 then some .EINVAL
  else if dev.bitmap syncObj.toNat = false then some .EINVAL
  else if (dev.syncTable syncObj.toNat).state = .invalid then some .EINVAL
  else none

def findFirstZeroBit : Option Nat :=
  (List.range CAM_SYNC_MAX_OBJS).find? fun idx => !dev.bitmap idx

variable (idx group : Nat) (alloc : Nat → LinkAlloc)

/-- The loop of `cam_sync_init_group_object` from the member `i` on, and the member that it goes to
`clean_children_info` at. -/
def initGroupLoop : List Nat → Nat → SyncDevice → SyncDevice × Option Nat
  | [], _, dev => (dev, none)
  | child :: rest, i, dev =>
    let dev := dev.lock child
    match (dev.syncTable idx).linkChild (dev.syncTable child) (alloc i) child ⟨idx, group⟩ with
    | .failed row => ((dev.setRow idx row).unlock child, some i)
    | .linked row childRow =>
      initGroupLoop rest (i + 1) (((dev.setRow child childRow).setRow idx row).unlock child)

def cleanChildrenInfo (children : List Nat) : SyncDevice :=
  children.foldl (fun dev child =>
    ((dev.lock child).setRow child ((dev.syncTable child).cleanupParentsList idx)).unlock child) dev

/-- `cam_sync_init_group_object`, and whether it succeeds. `cam_sync_init_row` refuses row 0. -/
def initGroupObject (syncObjs : List Nat) : SyncDevice × Bool :=
  let dev := if idx = 0 then dev else dev.setRow idx ((dev.syncTable idx).initRow .group)
  match initGroupLoop idx group alloc syncObjs 0 dev with
  | (dev, none) => (dev.setRow idx (dev.syncTable idx).initGroupEnd, true)
  | (dev, some i) =>
    let dev := dev.setRow idx { dev.syncTable idx with state := .invalid }
    let dev := dev.cleanChildrenInfo idx (syncObjs.take i).reverse
    (dev.setRow idx { dev.syncTable idx with childrenList := [] }, false)

/-- `cam_sync_merge` -/
def merge (syncObjs : List Int) : MergeOutcome :=
  if syncObjs.length ≤ 1 then ⟨.error .EINVAL, dev, none⟩
  else if (removeDuplicateArr syncObjs).length ≠ syncObjs.length then ⟨.error .EINVAL, dev, none⟩
  else
    match syncObjs.findSome? dev.checkValid with
    | some rc => ⟨.error rc, dev, none⟩
    | none =>
      match dev.findFirstZeroBit with
      | none => ⟨.error .ENOMEM, dev, none⟩
      | some idx =>
        let dev := { dev with bitmap := update dev.bitmap idx true }.lock idx
        match dev.initGroupObject idx group alloc (syncObjs.map Int.toNat) with
        | (dev, true) => ⟨.ok idx, dev.unlock idx, some idx⟩
        | (dev, false) =>
          -- the lock of the row stays
          ⟨.error .EINVAL, { dev with bitmap := update dev.bitmap idx false }, some idx⟩

end SyncDevice

/-- Nothing is left of a merge of `syncObjs`. -/
structure MergeOutcome.Undone (outcome : MergeOutcome) (before : SyncDevice)
    (syncObjs : List Int) : Prop where
  unlinked : ∀ idx ∈ outcome.newRow, ∀ obj ∈ syncObjs,
    ∀ parent ∈ (outcome.dev.syncTable obj.toNat).parentsList, parent.syncId ≠ idx
  freed : ∀ idx ∈ outcome.newRow,
    outcome.dev.bitmap idx = false ∧ (outcome.dev.syncTable idx).state = .invalid
  unlocked : ∀ i, outcome.dev.rowSpinlocks i = false
  others : ∀ i ∉ outcome.newRow, outcome.dev.syncTable i = before.syncTable i ∧
    outcome.dev.bitmap i = before.bitmap i

def FailureUndone (dev : SyncDevice) (group : Nat) (alloc : Nat → LinkAlloc)
    (syncObjs : List Int) : Prop :=
  ∀ rc, (dev.merge group alloc syncObjs).rc = .error rc →
    (dev.merge group alloc syncObjs).Undone dev syncObjs

def SyncTableRow.Spoils (row : SyncTableRow) (alloc : LinkAlloc) : Prop :=
  row.type = .group ∨
    row.state = .active ∧ (alloc.childInfo = false ∨ alloc.parentInfo = false)

/-- The checks of `cam_sync_merge` let the members through, there is a free row, and a member
cannot be linked to it. -/
structure BuilderFails (dev : SyncDevice) (alloc : Nat → LinkAlloc) (syncObjs : List Int) :
    Prop where
  several : 1 < syncObjs.length
  nodup : syncObjs.Nodup
  valid : ∀ obj ∈ syncObjs, dev.checkValid obj = none
  room : ∃ idx < CAM_SYNC_MAX_OBJS, dev.bitmap idx = false
  spoiled : ∃ i obj, syncObjs[i]? = some obj ∧
    (dev.syncTable obj.toNat).Spoils (alloc i)

/-! ### One member -/

section Member

variable {row row' child child' : SyncTableRow} {alloc : LinkAlloc} {childIdx : Nat}
  {parent : SyncParentInfo}

theorem linkChild_cases (row child : SyncTableRow) (alloc : LinkAlloc) (childIdx : Nat)
    (parent : SyncParentInfo) (there : child.state ≠ .invalid) :
    (child.Spoils alloc ∧ ∃ row', linkChild row child alloc childIdx parent = .failed row') ∨
      (¬child.Spoils alloc ∧ ∃ row', linkChild row child alloc childIdx parent =
        .linked row' (if child.state = .active then
          { child with parentsList := child.parentsList ++ [parent] } else child)) := by
  unfold linkChild SyncTableRow.Spoils
  by_cases group : child.type = .group
  · exact .inl ⟨.inl group, row, if_pos (.inl group)⟩
  rw [if_neg (not_or.2 ⟨group, there⟩)]
  by_cases active : child.state = .active
  · rw [if_neg (by rw [active]; decide), if_neg (not_not.2 active), if_pos active]
    obtain ⟨childInfo, parentInfo⟩ := alloc
    cases childInfo with
    | false => exact .inl ⟨.inr ⟨active, .inl rfl⟩, _, rfl⟩
    | true =>
      cases parentInfo with
      | false => exact .inl ⟨.inr ⟨active, .inr rfl⟩, _, rfl⟩
      | true =>
        refine .inr ⟨?_, _, rfl⟩
        rintro (same | ⟨-, failed | failed⟩)
        · exact group same
        · cases failed
        · cases failed
  · have kept : ¬(child.type = .group ∨ child.state = .active ∧
        (alloc.childInfo = false ∨ alloc.parentInfo = false)) := by
      rintro (same | ⟨same, -⟩)
      · exact group same
      · exact active same
    rw [if_pos active, if_neg active]
    split
    · exact .inr ⟨kept, _, rfl⟩
    · exact .inr ⟨kept, _, rfl⟩

end Member

/-! ### The loop over the members -/

namespace SyncDevice

variable {dev : SyncDevice} {idx group : Nat} {alloc : Nat → LinkAlloc}

def linkedRow (idx group : Nat) (row : SyncTableRow) : SyncTableRow :=
  if row.state = .active then { row with parentsList := row.parentsList ++ [⟨idx, group⟩] }
  else row

theorem cleanupParentsList_linkedRow {row : SyncTableRow}
    (fresh : ∀ parent ∈ row.parentsList, parent.syncId ≠ idx) :
    (linkedRow idx group row).cleanupParentsList idx = row := by
  have none : ∀ parent ∈ row.parentsList, ¬decide (parent.syncId = idx) = true :=
    fun parent mem => by simpa using fresh parent mem
  unfold linkedRow cleanupParentsList
  split
  · dsimp only
    rw [List.eraseP_append_right _ none, List.eraseP_cons_of_pos (by simp), List.append_nil]
  · rw [List.eraseP_of_forall_not none]

/-- The loop ends at the first member that cannot be linked; those before have been linked, and
the locks are as they were. -/
theorem initGroupLoop_spec (children : List Nat) (i : Nat) (dev : SyncDevice)
    (apart : idx ∉ children) (nodup : children.Nodup)
    (there : ∀ child ∈ children, (dev.syncTable child).state ≠ .invalid)
    (unlocked : ∀ child ∈ children, dev.rowSpinlocks child = false) :
    ∃ dev' end?, initGroupLoop idx group alloc children i dev = (dev', end?) ∧
      dev'.bitmap = dev.bitmap ∧ dev'.rowSpinlocks = dev.rowSpinlocks ∧
      (end? = none ↔ ∀ k child, children[k]? = some child →
        ¬(dev.syncTable child).Spoils (alloc (i + k))) ∧
      ∀ n, end? = some n → i ≤ n ∧ ∀ j, j ≠ idx → dev'.syncTable j =
        if j ∈ children.take (n - i) then linkedRow idx group (dev.syncTable j)
        else dev.syncTable j := by
  induction children generalizing i dev with
  | nil =>
    refine ⟨dev, none, rfl, rfl, rfl, iff_of_true rfl ?_, fun n ended => nomatch ended⟩
    intro k child here
    cases here
  | cons child children ih =>
    have other : child ≠ idx := fun same => apart (same ▸ List.mem_cons_self)
    have locks : update (update dev.rowSpinlocks child true) child false = dev.rowSpinlocks := by
      rw [update_idem, ← unlocked child List.mem_cons_self, update_eq_self]
    unfold initGroupLoop
    dsimp only
    rcases linkChild_cases (dev.syncTable idx) (dev.syncTable child) (alloc i) child ⟨idx, group⟩
      (there child List.mem_cons_self) with ⟨spoils, row, failed⟩ | ⟨fine, row, linked⟩
    · have here : linkChild ((dev.lock child).syncTable idx) ((dev.lock child).syncTable child)
          (alloc i) child ⟨idx, group⟩ = .failed row := failed
      rw [here]
      refine ⟨_, _, rfl, rfl, locks, iff_of_false (fun ended => nomatch ended) fun fine => ?_,
        fun n ended => ?_⟩
      · exact fine 0 child rfl spoils
      · cases ended
        refine ⟨Nat.le_refl _, fun j different => ?_⟩
        rw [Nat.sub_self, List.take_zero, if_neg List.not_mem_nil]
        exact update_of_ne different _ _
    · have here : linkChild ((dev.lock child).syncTable idx) ((dev.lock child).syncTable child)
          (alloc i) child ⟨idx, group⟩ = .linked row (linkedRow idx group (dev.syncTable child)) :=
        linked
      rw [here]
      dsimp only
      generalize next : (((dev.lock child).setRow child
        (linkedRow idx group (dev.syncTable child))).setRow idx row).unlock child = dev₁
      have table : ∀ j, j ≠ idx → dev₁.syncTable j =
          if j = child then linkedRow idx group (dev.syncTable child) else dev.syncTable j := by
        intro j different
        rw [← next]
        refine (update_of_ne different _ _).trans ?_
        exact update_apply _ _ _ _
      have rest : ∀ c ∈ children, dev₁.syncTable c = dev.syncTable c := by
        intro c mem
        have apart' : c ≠ idx := fun same => apart (List.mem_cons_of_mem _ (same ▸ mem))
        have new : c ≠ child := fun same => (List.nodup_cons.1 nodup).1 (same ▸ mem)
        rw [table c apart', if_neg new]
      have locks₁ : dev₁.rowSpinlocks = dev.rowSpinlocks := by
        rw [← next]
        exact locks
      obtain ⟨dev', end?, loop, bitmap, held, none_iff, ended⟩ := ih (i + 1) dev₁
        (fun mem => apart (List.mem_cons_of_mem _ mem)) (List.nodup_cons.1 nodup).2
        (fun c mem => rest c mem ▸ there c (List.mem_cons_of_mem _ mem))
        (fun c mem => locks₁ ▸ unlocked c (List.mem_cons_of_mem _ mem))
      refine ⟨dev', end?, loop, ?_, held.trans locks₁, none_iff.trans ?_, fun n found => ?_⟩
      · rw [bitmap, ← next]
        rfl
      · constructor
        · intro all k c here
          cases k with
          | zero =>
            cases here
            exact fine
          | succ k =>
            have later := all k c here
            rw [rest c (List.mem_of_getElem? here)] at later
            rwa [Nat.add_right_comm] at later
        · intro all k c here
          have later := all (k + 1) c here
          rw [rest c (List.mem_of_getElem? here), Nat.add_right_comm]
          exact later
      · obtain ⟨behind, rows⟩ := ended n found
        refine ⟨by omega, fun j different => ?_⟩
        have step : n - i = (n - (i + 1)) + 1 := by omega
        rw [rows j different, step, List.take_succ_cons, table j different]
        by_cases same : j = child
        · have fresh : j ∉ children.take (n - (i + 1)) := fun mem =>
            (List.nodup_cons.1 nodup).1 (same ▸ List.mem_of_mem_take mem)
          rw [if_neg fresh, if_pos same, if_pos (same ▸ List.mem_cons_self), same]
        · rw [if_neg same]
          simp only [List.mem_cons, same, false_or]

theorem cleanChildrenInfo_spec (children : List Nat) (dev : SyncDevice) (nodup : children.Nodup)
    (unlocked : ∀ child ∈ children, dev.rowSpinlocks child = false) :
    (dev.cleanChildrenInfo idx children).bitmap = dev.bitmap ∧
      (dev.cleanChildrenInfo idx children).rowSpinlocks = dev.rowSpinlocks ∧
      ∀ j, (dev.cleanChildrenInfo idx children).syncTable j =
        if j ∈ children then (dev.syncTable j).cleanupParentsList idx else dev.syncTable j := by
  induction children generalizing dev with
  | nil => exact ⟨rfl, rfl, fun j => rfl⟩
  | cons child children ih =>
    have locks : update (update dev.rowSpinlocks child true) child false = dev.rowSpinlocks := by
      rw [update_idem, ← unlocked child List.mem_cons_self, update_eq_self]
    obtain ⟨fresh, nodup'⟩ := List.nodup_cons.1 nodup
    obtain ⟨bitmap, held, rows⟩ := ih (((dev.lock child).setRow child
        ((dev.syncTable child).cleanupParentsList idx)).unlock child) nodup' fun c mem => by
      refine (congrFun locks c).trans ?_
      exact unlocked c (List.mem_cons_of_mem _ mem)
    refine ⟨bitmap, held.trans locks, fun j => (rows j).trans ?_⟩
    have table : (((dev.lock child).setRow child
        ((dev.syncTable child).cleanupParentsList idx)).unlock child).syncTable j =
          if j = child then (dev.syncTable child).cleanupParentsList idx
          else dev.syncTable j :=
      update_apply _ _ _ _
    rw [table]
    by_cases same : j = child
    · subst same
      rw [if_pos rfl, if_neg fresh, if_pos List.mem_cons_self]
    · rw [if_neg same]
      simp only [List.mem_cons, same, false_or]

theorem initGroupObject_spec (children : List Nat) (dev : SyncDevice)
    (apart : idx ∉ children) (nodup : children.Nodup)
    (there : ∀ child ∈ children, (dev.syncTable child).state ≠ .invalid)
    (unlocked : ∀ child ∈ children, dev.rowSpinlocks child = false) :
    ∃ dev' ok, dev.initGroupObject idx group alloc children = (dev', ok) ∧
      dev'.bitmap = dev.bitmap ∧ dev'.rowSpinlocks = dev.rowSpinlocks ∧
      (ok = true ↔ ∀ k child, children[k]? = some child →
        ¬(dev.syncTable child).Spoils (alloc k)) ∧
      (ok = false → (dev'.syncTable idx).state = .invalid ∧
        ∃ n, ∀ j, j ≠ idx → dev'.syncTable j =
          if j ∈ children.take n then
            (linkedRow idx group (dev.syncTable j)).cleanupParentsList idx
          else dev.syncTable j) := by
  unfold initGroupObject
  dsimp only
  generalize begun : (if idx = 0 then dev
    else dev.setRow idx ((dev.syncTable idx).initRow .group)) = dev₁
  have table : ∀ j, j ≠ idx → dev₁.syncTable j = dev.syncTable j := by
    intro j different
    rw [← begun]
    split
    · rfl
    · exact update_of_ne different _ _
  have rest : ∀ c ∈ children, dev₁.syncTable c = dev.syncTable c :=
    fun c mem => table c fun same => apart (same ▸ mem)
  have bitmap₁ : dev₁.bitmap = dev.bitmap := by
    rw [← begun]
    split <;> rfl
  have locks₁ : dev₁.rowSpinlocks = dev.rowSpinlocks := by
    rw [← begun]
    split <;> rfl
  obtain ⟨dev₂, end?, loop, bitmap₂, locks₂, none_iff, ended⟩ := @initGroupLoop_spec idx group alloc
    children 0 dev₁ apart nodup (fun c mem => rest c mem ▸ there c mem)
    (fun c mem => locks₁ ▸ unlocked c mem)
  rw [loop]
  have fine : end? = none ↔ ∀ k child, children[k]? = some child →
      ¬(dev.syncTable child).Spoils (alloc k) := by
    rw [none_iff]
    constructor
    · intro all k c here
      have later := all k c here
      rwa [rest c (List.mem_of_getElem? here), Nat.zero_add] at later
    · intro all k c here
      rw [rest c (List.mem_of_getElem? here), Nat.zero_add]
      exact all k c here
  cases end? with
  | none =>
    exact ⟨_, true, rfl, bitmap₂.trans bitmap₁, locks₂.trans locks₁,
      iff_of_true rfl (fine.1 rfl), fun failed => nomatch failed⟩
  | some n =>
    obtain ⟨-, rows⟩ := ended n rfl
    rw [Nat.sub_zero] at rows
    have member : ∀ c, c ∈ (children.take n).reverse → c ∈ children :=
      fun c mem => List.mem_of_mem_take (List.mem_reverse.1 mem)
    obtain ⟨bitmap₃, locks₃, cleaned⟩ := @cleanChildrenInfo_spec idx (children.take n).reverse
      (dev₂.setRow idx { dev₂.syncTable idx with state := .invalid })
      (List.nodup_reverse.2 (nodup.sublist (List.take_sublist n children))) fun c mem =>
        (congrFun (locks₂.trans locks₁) c).trans (unlocked c (member c mem))
    refine ⟨_, false, rfl, bitmap₃.trans (bitmap₂.trans bitmap₁),
      locks₃.trans (locks₂.trans locks₁),
      iff_of_false (fun ok => nomatch ok) fun all => (nomatch fine.2 all), fun _ => ⟨?_, n, ?_⟩⟩
    · have own : idx ∉ (children.take n).reverse := fun mem => apart (member idx mem)
      simp only [setRow, update_self]
      have kept := cleaned idx
      rw [if_neg own] at kept
      simp only [setRow, update_self] at kept
      rw [kept]
    · intro j different
      refine (update_of_ne different _ _).trans ((cleaned j).trans ?_)
      have before : (dev₂.setRow idx { dev₂.syncTable idx with state := .invalid }).syncTable j =
          dev₂.syncTable j := update_of_ne different _ _
      rw [before, rows j different, table j different]
      by_cases linked : j ∈ children.take n
      · rw [if_pos (List.mem_reverse.2 linked), if_pos linked, if_pos linked]
      · rw [if_neg (fun mem => linked (List.mem_reverse.1 mem)), if_neg linked, if_neg linked]

/-! ### The checks before -/

theorem length_foldl_kept_le (arr kept : List Int) :
    (arr.foldl (fun kept obj => if obj ∈ kept then kept else kept ++ [obj]) kept).length ≤
      kept.length + arr.length := by
  induction arr generalizing kept with
  | nil => exact Nat.le_refl _
  | cons obj arr ih =>
    rw [List.foldl_cons, List.length_cons]
    by_cases old : obj ∈ kept
    · rw [if_pos old]
      exact Nat.le_trans (ih kept) (by omega)
    · have rest := ih (kept ++ [obj])
      rw [List.length_append, List.length_singleton] at rest
      rw [if_neg old]
      omega

theorem nodup_of_length_foldl {arr kept : List Int}
    (length : (arr.foldl (fun kept obj => if obj ∈ kept then kept else kept ++ [obj])
      kept).length = kept.length + arr.length) :
    arr.Nodup ∧ ∀ obj ∈ arr, obj ∉ kept := by
  induction arr generalizing kept with
  | nil => exact ⟨List.nodup_nil, fun obj mem => nomatch mem⟩
  | cons obj arr ih =>
    rw [List.foldl_cons, List.length_cons] at length
    by_cases old : obj ∈ kept
    · have short := length_foldl_kept_le arr kept
      rw [if_pos old] at length
      omega
    · rw [if_neg old] at length
      obtain ⟨nodup, new⟩ := ih (length.trans (by
        rw [List.length_append, List.length_singleton]
        omega))
      refine ⟨List.nodup_cons.2 ⟨fun mem => new obj mem ?_, nodup⟩, fun other mem => ?_⟩
      · exact List.mem_append_right _ (List.mem_singleton_self obj)
      · rcases List.mem_cons.1 mem with rfl | mem
        · exact old
        · exact fun here => new other mem (List.mem_append_left _ here)

theorem foldl_kept_of_nodup {arr kept : List Int} (nodup : arr.Nodup)
    (new : ∀ obj ∈ arr, obj ∉ kept) :
    arr.foldl (fun kept obj => if obj ∈ kept then kept else kept ++ [obj]) kept =
      kept ++ arr := by
  induction arr generalizing kept with
  | nil => exact (List.append_nil kept).symm
  | cons obj arr ih =>
    obtain ⟨fresh, nodup'⟩ := List.nodup_cons.1 nodup
    rw [List.foldl_cons, if_neg (new obj List.mem_cons_self), ih nodup', List.append_assoc,
      List.singleton_append]
    intro other mem here
    rcases List.mem_append.1 here with old | same
    · exact new other (List.mem_cons_of_mem _ mem) old
    · exact fresh (List.mem_singleton.1 same ▸ mem)

theorem length_removeDuplicateArr_iff (arr : List Int) :
    (removeDuplicateArr arr).length = arr.length ↔ arr.Nodup := by
  constructor
  · intro length
    exact (nodup_of_length_foldl (length.trans (Nat.zero_add _).symm)).1
  · intro nodup
    rw [removeDuplicateArr, foldl_kept_of_nodup nodup fun _ _ => List.not_mem_nil,
      List.nil_append]

variable {syncObjs : List Int}

theorem checkValid_eq_none {syncObj : Int} (valid : dev.checkValid syncObj = none) :
    0 < syncObj ∧ dev.bitmap syncObj.toNat = true ∧
      (dev.syncTable syncObj.toNat).state ≠ .invalid := by
  unfold checkValid at valid
  split_ifs at valid with range bit state
  exact ⟨by omega, eq_true_of_ne_false bit, state⟩

theorem findFirstZeroBit_eq_none_iff :
    dev.findFirstZeroBit = none ↔ ¬∃ idx < CAM_SYNC_MAX_OBJS, dev.bitmap idx = false := by
  rw [findFirstZeroBit, List.find?_eq_none]
  constructor
  · rintro all ⟨idx, inside, free⟩
    have set := all idx (List.mem_range.2 inside)
    simp [free] at set
  · intro full idx mem
    simp only [Bool.not_eq_true', Bool.not_eq_false]
    exact eq_true_of_ne_false fun free => full ⟨idx, List.mem_range.1 mem, free⟩

theorem bitmap_of_findFirstZeroBit (found : dev.findFirstZeroBit = some idx) :
    dev.bitmap idx = false := by
  have free := List.find?_some found
  simpa using free

theorem nodup_rows (nodup : syncObjs.Nodup)
    (valid : ∀ obj ∈ syncObjs, dev.checkValid obj = none) :
    (syncObjs.map Int.toNat).Nodup := by
  refine List.Nodup.map_on (fun x here y there same => ?_) nodup
  have first := (checkValid_eq_none (valid x here)).1
  have second := (checkValid_eq_none (valid y there)).1
  omega

theorem merge_cases (free : ∀ i, dev.rowSpinlocks i = false) :
    (∃ rc, dev.merge group alloc syncObjs = ⟨.error rc, dev, none⟩ ∧
        ¬BuilderFails dev alloc syncObjs) ∨
      ∃ idx dev', dev.bitmap idx = false ∧
        ((∃ rc, dev.merge group alloc syncObjs = ⟨.ok rc, dev', some idx⟩ ∧
            ¬BuilderFails dev alloc syncObjs) ∨
          dev.merge group alloc syncObjs = ⟨.error .EINVAL, dev', some idx⟩ ∧
            BuilderFails dev alloc syncObjs ∧ dev'.bitmap = dev.bitmap ∧
            (dev'.syncTable idx).state = .invalid ∧
            (∀ i, dev'.rowSpinlocks i = decide (i = idx)) ∧
            ∃ n, ∀ j, j ≠ idx → dev'.syncTable j =
              if j ∈ (syncObjs.map Int.toNat).take n then
                (linkedRow idx group (dev.syncTable j)).cleanupParentsList idx
              else dev.syncTable j) := by
  unfold merge
  by_cases several : syncObjs.length ≤ 1
  · refine .inl ⟨_, if_pos several, fun fails => ?_⟩
    exact Nat.not_le.2 fails.several several
  rw [if_neg several]
  by_cases nodup : syncObjs.Nodup
  swap
  · refine .inl ⟨_, if_pos fun same => nodup ?_, fun fails => nodup fails.nodup⟩
    exact (length_removeDuplicateArr_iff syncObjs).1 same
  rw [if_neg (not_not.2 ((length_removeDuplicateArr_iff syncObjs).2 nodup))]
  cases checked : syncObjs.findSome? dev.checkValid with
  | some rc =>
    refine .inl ⟨rc, rfl, fun fails => ?_⟩
    rw [List.findSome?_eq_none_iff.2 fails.valid] at checked
    cases checked
  | none =>
    have valid := List.findSome?_eq_none_iff.1 checked
    cases found : dev.findFirstZeroBit with
    | none =>
      exact .inl ⟨_, rfl, fun fails => findFirstZeroBit_eq_none_iff.1 found fails.room⟩
    | some idx =>
      have zero := bitmap_of_findFirstZeroBit found
      refine .inr ⟨idx, ?_⟩
      have apart : idx ∉ syncObjs.map Int.toNat := by
        intro mem
        obtain ⟨obj, here, rfl⟩ := List.mem_map.1 mem
        have set := (checkValid_eq_none (valid obj here)).2.1
        rw [zero] at set
        cases set
      obtain ⟨dev', ok, built, bitmap, locks, fine, failed⟩ := @initGroupObject_spec idx group
        alloc (syncObjs.map Int.toNat)
        ({ dev with bitmap := update dev.bitmap idx true }.lock idx) apart
        (nodup_rows nodup valid)
        (fun child mem => by
          obtain ⟨obj, here, rfl⟩ := List.mem_map.1 mem
          exact (checkValid_eq_none (valid obj here)).2.2)
        (fun child mem => by
          have other : child ≠ idx := fun same => apart (same ▸ mem)
          exact (update_of_ne other _ _).trans (free child))
      have spoiled : ok = true ↔ ¬∃ i obj, syncObjs[i]? = some obj ∧
          (dev.syncTable obj.toNat).Spoils (alloc i) := by
        rw [fine]
        constructor
        · rintro all ⟨i, obj, here, spoils⟩
          exact all i obj.toNat (by rw [List.getElem?_map, here]; rfl) spoils
        · intro none i child here spoils
          rw [List.getElem?_map, Option.map_eq_some_iff] at here
          obtain ⟨obj, here, rfl⟩ := here
          exact none ⟨i, obj, here, spoils⟩
      simp only [built]
      cases ok with
      | true =>
        exact ⟨_, zero, .inl ⟨idx, rfl, fun fails => spoiled.1 rfl fails.spoiled⟩⟩
      | false =>
        obtain ⟨state, n, rows⟩ := failed rfl
        have room : ∃ i < CAM_SYNC_MAX_OBJS, dev.bitmap i = false := by
          by_contra full
          rw [findFirstZeroBit_eq_none_iff.2 full] at found
          cases found
        refine ⟨_, zero, .inr ⟨rfl, ⟨Nat.not_le.1 several, nodup, valid, room, ?_⟩, ?_,
          state, fun i => ?_, n, rows⟩⟩
        · by_contra none
          exact nomatch spoiled.2 none
        · refine (congrArg (update · idx false) bitmap).trans ?_
          refine (update_idem _ _ _).trans ?_
          rw [← zero, update_eq_self]
        · refine (congrFun locks i).trans ?_
          refine (update_apply _ _ _ _).trans ?_
          split
          · rename_i same
            exact (decide_eq_true same).symm
          · rename_i different
            exact (free i).trans (decide_eq_false different).symm

end SyncDevice

open SyncDevice

variable {bitmap : Nat → Bool} {syncTable : Nat → SyncTableRow} {group : Nat}
  {alloc : Nat → LinkAlloc} {syncObjs : List Int}

/-- A merge that fails is undone exactly if it does not fail while the group is built: there the
lock of the new row stays. -/
theorem failureUndone_iff (bitmap : Nat → Bool) (syncTable : Nat → SyncTableRow) (group : Nat)
    (alloc : Nat → LinkAlloc) (syncObjs : List Int) :
    FailureUndone (idle bitmap syncTable) group alloc syncObjs ↔
      ¬BuilderFails (idle bitmap syncTable) alloc syncObjs := by
  rcases @merge_cases (idle bitmap syncTable) group alloc syncObjs fun i => rfl with
    ⟨rc, refused, fine⟩ | ⟨idx, dev', free, ⟨rc, merged, fine⟩ | ⟨failed, fails, -, -, locks, -⟩⟩
  · refine iff_of_true (fun rc _ => ?_) fine
    rw [refused]
    exact ⟨fun idx none => (nomatch none), fun idx none => (nomatch none), fun i => rfl,
      fun i _ => ⟨rfl, rfl⟩⟩
  · refine iff_of_true (fun rc failed => ?_) fine
    rw [merged] at failed
    cases failed
  · refine iff_of_false (fun undone => ?_) (not_not.2 fails)
    have unlocked := (undone .EINVAL (by rw [failed])).unlocked idx
    rw [failed] at unlocked
    rw [locks idx, decide_eq_true rfl] at unlocked
    cases unlocked

theorem undone_but_for_lock (fails : BuilderFails (idle bitmap syncTable) alloc syncObjs)
    (fresh : ∀ i, bitmap i = false → ∀ obj ∈ syncObjs,
      ∀ parent ∈ (syncTable obj.toNat).parentsList, parent.syncId ≠ i) :
    ∃ idx dev', (idle bitmap syncTable).merge group alloc syncObjs =
        ⟨.error .EINVAL, dev', some idx⟩ ∧
      MergeOutcome.Undone ⟨.error .EINVAL, dev'.unlock idx, some idx⟩ (idle bitmap syncTable)
        syncObjs := by
  rcases @merge_cases (idle bitmap syncTable) group alloc syncObjs fun i => rfl with
    ⟨rc, -, fine⟩ | ⟨idx, dev', free, ⟨rc, -, fine⟩ | ⟨failed, -, bits, state, locks, n, rows⟩⟩
  · exact absurd fails fine
  · exact absurd fails fine
  · have same : ∀ j, j ≠ idx → dev'.syncTable j = syncTable j := by
      intro j different
      rw [rows j different]
      split
      · rename_i linked
        obtain ⟨obj, mem, rfl⟩ := List.mem_map.1 (List.mem_of_mem_take linked)
        exact cleanupParentsList_linkedRow (fresh idx free obj mem)
      · rfl
    refine ⟨idx, dev', failed, fun i new obj mem parent here => ?_, fun i new => ?_, fun i => ?_,
      fun i other => ?_⟩
    · cases new
      have apart : obj.toNat ≠ idx := by
        intro same
        have set := (checkValid_eq_none (fails.valid obj mem)).2.1
        rw [same, free] at set
        cases set
      have kept : parent ∈ (syncTable obj.toNat).parentsList := same obj.toNat apart ▸ here
      exact fresh idx free obj mem parent kept
    · cases new
      exact ⟨(congrFun bits idx).trans free, state⟩
    · refine (update_apply _ _ _ _).trans ?_
      split
      · rfl
      · rename_i different
        exact (locks i).trans (decide_eq_false different)
    · have different : i ≠ idx := fun same => other (congrArg some same.symm)
      exact ⟨same i different, congrFun bits i⟩

def groupMember : SyncDevice :=
  idle (fun idx => idx < 3)
    fun idx => { SyncTableRow.zero with
      type := if idx = 2 then .group else .indv
      state := if idx = 0 then .invalid else .active }

theorem groupMember_not_undone :
    ¬FailureUndone groupMember 0 (fun _ => ⟨true, true⟩) [1, 2] := by
  intro undone
  have failed : (groupMember.merge 0 (fun _ => ⟨true, true⟩) [1, 2]).rc = .error .EINVAL := by
    decide +kernel
  have unlocked := (undone .EINVAL failed).unlocked 3
  have held : (groupMember.merge 0 (fun _ => ⟨true, true⟩) [1, 2]).dev.rowSpinlocks 3 = true := by
    decide +kernel
  rw [held] at unlocked
  cases unlocked

end VendorModules.CamSync
