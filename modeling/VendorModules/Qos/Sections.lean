import VendorModules.Qos.Linked

namespace VendorModules.Qos

variable {dev : Device} {qos qos' : QosInfo} {flows : List FlowMap} {p : Nat} {itm : FlowMap}

abbrev QosInfo.setBearer (qos : QosInfo) (p : Nat) (bearer : Bearer) : QosInfo :=
  { qos with bearers := Function.update qos.bearers p (some bearer) }

abbrev Bearer.less (bearer : Bearer) : Bearer := { bearer with flowRef := bearer.flowRef - 1 }

abbrev Bearer.more (bearer : Bearer) : Bearer := { bearer with flowRef := bearer.flowRef + 1 }

theorem modify_some {change : Bearer → Bearer} (changed : qos.modify p change = some qos') :
    ∃ bearer, qos.bearers p = some bearer ∧
      qos' = qos.setBearer p (change bearer) := by
  obtain ⟨bearer, found, changed⟩ := Option.bind_eq_some_iff.mp changed
  exact ⟨bearer, found, (Option.some.inj changed).symm⟩

/-! ### A bearer is put -/

theorem flowControl_eq (dev : Device) (qos : QosInfo) (mqIdx : Nat) (enable : Bool) :
    ∃ running, qos.flowControl dev mqIdx enable = { qos with running } := by
  unfold QosInfo.flowControl
  split
  · exact ⟨qos.running, rfl⟩
  · exact ⟨_, rfl⟩

theorem releaseMq_eq (dev : Device) (qos : QosInfo) (p : Nat) (reset : Bool) (i : Nat) :
    ∃ mq running, QosInfo.releaseMq dev p reset qos i = { qos with mq, running } ∧
      ∀ j, (mq j).bearer = if j = i ∧ (qos.mq j).bearer = some p then none
        else (qos.mq j).bearer := by
  unfold QosInfo.releaseMq
  split
  · rename_i other
    refine ⟨qos.mq, qos.running, rfl, fun j => (if_neg ?_).symm⟩
    rintro ⟨rfl, his⟩
    exact other his
  · rename_i his
    rw [not_not] at his
    dsimp only
    obtain ⟨running, first⟩ := flowControl_eq dev { qos with
      mq := Function.update qos.mq i { bearer := none, isLlCh := false, dropOnRemove := reset } }
      i true
    obtain ⟨running', second⟩ := flowControl_eq dev { qos with
      mq := Function.update qos.mq i { bearer := none, isLlCh := false, dropOnRemove := reset }
      running } (i + ackMqOffset) true
    refine ⟨Function.update qos.mq i { bearer := none, isLlCh := false, dropOnRemove := reset },
      if dev.sa then running' else running, ?_, fun j => ?_⟩
    · rw [first, second]
      split <;> rfl
    · by_cases same : j = i
      · subst same
        simp [his]
      · simp [same]

theorem running_flowControl (dev : Device) (qos : QosInfo) (mqIdx : Nat) (enable : Bool) (i : Nat) :
    (qos.flowControl dev mqIdx enable).running i =
      if i < dev.numTxQueues ∧ i = mqIdx then enable else qos.running i := by
  unfold QosInfo.flowControl
  split
  · rename_i beyond
    rw [if_neg]
    rintro ⟨inside, rfl⟩
    omega
  · rename_i inside
    by_cases same : i = mqIdx
    · subst same
      simp [Nat.lt_of_not_le inside]
    · simp [same]

theorem running_releaseMq (reset : Bool) (i : Nat) (real : (qos.mq i).bearer = some p →
    dev.sa = true → i ≠ defaultMqNum) {j : Nat} (inside : j < maxMqNum)
    (other : (qos.mq j).bearer ≠ some p) :
    (QosInfo.releaseMq dev p reset qos i).running j = qos.running j := by
  unfold QosInfo.releaseMq
  split
  · rfl
  · rename_i his
    rw [not_not] at his
    have differs : j ≠ i := by
      rintro rfl
      exact other his
    dsimp only
    split
    · rename_i sa
      have beyond : j ≠ i + ackMqOffset := by
        have := real his sa
        unfold ackMqOffset maxMqNum defaultMqNum at *
        omega
      simp only [running_flowControl, beyond, differs, and_false, if_false]
    · simp only [running_flowControl, differs, and_false, if_false]

theorem running_foldl_releaseMq (dev : Device) (qos : QosInfo) (p : Nat) (reset : Bool) (queues : List Nat)
    (real : ∀ i ∈ queues, (qos.mq i).bearer = some p → dev.sa = true → i ≠ defaultMqNum) {j : Nat}
    (inside : j < maxMqNum) (other : (qos.mq j).bearer ≠ some p) :
    (queues.foldl (QosInfo.releaseMq dev p reset) qos).running j = qos.running j := by
  induction queues generalizing qos with
  | nil => rfl
  | cons i rest ih =>
    obtain ⟨mq, running, first, freed⟩ := releaseMq_eq dev qos p reset i
    have still (k : Nat) (his : ((QosInfo.releaseMq dev p reset qos i).mq k).bearer = some p) :
        (qos.mq k).bearer = some p := by
      rw [first] at his
      dsimp only at his
      rw [freed k] at his
      split at his
      · cases his
      · exact his
    have head := running_releaseMq reset i (real i List.mem_cons_self) inside other
    rw [List.foldl_cons, ih]
    · exact head
    · intro k member his
      exact real k (List.mem_cons_of_mem _ member) (still k his)
    · exact fun his => other (still j his)

theorem foldl_releaseMq_eq (dev : Device) (qos : QosInfo) (p : Nat) (reset : Bool) (queues : List Nat) :
    ∃ mq running, queues.foldl (QosInfo.releaseMq dev p reset) qos = { qos with mq, running } ∧
      ∀ j, (mq j).bearer = if j ∈ queues ∧ (qos.mq j).bearer = some p then none
        else (qos.mq j).bearer := by
  induction queues generalizing qos with
  | nil => exact ⟨qos.mq, qos.running, rfl, fun j => by simp⟩
  | cons i rest ih =>
    obtain ⟨mq, running, first, freed⟩ := releaseMq_eq dev qos p reset i
    obtain ⟨mq', running', second, freed'⟩ := @ih { qos with mq, running }
    refine ⟨mq', running', ?_, fun j => ?_⟩
    · rw [List.foldl_cons, first, second]
    · rw [freed' j]
      dsimp only
      rw [freed j]
      by_cases here : j = i
      · by_cases his : (qos.mq j).bearer = some p <;> simp [here, his]
      · simp [here]

/-- What putting a bearer comes to: one reference less, or the bearer is taken off the list and
all its queues are released. -/
inductive Put (dev : Device) (qos : QosInfo) (p : Nat) (bearer : Bearer) (qos' : QosInfo) : Prop
  | kept (referenced : bearer.flowRef - 1 ≠ 0)
      (after : qos' = qos.setBearer p bearer.less)
  | removed (last : bearer.flowRef - 1 = 0) (mq : Nat → MqMap) (running : Nat → Bool)
      (released : ∀ j, (mq j).bearer = if j < maxMqNum ∧ (qos.mq j).bearer = some p then none
        else (qos.mq j).bearer)
      (undisturbed : (∀ i < maxMqNum, (qos.mq i).bearer = some p → dev.sa = true →
          i ≠ defaultMqNum) →
        ∀ j < maxMqNum, (qos.mq j).bearer ≠ some p → running j = qos.running j)
      (after : qos' = { qos.setBearer p bearer.less with
        mq, running, bearerHead := qos.bearerHead.erase p, removedBearer := some p })

theorem bearerPut_some {reset : Bool} (put : qos.bearerPut dev (some p) reset = some qos') :
    ∃ bearer, qos.bearers p = some bearer ∧ Put dev qos p bearer qos' := by
  obtain ⟨counted, changed, put⟩ := Option.bind_eq_some_iff.mp put
  obtain ⟨bearer, found, rfl⟩ := modify_some changed
  obtain ⟨bearer', found', put⟩ := Option.bind_eq_some_iff.mp put
  simp only [Function.update_self] at found'
  cases found'
  refine ⟨bearer, found, ?_⟩
  split at put
  · rename_i last
    cases put
    obtain ⟨mq, running, folded, released⟩ := foldl_releaseMq_eq dev
      (qos.setBearer p bearer.less) p reset (List.range maxMqNum)
    apply Put.removed last mq running
    · simpa only [List.mem_range] using released
    · intro real j inside other
      have kept := running_foldl_releaseMq dev (qos.setBearer p bearer.less) p reset
        (List.range maxMqNum) (fun i member => real i (List.mem_range.mp member)) inside other
      rwa [folded] at kept
    · rw [folded]
  · rename_i referenced
    cases put
    exact .kept referenced rfl

namespace LinkedTo

theorem put (linked : LinkedTo qos flows (some p)) {bearer : Bearer}
    (found : qos.bearers p = some bearer) (there : p ∈ qos.bearerHead)
    (put : Put dev qos p bearer qos') : LinkedTo qos' flows none := by
  have count := linked.counted p there bearer found
  rw [if_pos rfl] at count
  have dropped := linked.of_recount none found bearer.less rfl
    (fun p' differs => by simp [Ne.symm differs]) (fun _ => by
      simp only [count]
      simp)
  cases put with
  | kept _ after => rwa [after]
  | removed last mq running released _ after =>
    have unused : flows.countP (·.bearer == some p) = 0 := by omega
    rw [after]
    have others {p' : Nat} (member : p' ∈ qos.bearerHead.erase p) :
        p' ≠ p ∧ p' ∈ qos.bearerHead := (linked.nodup.mem_erase_iff).mp member
    constructor
    · exact linked.nodup.erase p
    · intro p' member
      exact dropped.listed p' (others member).2
    · exact dropped.below
    · intro p₁ there₁ p₂ there₂
      exact dropped.distinct p₁ (others there₁).2 p₂ (others there₂).2
    · intro itm member
      obtain ⟨p', bearer', points, there', found', name⟩ := dropped.pointed itm member
      refine ⟨p', bearer', points, ?_, found', name⟩
      apply linked.nodup.mem_erase_iff.mpr
      refine ⟨?_, there'⟩
      rintro rfl
      rw [List.countP_eq_zero] at unused
      exact unused itm member (by simp [points])
    · intro p' member
      exact dropped.counted p' (others member).2
    · intro i inside p' queued
      dsimp only at queued
      rw [released i] at queued
      split at queued
      · cases queued
      · rename_i other
        apply linked.nodup.mem_erase_iff.mpr
        refine ⟨?_, linked.queued i inside p' queued⟩
        rintro rfl
        exact other ⟨inside, queued⟩

theorem mem_of_put {bearer : Bearer} (put : Put dev qos p bearer qos') {p' : Nat}
    (there : p' ∈ qos.bearerHead) (differs : p' ≠ p) : p' ∈ qos'.bearerHead := by
  cases put with
  | kept _ after => rwa [after]
  | removed _ _ _ _ _ after =>
    rw [after]
    exact (List.mem_erase_of_ne differs).mpr there

/-! ### A bearer is looked for, or made -/

theorem searchBearers_some {bearers : Nat → Option Bearer} {bearerId : BitVec 8} {ps : List Nat}
    (found : QosInfo.searchBearers bearers bearerId ps = some (some p)) :
    p ∈ ps ∧ ∃ bearer, bearers p = some bearer ∧ bearer.bearerId = bearerId := by
  induction ps with
  | nil => cases found
  | cons p' rest ih =>
    obtain ⟨bearer, there, found⟩ := Option.bind_eq_some_iff.mp found
    split at found
    · rename_i name
      cases found
      exact ⟨List.mem_cons_self, bearer, there, name⟩
    · obtain ⟨member, spec⟩ := ih found
      exact ⟨List.mem_cons_of_mem _ member, spec⟩

theorem searchBearers_none {bearers : Nat → Option Bearer} {bearerId : BitVec 8} {ps : List Nat}
    (none_there : QosInfo.searchBearers bearers bearerId ps = some none) :
    ∀ p ∈ ps, ∀ bearer, bearers p = some bearer → bearer.bearerId ≠ bearerId := by
  induction ps with
  | nil => simp
  | cons p' rest ih =>
    obtain ⟨bearer, there, none_there⟩ := Option.bind_eq_some_iff.mp none_there
    split at none_there
    · cases none_there
    · rename_i differs
      intro p member bearer' found
      rcases List.mem_cons.mp member with rfl | member
      · rw [there] at found
        cases found
        exact differs
      · exact ih none_there p member bearer' found

theorem searchBearers_of_none {bearers : Nat → Option Bearer} {bearerId : BitVec 8} {ps : List Nat}
    (alive : ∀ p ∈ ps, ∃ bearer, bearers p = some bearer)
    (none_named : ∀ p ∈ ps, ∀ bearer, bearers p = some bearer → bearer.bearerId ≠ bearerId) :
    QosInfo.searchBearers bearers bearerId ps = some none := by
  induction ps with
  | nil => rfl
  | cons p rest ih =>
    obtain ⟨bearer, there⟩ := alive p List.mem_cons_self
    have differs := none_named p List.mem_cons_self bearer there
    simp only [QosInfo.searchBearers, there, Option.bind_eq_bind, Option.bind_some,
      if_neg differs]
    exact ih (fun p member => alive p (List.mem_cons_of_mem _ member))
      (fun p member => none_named p (List.mem_cons_of_mem _ member))

def withNew (qos : QosInfo) (bearerId : BitVec 8) : QosInfo :=
  { qos with
    bearers := Function.update qos.bearers qos.fresh (some { bearerId })
    fresh := qos.fresh + 1
    bearerHead := qos.fresh :: qos.bearerHead }

inductive Got (qos : QosInfo) (bearerId : BitVec 8) (allocated : Bool) (qos' : QosInfo) :
    Option Nat → Prop
  | found {p : Nat} {bearer : Bearer} (there : p ∈ qos.bearerHead)
      (found : qos.bearers p = some bearer) (name : bearer.bearerId = bearerId)
      (after : qos' = qos.setBearer p bearer.more) : Got qos bearerId allocated qos' p
  | made (free : ∀ p ∈ qos.bearerHead, ∀ bearer, qos.bearers p = some bearer →
        bearer.bearerId ≠ bearerId)
      (could : allocated = true) (after : qos' = withNew qos bearerId) :
      Got qos bearerId allocated qos' qos.fresh
  | failed (free : ∀ p ∈ qos.bearerHead, ∀ bearer, qos.bearers p = some bearer →
        bearer.bearerId ≠ bearerId)
      (couldNot : allocated = false) (after : qos' = qos) : Got qos bearerId allocated qos' none

theorem bearerGet_some {bearerId : BitVec 8} {allocated : Bool} {got : Option Nat}
    (gets : qos.bearerGet bearerId allocated = some (qos', got)) :
    Got qos bearerId allocated qos' got := by
  obtain ⟨named, search, gets⟩ := Option.bind_eq_some_iff.mp gets
  cases named with
  | some p =>
    obtain ⟨counted, changed, gets⟩ := Option.bind_eq_some_iff.mp gets
    cases gets
    obtain ⟨there, bearer, found, name⟩ := searchBearers_some search
    obtain ⟨bearer', found', rfl⟩ := modify_some changed
    rw [found] at found'
    cases found'
    exact .found there found name rfl
  | none =>
    have free := searchBearers_none search
    dsimp only at gets
    split at gets
    · rename_i could
      cases gets
      exact .made free could rfl
    · rename_i couldNot
      cases gets
      exact .failed free (by simpa using couldNot) rfl

theorem of_withNew (linked : LinkedTo qos flows none) {bearerId : BitVec 8}
    (free : ∀ p ∈ qos.bearerHead, ∀ bearer, qos.bearers p = some bearer →
      bearer.bearerId ≠ bearerId) :
    LinkedTo (withNew qos bearerId) flows (some qos.fresh) := by
  have unused (p : Nat) (there : p ∈ qos.bearerHead) : p ≠ qos.fresh := by
    rintro rfl
    obtain ⟨bearer, found⟩ := linked.listed _ there
    exact Nat.lt_irrefl _ (linked.below _ bearer found)
  have old (p : Nat) (there : p ∈ qos.bearerHead) :
      (withNew qos bearerId).bearers p = qos.bearers p :=
    Function.update_of_ne (unused p there) ..
  have new : (withNew qos bearerId).bearers qos.fresh = some { bearerId } :=
    Function.update_self ..
  constructor
  · exact List.nodup_cons.mpr ⟨fun again => unused _ again rfl, linked.nodup⟩
  · intro p there
    rcases List.mem_cons.mp there with rfl | there
    · exact ⟨_, new⟩
    · rw [old p there]
      exact linked.listed p there
  · intro p bearer found
    by_cases same : p = qos.fresh
    · subst same
      exact Nat.lt_succ_self _
    · simp only [withNew, Function.update_of_ne same] at found
      exact Nat.lt_succ_of_lt (linked.below p bearer found)
  · intro p there p' there' bearer bearer' found found' equal
    rcases List.mem_cons.mp there with rfl | there
    · rcases List.mem_cons.mp there' with rfl | there'
      · rfl
      · rw [new] at found
        cases found
        rw [old p' there'] at found'
        exact absurd equal.symm (free p' there' bearer' found')
    · rw [old p there] at found
      rcases List.mem_cons.mp there' with rfl | there'
      · rw [new] at found'
        cases found'
        exact absurd equal (free p there bearer found)
      · rw [old p' there'] at found'
        exact linked.distinct p there p' there' bearer bearer' found found' equal
  · intro itm member
    obtain ⟨p, bearer, points, there, found, name⟩ := linked.pointed itm member
    exact ⟨p, bearer, points, List.mem_cons_of_mem _ there, by rw [old p there, found], name⟩
  · intro p there bearer found
    rcases List.mem_cons.mp there with rfl | there
    · rw [new] at found
      cases found
      have none_points : flows.countP (·.bearer == some qos.fresh) = 0 := by
        rw [List.countP_eq_zero]
        intro itm member points
        obtain ⟨p', _, points', there', _⟩ := linked.pointed itm member
        rw [points', beq_iff_eq, Option.some.injEq] at points
        exact unused p' there' points
      rw [none_points, if_pos rfl]
      rfl
    · rw [old p there] at found
      rw [linked.counted p there bearer found]
      simp [Ne.symm (unused p there)]
  · intro i inside p queued
    exact List.mem_cons_of_mem _ (linked.queued i inside p queued)

theorem get (linked : LinkedTo qos flows none) {bearerId : BitVec 8} {allocated : Bool}
    (got : Got qos bearerId allocated qos' (some p)) :
    LinkedTo qos' flows (some p) ∧ p ∈ qos'.bearerHead ∧
      ∃ bearer, qos'.bearers p = some bearer ∧ bearer.bearerId = bearerId := by
  cases got with
  | @found _ bearer there found name after =>
    have count := linked.counted p there bearer found
    rw [after]
    refine ⟨?_, there, _, Function.update_self .., name⟩
    apply linked.of_recount _ found bearer.more rfl
    · intro p' differs
      simp [Ne.symm differs]
    · intro _
      simp only [count]
      simp
  | made free could after =>
    rw [after]
    exact ⟨linked.of_withNew free, List.mem_cons_self, _, Function.update_self .., rfl⟩

theorem noref (linked : LinkedTo qos flows (some p)) {bearer : Bearer}
    (found : qos.bearers p = some bearer) :
    LinkedTo (qos.setBearer p bearer.less) flows none := by
  apply linked.of_recount _ found bearer.less rfl
  · intro p' differs
    simp [Ne.symm differs]
  · intro there
    have count := linked.counted p there bearer found
    simp only [count]
    simp

end LinkedTo

end VendorModules.Qos
