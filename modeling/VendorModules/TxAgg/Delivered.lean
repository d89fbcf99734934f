import VendorModules.TxAgg.Channel

/-! Every packet handed in is sent once, and no sender's packets overtake each other. -/

namespace VendorModules.TxAgg

open Function Lib

def Phase.held : Phase → List Packet
  | .idle => []
  | .locking pkt _ | .retrying pkt | .clearing pkt _ | .sending pkt _ => [pkt]

def Phase.behind : Phase → List Packet
  | .clearing _ behind | .sending _ behind => behind
  | _ => []

def Phase.overtakes : Phase → Bool
  | .clearing _ _ | .sending _ _ => true
  | _ => false

def sentBy (t : Nat) (packets : List Packet) : List Packet := packets.filter (·.sender = t)

@[simp] theorem sentBy_nil (t : Nat) : sentBy t [] = [] := rfl

@[simp] theorem sentBy_append (t : Nat) (first second : List Packet) :
    sentBy t (first ++ second) = sentBy t first ++ sentBy t second :=
  List.filter_append first second

theorem sentBy_own {t : Nat} {packets : List Packet} (own : ∀ p ∈ packets, p.sender = t) :
    sentBy t packets = packets := by
  apply List.filter_eq_self.mpr
  intro p held
  simpa using own p held

theorem sentBy_other {t u : Nat} {packets : List Packet} (own : ∀ p ∈ packets, p.sender = t)
    (other : u ≠ t) : sentBy u packets = [] := by
  apply List.filter_eq_nil_iff.mpr
  intro p held
  have := own p held
  simp only [decide_eq_true_eq]
  omega

namespace State

variable {s : State}

@[simp] theorem goto_phase_same (t : Nat) (phase : Phase) : (s.goto t phase).phase t = phase := by
  simp [goto]

theorem goto_phase_other {t u : Nat} (phase : Phase) (other : u ≠ t) :
    (s.goto t phase).phase u = s.phase u := by
  simp [goto, other]

@[simp] theorem out_transmit (packets behind : List Packet) :
    (s.transmit packets behind).out = s.out ++ packets := by
  simp [out, transmit]

@[simp] theorem takeAggSkb_phase : s.takeAggSkb.phase = s.phase := by
  unfold takeAggSkb
  cases s.aggSkb <;> rfl

@[simp] theorem takeAggSkb_handed : s.takeAggSkb.handed = s.handed := by
  unfold takeAggSkb
  cases s.aggSkb <;> rfl

@[simp] theorem takeAggSkb_aggSkb : s.takeAggSkb.aggSkb = none := by
  unfold takeAggSkb
  cases here : s.aggSkb with
  | none => exact here
  | some agg => rfl

@[simp] theorem takeAggSkb_aggregated : s.takeAggSkb.aggregated = [] := by
  simp [aggregated]

@[simp] theorem takeAggSkb_out : s.takeAggSkb.out = s.out ++ s.aggregated := by
  unfold takeAggSkb aggregated
  cases s.aggSkb with
  | none => simp
  | some agg => exact out_transmit agg.packets []

theorem aggregated_none (free : s.aggSkb = none) : s.aggregated = [] := by
  rw [aggregated, free]
  rfl

theorem aggregated_some {agg : AggSkb} (here : s.aggSkb = some agg) :
    s.aggregated = agg.packets := by
  rw [aggregated, here]
  rfl

end State

structure State.Inv (port : Port) (s : State) : Prop where
  own : ∀ t, ∀ p ∈ (s.phase t).held, p.sender = t
  fifo : ∀ t, sentBy t s.handed =
    sentBy t s.out ++ sentBy t s.aggregated ++ (s.phase t).held
  alone : ∀ t, (s.phase t).overtakes = true → sentBy t s.aggregated = []
  patient : ∀ t pkt, s.phase t = .retrying pkt → port.urgent pkt = false
  behind : ∀ t, ∀ p ∈ (s.phase t).behind, p ∈ s.out
  follows : ∀ before x after, s.sent = before ++ x :: after →
    ∀ p ∈ x.behind, p ∈ before.flatMap (·.packets)
  progress : s.inProgress = s.aggSkb.isSome
  filled : s.aggSkb.isSome → s.aggregated ≠ []

namespace State.Inv

variable {port : Port} {s s' : State}

theorem congr (inv : s.Inv port) (phase : s'.phase = s.phase) (sent : s'.sent = s.sent)
    (handed : s'.handed = s.handed) (aggSkb : s'.aggSkb = s.aggSkb)
    (inProgress : s'.inProgress = s.inProgress) : s'.Inv port := by
  have out : s'.out = s.out := by
    unfold State.out
    rw [sent]
  have aggregated : s'.aggregated = s.aggregated := by
    unfold State.aggregated
    rw [aggSkb]
  constructor
  · rw [phase]
    exact inv.own
  · rw [phase, handed, out, aggregated]
    exact inv.fifo
  · rw [phase, aggregated]
    exact inv.alone
  · rw [phase]
    exact inv.patient
  · rw [phase, out]
    exact inv.behind
  · rw [sent]
    exact inv.follows
  · rw [inProgress, aggSkb]
    exact inv.progress
  · rw [aggSkb, aggregated]
    exact inv.filled

theorem follows_append {sent : List Transmission} {new : Transmission}
    (old : ∀ before x after, sent = before ++ x :: after →
      ∀ p ∈ x.behind, p ∈ before.flatMap (·.packets))
    (last : ∀ p ∈ new.behind, p ∈ sent.flatMap (·.packets)) (before : List Transmission)
    (x : Transmission) (after : List Transmission) (split : sent ++ [new] = before ++ x :: after) :
    ∀ p ∈ x.behind, p ∈ before.flatMap (·.packets) := by
  rcases List.append_eq_append_iff.mp split with ⟨between, rfl, rest⟩ | ⟨between, rfl, rest⟩
  · cases between with
    | nil =>
      simp only [List.nil_append, List.cons.injEq] at rest
      rw [List.append_nil, ← rest.1]
      exact last
    | cons first between => simp at rest
  · cases between with
    | nil =>
      simp only [List.nil_append, List.cons.injEq] at rest
      rw [rest.1]
      simpa using last
    | cons first between =>
      simp only [List.cons_append, List.cons.injEq] at rest
      obtain ⟨rfl, -⟩ := rest
      exact old before x between rfl

theorem takeAggSkb (inv : s.Inv port) : s.takeAggSkb.Inv port := by
  constructor
  · rw [takeAggSkb_phase]
    exact inv.own
  · intro t
    rw [takeAggSkb_phase, takeAggSkb_handed, takeAggSkb_out, takeAggSkb_aggregated, inv.fifo t]
    simp
  · intro t _
    rw [takeAggSkb_aggregated, sentBy_nil]
  · rw [takeAggSkb_phase]
    exact inv.patient
  · intro t p held
    rw [takeAggSkb_phase] at held
    rw [takeAggSkb_out]
    exact List.mem_append_left _ (inv.behind t p held)
  · unfold State.takeAggSkb
    cases here : s.aggSkb with
    | none => exact inv.follows
    | some agg => exact follows_append inv.follows (fun p held => nomatch held)
  · unfold State.takeAggSkb
    cases here : s.aggSkb with
    | none => rw [inv.progress, here]
    | some agg => rfl
  · intro here
    simp at here

theorem goto (inv : s.Inv port) {t : Nat} {phase : Phase} (held : phase.held = (s.phase t).held)
    (alone : phase.overtakes = true → sentBy t s.aggregated = [])
    (patient : ∀ pkt, phase = .retrying pkt → port.urgent pkt = false)
    (behind : ∀ p ∈ phase.behind, p ∈ s.out) : (s.goto t phase).Inv port := by
  have same : ∀ u, ((s.goto t phase).phase u).held = (s.phase u).held := by
    intro u
    rcases eq_or_ne u t with rfl | other
    · rw [goto_phase_same, held]
    · rw [goto_phase_other phase other]
  constructor
  · intro u
    rw [same u]
    exact inv.own u
  · intro u
    rw [same u]
    exact inv.fifo u
  · intro u overtakes
    rcases eq_or_ne u t with rfl | other
    · rw [goto_phase_same] at overtakes
      exact alone overtakes
    · rw [goto_phase_other phase other] at overtakes
      exact inv.alone u overtakes
  · intro u pkt retries
    rcases eq_or_ne u t with rfl | other
    · rw [goto_phase_same] at retries
      exact patient pkt retries
    · rw [goto_phase_other phase other] at retries
      exact inv.patient u pkt retries
  · intro u p follows
    rcases eq_or_ne u t with rfl | other
    · rw [goto_phase_same] at follows
      exact behind p follows
    · rw [goto_phase_other phase other] at follows
      exact inv.behind u p follows
  · exact inv.follows
  · exact inv.progress
  · exact inv.filled

theorem given (inv : s.Inv port) {t : Nat} {pkt : Packet} (held : (s.phase t).held = [pkt])
    (phase : s'.phase = update s.phase t .idle) (handed : s'.handed = s.handed)
    (line : ∀ u, sentBy u s'.out ++ sentBy u s'.aggregated =
      sentBy u s.out ++ sentBy u s.aggregated ++ sentBy u [pkt])
    (alone : ∀ u, u ≠ t → sentBy u s.aggregated = [] → sentBy u s'.aggregated = [])
    (out : ∀ p ∈ s.out, p ∈ s'.out)
    (follows : ∀ before x after, s'.sent = before ++ x :: after →
      ∀ p ∈ x.behind, p ∈ before.flatMap (·.packets))
    (progress : s'.inProgress = s'.aggSkb.isSome)
    (filled : s'.aggSkb.isSome → s'.aggregated ≠ []) : s'.Inv port := by
  have own := inv.own t
  rw [held] at own
  have same : s'.phase t = .idle := by rw [phase, update_self]
  have others : ∀ u, u ≠ t → s'.phase u = s.phase u := by
    intro u other
    rw [phase, update_of_ne other]
  constructor
  · intro u
    rcases eq_or_ne u t with rfl | other
    · rw [same]
      exact fun p none_held => nomatch none_held
    · rw [others u other]
      exact inv.own u
  · intro u
    rw [handed, line u, inv.fifo u]
    rcases eq_or_ne u t with rfl | other
    · rw [same, held, sentBy_own own]
      simp [Phase.held]
    · rw [others u other, sentBy_other own other, List.append_nil]
  · intro u overtakes
    rcases eq_or_ne u t with rfl | other
    · rw [same] at overtakes
      exact absurd overtakes Bool.false_ne_true
    · rw [others u other] at overtakes
      exact alone u other (inv.alone u overtakes)
  · intro u pkt' retries
    rcases eq_or_ne u t with rfl | other
    · rw [same] at retries
      exact absurd retries (by simp)
    · rw [others u other] at retries
      exact inv.patient u pkt' retries
  · intro u p behind
    rcases eq_or_ne u t with rfl | other
    · rw [same] at behind
      exact absurd behind (by simp [Phase.behind])
    · rw [others u other] at behind
      exact out p (inv.behind u p behind)
  · exact follows
  · exact progress
  · exact filled

theorem transmit (inv : s.Inv port) {t : Nat} {pkt : Packet} {behind : List Packet}
    (held : (s.phase t).held = [pkt]) (alone : sentBy t s.aggregated = [])
    (out : ∀ p ∈ behind, p ∈ s.out) : ((s.transmit [pkt] behind).goto t .idle).Inv port := by
  have own := inv.own t
  rw [held] at own
  refine inv.given held rfl rfl ?_ (fun _ _ empty => empty) ?_ ?_ inv.progress inv.filled
  · intro u
    have out_eq : ((s.transmit [pkt] behind).goto t .idle).out = s.out ++ [pkt] :=
      out_transmit [pkt] behind
    have aggregated_eq : ((s.transmit [pkt] behind).goto t .idle).aggregated = s.aggregated := rfl
    rw [out_eq, aggregated_eq, sentBy_append]
    rcases eq_or_ne u t with rfl | other
    · rw [alone, List.append_nil, List.append_nil]
    · rw [sentBy_other own other, List.append_nil, List.append_nil]
  · intro p sent
    have out_eq : ((s.transmit [pkt] behind).goto t .idle).out = s.out ++ [pkt] :=
      out_transmit [pkt] behind
    rw [out_eq]
    exact List.mem_append_left _ sent
  · exact follows_append inv.follows out

theorem aggregate (inv : s.Inv port) {t : Nat} {pkt : Packet} {agg : AggSkb}
    (held : (s.phase t).held = [pkt]) (packets : agg.packets = s.aggregated ++ [pkt])
    (phase : s'.phase = update s.phase t .idle) (handed : s'.handed = s.handed)
    (sent : s'.sent = s.sent) (aggSkb : s'.aggSkb = some agg) (inProgress : s'.inProgress = true) :
    s'.Inv port := by
  have own := inv.own t
  rw [held] at own
  have out : s'.out = s.out := by
    unfold State.out
    rw [sent]
  have aggregated : s'.aggregated = s.aggregated ++ [pkt] := by
    rw [aggregated_some aggSkb, packets]
  refine inv.given held phase handed ?_ ?_ ?_ ?_ ?_ ?_
  · intro u
    rw [out, aggregated, sentBy_append, List.append_assoc]
  · intro u other empty
    rw [aggregated, sentBy_append, empty, sentBy_other own other]
    rfl
  · rw [out]
    exact fun p held => held
  · rw [sent]
    exact inv.follows
  · rw [inProgress, aggSkb]
    rfl
  · intro _
    rw [aggregated]
    simp

theorem overtake (inv : s.Inv port) {t : Nat} {pkt : Packet} (held : (s.phase t).held = [pkt]) :
    (s.overtake t pkt).Inv port := by
  have taken := inv.takeAggSkb
  have aggregated : ∀ p ∈ s.aggregated, p ∈ s.takeAggSkb.out := by
    intro p among
    rw [takeAggSkb_out]
    exact List.mem_append_right _ among
  unfold State.overtake
  apply taken.goto
  · rw [takeAggSkb_phase, held]
    split <;> rfl
  · intro _
    rw [takeAggSkb_aggregated, sentBy_nil]
  · intro other retries
    split at retries <;> cases retries
  · split
    · exact aggregated
    · exact aggregated

theorem schedule_inProgress (s : State) : s.schedule.inProgress = true := by
  unfold State.schedule
  split
  · assumption
  · rfl

theorem schedule_eq (s : State) : s.schedule =
    { s with inProgress := s.schedule.inProgress, timerArmed := s.schedule.timerArmed } := by
  unfold State.schedule
  split <;> rfl

theorem txAggregate (inv : s.Inv port) {t : Nat} {pkt : Packet} {now stamp : Int} {built : Bool}
    (locking : s.phase t = .locking pkt false) :
    (s.txAggregate port t pkt now stamp built).Inv port := by
  have held : (s.phase t).held = [pkt] := by
    rw [locking]
    rfl
  have timed : ({ s with aggLast := now } : State).Inv port := inv.congr rfl rfl rfl rfl rfl
  unfold State.txAggregate
  split
  · exact timed.overtake held
  rename_i waits
  split
  · rename_i free
    have empty : s.aggregated = [] := aggregated_none free
    have alone : sentBy t s.aggregated = [] := by rw [empty, sentBy_nil]
    split_ifs with direct memory large
    · exact timed.transmit held alone (fun p none_behind => nomatch none_behind)
    · exact inv.congr rfl rfl rfl rfl rfl
    · rw [schedule_eq]
      refine inv.aggregate held ?_ rfl rfl rfl rfl ?_
      · rw [empty]
        rfl
      · exact schedule_inProgress _
    · have failed : ({ s with aggLast := now, aggCount := 0, aggTime := 0 } : State).Inv port :=
        inv.congr rfl rfl rfl rfl rfl
      exact failed.transmit held alone (fun p none_behind => nomatch none_behind)
  · rename_i agg here
    split_ifs with full
    · apply timed.takeAggSkb.goto
      · rw [takeAggSkb_phase]
        exact held.symm
      · exact fun none_overtakes => nomatch none_overtakes
      · intro other retries
        cases retries
        simpa using waits
      · exact fun p none_behind => nomatch none_behind
    · rw [schedule_eq]
      refine inv.aggregate held ?_ rfl rfl rfl rfl ?_
      · rw [aggregated_some here]
      · exact schedule_inProgress _

theorem handIn (inv : s.Inv port) {pkt : Packet} {qmap : Bool}
    (idle : s.phase pkt.sender = .idle) :
    ({ s with handed := s.handed ++ [pkt] }.goto pkt.sender (.locking pkt qmap)).Inv port := by
  have others : ∀ u, u ≠ pkt.sender →
      ({ s with handed := s.handed ++ [pkt] }.goto pkt.sender (.locking pkt qmap)).phase u =
        s.phase u := fun u other => update_of_ne other _ _
  have same : ({ s with handed := s.handed ++ [pkt] }.goto pkt.sender
      (.locking pkt qmap)).phase pkt.sender = .locking pkt qmap := update_self _ _ _
  constructor
  · intro u p held
    rcases eq_or_ne u pkt.sender with rfl | other
    · rw [same] at held
      rw [List.mem_singleton.mp held]
    · rw [others u other] at held
      exact inv.own u p held
  · intro u
    have before := inv.fifo u
    show sentBy u (s.handed ++ [pkt]) = sentBy u s.out ++ sentBy u s.aggregated ++ _
    rw [sentBy_append, before]
    have own : ∀ p ∈ [pkt], p.sender = pkt.sender := by simp
    rcases eq_or_ne u pkt.sender with rfl | other
    · rw [same, idle, sentBy_own own]
      simp [Phase.held]
    · rw [others u other, sentBy_other own other, List.append_nil]
  · intro u overtakes
    rcases eq_or_ne u pkt.sender with rfl | other
    · rw [same] at overtakes
      exact absurd overtakes Bool.false_ne_true
    · rw [others u other] at overtakes
      exact inv.alone u overtakes
  · intro u pkt' retries
    rcases eq_or_ne u pkt.sender with rfl | other
    · rw [same] at retries
      exact absurd retries (by simp)
    · rw [others u other] at retries
      exact inv.patient u pkt' retries
  · intro u p behind
    rcases eq_or_ne u pkt.sender with rfl | other
    · rw [same] at behind
      exact absurd behind (by simp [Phase.behind])
    · rw [others u other] at behind
      exact inv.behind u p behind
  · exact inv.follows
  · exact inv.progress
  · exact inv.filled

theorem flushTxPacketWork (inv : s.Inv port) : s.flushTxPacketWork.Inv port := by
  unfold State.flushTxPacketWork
  simp only
  split
  · have taken := inv.takeAggSkb
    have idle : s.takeAggSkb.inProgress = false := by rw [taken.progress, takeAggSkb_aggSkb]; rfl
    exact taken.congr rfl rfl rfl rfl idle.symm
  · exact inv.congr rfl rfl rfl rfl rfl

end State.Inv

variable {port : Port} {s s' : State}

theorem State.Inv.step (inv : s.Inv port) {move : Move} (taken : step port s move = some s') :
    s'.Inv port := by
  unfold TxAgg.step at taken
  split at taken
  · cases taken
  cases move with
  | handIn pkt qmap =>
    simp only at taken
    split at taken
    · cases taken
      exact inv.handIn ‹_›
    · cases taken
  | locked t now stamp built =>
    simp only at taken
    split at taken
    · cases taken
      exact inv.txAggregate ‹_›
    · rename_i pkt locking
      cases taken
      exact inv.overtake (by rw [locking]; rfl)
    · cases taken
  | cancel t =>
    simp only at taken
    split at taken
    · cases taken
    have cancelled : ({ s with timerArmed := false } : State).Inv port :=
      inv.congr rfl rfl rfl rfl rfl
    split at taken
    · rename_i pkt retries
      cases taken
      apply cancelled.goto
      · rw [retries]
        rfl
      · exact fun none_overtakes => nomatch none_overtakes
      · exact fun other same => nomatch same
      · exact fun p none_behind => nomatch none_behind
    · rename_i pkt behind clears
      cases taken
      have here := inv.behind t
      rw [clears] at here
      apply cancelled.goto
      · rw [clears]
        rfl
      · intro _
        apply inv.alone t
        rw [clears]
        rfl
      · exact fun other same => nomatch same
      · exact here
    · cases taken
  | send t =>
    simp only at taken
    split at taken
    · rename_i pkt behind sends
      cases taken
      have here := inv.behind t
      have alone := inv.alone t
      rw [sends] at here alone
      apply inv.transmit
      · rw [sends]
        rfl
      · exact alone rfl
      · exact here
    · cases taken
  | expire =>
    simp only at taken
    split at taken <;> cases taken
    exact inv.congr rfl rfl rfl rfl rfl
  | callback =>
    simp only at taken
    split at taken <;> cases taken
    exact inv.congr rfl rfl rfl rfl rfl
  | workBegin =>
    simp only at taken
    split at taken <;> cases taken
    exact inv.congr rfl rfl rfl rfl rfl
  | flushWork =>
    simp only at taken
    split at taken <;> cases taken
    exact inv.flushTxPacketWork
  | updateConfig size count =>
    cases taken
    unfold State.updateUlAggConfig
    split
    · exact inv.congr rfl rfl rfl rfl rfl
    · exact inv.congr rfl rfl rfl rfl rfl

theorem State.Inv.of_initial (initial : Initial s) : s.Inv port := by
  obtain ⟨params, order, rfl⟩ := initial
  constructor
  · exact fun t p held => nomatch held
  · exact fun t => rfl
  · exact fun t overtakes => nomatch overtakes
  · exact fun t pkt retries => nomatch retries
  · exact fun t p behind => nomatch behind
  · intro before x after split
    simp at split
  · rfl
  · exact fun here => nomatch here

theorem State.Inv.of_reachable {allowed : State → Move → Prop}
    (reached : Reachable Initial (StepOf (TxAgg.step port) allowed) s) : s.Inv port := by
  induction reached with
  | start initial => exact .of_initial initial
  | next before taken ih =>
    obtain ⟨move, -, taken⟩ := taken
    exact ih.step taken

end VendorModules.TxAgg
