import VendorModules.Qos.Attached

namespace VendorModules.Qos

variable {dev : Device} {qos qos' : QosInfo} {flows flows' : List FlowMap} {p : Nat}
  {itm : FlowMap} {bearer : Bearer}

def Real (dev : Device) (mqIdx : Nat) : Prop := ¬ (dev.sa = true ∧ mqIdx = defaultMqNum)

instance (mqIdx : Nat) : Decidable (Real dev mqIdx) :=
  inferInstanceAs (Decidable (¬ _))

def FlowMap.key (itm : FlowMap) : BitVec 32 × BitVec 32 := (itm.flowId, itm.ipType)

structure Routed (dev : Device) (qos : QosInfo) (flows : List FlowMap) : Prop where
  keyed : (flows.map FlowMap.key).Nodup
  inside : ∀ itm ∈ flows, itm.mqIdx < maxMqNum
  same : ∀ itm ∈ flows, ∀ itm' ∈ flows, itm.bearer = itm'.bearer → itm.mqIdx = itm'.mqIdx
  owned : ∀ itm ∈ flows, ∀ p, itm.bearer = some p → Real dev itm.mqIdx →
    (qos.mq itm.mqIdx).bearer = some p
  assigned : ∀ i < maxMqNum, ∀ p, (qos.mq i).bearer = some p →
    Real dev i ∧ ∃ itm ∈ flows, itm.bearer = some p ∧ itm.mqIdx = i
  idx : ∀ i < maxMqNum, ∀ p, (qos.mq i).bearer = some p → ∀ bearer,
    qos.bearers p = some bearer → bearer.mqIdx = i
  placed : ∀ p ∈ qos.bearerHead, ∀ bearer, qos.bearers p = some bearer →
    bearer.mqIdx < maxMqNum → (qos.mq bearer.mqIdx).bearer = some p
  acks : ∀ p bearer, qos.bearers p = some bearer → maxMqNum ≤ bearer.ackMqIdx

def Runs (dev : Device) (qos : QosInfo) : Prop :=
  ∀ i < maxMqNum, i < dev.numTxQueues → ∀ p, (qos.mq i).bearer = some p → ∀ bearer,
    qos.bearers p = some bearer → (qos.running i = true ↔ bearer.grantSize ≠ 0)

def Quiet (qos : QosInfo) : Prop :=
  ∀ p ∈ qos.bearerHead, ∀ bearer, qos.bearers p = some bearer → bearer.txOff = true →
    bearer.grantSize = 0

structure Serving (dev : Device) (qos : QosInfo) (flows : List FlowMap) : Prop where
  routed : Routed dev qos flows
  runs : Runs dev qos
  quiet : Quiet qos

theorem setBearer_read {bearer' bearer'' : Bearer} {p' : Nat}
    (found : (qos.setBearer p bearer').bearers p' = some bearer'') :
    (p' = p ∧ bearer'' = bearer') ∨ (p' ≠ p ∧ qos.bearers p' = some bearer'') := by
  by_cases same : p' = p
  · subst same
    simp only [Function.update_self] at found
    exact .inl ⟨rfl, (Option.some.inj found).symm⟩
  · simp only [Function.update_of_ne same] at found
    exact .inr ⟨same, found⟩

namespace Routed

theorem of_perm (routed : Routed dev qos flows) (perm : flows.Perm flows') :
    Routed dev qos flows' where
  keyed := (perm.map FlowMap.key).nodup_iff.mp routed.keyed
  inside := fun itm member => routed.inside itm (perm.mem_iff.mpr member)
  same := fun itm member itm' member' =>
    routed.same itm (perm.mem_iff.mpr member) itm' (perm.mem_iff.mpr member')
  owned := fun itm member => routed.owned itm (perm.mem_iff.mpr member)
  assigned := fun i inside p his => by
    obtain ⟨real, itm, member, points⟩ := routed.assigned i inside p his
    exact ⟨real, itm, perm.mem_iff.mp member, points⟩
  idx := routed.idx
  placed := routed.placed
  acks := routed.acks

theorem of_shape (routed : Routed dev qos flows) (same : SameShape qos qos') :
    Routed dev qos' flows := by
  have back (p : Nat) {bearer' : Bearer} (found : qos'.bearers p = some bearer') :
      ∃ bearer, qos.bearers p = some bearer ∧ bearer.ties = bearer'.ties := by
    have tied := same.bearers p
    rw [found, Option.map_some] at tied
    exact Option.map_eq_some_iff.mp tied.symm
  constructor
  · exact routed.keyed
  · exact routed.inside
  · exact routed.same
  · intro itm member p points real
    rw [same.mq]
    exact routed.owned itm member p points real
  · intro i inside p his
    rw [same.mq] at his
    exact routed.assigned i inside p his
  · intro i inside p his bearer' found'
    rw [same.mq] at his
    obtain ⟨bearer, found, ties⟩ := back p found'
    exact (congrArg Ties.mqIdx ties).symm.trans (routed.idx i inside p his bearer found)
  · intro p there bearer' found' inside
    rw [same.bearerHead] at there
    obtain ⟨bearer, found, ties⟩ := back p found'
    have idx : bearer.mqIdx = bearer'.mqIdx := congrArg Ties.mqIdx ties
    rw [same.mq, ← idx]
    exact routed.placed p there bearer found (by rwa [idx])
  · intro p bearer' found'
    obtain ⟨bearer, found, ties⟩ := back p found'
    have ack : bearer.ackMqIdx = bearer'.ackMqIdx := congrArg Ties.ackMqIdx ties
    rw [← ack]
    exact routed.acks p bearer found

theorem of_init : Routed dev QosInfo.init [] where
  keyed := List.nodup_nil
  inside := by simp
  same := by simp
  owned := by simp
  assigned := by simp [QosInfo.init]
  idx := by simp [QosInfo.init]
  placed := by simp [QosInfo.init]
  acks := by simp [QosInfo.init]

end Routed

namespace Serving

theorem of_perm (serving : Serving dev qos flows) (perm : flows.Perm flows') :
    Serving dev qos flows' :=
  { serving with routed := serving.routed.of_perm perm }

theorem of_bearer (serving : Serving dev qos flows) (found : qos.bearers p = some bearer)
    {bearer' : Bearer} (mqIdx : bearer'.mqIdx = bearer.mqIdx)
    (ackMqIdx : bearer'.ackMqIdx = bearer.ackMqIdx) (grantSize : bearer'.grantSize = bearer.grantSize)
    (txOff : bearer'.txOff = bearer.txOff) : Serving dev (qos.setBearer p bearer') flows := by
  have back {p' : Nat} {bearer'' : Bearer}
      (found' : (qos.setBearer p bearer').bearers p' = some bearer'') :
      ∃ before, qos.bearers p' = some before ∧ bearer''.mqIdx = before.mqIdx ∧
        bearer''.ackMqIdx = before.ackMqIdx ∧ bearer''.grantSize = before.grantSize ∧
        bearer''.txOff = before.txOff := by
    rcases setBearer_read found' with ⟨rfl, rfl⟩ | ⟨_, was⟩
    · exact ⟨bearer, found, mqIdx, ackMqIdx, grantSize, txOff⟩
    · exact ⟨bearer'', was, rfl, rfl, rfl, rfl⟩
  refine ⟨{ serving.routed with idx := ?_, placed := ?_, acks := ?_ }, ?_, ?_⟩
  · intro i inside p' his bearer'' found'
    obtain ⟨before, was, idx, -⟩ := back found'
    rw [idx]
    exact serving.routed.idx i inside p' his before was
  · intro p' there bearer'' found' inside
    obtain ⟨before, was, idx, -⟩ := back found'
    rw [idx] at inside ⊢
    exact serving.routed.placed p' there before was inside
  · intro p' bearer'' found'
    obtain ⟨before, was, -, ack, -⟩ := back found'
    rw [ack]
    exact serving.routed.acks p' before was
  · intro i inside queue p' his bearer'' found'
    obtain ⟨before, was, -, -, grant, -⟩ := back found'
    rw [grant]
    exact serving.runs i inside queue p' his before was
  · intro p' there bearer'' found' off
    obtain ⟨before, was, -, -, grant, tx⟩ := back found'
    rw [grant]
    exact serving.quiet p' there before was (tx ▸ off)

theorem put (serving : Serving dev qos (itm :: flows)) (linked : LinkedTo qos (itm :: flows) none)
    (points : itm.bearer = some p) (there : p ∈ qos.bearerHead)
    (found : qos.bearers p = some bearer) (puts : Put dev qos p bearer qos') :
    Serving dev qos' flows := by
  have routed := serving.routed
  have count := linked.counted p there bearer found
  simp only [List.countP_cons, points, beq_self_eq_true, if_true, reduceCtorEq, if_false,
    add_zero] at count
  have less : Serving dev (qos.setBearer p bearer.less) (itm :: flows) :=
    serving.of_bearer found rfl rfl rfl rfl
  have member {other : FlowMap} (among : other ∈ flows) : other ∈ itm :: flows :=
    List.mem_cons_of_mem itm among
  cases puts with
  | kept referenced after =>
    rw [after]
    refine { less with routed := { less.routed with
      keyed := (List.nodup_cons.mp less.routed.keyed).2
      inside := fun other among => routed.inside other (member among)
      same := fun other among other' among' =>
        routed.same other (member among) other' (member among')
      owned := fun other among => routed.owned other (member among)
      assigned := fun i inside p' his => ?_ } }
    obtain ⟨real, other, among, points', idx⟩ := routed.assigned i inside p' his
    rcases List.mem_cons.mp among with rfl | among
    · -- another flow still has the bearer, with the same queue
      rw [points] at points'
      cases points'
      have others : 0 < flows.countP (·.bearer == some p) := by omega
      obtain ⟨other', among', points'⟩ := List.countP_pos_iff.mp others
      rw [beq_iff_eq] at points'
      refine ⟨real, other', among', points', ?_⟩
      rw [← idx]
      exact routed.same other' (member among') other List.mem_cons_self (points'.trans points.symm)
    · exact ⟨real, other, among, points', idx⟩
  | removed last mq running released undisturbed after =>
    have unused : flows.countP (·.bearer == some p) = 0 := by omega
    have none_points {other : FlowMap} (among : other ∈ flows) : other.bearer ≠ some p :=
      fun points' => List.countP_eq_zero.mp unused other among (by simp [points'])
    have real {i : Nat} (inside : i < maxMqNum) (his : (qos.mq i).bearer = some p) :
        Real dev i := (routed.assigned i inside p his).1
    have queues := undisturbed fun i inside his sa default => real inside his ⟨sa, default⟩
    have mine {i p' : Nat} (inside : i < maxMqNum) (his : (mq i).bearer = some p') :
        (qos.mq i).bearer = some p' ∧ p' ≠ p := by
      rw [released i] at his
      split at his
      · cases his
      · rename_i other
        refine ⟨his, ?_⟩
        rintro rfl
        exact other ⟨inside, his⟩
    have still {i p' : Nat} (his : (qos.mq i).bearer = some p') (differs : p' ≠ p) :
        (mq i).bearer = some p' := by
      rw [released i, if_neg]
      · exact his
      · rintro ⟨-, his'⟩
        rw [his] at his'
        exact differs (Option.some.inj his')
    rw [after]
    refine ⟨?_, ?_, ?_⟩
    · constructor
      · exact (List.nodup_cons.mp routed.keyed).2
      · exact fun other among => routed.inside other (member among)
      · exact fun other among other' among' =>
          routed.same other (member among) other' (member among')
      · intro other among p' points' real
        apply still (routed.owned other (member among) p' points' real)
        rintro rfl
        exact none_points among points'
      · intro i inside p' his
        obtain ⟨his, differs⟩ := mine inside his
        obtain ⟨real, other, among, points', idx⟩ := routed.assigned i inside p' his
        rcases List.mem_cons.mp among with rfl | among
        · rw [points] at points'
          exact absurd (Option.some.inj points').symm differs
        · exact ⟨real, other, among, points', idx⟩
      · intro i inside p' his
        exact less.routed.idx i inside p' (mine inside his).1
      · intro p' there' bearer' found' inside
        obtain ⟨differs, there'⟩ := linked.nodup.mem_erase_iff.mp there'
        exact still (less.routed.placed p' there' bearer' found' inside) differs
      · exact less.routed.acks
    · intro i inside queue p' his
      obtain ⟨his, differs⟩ := mine inside his
      have kept := queues i inside (by rw [his]; simpa using differs)
      simp only [kept]
      exact less.runs i inside queue p' his
    · intro p' there'
      exact less.quiet p' (linked.nodup.mem_erase_iff.mp there').2

theorem get (serving : Serving dev qos flows) (linked : LinkedTo qos flows none)
    {bearerId : BitVec 8} {allocated : Bool} (gets : LinkedTo.Got qos bearerId allocated qos' (some p)) :
    Serving dev qos' flows := by
  cases gets with
  | found there found name after =>
    rw [after]
    exact serving.of_bearer found rfl rfl rfl rfl
  | made free could after =>
    have routed := serving.routed
    have unused {p' : Nat} (there : p' ∈ qos.bearerHead) : p' ≠ qos.fresh := by
      rintro rfl
      obtain ⟨bearer, found⟩ := linked.listed _ there
      exact Nat.lt_irrefl _ (linked.below _ bearer found)
    have read {p' : Nat} {bearer' : Bearer}
        (found : (LinkedTo.withNew qos bearerId).bearers p' = some bearer') :
        (p' = qos.fresh ∧ bearer' = { bearerId }) ∨ qos.bearers p' = some bearer' := by
      by_cases same : p' = qos.fresh
      · simp only [LinkedTo.withNew, same, Function.update_self] at found
        exact .inl ⟨same, (Option.some.inj found).symm⟩
      · simp only [LinkedTo.withNew, Function.update_of_ne same] at found
        exact .inr found
    have old {i p' : Nat} {bearer' : Bearer} (inside : i < maxMqNum)
        (his : (qos.mq i).bearer = some p')
        (found : (LinkedTo.withNew qos bearerId).bearers p' = some bearer') :
        qos.bearers p' = some bearer' :=
      (read found).resolve_left fun new => unused (linked.queued i inside p' his) new.1
    rw [after]
    refine ⟨{ routed with idx := ?_, placed := ?_, acks := ?_ }, ?_, ?_⟩
    · intro i inside p' his bearer' found
      exact routed.idx i inside p' his bearer' (old inside his found)
    · intro p' there bearer' found inside
      rcases read found with ⟨rfl, rfl⟩ | found
      · exact absurd inside (by simp [invalidMq, maxMqNum])
      · rcases List.mem_cons.mp there with rfl | there
        · exact absurd (linked.below _ bearer' found) (Nat.lt_irrefl _)
        · exact routed.placed p' there bearer' found inside
    · intro p' bearer' found
      rcases read found with ⟨-, rfl⟩ | found
      · simp [invalidMq, maxMqNum]
      · exact routed.acks p' bearer' found
    · intro i inside queue p' his bearer' found
      exact serving.runs i inside queue p' his bearer' (old inside his found)
    · intro p' there bearer' found off
      rcases read found with ⟨-, rfl⟩ | found
      · cases off
      · rcases List.mem_cons.mp there with rfl | there
        · exact absurd (linked.below _ bearer' found) (Nat.lt_irrefl _)
        · exact serving.quiet p' there bearer' found off

theorem assign (serving : Serving dev qos flows) (linked : LinkedTo qos flows (some p))
    (there : p ∈ qos.bearerHead) (found : qos.bearers p = some bearer) {newMap : FlowMap}
    (name : bearer.bearerId = newMap.bearerId) (new : ∀ other ∈ flows, other.key ≠ newMap.key)
    (inside : newMap.mqIdx < maxMqNum)
    (mapped : ∀ other ∈ flows, (other.bearerId = newMap.bearerId → other.mqIdx = newMap.mqIdx) ∧
      (other.mqIdx = newMap.mqIdx → Real dev newMap.mqIdx → other.bearerId = newMap.bearerId))
    (off : bearer.txOff = true → Real dev newMap.mqIdx → (qos.mq newMap.mqIdx).bearer = some p)
    {flowHead : List FlowMap} (assigns : Assigned dev { qos with flowHead } p newMap.mqIdx qos') :
    Serving dev qos' ({ newMap with bearer := some p } :: flows) := by
  have routed := serving.routed
  have with_p {other : FlowMap} (among : other ∈ flows) (points : other.bearer = some p) :
      other.mqIdx = newMap.mqIdx := by
    obtain ⟨p', bearer', points', -, found', name'⟩ := linked.pointed other among
    rw [points] at points'
    cases points'
    rw [found] at found'
    cases found'
    exact (mapped other among).1 (name'.symm.trans name)
  have only_p {other : FlowMap} (among : other ∈ flows) (idx : other.mqIdx = newMap.mqIdx)
      (real : Real dev newMap.mqIdx) : other.bearer = some p := by
    obtain ⟨p', bearer', points', there', found', name'⟩ := linked.pointed other among
    have equal : bearer'.bearerId = bearer.bearerId :=
      (name'.trans ((mapped other among).2 idx real)).trans name.symm
    rw [points', linked.distinct p' there' p there bearer' bearer found' found equal]
  have keyed : (({ newMap with bearer := some p } :: flows).map FlowMap.key).Nodup := by
    refine List.nodup_cons.mpr ⟨fun again => ?_, routed.keyed⟩
    obtain ⟨other, among, key⟩ := List.mem_map.mp again
    exact new other among key
  have inside' : ∀ other ∈ { newMap with bearer := some p } :: flows, other.mqIdx < maxMqNum := by
    intro other among
    rcases List.mem_cons.mp among with rfl | among
    · exact inside
    · exact routed.inside other among
  have same : ∀ other ∈ { newMap with bearer := some p } :: flows,
      ∀ other' ∈ { newMap with bearer := some p } :: flows,
        other.bearer = other'.bearer → other.mqIdx = other'.mqIdx := by
    intro other among other' among' equal
    rcases List.mem_cons.mp among with rfl | among
    · rcases List.mem_cons.mp among' with rfl | among'
      · rfl
      · exact (with_p among' equal.symm).symm
    · rcases List.mem_cons.mp among' with rfl | among'
      · exact with_p among equal
      · exact routed.same other among other' among' equal
  cases assigns with
  | kept why after =>
    rw [after]
    refine { serving with routed := { routed with keyed, inside := inside', same, owned := ?_,
                                                  assigned := ?_ } }
    · intro other among p' points real
      rcases List.mem_cons.mp among with rfl | among
      · rcases why with default | taken
        · exact absurd default real
        · obtain ⟨p'', his⟩ := Option.isSome_iff_exists.mp taken
          obtain ⟨-, other, among, points', idx⟩ := routed.assigned _ inside p'' his
          rw [only_p among idx real] at points'
          exact his.trans (points'.symm.trans points)
      · exact routed.owned other among p' points real
    · intro i inside p' his
      obtain ⟨real, other, among, points⟩ := routed.assigned i inside p' his
      exact ⟨real, other, List.mem_cons_of_mem _ among, points⟩
  | @taken real free bearer' found' ackMqIdx ack running opened after =>
    have apart {i p' : Nat} (differs : i ≠ newMap.mqIdx) (inside : i < maxMqNum)
        (his : (qos.mq i).bearer = some p') : p' ≠ p := by
      rintro rfl
      obtain ⟨-, other, among, points, idx⟩ := routed.assigned i inside p' his
      exact differs (idx.symm.trans (with_p among points))
    have nonzero : dev.sa = true → newMap.mqIdx ≠ 0 := fun sa zero => real ⟨sa, zero⟩
    dsimp only at found' free
    rw [found] at found'
    cases found'
    rw [after]
    refine ⟨⟨keyed, inside', same, ?_, ?_, ?_, ?_, ?_⟩, ?_, ?_⟩
    · intro other among p' points real'
      by_cases here : other.mqIdx = newMap.mqIdx
      · simp only [here, Function.update_self]
        rcases List.mem_cons.mp among with rfl | among
        · exact points
        · rw [← points]
          exact (only_p among here real).symm
      · simp only [Function.update_of_ne here]
        rcases List.mem_cons.mp among with rfl | among
        · exact absurd rfl here
        · exact routed.owned other among p' points real'
    · intro i inside p' his
      by_cases here : i = newMap.mqIdx
      · simp only [here, Function.update_self] at his
        exact ⟨here ▸ real, _, List.mem_cons_self, his, here.symm⟩
      · simp only [Function.update_of_ne here] at his
        obtain ⟨real', other, among, points⟩ := routed.assigned i inside p' his
        exact ⟨real', other, List.mem_cons_of_mem _ among, points⟩
    · intro i inside p' his bearer' found'
      by_cases here : i = newMap.mqIdx
      · simp only [here, Function.update_self] at his
        cases his
        simp only [Function.update_self] at found'
        cases found'
        exact here.symm
      · simp only [Function.update_of_ne here] at his
        have other : p' ≠ p := apart here inside his
        simp only [Function.update_of_ne other] at found'
        exact routed.idx i inside p' his bearer' found'
    · intro p' there' bearer' found' inside
      by_cases here : p' = p
      · subst here
        simp only [Function.update_self] at found'
        cases found'
        simp only [Function.update_self]
      · simp only [Function.update_of_ne here] at found'
        have his := routed.placed p' there' bearer' found' inside
        have elsewhere : bearer'.mqIdx ≠ newMap.mqIdx := by
          intro equal
          rw [equal, free] at his
          cases his
        simp only [Function.update_of_ne elsewhere, his]
    · intro p' bearer' found'
      by_cases here : p' = p
      · subst here
        simp only [Function.update_self] at found'
        cases found'
        simp only [ack]
        split
        · rename_i sa
          have := nonzero sa
          unfold ackMqOffset maxMqNum
          omega
        · exact routed.acks p' bearer found
      · simp only [Function.update_of_ne here] at found'
        exact routed.acks p' bearer' found'
    · intro i inside queue p' his bearer' found'
      have opened := opened i
      by_cases here : i = newMap.mqIdx
      · subst here
        rw [if_pos ⟨queue, .inl rfl⟩] at opened
        simp only [Function.update_self] at his
        cases his
        simp only [Function.update_self] at found'
        cases found'
        simp only [opened, true_iff]
        split
        · decide
        · assumption
      · simp only [Function.update_of_ne here] at his
        have other : p' ≠ p := apart here inside his
        simp only [Function.update_of_ne other] at found'
        rw [if_neg] at opened
        · simp only [opened]
          exact serving.runs i inside queue p' his bearer' found'
        · rintro ⟨-, equal | ⟨sa, equal⟩⟩
          · exact here equal
          · have := nonzero sa
            unfold ackMqOffset maxMqNum at *
            omega
    · intro p' there' bearer' found' isOff
      by_cases here : p' = p
      · subst here
        simp only [Function.update_self] at found'
        cases found'
        have his := off isOff real
        rw [free] at his
        cases his
      · simp only [Function.update_of_ne here] at found'
        exact serving.quiet p' there' bearer' found' isOff

end Serving

end VendorModules.Qos
