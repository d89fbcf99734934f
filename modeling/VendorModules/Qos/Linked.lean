import Mathlib.Data.List.Perm.Basic
import VendorModules.Qos.Shape

namespace VendorModules.Qos

/-- The links between bearers, some flows and the queues. Where a section under the lock has a
reference to a bearer that is no flow's, that bearer is held. -/
structure LinkedTo (qos : QosInfo) (flows : List FlowMap) (held : Option Nat) : Prop where
  nodup : qos.bearerHead.Nodup
  listed : ∀ p ∈ qos.bearerHead, ∃ bearer, qos.bearers p = some bearer
  below : ∀ p bearer, qos.bearers p = some bearer → p < qos.fresh
  distinct : ∀ p ∈ qos.bearerHead, ∀ p' ∈ qos.bearerHead, ∀ bearer bearer',
    qos.bearers p = some bearer → qos.bearers p' = some bearer' →
      bearer.bearerId = bearer'.bearerId → p = p'
  pointed : ∀ itm ∈ flows, ∃ p bearer, itm.bearer = some p ∧ p ∈ qos.bearerHead ∧
    qos.bearers p = some bearer ∧ bearer.bearerId = itm.bearerId
  counted : ∀ p ∈ qos.bearerHead, ∀ bearer, qos.bearers p = some bearer →
    bearer.flowRef = ((flows.countP (·.bearer == some p) : Nat) : Int) +
      if held = some p then 1 else 0
  queued : ∀ i < maxMqNum, ∀ p, (qos.mq i).bearer = some p → p ∈ qos.bearerHead

namespace LinkedTo

variable {dev : Device} {qos qos' : QosInfo} {flows flows' : List FlowMap} {held : Option Nat}
  {p : Nat} {itm : FlowMap}

theorem of_init : LinkedTo QosInfo.init [] none where
  nodup := List.nodup_nil
  listed := by simp [QosInfo.init]
  below := by simp [QosInfo.init]
  distinct := by simp [QosInfo.init]
  pointed := by simp
  counted := by simp [QosInfo.init]
  queued := by simp [QosInfo.init]

theorem of_shape (linked : LinkedTo qos flows held) (same : SameShape qos qos') :
    LinkedTo qos' flows held := by
  have back (p : Nat) {bearer' : Bearer} (found : qos'.bearers p = some bearer') :
      ∃ bearer, qos.bearers p = some bearer ∧ bearer.ties = bearer'.ties := by
    have tied := same.bearers p
    rw [found, Option.map_some] at tied
    exact Option.map_eq_some_iff.mp tied.symm
  constructor
  · rw [same.bearerHead]
    exact linked.nodup
  · intro p there
    rw [same.bearerHead] at there
    obtain ⟨bearer, found⟩ := linked.listed p there
    obtain ⟨bearer', found', -⟩ := same.bearer_of found
    exact ⟨bearer', found'⟩
  · intro p bearer' found'
    obtain ⟨bearer, found, -⟩ := back p found'
    rw [same.fresh]
    exact linked.below p bearer found
  · intro p there p' there' bearer bearer' found found' equal
    rw [same.bearerHead] at there there'
    obtain ⟨before, was, ties⟩ := back p found
    obtain ⟨before', was', ties'⟩ := back p' found'
    apply linked.distinct p there p' there' before before' was was'
    calc before.bearerId = bearer.bearerId := congrArg Ties.bearerId ties
      _ = bearer'.bearerId := equal
      _ = before'.bearerId := (congrArg Ties.bearerId ties').symm
  · intro itm member
    obtain ⟨p, bearer, points, there, found, name⟩ := linked.pointed itm member
    obtain ⟨bearer', found', ties⟩ := same.bearer_of found
    refine ⟨p, bearer', points, by rwa [same.bearerHead], found', ?_⟩
    exact (congrArg Ties.bearerId ties).trans name
  · intro p there bearer' found'
    rw [same.bearerHead] at there
    obtain ⟨bearer, found, ties⟩ := back p found'
    rw [← linked.counted p there bearer found]
    exact (congrArg Ties.flowRef ties).symm
  · intro i inside p queued
    rw [same.mq] at queued
    rw [same.bearerHead]
    exact linked.queued i inside p queued

theorem of_perm (linked : LinkedTo qos flows held) (perm : flows.Perm flows') :
    LinkedTo qos flows' held :=
  { linked with
    pointed := fun itm member => linked.pointed itm (perm.mem_iff.mpr member)
    counted := fun p there bearer found => by
      rw [linked.counted p there bearer found, perm.countP_eq] }

theorem unlink (linked : LinkedTo qos (itm :: flows) none) (points : itm.bearer = some p) :
    LinkedTo qos flows (some p) :=
  { linked with
    pointed := fun other member => linked.pointed other (List.mem_cons_of_mem _ member)
    counted := fun p' there bearer found => by
      rw [linked.counted p' there bearer found, List.countP_cons, points]
      by_cases same : p = p'
      · simp [same]
      · simp [same] }

theorem link (linked : LinkedTo qos flows (some p)) (points : itm.bearer = some p)
    (there : p ∈ qos.bearerHead) {bearer : Bearer} (found : qos.bearers p = some bearer)
    (name : bearer.bearerId = itm.bearerId) : LinkedTo qos (itm :: flows) none :=
  { linked with
    pointed := fun other member => by
      rcases List.mem_cons.mp member with rfl | member
      · exact ⟨p, bearer, points, there, found, name⟩
      · exact linked.pointed other member
    counted := fun p' there bearer found => by
      rw [linked.counted p' there bearer found, List.countP_cons, points]
      by_cases same : p = p'
      · simp [same]
      · simp [same] }

theorem of_recount (linked : LinkedTo qos flows held) (held' : Option Nat) {bearer : Bearer}
    (found : qos.bearers p = some bearer) (bearer' : Bearer)
    (name : bearer'.bearerId = bearer.bearerId)
    (others : ∀ p', p' ≠ p → (held' = some p' ↔ held = some p'))
    (recounted : p ∈ qos.bearerHead →
      bearer'.flowRef = ((flows.countP (·.bearer == some p) : Nat) : Int) +
        if held' = some p then 1 else 0) :
    LinkedTo { qos with bearers := Function.update qos.bearers p (some bearer') } flows held' := by
  have read (p' : Nat) (bearer'' : Bearer)
      (found' : Function.update qos.bearers p (some bearer') p' = some bearer'') :
      (p' = p ∧ bearer'' = bearer') ∨ (p' ≠ p ∧ qos.bearers p' = some bearer'') := by
    by_cases same : p' = p
    · subst same
      rw [Function.update_self] at found'
      exact .inl ⟨rfl, (Option.some.inj found').symm⟩
    · rw [Function.update_of_ne same] at found'
      exact .inr ⟨same, found'⟩
  have named (p' : Nat) (bearer'' : Bearer)
      (found' : Function.update qos.bearers p (some bearer') p' = some bearer'') :
      ∃ before, qos.bearers p' = some before ∧ before.bearerId = bearer''.bearerId := by
    rcases read p' bearer'' found' with ⟨rfl, rfl⟩ | ⟨_, there⟩
    · exact ⟨bearer, found, name.symm⟩
    · exact ⟨bearer'', there, rfl⟩
  have written (p' : Nat) {before : Bearer} (was : qos.bearers p' = some before) :
      ∃ bearer'', Function.update qos.bearers p (some bearer') p' = some bearer'' ∧
        bearer''.bearerId = before.bearerId := by
    by_cases same : p' = p
    · subst same
      rw [found] at was
      cases was
      exact ⟨bearer', Function.update_self .., name⟩
    · exact ⟨before, by rw [Function.update_of_ne same, was], rfl⟩
  constructor
  · exact linked.nodup
  · intro p' there
    obtain ⟨before, was⟩ := linked.listed p' there
    obtain ⟨bearer'', now, -⟩ := written p' was
    exact ⟨bearer'', now⟩
  · intro p' bearer'' found'
    obtain ⟨before, was, -⟩ := named p' bearer'' found'
    exact linked.below p' before was
  · intro p₁ there₁ p₂ there₂ b₁ b₂ found₁ found₂ equal
    obtain ⟨before₁, was₁, name₁⟩ := named p₁ b₁ found₁
    obtain ⟨before₂, was₂, name₂⟩ := named p₂ b₂ found₂
    apply linked.distinct p₁ there₁ p₂ there₂ before₁ before₂ was₁ was₂
    rw [name₁, equal, name₂]
  · intro itm member
    obtain ⟨p', before, points, there, was, name'⟩ := linked.pointed itm member
    obtain ⟨bearer'', now, name''⟩ := written p' was
    exact ⟨p', bearer'', points, there, now, name''.trans name'⟩
  · intro p' there bearer'' found'
    rcases read p' bearer'' found' with ⟨rfl, rfl⟩ | ⟨differs, was⟩
    · exact recounted there
    · rw [linked.counted p' there bearer'' was]
      simp only [others p' differs]
  · exact linked.queued

end LinkedTo

end VendorModules.Qos
