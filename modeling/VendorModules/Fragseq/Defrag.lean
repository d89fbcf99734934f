import VendorModules.Fragseq.Create

namespace VendorModules.Fragseq

open Lib

structure SuccessorFrag where
  pos : Nat
  totalLen : Nat
  payloadLen : Nat
  deriving DecidableEq, Repr

/-- `wlan_get_elemsubelem_successorfrag`: the fragment right behind the unit at
`curr`, if there is one. -/
def successorFrag (fragId : UInt8) (curr : Nat) (buff : Buffer) :
    Except Failure (Option SuccessorFrag) :=
  if buff.length = 0 then
    .error (.status .eInval)
  else if buff.length < curr + elemunitHdrLen then
    .error (.status .eProto)
  else do
    let currLen ← loadByte buff (curr + 1)
    let next := curr + (elemunitHdrLen + currLen.toNat)
    if buff.length < next then
      .error (.status .eProto)
    else if buff.length = next then
      .ok none
    else if buff.length < next + elemunitHdrLen then
      .error (.status .eProto)
    else
      let nextLen ← loadByte buff (next + 1)
      if buff.length < next + (elemunitHdrLen + nextLen.toNat) then
        .error (.status .eProto)
      else
        let nextId ← loadByte buff next
        if nextId ≠ fragId then
          .ok none
        else if currLen.toNat ≠ elemunitMaxPayloadLen then
          .error (.status .eProto)
        else if nextLen.toNat = 0 then
          .error (.status .eProto)
        else
          .ok (some
            { pos := next
              totalLen := elemunitHdrLen + nextLen.toNat
              payloadLen := nextLen.toNat })

theorem bind_eq_ok {α β : Type} {result : Except Failure α}
    {next : α → Except Failure β} {b : β} (ran : (result >>= next) = .ok b) :
    ∃ a, result = .ok a ∧ next a = .ok b := by
  cases result with
  | error fault => cases ran
  | ok a => exact ⟨a, rfl, ran⟩

theorem successorFrag_pos {fragId : UInt8} {curr : Nat} {buff : Buffer}
    {next : SuccessorFrag} (found : successorFrag fragId curr buff = .ok (some next)) :
    curr < next.pos ∧ next.pos < buff.length := by
  unfold successorFrag at found
  split at found
  · cases found
  split at found
  · cases found
  obtain ⟨currLen, _, found⟩ := bind_eq_ok found
  simp only at found
  split at found
  · cases found
  split at found
  · cases found
  split at found
  · cases found
  obtain ⟨nextLen, _, found⟩ := bind_eq_ok found
  split at found
  · cases found
  obtain ⟨nextId, _, found⟩ := bind_eq_ok found
  split at found
  · cases found
  split at found
  · cases found
  split at found
  · cases found
  cases found
  simp only [elemunitHdrLen] at *
  omega

structure FragseqInfo where
  totalLen : Nat
  payloadLen : Nat
  deriving DecidableEq, Repr

/-- The loop over the successors of the unit at `curr`. -/
def fragseqInfoLoop (fragId : UInt8) (buff : Buffer) (curr : Nat) (info : FragseqInfo) :
    Except Failure FragseqInfo :=
  match _found : successorFrag fragId curr buff with
  | .error failure => .error failure
  | .ok none => .ok info
  | .ok (some next) =>
    fragseqInfoLoop fragId buff next.pos
      { totalLen := info.totalLen + next.totalLen
        payloadLen := info.payloadLen + next.payloadLen }
termination_by buff.length - curr
decreasing_by
  have advance := successorFrag_pos _found
  omega

def leadPayloadLen (isSubelem : Bool) (id len : UInt8) : Nat :=
  if hasIdExt isSubelem id then len.toNat - 1 else len.toNat

/-- `wlan_get_elemsubelem_fragseq_info`: nothing when the buffer starts with a unit that
is not fragmented. -/
def fragseqInfo (isSubelem : Bool) (subelemFragId : UInt8) (buff? : Option Buffer) :
    Except Failure (Option FragseqInfo) :=
  match buff? with
  | none => .error (.status .eNullValue)
  | some buff =>
    if buff.length = 0 then
      .error (.status .eInval)
    else if buff.length < elemunitHdrLen then
      .error (.status .eProto)
    else do
      let len ← loadByte buff 1
      let id ← loadByte buff 0
      if buff.length < elemunitHdrLen + len.toNat then
        .error (.status .eProto)
      else
        match ← successorFrag (elemunitFragId isSubelem subelemFragId) 0 buff with
        | none => .ok none
        | some next =>
          let info ← fragseqInfoLoop (elemunitFragId isSubelem subelemFragId) buff
            next.pos
            { totalLen := elemunitHdrLen + len.toNat + next.totalLen
              payloadLen := leadPayloadLen isSubelem id len + next.payloadLen }
          .ok (some info)

/-- Where the loop of the defragmentation stands: the unit it looks at, where the next payload
bytes go, how many there are so far, and how much of the source is left. -/
structure DefragState where
  dest : Buffer
  curr : Nat
  dst : Nat
  payloadLen : Nat
  remLen : Nat
  deriving DecidableEq, Repr

def defragLoop (inlineDefrag : Bool) (fragId : UInt8) (source : Buffer)
    (state : DefragState) : Except Failure DefragState := do
  let buff := if inlineDefrag then state.dest else source
  let id ← loadByte buff state.curr
  if id = fragId then
    let len ← loadByte buff (state.curr + 1)
    let bytes ← load buff (state.curr + elemunitHdrLen) len.toNat
    let dest ← store state.dest bytes state.dst
    let remLen := state.remLen - (elemunitHdrLen + len.toNat)
    if _ended : remLen = 0 then
      .ok
        { state with
          dest := dest
          payloadLen := state.payloadLen + len.toNat
          remLen := 0 }
    else
      defragLoop inlineDefrag fragId source
        { dest := dest
          curr := state.curr + (elemunitHdrLen + len.toNat)
          dst := state.dst + len.toNat
          payloadLen := state.payloadLen + len.toNat
          remLen := remLen }
  else
    .ok state
termination_by state.remLen
decreasing_by
  simp only [elemunitHdrLen] at *
  omega

structure DefragCall where
  inlineDefrag : Bool
  isSubelem : Bool
  subelemFragId : UInt8
  fragBuff : Option Buffer
  defragBuff : Option Buffer
  deriving Repr

namespace DefragCall

def fragId (call : DefragCall) : UInt8 :=
  elemunitFragId call.isSubelem call.subelemFragId

def moveResidual (call : DefragCall) (state : DefragState) :
    Except Failure (Nat × Buffer) :=
  if call.inlineDefrag ∧ state.remLen ≠ 0 then do
    let bytes ← load state.dest state.curr state.remLen
    let dest ← store state.dest bytes state.dst
    .ok (state.payloadLen, dest)
  else
    .ok (state.payloadLen, state.dest)

def joinFrags (call : DefragCall) (source dest : Buffer) :
    Except Failure (Nat × Buffer) := do
  let id ← loadByte source 0
  let len ← loadByte source 1
  let payloadLen := leadPayloadLen call.isSubelem id len
  let src := if hasIdExt call.isSubelem id then elemunitHdrLen + 1 else elemunitHdrLen
  let bytes ← load source src payloadLen
  -- in the inline mode the lead element stays where it is
  let copied ← if call.inlineDefrag then .ok dest else store dest bytes 0
  let state ← defragLoop call.inlineDefrag call.fragId source
    { dest := copied
      curr := elemunitHdrLen + len.toNat
      dst := (if call.inlineDefrag then src else 0) + payloadLen
      payloadLen := payloadLen
      remLen := source.length - (elemunitHdrLen + len.toNat) }
  call.moveResidual state

/-- `wlan_defrag_elemsubelem_fragseq`: the length of the payload and the buffer that
holds it, the source itself in the inline mode. -/
def defragFragseq (call : DefragCall) : Except Failure (Nat × Buffer) :=
  match call.fragBuff with
  | none => .error (.status .eNullValue)
  | some source =>
    if source.length = 0 then
      .error (.status .eInval)
    else if call.inlineDefrag then do
      match ← fragseqInfo call.isSubelem call.subelemFragId (some source) with
      | none => .error (.status .eInval)
      | some _ => call.joinFrags source source
    else
      match call.defragBuff with
      | none => .error (.status .eNullValue)
      | some dest =>
        if dest.length = 0 then
          .error (.status .eInval)
        else do
          match ← fragseqInfo call.isSubelem call.subelemFragId (some source) with
          | none => .error (.status .eInval)
          | some info =>
            if dest.length < info.payloadLen then
              .error (.status .eInval)
            else
              call.joinFrags source dest

end DefragCall

end VendorModules.Fragseq
