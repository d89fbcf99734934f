import VendorModules.Lib.Words
import Mathlib.Data.List.Basic
import Mathlib.Logic.Function.Basic

/-!
# The TID-to-link mapping element

The encoder writes one element for each direction that has a mapping; the decoder takes the
layout of an element from its control field. Both keep the count of its bytes apart from the
bytes, the encoder in the length field and the decoder in what it has parsed.
-/

namespace VendorModules.T2lm

open Lib

abbrev U8 := BitVec 8

abbrev U16 := BitVec 16

abbrev U32 := BitVec 32

inductive Direction
  | dl
  | ul
  | bidi
  | max
  | invalid
  deriving Repr, DecidableEq

def Direction.code : Direction → U16
  | .dl => 0
  | .ul => 1
  | .bidi => 2
  | .max => 3
  | .invalid => 4

/-- The directions below `WLAN_T2LM_MAX_DIRECTION`, in the order of the loops over them. -/
def directions : List Direction := [.dl, .ul, .bidi]

def t2lmMaxNumTids : Nat := 8

def t2lmCtrlSize : Nat := 2

def expectedDurationSize : Nat := 3

def elemIdExtnElem : U8 := 255

def extnElemIdT2lm : U8 := 109

def sizeofIeHeader : Nat := 2

def sizeofExtnIeHeader : Nat := 3

structure T2lmInfo where
  direction : Direction
  defaultLinkMapping : Bool
  mappingSwitchTimePresent : Bool
  expectedDurationPresent : Bool
  mappingSwitchTime : U16
  expectedDuration : U32
  ieeeLinkMapTid : Nat → U16
  hwLinkMapTid : Nat → U16
  linkMappingSize : Bool

def T2lmInfo.zero : T2lmInfo where
  direction := .dl
  defaultLinkMapping := false
  mappingSwitchTimePresent := false
  expectedDurationPresent := false
  mappingSwitchTime := 0
  expectedDuration := 0
  ieeeLinkMapTid := fun _ => 0
  hwLinkMapTid := fun _ => 0
  linkMappingSize := false

/-- `t2lm_info` of a negotiation, indexed by direction. -/
abbrev Negotiation := Direction → T2lmInfo

inductive Status
  | success
  | nullValue
  | proto
  | failure
  deriving Repr, DecidableEq

def bit (flag : Bool) : U16 := if flag then 1 else 0

def htole16 (value : U16) : List U8 := [value.setWidth 8, (value >>> 8).setWidth 8]

def le16ToCpu (low high : U8) : U16 := low.setWidth 16 ||| (high.setWidth 16 <<< 8)

def durationBytes (value : U32) : List U8 :=
  [value.setWidth 8, (value >>> 8).setWidth 8, (value >>> 16).setWidth 8]

def durationOfBytes (low middle high : U8) : U32 :=
  low.setWidth 32 ||| (middle.setWidth 32 <<< 8) ||| (high.setWidth 32 <<< 16)

/-! ## Encoding -/

def controlFlags (t2lm : T2lmInfo) : U16 :=
  let control := BitField.set 0 0 2 t2lm.direction.code
  let control := BitField.set control 2 1 (bit t2lm.defaultLinkMapping)
  let control := BitField.set control 3 1 (bit t2lm.mappingSwitchTimePresent)
  let control := BitField.set control 4 1 (bit t2lm.expectedDurationPresent)
  BitField.set control 5 1 (bit t2lm.linkMappingSize)

def presenceIndicator (t2lm : T2lmInfo) : U8 :=
  (List.range t2lmMaxNumTids).foldl (fun indicator tid =>
    if t2lm.hwLinkMapTid tid ≠ 0 ∨ t2lm.ieeeLinkMapTid tid ≠ 0 then indicator ||| (1#8 <<< tid)
    else indicator) 0

def linkMapBytes (oneOctet : Bool) (map : U16) : List U8 :=
  if oneOctet then [map.setWidth 8] else htole16 map

structure Draft where
  bytes : List U8
  elemLen : U8

def Draft.put (draft : Draft) (bytes : List U8) (count : U8) : Draft :=
  { bytes := draft.bytes ++ bytes, elemLen := draft.elemLen + count }

def putLinkMaps (t2lm : T2lmInfo) : List Nat → List U8 × U8
  | [] => ([], 0)
  | tid :: tids =>
    let (bytes, numTids) := putLinkMaps t2lm tids
    if t2lm.ieeeLinkMapTid tid = 0 then (bytes, numTids)
    else (linkMapBytes t2lm.linkMappingSize (t2lm.ieeeLinkMapTid tid) ++ bytes, numTids + 1)

/-- One element. `vdevMlme` is the mapping switch time of the vdev's MLME object, when it has
one; without it an element with a switch time is dropped again. -/
def addT2lmInfoIe (vdevMlme : Option U16) (t2lm : T2lmInfo) : List U8 :=
  let draft : Draft := { bytes := [], elemLen := 1 }
  let draft :=
    if t2lm.defaultLinkMapping then draft.put [(controlFlags t2lm).setWidth 8] 1
    else
      draft.put
        (htole16 (BitField.set (controlFlags t2lm) 8 8 ((presenceIndicator t2lm).setWidth 16))) 2
  let timed : Option Draft :=
    if t2lm.mappingSwitchTimePresent then vdevMlme.map fun time => draft.put (htole16 time) 2
    else some draft
  match timed with
  | none => []
  | some draft =>
    let draft :=
      if t2lm.expectedDurationPresent then draft.put (durationBytes t2lm.expectedDuration) 3
      else draft
    let draft :=
      if t2lm.defaultLinkMapping then draft
      else
        let (bytes, numTids) := putLinkMaps t2lm (List.range t2lmMaxNumTids)
        draft.put bytes (if t2lm.linkMappingSize then numTids else numTids * 2)
    elemIdExtnElem :: draft.elemLen :: extnElemIdT2lm :: draft.bytes

def bothKinds (t2lm : Negotiation) : Bool :=
  ((t2lm .dl).direction = .dl || (t2lm .ul).direction = .ul) && (t2lm .bidi).direction = .bidi

def addT2lmIe (vdevMlme : Option U16) (t2lm : Negotiation) : Option (List U8) :=
  if bothKinds t2lm then none
  else
    some <| directions.flatMap fun dir =>
      if (t2lm dir).direction ≠ .invalid then addT2lmInfoIe vdevMlme (t2lm dir) else []

/-! ## Decoding -/

/-- How far the element was parsed: the length that is accounted for and the bytes that follow. -/
structure Cursor where
  parsed : Nat
  rest : List U8

def Cursor.skip (cursor : Cursor) (count : Nat) : Cursor :=
  { parsed := cursor.parsed + count, rest := cursor.rest.drop count }

def Direction.ofBits (dir : U16) : Option Direction :=
  if dir = 0 then some .dl else if dir = 1 then some .ul else if dir = 2 then some .bidi else none

def parseSwitchTime (ieLen : Nat) (t2lm : T2lmInfo) (cursor : Cursor) :
    Option (T2lmInfo × Cursor) :=
  if t2lm.mappingSwitchTimePresent then
    if ieLen < cursor.parsed + 2 then none
    else
      let time := le16ToCpu (cursor.rest.getD 0 0) (cursor.rest.getD 1 0)
      some ({ t2lm with mappingSwitchTime := time }, cursor.skip 2)
  else some (t2lm, cursor)

def parseDuration (ieLen : Nat) (t2lm : T2lmInfo) (cursor : Cursor) :
    Option (T2lmInfo × Cursor) :=
  if t2lm.expectedDurationPresent then
    if ieLen < cursor.parsed + expectedDurationSize then none
    else
      let duration := durationOfBytes (cursor.rest.getD 0 0) (cursor.rest.getD 1 0)
        (cursor.rest.getD 2 0)
      some ({ t2lm with expectedDuration := duration }, cursor.skip expectedDurationSize)
  else some (t2lm, cursor)

def parseLinkMaps (ieLen : Nat) (presence : U8) :
    List Nat → T2lmInfo → Cursor → Option (T2lmInfo × Cursor)
  | [], t2lm, cursor => some (t2lm, cursor)
  | tid :: tids, t2lm, cursor =>
    if presence &&& (1#8 <<< tid) = 0 then parseLinkMaps ieLen presence tids t2lm cursor
    else
      let count := if t2lm.linkMappingSize then 1 else 2
      if ieLen < cursor.parsed + count then none
      else
        let map : U16 :=
          if t2lm.linkMappingSize then (cursor.rest.getD 0 0).setWidth 16
          else le16ToCpu (cursor.rest.getD 0 0) (cursor.rest.getD 1 0)
        parseLinkMaps ieLen presence tids
          { t2lm with ieeeLinkMapTid := Function.update t2lm.ieeeLinkMapTid tid map }
          (cursor.skip count)

def parseControl (control : U16) (dir : Direction) (t2lm : T2lmInfo) : T2lmInfo :=
  { t2lm with
    direction := dir
    defaultLinkMapping := BitField.get control 2 1 ≠ 0
    mappingSwitchTimePresent := BitField.get control 3 1 ≠ 0
    expectedDurationPresent := BitField.get control 4 1 ≠ 0
    linkMappingSize := BitField.get control 5 1 ≠ 0 }

def parseFields (ieLen : Nat) (control : U16) (t2lm : T2lmInfo) (cursor : Cursor) :
    Option T2lmInfo := do
  let (t2lm, cursor) ← parseSwitchTime ieLen t2lm cursor
  let (t2lm, cursor) ← parseDuration ieLen t2lm cursor
  if t2lm.defaultLinkMapping then
    if cursor.parsed < ieLen then none else some t2lm
  else
    let presence : U8 := (BitField.get control 8 8).setWidth 8
    let (t2lm, cursor) ← parseLinkMaps ieLen presence (List.range t2lmMaxNumTids) t2lm cursor
    if cursor.parsed < ieLen then none else some t2lm

/-- The element at the start of `ie`, into a mapping that was set to zero. -/
def parseT2lmInfo (ie : List U8) : Except Status T2lmInfo :=
  let ieLen := (ie.getD 1 0).toNat
  if ieLen < t2lmCtrlSize then .error .proto
  else
    let field := ie.drop sizeofExtnIeHeader
    let control : U16 :=
      if t2lmCtrlSize < ieLen then le16ToCpu (field.getD 0 0) (field.getD 1 0)
      else (field.getD 0 0).setWidth 16
    match Direction.ofBits (BitField.get control 0 2) with
    | none => .error .nullValue
    | some dir =>
      let t2lm := parseControl control dir .zero
      let count := if t2lm.defaultLinkMapping then 1 else 2
      if ieLen < 1 + count then .error .proto
      else
        match parseFields ieLen control t2lm { parsed := 1 + count, rest := field.drop count } with
        | none => .error .proto
        | some t2lm => .ok t2lm

/-- The loop of `wlan_mlo_parse_t2lm_ie`, with the iterations it has left: the status it returns
early, or none when it runs to its end. -/
def parseElements (frameLen : Nat) :
    Nat → Nat → List U8 → Negotiation → Option Status × Negotiation
  | 0, _, _, t2lm => (none, t2lm)
  | n + 1, parsed, ie, t2lm =>
    if frameLen = 0 then (some .nullValue, t2lm)
    else if frameLen = parsed then (some .success, t2lm)
    else if frameLen < parsed + sizeofExtnIeHeader then (some .proto, t2lm)
    else if ie.getD 0 0 = elemIdExtnElem ∧ ie.getD 2 0 = extnElemIdT2lm then
      let size := (ie.getD 1 0).toNat + sizeofIeHeader
      if frameLen < parsed + size then (some .proto, t2lm)
      else
        match parseT2lmInfo ie with
        | .error status => (some status, t2lm)
        | .ok info =>
          parseElements frameLen n (parsed + size) (ie.drop size)
            (Function.update t2lm info.direction info)
    else parseElements frameLen n parsed ie t2lm

def Negotiation.invalidate (t2lm : Negotiation) : Negotiation := fun dir =>
  { t2lm dir with direction := .invalid }

def parseT2lmIe (t2lm : Negotiation) (ie : List U8) (frameLen : Nat) : Status × Negotiation :=
  match parseElements frameLen directions.length 0 ie t2lm.invalidate with
  | (some status, t2lm) => (status, t2lm)
  | (none, t2lm) =>
    if bothKinds t2lm then (.failure, Negotiation.invalidate fun _ => .zero)
    else (.success, t2lm)

end VendorModules.T2lm
