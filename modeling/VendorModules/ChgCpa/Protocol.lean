import Mathlib.Data.Finset.Basic
import Mathlib.Data.Finset.Lattice.Basic
import Mathlib.Logic.Function.Basic

namespace VendorModules.ChgCpa

/-! The charge protocols, what an adapter shows of them, and their priority. -/

/-- `CHG_PROTOCOL_*`. `CHG_PROTOCOL_INVALID` is the absent protocol. -/
inductive Protocol
  | bc12 | pd | pps | vooc | ufcs | qc
  deriving DecidableEq, Repr

namespace Protocol

def all : List Protocol := [bc12, pd, pps, vooc, ufcs, qc]

end Protocol

/-- `OPLUS_CHG_USB_TYPE_*`. -/
inductive UsbType
  | unknown | sdp | dcp | cdp | aca | c | pd | pdDrp | pdPps | pdSdp | appleBrickId | qc2 | qc3
  | vooc | svooc | ufcs
  deriving DecidableEq, Repr

/-- `oplus_cpa_chg_type_to_protocol_type`. -/
def chgTypeToProtocolType : UsbType → Option Protocol
  | .qc2 | .qc3 => some .qc
  | .pd | .pdDrp => some .pd
  | .pdPps => some .pps
  | .vooc | .svooc => some .vooc
  | .ufcs => some .ufcs
  | .sdp | .dcp | .cdp | .aca | .c | .appleBrickId | .pdSdp => some .bc12
  | .unknown => none

/-! ### Priority -/

/-- An entry of `protocol_prio_table`. -/
structure ProtocolInfo where
  type : Option Protocol
  powerMw : Int
  maxPowerMw : Int

/-- The place of an entry among those before it: in front of the first one that has less power,
where entries without power are passed by. -/
def insertBackup (info : ProtocolInfo) : List ProtocolInfo → List ProtocolInfo
  | [] => [info]
  | first :: rest =>
    if 0 < first.powerMw ∧ first.powerMw < info.powerMw then info :: first :: rest
    else first :: insertBackup info rest

/-- The table in the order of power, as `get_highest_priority_protocol_type` builds it. -/
def backupTable (table : List ProtocolInfo) : List ProtocolInfo :=
  table.foldl (fun backup info =>
    if info.powerMw ≤ 0 then backup ++ [info] else insertBackup info backup) []

def getHighestPriorityProtocolType (table : List ProtocolInfo) (protocol : Finset Protocol) :
    Option Protocol :=
  (backupTable table).findSome? fun info => info.type.filter (· ∈ protocol)

theorem mem_of_highestPriority {table : List ProtocolInfo} {protocol : Finset Protocol}
    {type : Protocol} (highest : getHighestPriorityProtocolType table protocol = some type) :
    type ∈ protocol := by
  obtain ⟨info, -, found⟩ := List.exists_of_findSome?_eq_some highest
  obtain ⟨-, member⟩ := Option.filter_eq_some_iff.mp found
  exact of_decide_eq_true member

/-! ### What an adapter is shown as -/

structure ProtocolMap where
  protocol : Finset Protocol
  type : Protocol → UsbType

namespace ProtocolMap

def empty : ProtocolMap := ⟨∅, fun _ => .unknown⟩

def add (map : ProtocolMap) (protocol : Protocol) (type : UsbType) : ProtocolMap where
  protocol := insert protocol map.protocol
  type := Function.update map.type protocol type

/-- `oplus_cpa_protocol_add_type`. -/
def protocolAddType (map : ProtocolMap) (type : UsbType) : ProtocolMap :=
  match chgTypeToProtocolType type with
  | some protocol => map.add protocol type
  | none => map

def addCompatible (supported : Finset Protocol) (map : ProtocolMap) : Protocol → ProtocolMap
  | .bc12 => map
  | .pd | .pps =>
    if .pd ∈ supported then map.add .pd .pd
    else if .bc12 ∈ supported then map.add .bc12 .dcp
    else map
  | .vooc | .ufcs | .qc => if .bc12 ∈ supported then map.add .bc12 .dcp else map

/-- `oplus_cpa_remove_unsupported_protocol`. -/
def removeUnsupportedProtocol (supported : Finset Protocol) (map : ProtocolMap) : ProtocolMap :=
  Protocol.all.foldl (fun map protocol =>
    if protocol ∉ map.protocol then map
    else if protocol ∈ supported then map
    else { map with protocol := map.protocol.erase protocol }.addCompatible supported protocol) map

/-- `oplus_cpa_get_high_prio_wired_type`. -/
def getHighPrioWiredType (table : List ProtocolInfo) (map : ProtocolMap) : UsbType :=
  match getHighestPriorityProtocolType table map.protocol with
  | some type => map.type type
  | none => .unknown

end ProtocolMap

/-- What the other topics say of the adapter: `WIRED_ITEM_REAL_CHG_TYPE`, `vooc_sid`,
`ufcs_online`, and `oplus_wired_is_present`. -/
structure Adapter where
  realChgType : UsbType
  voocSid : BitVec 32
  ufcsOnline : Bool
  present : Bool

/-- `sid_to_adapter_chg_type`, where it makes a difference. -/
def sidWiredType (voocSid : BitVec 32) (wiredType : UsbType) : UsbType :=
  if voocSid &&& 0xf = 2 then .vooc
  else if voocSid &&& 0xf = 3 then .svooc
  else wiredType

/-- `oplus_cpa_get_final_chg_type`. -/
def getFinalChgType (table : List ProtocolInfo) (supported : Finset Protocol)
    (current : Option Protocol) (adapter : Adapter) : UsbType :=
  let map := ProtocolMap.empty.protocolAddType adapter.realChgType
  let map := map.protocolAddType (sidWiredType adapter.voocSid adapter.realChgType)
  let map := if adapter.ufcsOnline then map.protocolAddType .ufcs else map
  let map := map.removeUnsupportedProtocol supported
  let wiredType := map.getHighPrioWiredType table
  match chgTypeToProtocolType wiredType with
  | none => .unknown
  | some protocol =>
    if current = some .pd ∧ protocol = .pps then .pd
    else if protocol ≠ .bc12 ∧ current ≠ some protocol then .dcp
    else wiredType

end VendorModules.ChgCpa
