import VendorModules.CamReqMgr.Traverse
import VendorModules.CamSync.FailedMerge
import VendorModules.CamSync.Groups
import VendorModules.ChgCpa.Requests
import VendorModules.Dsc.Attended
import VendorModules.Dsc.Drained
import VendorModules.Fltrt.RoundTrip
import VendorModules.Fragseq.Delivered
import VendorModules.Fragseq.RoundTrip
import VendorModules.HwFence.Array
import VendorModules.HwFence.Queue
import VendorModules.IeUtil.Multilink
import VendorModules.IeUtil.Search
import VendorModules.IpaNat.Handles
import VendorModules.IpaNat.Redelete
import VendorModules.IpaNat.Rollback
import VendorModules.MloAid.Assign
import VendorModules.MmrmClk.Peak
import VendorModules.PacketUtil.Bounds
import VendorModules.Qdf.IntParse
import VendorModules.Qdf.Ipv6
import VendorModules.Qos.Queues
import VendorModules.Reo.HostSnapshot
import VendorModules.Reo.Moves
import VendorModules.Reo.Released
import VendorModules.Rmnet.Aggregate
import VendorModules.Rmnet.Checksum
import VendorModules.Rmnet.CoalHeader
import VendorModules.Rmnet.Slices
import VendorModules.Ser.Callbacks
import VendorModules.Ser.Cancel
import VendorModules.Ser.Progress
import VendorModules.Ser.ScanLimit
import VendorModules.SmEngine.Transitions
import VendorModules.Smci.Handover
import VendorModules.Synx.GlobalMerge
import VendorModules.Synx.Settled
import VendorModules.T2lm.RoundTrip
import VendorModules.TxAgg.Bounds
import VendorModules.TxAgg.Linearize
import VendorModules.Ufcs.Accesses
import VendorModules.Ufcs.Resend
import VendorModules.UfcsPolicy.Lost
import VendorModules.UfcsWorker.Acknowledged
import VendorModules.UfcsWorker.Received
import VendorModules.Voter.Queries
