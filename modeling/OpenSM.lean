import OpenSM.Lib.Paths
import OpenSM.Lib.Relaxation
import OpenSM.Lib.Descent
import OpenSM.Lib.Forest
import OpenSM.Lib.Folds
import OpenSM.Lib.RedBlack
import OpenSM.Lib.PtrTree
import OpenSM.Lib.Ring
import OpenSM.Lib.Runs
import OpenSM.Lib.Qmap
import OpenSM.Lib.CString
import OpenSM.Fabric
import OpenSM.LidMatrix
import OpenSM.MinHop
import OpenSM.MinHopExact
import OpenSM.RecommendPath
import OpenSM.RecommendSpec
import OpenSM.UcastLft
import OpenSM.UcastRoutes
import OpenSM.McastMgr
import OpenSM.McastTree
import OpenSM.LidMgr
import OpenSM.LidUnique
import OpenSM.ClMap
import OpenSM.ClMapBalance
import OpenSM.ClMapInsBal
import OpenSM.ClMapDelBal
import OpenSM.ClMapSpec
import OpenSM.ClMapInsert
import OpenSM.ClMapRemove
import OpenSM.ClMapRun
import OpenSM.LftUpdate
import OpenSM.Vl15
import OpenSM.SmMadCtrl
import OpenSM.Multicast
import OpenSM.MulticastSpec
import OpenSM.McastTbl
import OpenSM.McastProcess
import OpenSM.McastReroute
import OpenSM.OsmDb
import OpenSM.DbPack
import OpenSM.DbRun
import OpenSM.Lib.Lowest
import OpenSM.PathRates
import OpenSM.SaPath
import OpenSM.PathRecord
import OpenSM.PathSupport
import OpenSM.PathRecordSpec
import OpenSM.MultipathRecord
import OpenSM.QosSetup
import OpenSM.QosRetry
import OpenSM.McMemberRecord
import OpenSM.Partition
import OpenSM.PartitionConfig
import OpenSM.PartitionTables
import OpenSM.PartitionKeys
import OpenSM.PartitionMember
import OpenSM.PartitionGroups
import OpenSM.Lib.CBuffer
import OpenSM.PartitionParse
import OpenSM.PartitionText
import OpenSM.PartitionLines
import OpenSM.PartitionScan
import OpenSM.Lib.Drive
import OpenSM.Lib.UpDown
import OpenSM.DnUp
import OpenSM.DnUpRank
import OpenSM.DnUpSearch
import OpenSM.DnUpRoutes
import OpenSM.PerfMgrSweep
import OpenSM.PerfMgrTotals
import OpenSM.QosOptimized
import OpenSM.DropClean
import OpenSM.DispatcherRun
import OpenSM.TorusSpan
import OpenSM.TorusMcastRun
import OpenSM.TorusPicture
import OpenSM.ClTimerRun
import OpenSM.TrapHealth
import OpenSM.CongestionControl
import OpenSM.MatchTbl
import OpenSM.SmPolling
import OpenSM.MKeyMap
import OpenSM.SubnRescan
import OpenSM.Lash
import OpenSM.LashRoutes
import OpenSM.Lib.SortedMerge
import OpenSM.LidFit
import OpenSM.PkeyCommon
import OpenSM.PkeyPeer
import OpenSM.LashBalance
import OpenSM.LashCdg
import OpenSM.LashCore
import OpenSM.ClHeap
import OpenSM.ClHeapRun
import OpenSM.EventWheel
import OpenSM.EventWheelSound
import OpenSM.Lib.FirstWord
import OpenSM.UpDn
import OpenSM.UpDnLegal
import OpenSM.UpDnRoutes
import OpenSM.MultipathApm
import OpenSM.ServiceRecord
import OpenSM.McmJoinRefused
import OpenSM.PathQuery
import OpenSM.PathQuerySpec
import OpenSM.LidStable
import OpenSM.ClPtrVector
import OpenSM.ClVector
import OpenSM.TorusPortOrder
import OpenSM.FtreeTopology
import OpenSM.Mesh
import OpenSM.MeshReorder
import OpenSM.QosVlarb
import OpenSM.TorusPathSl
import OpenSM.Lib.CheckedPoly
import OpenSM.Lib.Rounds
import OpenSM.MeshEnds
import OpenSM.DfssspBreak
import OpenSM.EventWheelPass
import OpenSM.Lib.Intervals
import OpenSM.LinkRecord
import OpenSM.LinkRecordExact
import OpenSM.QosRanges
import OpenSM.QosRangesMean
import OpenSM.SearchOrdering
import OpenSM.InformExact
import OpenSM.LashDeadlock
import OpenSM.Lib.Flood
import OpenSM.McastDeliver
import OpenSM.TblConsistency
import OpenSM.UpDnDeadlock
