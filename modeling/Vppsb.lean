import Vppsb.StepRun
import Vppsb.PoolStore
import Vppsb.KeyedPool
import Vppsb.LinkedRing
import Vppsb.RingEdits
import Vppsb.RingFamily
import Vppsb.HandleLog
import Vppsb.FlowSignature
import Vppsb.FlowTable
import Vppsb.FlowProcess
import Vppsb.FlowInvariant
import Vppsb.FlowCreate
import Vppsb.FlowExpire
import Vppsb.FlowWheel
import Vppsb.FlowLookup
import Vppsb.FlowRun
import Vppsb.FlowIdentity
import Vppsb.FlowUpdate
import Vppsb.FdSets
import Vppsb.VcomSelect
import Vppsb.VcomRounds
import Vppsb.VcomPolling
import Vppsb.VcomCalls
import Vppsb.VcomEdits
import Vppsb.VcomHandles
import Vppsb.VcomEpollSets
import Vppsb.VcomEpollClose
import Vppsb.VcomEpollReuse
import Vppsb.VcomResult
import Vppsb.NetnsEntry
import Vppsb.NetnsTables
import Vppsb.NetnsReceive
import Vppsb.NetnsKeys
import Vppsb.NetnsUnique
import Vppsb.NetnsObjects
import Vppsb.RtnlStream
import Vppsb.RtnlCalm
import Vppsb.RtnlSockets
import Vppsb.RtnlSync
import Vppsb.RtnlTables
import Vppsb.RtnlTimeouts
import Vppsb.NetnsWorld
import Vppsb.NetnsIsolation
import Vppsb.NetnsHandles
import Vppsb.PoolImage
import Vppsb.MapperRoutes
import Vppsb.NetnsNotified
import Vppsb.MplsLabels
import Vppsb.RouterObjects
import Vppsb.FlowTimers
import Vppsb.FlowAsserts
import Vppsb.MapperSpaces
import Vppsb.GrowVec
import Vppsb.TapLookups
import Vppsb.TapIsr
import Vppsb.Turbotap
import Vppsb.TurbotapSlots
import Vppsb.TurbotapReady
import Vppsb.TurbotapPromisc
import Vppsb.PortMirror
import Vppsb.RtnlBuffer
import Vppsb.VcomSets
import Vppsb.VcomReadv
import Vppsb.VcomExits
import Vppsb.VcomFailures
import Vppsb.VcomTimeLeft
import Vppsb.RtattrWalk
import Vppsb.MplsStack
import Vppsb.NetnsOverlong
import Vppsb.RtnlRequests
import Vppsb.VcomPselect
import Vppsb.FlowUpdateEffect
import Vppsb.FlowOverdue
import Vppsb.FlowFull
import Vppsb.FlowLimit
import Vppsb.FlowEnqueue
import Vppsb.FlowMetadata
import Vppsb.TapNeighbor
import Vppsb.TapRx
import Vppsb.TurbotapRx
import Vppsb.TurbotapBuffers
import Vppsb.TurbotapDelivery
import Vppsb.FlowSplice
import Vppsb.VcomTimespec
import Vppsb.RingCalls
import Vppsb.TurbotapTx
import Vppsb.VcomTeardown
import Vppsb.Dialogue
import Vppsb.VcomData
import Vppsb.VcomPreload
import Vppsb.VcomWatch
import Vppsb.NetnsReplica
import Vppsb.ByteImage
import Vppsb.RtnlEncoding
import Vppsb.FlowDrain
import Vppsb.FlowCounters
import Vppsb.TapEnable
import Vppsb.TapTraffic
import Vppsb.RtnlProcess
import Vppsb.PortCopies
import Vppsb.FlowMirroring
import Vppsb.TurbotapNode
import Vppsb.NetnsPayloads
import Vppsb.NetnsWire
