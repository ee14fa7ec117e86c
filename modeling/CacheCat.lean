import CacheCat.Command.BitFieldNumbers
import CacheCat.Command.BitPosIntegers
import CacheCat.Data.SortedSetMap
import CacheCat.Mocha.ExpireCycle
import CacheCat.Cache.Clock
import CacheCat.Cache.Patterns
import CacheCat.Cache.ListCommands
import CacheCat.Cache.Deadlines
import CacheCat.Cache.MissingKey
import CacheCat.Cache.Creation
import CacheCat.Cache.Counters
import CacheCat.Cache.SetAlgebra
import CacheCat.Cache.Encodings
import CacheCat.Cache.SetSamples
import CacheCat.Cache.NestedScripts
import CacheCat.StateMachine.Unlink
import CacheCat.Raft.Admission
import CacheCat.Protocol.OneReply
import CacheCat.Protocol.Abort
import CacheCat.Protocol.BitLimits
import CacheCat.Protocol.SetTruth
import CacheCat.Protocol.StoredBytes
import CacheCat.Protocol.ParserBounds
import CacheCat.Protocol.IntoLua
import CacheCat.Raft.LogStore
import CacheCat.Raft.RpcClient
import CacheCat.Raft.Pairing
import CacheCat.Broadcast.Consistency
import CacheCat.Broadcast.Ghosts
import CacheCat.StateMachine.NonEmpty
import CacheCat.StateMachine.FailedLoad
import CacheCat.StateMachine.Bookkeeping
import CacheCat.StateMachine.Untouched
