import ProjectPl.Buffer
import ProjectPl.Protocol
import ProjectPl.ProtocolSound
import ProjectPl.Dispatch
import ProjectPl.RecvPath
import ProjectPl.SendThreads
import ProjectPl.Recycle
import ProjectPl.TokenMap
import ProjectPl.ZoneEntries
import ProjectPl.Isolation
import ProjectPl.Positions
import ProjectPl.ProcessThread
import ProjectPl.Attachment
import ProjectPl.RecvQueue
import ProjectPl.Heartbeat
import ProjectPl.SharpCommon
import ProjectPl.SharpProtocol
import ProjectPl.SharpParser
import ProjectPl.AppLocks
import ProjectPl.SharpCopies
import ProjectPl.SendQueue
import ProjectPl.SendBatch
import ProjectPl.TaskScheduler
import ProjectPl.SharpStrings
import ProjectPl.SharpEcho
import ProjectPl.Join
import ProjectPl.ItemSN
import ProjectPl.WorldQuery
import ProjectPl.CommandQueue
import ProjectPl.ObjectPools
import ProjectPl.CharacterPool
import ProjectPl.CharacterList
import ProjectPl.CertifyChallenge
import ProjectPl.NetworkFrames
import ProjectPl.Records
import ProjectPl.CertifyEncrypt
import ProjectPl.ItemSNClock
import ProjectPl.WorldItems
import ProjectPl.StartUp
import ProjectPl.FileLogger
import ProjectPl.FileDigest
import ProjectPl.TimeSet
import ProjectPl.ObjectPool
import ProjectPl.Tokenize
import ProjectPl.JsonTermination
import ProjectPl.JsonRebuild
import ProjectPl.Wire
import ProjectPl.Accept
import ProjectPl.Console
import ProjectPl.LifetimeClient
import ProjectPl.HeartbeatCredit
import ProjectPl.WorldStore
import ProjectPl.Game
