import CommonwealthMP.BindingFreshness
import CommonwealthMP.TcpFraming
import CommonwealthMP.FormIdentity
import CommonwealthMP.EmptiedSession
import CommonwealthMP.DeparturesTold
import CommonwealthMP.ClientStream
import CommonwealthMP.GhostTables
import CommonwealthMP.ReliableChannel
import CommonwealthMP.OrphanedConnections
import CommonwealthMP.PlayerRecords
import CommonwealthMP.UdpBindAgreement
import CommonwealthMP.ConnectionTables
import CommonwealthMP.PeerTables
import CommonwealthMP.UnsavedChanges
import CommonwealthMP.ShutdownFiles
import CommonwealthMP.ClientSend
import CommonwealthMP.SessionTimeout
import CommonwealthMP.QueryVerdict
import CommonwealthMP.RulesAgreement
import CommonwealthMP.LookAgreement
import CommonwealthMP.ChunkSequences
import CommonwealthMP.SendQueues
import CommonwealthMP.AppearanceApplied
import CommonwealthMP.MenuDeadEnds
import CommonwealthMP.PuppetFreeze
import CommonwealthMP.HostAgreement
import CommonwealthMP.RateLimits
import CommonwealthMP.ModFingerprint
import CommonwealthMP.GhostStepping
import CommonwealthMP.PresenceCounts
import CommonwealthMP.GuardedCalls
import CommonwealthMP.CrashFiles
import CommonwealthMP.BannedKeys
import CommonwealthMP.AngleWrapping
import CommonwealthMP.TornBlobs
import CommonwealthMP.EspRecords
import CommonwealthMP.ScreenOrigins
import CommonwealthMP.LoopTimers
import CommonwealthMP.EspSource
import CommonwealthMP.Restarts
import CommonwealthMP.Comebacks
import CommonwealthMP.ShownPoses
import CommonwealthMP.SharedHud
import CommonwealthMP.RelayEchoes
import CommonwealthMP.DownLinks
