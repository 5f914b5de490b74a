import RocNet.Analysis.WakeupDelivery
import RocNet.Analysis.WaitReasons
import RocNet.Analysis.InjectedTasks
import RocNet.Analysis.SocketReadiness
import RocNet.Analysis.ScopeLifetime
import RocNet.Analysis.TlsSelect
import RocNet.Analysis.TlsBytes
import RocNet.Analysis.ChannelWatchers
import RocNet.Analysis.SelectWaits
import RocNet.Analysis.TaskErrors
import RocNet.Analysis.FramingIdle
import RocNet.Analysis.NoiseIdentity
import RocNet.Analysis.NoiseCiphers
import RocNet.Analysis.NoiseTransport
import RocNet.Analysis.RespPipelines
import RocNet.Analysis.ProtobufCuts
import RocNet.Analysis.ProtobufNumbers
import RocNet.Analysis.ResourceConservation
import RocNet.Analysis.UnixListenerFiles
import RocNet.Analysis.CopyIdle
import RocNet.Analysis.CopySessions
import RocNet.Analysis.ListenerPolls
import RocNet.Analysis.SelectTurns
import RocNet.Analysis.HkdfBlocks
import RocNet.Analysis.RandomUniform
import RocNet.Analysis.ConnectShares
import RocNet.Analysis.StdinReference
