import Krill.Pubd.AccessContent
import Krill.Pubd.LatestWins
import Krill.Pubd.ReplayOrder
import Krill.Pubd.RsyncLayout
import Krill.Pubd.SyncConverges
import Krill.EventSourcing.CommandHistory
import Krill.EventSourcing.CommandLog
import Krill.EventSourcing.Recover
import Krill.EventSourcing.WalTorn
import Krill.EventSourcing.WalRemoval
import Krill.EventSourcing.StoreScopes
import Krill.Ca.Requests
import Krill.Ca.KeyReuse
import Krill.Ca.KeyRequests
import Krill.Ca.SupersededManifests
import Krill.Daemon.RrdpTasks
import Krill.Daemon.RepoSyncs
import Krill.Daemon.Deletion
import Krill.Crypto.SignerBinding
import Krill.Upgrades.Pre090
import Krill.Auth.Sessions
import Krill.Bgp.Analyser
import Krill.Bgp.Announcements
import Krill.Ca.ClassNames
import Krill.Ca.EventNumbers
import Krill.Pubd.DeltaQueue
import Krill.Pubd.ObjectDeltas
import Krill.Ca.IpTree
import Krill.Ca.RoaExact
