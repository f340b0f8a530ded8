import Gortcd.Lib.Runs
import Gortcd.Channels
import Gortcd.Sockets
import Gortcd.Updates
import Gortcd.Ownership
import Gortcd.PeerData
import Gortcd.Authentication
import Gortcd.Responses
import Gortcd.PeerFilter
import Gortcd.Timeouts
import Gortcd.Outcomes
import Gortcd.Removals
import Gortcd.Lifetimes
import Gortcd.Custody
import Gortcd.Congruence
import Gortcd.Recycling
import Gortcd.Replies
import Gortcd.Transparency
import Gortcd.Credentials
import Gortcd.Verdicts
import Gortcd.Pruning
import Gortcd.Bindings
import Gortcd.Nonces
import Gortcd.Reload
import Gortcd.Protected
import Gortcd.Coverage
import Gortcd.Inbound
import Gortcd.PortPool
import Gortcd.PortTable
import Gortcd.ReadLoop
import Gortcd.Lib.Progress
import Gortcd.Drain
import Gortcd.Shutdown
import Gortcd.Teardown
import Gortcd.Notifier
import Gortcd.Store
import Gortcd.SystemPorts
import Gortcd.Joined
import Gortcd.Lib.Separation
import Gortcd.Library
import Gortcd.Signatures
import Gortcd.Daemon
import Gortcd.Verified
import Gortcd.Handshake
import Gortcd.Traffic
import Gortcd.Views
import Gortcd.Duplicates
import Gortcd.Challenges
import Gortcd.Clients
