import SniffProxy.Main
import SniffProxy.Server
import SniffProxy.Proofs.Frontend.Transparency
import SniffProxy.Proofs.Stream.PeekContract
import SniffProxy.Proofs.Transport.Grammar
import SniffProxy.Proofs.Transport.Gate
import SniffProxy.Proofs.Transport.Hop
import SniffProxy.Proofs.Stream.Pieces
import SniffProxy.Proofs.Transport.Fragments
import SniffProxy.Proofs.Listener.Admission
import SniffProxy.Proofs.Listener.Steps
import SniffProxy.Proofs.Listener.Settling
import SniffProxy.Proofs.Frontend.SocksReply
import SniffProxy.Proofs.Net.Spelling
import SniffProxy.Proofs.Rule.Literal
import SniffProxy.Proofs.Rule.Cover
import SniffProxy.Proofs.Rule.Normal
import SniffProxy.Proofs.Rule.Routing
import SniffProxy.Proofs.Config.DirectRemote
import SniffProxy.Proofs.Stream.Deadline
import SniffProxy.Proofs.Stream.Idle
import SniffProxy.Proofs.Frontend.Finishing
import SniffProxy.Proofs.Stream.Silence
import SniffProxy.Proofs.Frontend.Silence
import SniffProxy.Proofs.Stream.Waiting
import SniffProxy.Proofs.Transport.Socks5Waiting
import SniffProxy.Proofs.Stream.Schedule
import SniffProxy.Proofs.Stream.Punctual
import SniffProxy.Proofs.Http.Scanning
import SniffProxy.Proofs.Http.Sniffing
import SniffProxy.Proofs.Http.FieldValue
import SniffProxy.Proofs.Http.Heads
import SniffProxy.Proofs.Rule.Meaning
import SniffProxy.Proofs.Stream.Deciding
import SniffProxy.Proofs.Transport.Socks5Accepting
import SniffProxy.Proofs.Transport.Socks5Replies
import SniffProxy.Proofs.Transport.CompactGrammar
import SniffProxy.Proofs.Transport.AddressBody
import SniffProxy.Proofs.Net.HostPort
import SniffProxy.Proofs.Net.Stable
import SniffProxy.Proofs.Transport.SingleWrite
import SniffProxy.Proofs.Server.Starting
import SniffProxy.Proofs.Config.Layers
import SniffProxy.Proofs.Http.Bounded
