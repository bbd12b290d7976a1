import Rpxy.RustText
import Rpxy.RustResult
import Rpxy.RustIpAddr
import Rpxy.RustIpParser
import Rpxy.RustVec
import Rpxy.HttpHeaders
import Rpxy.ForwardedSyntax
import Rpxy.ForwardedRoundTrip
import Rpxy.ForwardedAccepted
import Rpxy.SuffixCut
import Rpxy.ForwardingChain
import Rpxy.ForwardingTrust
import Rpxy.ForwardingAgreement
import Rpxy.Reachability
import Rpxy.ConnectionCount
import Rpxy.RustUsize
import Rpxy.CacheSpool
import Rpxy.Lru
import Rpxy.CacheStore
import Rpxy.CacheBookkeeping
import Rpxy.Base64
import Rpxy.RustInt
import Rpxy.StickyCookieSeal
import Rpxy.StickyCookies
import Rpxy.Rotation
import Rpxy.LoadBalancePick
import Rpxy.StickyLoadBalance
import Rpxy.StickyCookieHeaders
import Rpxy.Balancers
import Rpxy.ProxyProtocol
import Rpxy.PeerAddress
import Rpxy.CookieMerge
import Rpxy.HopHeaders
import Rpxy.HealthCounter
import Rpxy.BodyLimit
import Rpxy.PathRouting
import Rpxy.AccessLog
import Rpxy.H3BodyRelay
import Rpxy.CacheKey
import Rpxy.ClientScheme
import Rpxy.HashMapModel
import Rpxy.ConfigBuild
import Rpxy.TlsServerCrypto
import Rpxy.CertReloader
import Rpxy.TlsListener
import Rpxy.MessageForwarding
import Rpxy.MessageHandler
import Rpxy.RouteTable
import Rpxy.ServiceReload
import Rpxy.Entrypoint
