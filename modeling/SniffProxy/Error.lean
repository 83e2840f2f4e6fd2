import SniffProxy.Net.HostPort

/-!
# Errors

Why serving, framing or dialing a connection can fail. An error is a cause; its wording is in the
`message` functions only. Errors are local to one connection, except configuration errors, which
stop the program before it accepts anything.

* `IoError` — what a stream, a socket or a file answers in place of data.
* `HeaderFault`, `SniffFault`, `DialFault`, `ConfigFault` — the causes within a kind of failure.
* `ProxyError` — the kinds of failure, with `ProxyError.message`.
-/

namespace SniffProxy

/-! ## Input and output -/

/-- A failed operation on a stream, a socket or a file. -/
inductive IoError where
  | connectionReset
  | connectionAborted
  | brokenPipe
  | timedOut
  | unexpectedEof
  | interrupted
  | notConnected
  | permissionDenied
  /-- The stream ended in the middle of an exact read. -/
  | earlyEof
  /-- A write accepted nothing although bytes were offered. -/
  | writeZero
  | connectionRefused
  | networkUnreachable
  | addressNotAvailable
  | addressInUse
  | unknownHostName
  | invalidSocketAddress
  | invalidPort
  | fileNotFound
  | fileIsDirectory
  | fileNotDirectory
  | fileNotText
  | fileNameTooLong
  | fileNameHasNul
  /-- A failure of a library, in its own words. -/
  | described (text : String)
  deriving DecidableEq, Repr

/-- The wording of an input or output failure. -/
def IoError.message : IoError → String
  | connectionReset => "connection reset"
  | connectionAborted => "connection aborted"
  | brokenPipe => "broken pipe"
  | timedOut => "timed out"
  | unexpectedEof => "unexpected end of file"
  | interrupted => "operation interrupted"
  | notConnected => "not connected"
  | permissionDenied => "permission denied"
  | earlyEof => "early eof"
  | writeZero => "write zero"
  | connectionRefused => "Connection refused (os error 111)"
  | networkUnreachable => "Network is unreachable (os error 101)"
  | addressNotAvailable => "Cannot assign requested address (os error 99)"
  | addressInUse => "Address already in use (os error 98)"
  | unknownHostName => "failed to lookup address information: Name or service not known"
  | invalidSocketAddress => "invalid socket address"
  | invalidPort => "invalid port value"
  | fileNotFound => "No such file or directory (os error 2)"
  | fileIsDirectory => "Is a directory (os error 21)"
  | fileNotDirectory => "Not a directory (os error 20)"
  | fileNotText => "stream did not contain valid UTF-8"
  | fileNameTooLong => "File name too long (os error 36)"
  | fileNameHasNul => "file name contained an unexpected NUL byte"
  | described text => text

/-- Whether the failure says that the stream ended too soon. -/
def IoError.isEndOfStream : IoError → Bool
  | unexpectedEof | earlyEof => true
  | _ => false

/-! ## Causes -/

/-- What is wrong with the head of a framed request. -/
inductive HeaderFault where
  | shortRead
  | missingSecretCrlf
  | invalidTrojanCommand
  | missingAddressCrlf
  | invalidDomainEncoding
  | invalidAddressType
  | invalidCompactCommand
  | emptyHost
  | invalidHostEncoding
  | described (text : String)
  deriving DecidableEq, Repr

/-- The wording of a header fault. -/
def HeaderFault.message : HeaderFault → String
  | shortRead => "short read"
  | missingSecretCrlf => "missing CRLF after password"
  | invalidTrojanCommand => "invalid trojan command"
  | missingAddressCrlf => "missing CRLF after address"
  | invalidDomainEncoding => "invalid domain encoding"
  | invalidAddressType => "invalid address type"
  | invalidCompactCommand => "invalid sower command"
  | emptyHost => "empty host"
  | invalidHostEncoding => "invalid host encoding"
  | described text => text

/-- What proves that bytes are no HTTP request head. -/
inductive HeadFault where
  | headerName
  | headerValue
  | newLine
  | token
  | tooManyHeaders
  | version
  deriving DecidableEq, Repr

/-- The wording of a fault in a request head. -/
def HeadFault.message : HeadFault → String
  | headerName => "invalid header name"
  | headerValue => "invalid header value"
  | newLine => "invalid new line"
  | token => "invalid token"
  | tooManyHeaders => "too many headers"
  | version => "invalid HTTP version"

/-- The first phase of a connection, in which its destination is found. -/
inductive SniffPhase where
  | httpHead
  | tlsHello
  | socksRequest
  deriving DecidableEq, Repr

/-- What a phase reads. -/
def SniffPhase.name : SniffPhase → String
  | httpHead => "http request head"
  | tlsHello => "tls client hello"
  | socksRequest => "socks5 request"

/-- Why no destination was found in the first bytes of a connection. -/
inductive SniffFault where
  | closedBeforeHead
  | badHead (fault : HeadFault)
  | missingHost
  | invalidHost (value : String)
  | headTooLarge
  | badHello (cause : String)
  | noServerName
  | timedOut (phase : SniffPhase)
  | socksVersion (version : UInt8)
  | noAcceptableMethod
  | socksRequestVersion
  | socksCommand (command : UInt8)
  | socksAddressType (atyp : UInt8)
  | truncatedSocksRequest
  | described (text : String)
  deriving DecidableEq, Repr

/-- The wording of a sniffing fault. -/
def SniffFault.message : SniffFault → String
  | closedBeforeHead => "connection closed before request head"
  | badHead fault => "http: " ++ fault.message
  | missingHost => "missing Host header"
  | invalidHost value => "invalid Host header: " ++ value
  | headTooLarge => "request head too large"
  | badHello cause => "tls client hello: " ++ cause
  | noServerName => "client hello carries no SNI"
  | timedOut phase => phase.name ++ " timed out"
  | socksVersion version => "unsupported SOCKS version: " ++ toString version.toNat
  | noAcceptableMethod => "no acceptable auth method"
  | socksRequestVersion => "invalid SOCKS version in request"
  | socksCommand command => "unsupported command: " ++ toString command.toNat
  | socksAddressType atyp => "unsupported address type: " ++ toString atyp.toNat
  | truncatedSocksRequest => "truncated SOCKS5 request"
  | described text => text

/-- Why no outbound connection came about. -/
inductive DialFault where
  | connect (remote : HostPort) (cause : IoError)
  | connectTimedOut (remote : HostPort)
  | tls (remote : HostPort) (cause : IoError)
  | ssh (remote : HostPort) (cause : IoError)
  | sshTimedOut (remote : HostPort)
  | sshLogin (cause : IoError)
  | sshRejected (user : String)
  | channel (target : HostPort) (cause : IoError)
  | channelTimedOut (target : HostPort)
  | serverVersion
  | rejectedMethods
  | replyVersion
  | refusedByServer (target : String) (reply : UInt8)
  | boundAddressType
  | described (text : String)
  deriving DecidableEq, Repr

/-- A text followed by a colon and the cause. -/
def withCause (text : String) (cause : IoError) : String :=
  text ++ ": " ++ cause.message

/-- The wording of a dialing fault. -/
def DialFault.message : DialFault → String
  | connect remote cause => withCause ("connect " ++ HostPort.join remote.host remote.port) cause
  | connectTimedOut remote => "connect " ++ HostPort.join remote.host remote.port ++ " timed out"
  | tls remote cause => withCause ("tls dial " ++ HostPort.join remote.host remote.port) cause
  | ssh remote cause => withCause ("ssh connect to " ++ HostPort.join remote.host remote.port) cause
  | sshTimedOut remote => "ssh connect to " ++ HostPort.join remote.host remote.port ++ " timed out"
  | sshLogin cause => withCause "ssh auth" cause
  | sshRejected user => "ssh password rejected for user " ++ user
  | channel target cause =>
    withCause ("ssh channel to " ++ HostPort.join target.host target.port) cause
  | channelTimedOut target =>
    "ssh channel to " ++ HostPort.join target.host target.port ++ " timed out"
  | serverVersion => "invalid SOCKS version from server"
  | rejectedMethods => "server rejected auth methods"
  | replyVersion => "invalid SOCKS version in reply"
  | refusedByServer target reply =>
    "SOCKS5 connect to " ++ target ++ " failed with reply " ++ toString reply.toNat
  | boundAddressType => "invalid bound address type"
  | described text => text

/-- What is wrong with the configuration or with what it names. -/
inductive ConfigFault where
  | unknownRemoteType (name : String)
  | invalidRemoteAddress (address : String)
  | ruleFile (path : String) (cause : IoError)
  | tlsServerName (name : String)
  | notToml
  | described (text : String)
  deriving DecidableEq, Repr

/-- The wording of a configuration fault. -/
def ConfigFault.message : ConfigFault → String
  | unknownRemoteType name =>
    "unknown remote type '" ++ name ++ "', expected sower/trojan/socks5/sshd"
  | invalidRemoteAddress address => "Invalid remote address: " ++ address
  | ruleFile path cause => withCause ("read rule file " ++ path) cause
  | tlsServerName name => "invalid TLS server name: " ++ name
  | notToml => "TOML parse error"
  | described text => text

/-- What an operation asks of a transport that does not offer it. -/
inductive Unsupported where
  | inboundSsh
  | described (text : String)
  deriving DecidableEq, Repr

/-- The wording of an unsupported operation. -/
def Unsupported.message : Unsupported → String
  | inboundSsh => "ssh tunnel cannot serve inbound requests"
  | described text => text

/-! ## Failures -/

/-- A failure to serve, frame or dial a connection. -/
inductive ProxyError where
  | io (error : IoError)
  | malformedHeader (fault : HeaderFault)
  | authenticationFailure
  | shortWrite (written expected : Nat)
  | invalidTarget (target : HostPort)
  | domainTooLong (length : Nat)
  | dialFailed (fault : DialFault)
  | sniffParse (fault : SniffFault)
  | blocked (host : String)
  | unsupported (operation : Unsupported)
  | config (fault : ConfigFault)
  deriving DecidableEq, Repr

/-- The text shown for a failure. -/
def ProxyError.message : ProxyError → String
  | io error => "IO error: " ++ error.message
  | malformedHeader fault => "Malformed header: " ++ fault.message
  | authenticationFailure => "Authentication failed"
  | shortWrite written expected =>
    "Short write: " ++ toString written ++ " of " ++ toString expected ++ " bytes"
  | invalidTarget target => "Invalid target (" ++ HostPort.join target.host target.port ++ ")"
  | domainTooLong length => "Domain name too long: " ++ toString length ++ " bytes"
  | dialFailed fault => "Upstream dial failed: " ++ fault.message
  | sniffParse fault => "Sniff parse failure: " ++ fault.message
  | blocked host => "Blocked target: " ++ host
  | unsupported operation => "Unsupported operation: " ++ operation.message
  | config fault => "Configuration error: " ++ fault.message

end SniffProxy
