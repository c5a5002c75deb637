import Gway.Net
import Gway.PooledFetch.Error

/-! The errors of the gateway. Errors of other libraries are represented by their texts. -/

namespace Gway

inductive Error where
  | certParse (text : String)
  | certNotFound (host : String)
  | sniMissing
  | certExpired
  | privateKeyNotFound
  | privateKeyUnsupported (text : String)
  | io (text : String)
  | http (text : String)
  | rustls (text : String)
  | noHost
  | upstreamNotFound
  | invalidHost (text : String)
  | tokioJoin (text : String)
  | hyper (err : PooledFetch.HyperError)
  | h3Connection (text : String)
  | h3Stream (text : String)
  | s2nQuicStart (text : String)
  | s2nQuicTls (text : String)
  | pooledFetch (err : PooledFetch.Error)
  | h3 (text : String)
  | listenerNotFound (addr : SocketAddr)
deriving DecidableEq, Repr

def Error.display : Error → String
  | certParse text => "CertParse: " ++ text
  | certNotFound _ => "CertNotFound"
  | sniMissing => "SniMissing"
  | certExpired => "CertExpired"
  | privateKeyNotFound => "PrivateKeyNotFound"
  | privateKeyUnsupported text => "PrivateKeyUnsupported: " ++ text
  | io text => "io: " ++ text
  | http text => "http: " ++ text
  | rustls text => "Rustls: " ++ text
  | noHost => "NoHost"
  | upstreamNotFound => "UpstreamNotFound"
  | invalidHost text => "InvalidHost: " ++ text
  | tokioJoin text => "TokioJoin: " ++ text
  | hyper err => "Hyper: " ++ err.text
  | h3Connection text => "H3Connection: " ++ text
  | h3Stream text => "H3Stream: " ++ text
  | s2nQuicStart text => "S2nQuicStart: " ++ text
  | s2nQuicTls text => "S2nQuicTls: " ++ text
  | pooledFetch err => "pooled_fetch: " ++ err.display
  | h3 text => "H3: " ++ text
  | listenerNotFound addr => "ListenerNotFound: " ++ addr.display

/-- How a call fails to give a value: with an `Err`, or by a panic of its task. -/
inductive Failure where
  | err (error : Error)
  | panic
deriving DecidableEq, Repr

end Gway
