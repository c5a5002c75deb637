import Gway.CertLoader.Get

/-! The TLS side of the HTTP/2 service: the certificate is chosen by the server name of the
client hello alone.
-/

namespace Gway.H2

/-- The certificate that a handshake goes on with, and the protocols that it offers. -/
structure ServerConfig where
  cert : Arc Cert
  alpnProtocols : List String
deriving DecidableEq

/-- How the task of a connection ends before the handshake: with a warning, or by a panic. -/
inductive Refusal where
  | warn (text : String)
  | panic
deriving DecidableEq, Repr

/-- What `srv` makes of a client hello with this server name. `withSingleCert` is what rustls
says to the chain and the key of a certificate.
-/
def tlsConfig (subHost : String → Option String) (load : CertLoader.Load)
    (withSingleCert : Arc Cert → Except String Unit) (certs : CertLoader)
    : Option String → Except Refusal ServerConfig × CertLoader
  | none => (.error (.warn "h2 tls: server name is empty"), certs)
  | some serverName =>
      if serverName = "" then (.error (.warn "h2 tls: server name is empty"), certs)
      else
        match certs.get subHost load serverName with
        | (.error .panic, certs) => (.error .panic, certs)
        | (.error (.err err), certs) =>
            (.error (.warn ("h2 tls: cert get error: " ++ err.display)), certs)
        | (.ok cert, certs) =>
            match withSingleCert cert with
            | .error err => (.error (.warn ("h2 tls: server config error: " ++ err)), certs)
            | .ok () => (.ok { cert, alpnProtocols := ["h2"] }, certs)

end Gway.H2
