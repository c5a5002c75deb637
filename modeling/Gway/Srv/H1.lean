import Gway.ReqHost
import Gway.Route

/-! The plain HTTP service, which redirects every request for a known host to HTTPS. -/

namespace Gway.H1

/-- The status codes that `redirect` answers with. -/
inductive StatusCode where
  | movedPermanently
  | notFound
  | internalServerError
deriving DecidableEq, Repr

def StatusCode.asU16 : StatusCode → Nat
  | movedPermanently => 301
  | notFound => 404
  | internalServerError => 500

def StatusCode.isRedirection (status : StatusCode) : Bool :=
  300 ≤ status.asU16 && status.asU16 < 400

def StatusCode.canonicalReason : StatusCode → String
  | movedPermanently => "Moved Permanently"
  | notFound => "Not Found"
  | internalServerError => "Internal Server Error"

/-- The body of an answer is the reason of its status, except for redirections. -/
def response (status : StatusCode) : Response Bytes :=
  let body := if status.isRedirection then [] else bytesOf status.canonicalReason
  { status := status.asU16, headers := [], body }

/-- The host that a request for `host` is redirected to, if it has one. -/
def redirectHost (subHost : String → Option String) (route : Route) (host : String)
    : Option String :=
  if (route.confByHost host).isSome then some host
  else
    match subHost host with
    | some sub => if (route.confByHost sub).isSome then some sub else none
    | none => none

def redirect (subHost : String → Option String) (route : Route) (req : Parts)
    : Response Bytes :=
  let pathAndQuery := req.uri.pathAndQuery.getD "/"
  match redirectHost subHost route (reqHost req) with
  | none => response .notFound
  | some host =>
      match HeaderValue.fromBytes (bytesOf ("https://" ++ host ++ pathAndQuery)) with
      | some location =>
          let res := response .movedPermanently
          { res with headers := HeaderMap.insert res.headers "location" location }
      | none => response .internalServerError

end Gway.H1
