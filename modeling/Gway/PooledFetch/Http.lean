import Gway.Http
import Gway.Net
import Gway.PooledFetch.Error

/-! One call of `pooled_fetch::http` as a function of what the network does during it. -/

namespace Gway.PooledFetch

/-- What happens during a call, as far as it gets: the outcome of the send on a cached
connection if there is one, that of opening a new connection, and that of the send on it.
-/
structure Attempt (Body : Type) where
  cached : Option (Except HyperError (Response Body))
  opened : Except Error Unit
  fresh : Except HyperError (Response Body)

/-- A request that was given to a connection, and how that ended. -/
structure Sent (Body : Type) where
  addr : SocketAddr
  req : Request Bytes
  outcome : Except HyperError (Response Body)

variable {Body : Type}

/-- The second half of `http`: a send on a new connection. -/
def httpNew (attempt : Attempt Body) (addr : SocketAddr) (req : Request Bytes)
    : List (Sent Body) × Except Error (Response Body) :=
  match attempt.opened with
  | .error err => ([], .error err)
  | .ok () =>
      let sent := [{ addr, req, outcome := attempt.fresh }]
      match attempt.fresh with
      | .ok res => (sent, .ok res)
      | .error err => (sent, .error (.hyper err))

/-- `http`: the sends it makes, in order, and its result. -/
def http (attempt : Attempt Body) (addr : SocketAddr) (req : Request Bytes)
    : List (Sent Body) × Except Error (Response Body) :=
  match attempt.cached with
  | none => httpNew attempt addr req
  | some outcome =>
      let sent := { addr, req, outcome }
      match outcome with
      | .ok res => ([sent], .ok res)
      | .error err =>
          if !(err.isCanceled || err.isClosed) then ([sent], .error (.hyper err))
          else
            let (more, result) := httpNew attempt addr req
            (sent :: more, result)

theorem httpNew_sent {attempt : Attempt Body} {addr : SocketAddr} {req : Request Bytes}
    {sent : Sent Body} (member : sent ∈ (httpNew attempt addr req).1)
    : sent.addr = addr ∧ sent.req = req := by
  obtain ⟨cached, opened, fresh⟩ := attempt
  cases opened with
  | error err => cases member
  | ok _ =>
      cases fresh with
      | ok res =>
          cases List.mem_singleton.mp member
          exact ⟨rfl, rfl⟩
      | error err =>
          cases List.mem_singleton.mp member
          exact ⟨rfl, rfl⟩

/-- Each send of a call is of the request that it got, to the address that it got. -/
theorem http_sent {attempt : Attempt Body} {addr : SocketAddr} {req : Request Bytes}
    {sent : Sent Body} (member : sent ∈ (http attempt addr req).1)
    : sent.addr = addr ∧ sent.req = req := by
  cases cached : attempt.cached with
  | none =>
      simp only [http, cached] at member
      exact httpNew_sent member
  | some outcome =>
      cases outcome with
      | ok res =>
          simp only [http, cached] at member
          cases List.mem_singleton.mp member
          exact ⟨rfl, rfl⟩
      | error err =>
          simp only [http, cached] at member
          split at member
          case isTrue =>
            cases List.mem_singleton.mp member
            exact ⟨rfl, rfl⟩
          case isFalse =>
            rcases List.mem_cons.mp member with rfl | later
            · exact ⟨rfl, rfl⟩
            · exact httpNew_sent later

end Gway.PooledFetch
