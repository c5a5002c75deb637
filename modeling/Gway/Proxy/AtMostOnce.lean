import Gway.Proxy

/-! How often a request is sent. `http` sends again only after an error that says that the
request was not sent, but the loop of `_proxy` tries again after any error.
-/

namespace Gway.Proxy

open PooledFetch

variable {Body : Type}

/-- The send ended in an error that guarantees that the request was not sent. -/
def unsent : Except HyperError (Response Body) → Bool
  | .ok _ => false
  | .error err => err.isCanceled || err.isClosed

/-- The send ended in another error: the upstream may have got the request. -/
def lost : Except HyperError (Response Body) → Bool
  | .ok _ => false
  | .error err => !(err.isCanceled || err.isClosed)

/-- No send comes after one that may have reached its upstream. -/
def AtMostOnce (sent : List (Sent Body)) : Prop :=
  sent.Pairwise fun earlier _ => unsent earlier.outcome = true

instance (sent : List (Sent Body)) : Decidable (AtMostOnce sent) :=
  inferInstanceAs (Decidable (sent.Pairwise _))

/-- The attempt has a new connection to send on, as it found no cached one or could not send
on that.
-/
def opensNew (attempt : Attempt Body) : Bool :=
  attempt.cached.all unsent && attempt.opened.isOk

/-- The attempt gives the request to some connection. -/
def sends (attempt : Attempt Body) : Bool :=
  attempt.cached.isSome || opensNew attempt

def succeeds (attempt : Attempt Body) : Bool :=
  attempt.cached.any Except.isOk || opensNew attempt && attempt.fresh.isOk

/-- The attempt ends in an error after which the upstream may have got the request. -/
def loses (attempt : Attempt Body) : Bool :=
  attempt.cached.any lost || opensNew attempt && lost attempt.fresh

/-- None of the attempts that are made gives the request to a connection after one that may
have sent it, as `maySent` says of the earlier ones. After a failed attempt another one is
made while the retries have not passed their limit.
-/
def NoSendAfterLoss (maxRetry : UInt64)
    : (retry : UInt64) → (maySent : Bool) → List (Attempt Body) → Prop
  | _, _, [] => True
  | retry, maySent, attempt :: later =>
      (maySent = true → sends attempt = false)
      ∧ (succeeds attempt = false
        → retry + 1 ≤ maxRetry
        → NoSendAfterLoss maxRetry (retry + 1) (maySent || loses attempt) later)

-----------------------------------------------------------------------------------------
-- The sends of one attempt
-----------------------------------------------------------------------------------------

/-- An error tells either that the request was not sent or that it may have been. -/
theorem lost_error (err : HyperError)
    : lost (.error err : Except HyperError (Response Body))
      = !unsent (.error err : Except HyperError (Response Body)) :=
  rfl

/-- What the loop needs to know of a call of `http`: its own sends are in order, whether it
sends at all and succeeds, and whether an error of it leaves open if the request was sent.
-/
structure HttpSpec (attempt : Attempt Body)
    (called : List (Sent Body) × Except PooledFetch.Error (Response Body))
    : Prop where
  once : AtMostOnce called.1
  silent : called.1 = [] ↔ sends attempt = false
  ok : called.2.isOk = succeeds attempt
  unsure
    : called.2.isOk = false
      → ((∀ sent ∈ called.1, unsent sent.outcome = true) ↔ loses attempt = false)

variable {opened : Except PooledFetch.Error Unit} {fresh : Except HyperError (Response Body)}
  {err : HyperError} {addr : SocketAddr} {req : Request Bytes}

section Attempts

attribute [local simp] AtMostOnce sends succeeds loses opensNew Except.isOk Except.toBool

/-- Without a cached connection `http` sends once, if a new one can be opened. -/
theorem httpNew_spec
    : HttpSpec { cached := none, opened, fresh }
        (httpNew { cached := none, opened, fresh } addr req) := by
  cases opened with
  | error err => constructor <;> simp [httpNew]
  | ok _ =>
      cases fresh with
      | ok res => constructor <;> simp [httpNew]
      | error err => constructor <;> simp [httpNew, lost_error]

/-- After a cached connection that could not be sent on, `http` goes on as without one.
Witness: the error of the first send allows another one.
-/
theorem HttpSpec.resend {called : List (Sent Body) × Except PooledFetch.Error (Response Body)}
    (spec : HttpSpec { cached := none, opened, fresh } called)
    (allowed : unsent (.error err : Except HyperError (Response Body)) = true)
    : HttpSpec { cached := some (.error err), opened, fresh }
        ({ addr, req, outcome := .error err } :: called.1, called.2) := by
  constructor
  case once => exact List.pairwise_cons.mpr ⟨fun _ _ => allowed, spec.once⟩
  case silent => simp
  case ok => simpa [allowed] using spec.ok
  case unsure =>
    intro failed
    simpa [allowed, lost_error] using spec.unsure failed

/-- The specification of `http`, by the outcome of the send on a cached connection. -/
theorem http_spec (attempt : Attempt Body) (addr : SocketAddr) (req : Request Bytes)
    : HttpSpec attempt (http attempt addr req) := by
  obtain ⟨cached, opened, fresh⟩ := attempt
  cases cached with
  | none => exact httpNew_spec
  | some outcome =>
      cases outcome with
      | ok res => constructor <;> simp [http]
      | error err =>
          cases allowed : unsent (.error err : Except HyperError (Response Body)) with
          | true =>
              have called
                  : http { cached := some (.error err), opened, fresh } addr req
                    = ({ addr, req, outcome := .error err }
                        :: (httpNew { cached := none, opened, fresh } addr req).1,
                      (httpNew { cached := none, opened, fresh } addr req).2) := by
                have resends : (err.isCanceled || err.isClosed) = true := allowed
                simp only [http, resends]
                rfl
              rw [called]
              exact httpNew_spec.resend allowed
          | false =>
              have called
                  : http { cached := some (.error err), opened, fresh } addr req
                    = ([{ addr, req, outcome := .error err }], .error (.hyper err)) := by
                have stops : (err.isCanceled || err.isClosed) = false := allowed
                simp only [http, stops]
                rfl
              rw [called]
              constructor <;> simp [allowed, lost_error]

end Attempts

-----------------------------------------------------------------------------------------
-- The sends of the loop
-----------------------------------------------------------------------------------------

/-- The sends may follow those of earlier attempts, of which `maySent` tells whether the
upstream may have got the request.
-/
def MayFollow (maySent : Bool) (sent : List (Sent Body)) : Prop :=
  (maySent = true → sent = []) ∧ AtMostOnce sent

/-- The sends of a failed attempt and the later ones may follow exactly if those of the
attempt may, and the later ones may follow with this attempt as one of the earlier.
Witness: what comes later comes after each of its sends.
-/
theorem mayFollow_append {attempt : Attempt Body} {maySent : Bool}
    {called : List (Sent Body) × Except PooledFetch.Error (Response Body)}
    {more : List (Sent Body)} (spec : HttpSpec attempt called)
    (failed : succeeds attempt = false)
    : MayFollow maySent (called.1 ++ more)
      ↔ (maySent = true → called.1 = [])
        ∧ MayFollow (maySent || loses attempt) more := by
  have unsure := spec.unsure (spec.ok.trans failed)
  simp only [MayFollow, List.append_eq_nil_iff, Bool.or_eq_true]
  constructor
  · intro ⟨silent, once⟩
    obtain ⟨-, later, across⟩ := List.pairwise_append.mp once
    refine ⟨fun may => (silent may).1, fun earlier => ?_, later⟩
    rcases earlier with may | open_
    case inl => exact (silent may).2
    case inr =>
      refine List.eq_nil_iff_forall_not_mem.mpr fun sent member => ?_
      have closed := unsure.mp fun first earlier => across first earlier sent member
      rw [open_] at closed
      cases closed
  · intro ⟨silent, none_later, later⟩
    refine ⟨fun may => ⟨silent may, none_later (.inl may)⟩, ?_⟩
    refine List.pairwise_append.mpr ⟨spec.once, later, fun first earlier sent member => ?_⟩
    cases lossy : loses attempt with
    | true =>
        rw [none_later (.inr lossy)] at member
        cases member
    | false => exact unsure.mpr lossy first earlier

/-- The sends of the loop may follow those of earlier attempts exactly if no attempt of it
sends after one that may have sent. Witness: induction on the attempts, with the address of
each inside the list.
-/
theorem retryLoop_mayFollow_iff (upstream : Upstream) (req : Request Bytes)
    (attempts : List (Attempt Body)) {pos : Nat} (retry : UInt64) (maySent : Bool)
    (inside : pos < upstream.addrLi.length)
    : MayFollow maySent
          ((retryLoop upstream req attempts pos retry).1.flatMap fun call => call.made.1)
      ↔ NoSendAfterLoss upstream.maxRetry retry maySent attempts := by
  induction attempts generalizing pos retry maySent with
  | nil => simp [retryLoop, MayFollow, AtMostOnce, NoSendAfterLoss]
  | cons attempt later ih =>
      have spec := http_spec attempt upstream.addrLi[pos] req
      have at_pos : upstream.addrLi[pos]? = some upstream.addrLi[pos] :=
        List.getElem?_eq_getElem inside
      rcases called : http attempt upstream.addrLi[pos] req with ⟨sent, err | res⟩
      all_goals
        rw [called] at spec
        have silent : (maySent = true → sent = []) ↔ (maySent = true → sends attempt = false) :=
          imp_congr_right fun _ => spec.silent
        have alone : MayFollow maySent sent ↔ (maySent = true → sends attempt = false) :=
          (and_iff_left spec.once).trans silent
      case ok =>
        have succeeded : succeeds attempt = true := spec.ok.symm
        simpa [retryLoop, at_pos, Call.made, called, NoSendAfterLoss, succeeded] using alone
      case error =>
        have failed : succeeds attempt = false := spec.ok.symm
        by_cases limit : retry + 1 > upstream.maxRetry
        case pos =>
          have stops : ¬ retry + 1 ≤ upstream.maxRetry := UInt64.not_le.mpr limit
          simpa [retryLoop, at_pos, Call.made, called, limit, NoSendAfterLoss, stops] using alone
        case neg =>
          have goes_on : retry + 1 ≤ upstream.maxRetry := UInt64.not_lt.mp limit
          have next_inside : (pos + 1) % upstream.addrLi.length < upstream.addrLi.length :=
            Nat.mod_lt _ (Nat.zero_lt_of_lt inside)
          simp only [retryLoop, at_pos, Call.made, called, limit, if_false, List.flatMap_cons,
            NoSendAfterLoss, failed, goes_on, forall_const]
          exact (mayFollow_append spec failed).trans
            (and_congr silent (ih (retry + 1) (maySent || loses attempt) next_inside))

/-- The attempts that a request makes: none if it is not forwarded, and otherwise those of
the loop.
-/
def NoResend (route : Route) (host : String) (collected : Except Error Bytes)
    (attempts : List (Attempt Body)) : Prop :=
  ∀ siteConf,
    route.confByHost host = some siteConf
    → siteConf.upstream.val.addrLi ≠ []
    → ∀ body,
        collected = .ok body
        → NoSendAfterLoss siteConf.upstream.val.maxRetry 0 false attempts

/-- For every request and every outcome of the connects and sends made for it, whatever its
method, the request is not sent again after a send that may have reached an upstream
exactly if no attempt sends after one that ended in such an error.
-/
theorem proxyInner_atMostOnce_iff (subHost : String → Option String) (route : Route)
    (n : UInt64) (host pathAndQuery : String) (parts : Parts)
    (collected : Except Error Bytes) (attempts : List (Attempt Body))
    : AtMostOnce (proxyInner subHost route n host pathAndQuery parts collected attempts).sent
      ↔ NoResend route host collected attempts := by
  unfold proxyInner NoResend Handled.sent
  cases route.confByHost host with
  | none => simp [AtMostOnce]
  | some siteConf =>
      by_cases empty : siteConf.upstream.val.addrLi = []
      case pos => simp [empty, AtMostOnce]
      case neg =>
        have nonempty : siteConf.upstream.val.addrLi.length ≠ 0 :=
          fun none => empty (List.length_eq_zero_iff.mp none)
        cases collected with
        | error err => simp [nonempty, AtMostOnce]
        | ok body =>
            have inside := Nat.mod_lt (n + 1).toNat (Nat.pos_of_ne_zero nonempty)
            have loop := retryLoop_mayFollow_iff siteConf.upstream.val
              { parts := forwardParts siteConf.upstream.val.protocol parts, body }
              attempts 0 false inside
            simpa [nonempty, empty, MayFollow] using loop

/-- A route with one site, whose upstream has two servers and is retried once. -/
def twoServers : Route :=
  let upstream :=
    {
      addrLi := [ipv4 10 0 0 1 80, ipv4 10 0 0 2 80]
      maxRetry := 1
      protocol := .h1
    }
  ((default : Route).addUpstream 0 "shop" upstream).set "example.com" "example.com" "shop"

/-- The first connection breaks after the order was written to it, the second server
answers.
-/
def brokenThenOk : List (Attempt Bytes) :=
  [
    {
      cached := none
      opened := .ok ()
      fresh := .error { kind := .other, text := "connection closed before message completed" }
    },
    {
      cached := none
      opened := .ok ()
      fresh := .ok { status := 200, headers := [], body := [] }
    }
  ]

def order : Parts where
  method := .post
  uri := { scheme := none, authority := none, pathAndQuery := some "/order" }
  version := .http2
  headers := []

def orderHandled : Handled Bytes :=
  proxyInner (fun _ => none) twoServers 0 "example.com" "/order" order (.ok []) brokenThenOk

/-- The order is sent to both servers. Witness: the sends by evaluation. -/
theorem order_sent_twice
    : orderHandled.sent.map (fun sent => (sent.addr, sent.req.parts.method))
        = [(ipv4 10 0 0 2 80, .post), (ipv4 10 0 0 1 80, .post)]
      ∧ ¬ AtMostOnce orderHandled.sent := by
  decide

end Gway.Proxy
