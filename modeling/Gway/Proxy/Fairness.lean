import Gway.Decision.FrontEnds
import Gway.Library.RoundRobin
import Gway.Proxy.AtMostOnce

/-! How the requests for an upstream are spread over its addresses. One counter is taken
modulo the number of addresses of the upstream at hand, so the requests for other upstreams
in between decide which address comes next.
-/

namespace Gway.Proxy

open PooledFetch RoundRobin

variable {Body : Type}

/-- A request with its body and what the network does for it. -/
structure Arrival (Body : Type) where
  req : Parts
  collected : Except Error Bytes
  attempts : List (Attempt Body)

/-- A request that was forwarded: the entry of the list of addresses that the counter chose,
and the sends made for it.
-/
structure Forwarded (Body : Type) where
  upstream : Arc Upstream
  entry : Nat
  sent : List (Sent Body)

/-- The counter, and the requests forwarded so far. -/
structure Tally (Body : Type) where
  n : UInt64
  forwarded : List (Forwarded Body)

/-- The upstream of a request that is forwarded to it with success on the first attempt. -/
def accepts (route : Route) (arrival : Arrival Body) : Option (Arc Upstream) :=
  match route.confByHost (reqHost arrival.req) with
  | some siteConf =>
      if siteConf.upstream.val.addrLi ≠ []
          ∧ arrival.collected.isOk = true
          ∧ arrival.attempts.head?.any succeeds = true then
        some siteConf.upstream
      else none
  | none => none

/-- One request after the other goes through the proxy, as long as the counter does not wrap.
-/
def serving (subHost : String → Option String) (route : Route) (n : UInt64)
    : Machine (Tally Body) (Arrival Body) where
  init := { n, forwarded := [] }
  step tally arrival :=
    match accepts route arrival with
    | some upstream =>
        if tally.n.toNat + 1 < 2 ^ 64 then
          let handled :=
            proxy subHost route tally.n arrival.req arrival.collected arrival.attempts
          let entry := handled.n.toNat % upstream.val.addrLi.length
          some
            {
              n := handled.n
              forwarded := tally.forwarded ++ [{ upstream, entry, sent := handled.sent }]
            }
        else none
    | none => none

/-- The entries that the requests for an upstream went to, in order. -/
def entriesOf (forwarded : List (Forwarded Body)) (upstream : Arc Upstream) : List Nat :=
  (forwarded.filter (·.upstream = upstream)).map (·.entry)

/-- The places of the requests for an upstream among all. -/
def indicesOf (forwarded : List (Forwarded Body)) (upstream : Arc Upstream) : List Nat :=
  (forwarded.zipIdx.filter (·.1.upstream = upstream)).map (·.2)

/-- All sends made for a request went to the address at its entry. -/
def ToEntry (tally : Tally Body) : Prop :=
  ∀ request ∈ tally.forwarded,
    request.sent ≠ []
    ∧ ∀ sent ∈ request.sent, request.upstream.val.addrLi[request.entry]? = some sent.addr

/-- The numbers of requests that two addresses of one upstream got differ by at most one. -/
def Fair (tally : Tally Body) : Prop :=
  ∀ upstream : Arc Upstream,
    RoundRobin.Balanced upstream.val.addrLi.length (entriesOf tally.forwarded upstream)

/-- None of the requests in the unfinished round of the upstream came a multiple of the
number of its addresses before the new one, counting the requests for all upstreams.
-/
def SpreadOut (route : Route) (before : Tally Body) (arrival : Arrival Body)
    (_ : Tally Body) : Prop :=
  ∀ upstream,
    accepts route arrival = some upstream
    → ∀ index ∈ currentRound upstream.val.addrLi.length (indicesOf before.forwarded upstream),
        ¬ upstream.val.addrLi.length ∣ before.forwarded.length - index

variable {subHost : String → Option String} {route : Route} {n : UInt64}
  {tally after : Tally Body} {arrival : Arrival Body} {upstream : Arc Upstream}
  {forwarded : List (Forwarded Body)} {request : Forwarded Body}

-----------------------------------------------------------------------------------------
-- One request
-----------------------------------------------------------------------------------------

theorem sends_of_succeeds {attempt : Attempt Body} (succeeded : succeeds attempt = true)
    : sends attempt = true := by
  simp only [succeeds, sends, Bool.or_eq_true, Bool.and_eq_true] at succeeded ⊢
  rcases succeeded with cached | ⟨opened, -⟩
  · left
    cases found : attempt.cached with
    | none =>
        rw [found] at cached
        cases cached
    | some outcome => rfl
  · exact .inr opened

/-- The loop ends with a first attempt that succeeds. -/
theorem retryLoop_of_succeeds {upstream : Upstream} {req : Request Bytes}
    {attempt : Attempt Body} {later : List (Attempt Body)} {pos : Nat} {retry : UInt64}
    (inside : pos < upstream.addrLi.length) (succeeded : succeeds attempt = true)
    : (retryLoop upstream req (attempt :: later) pos retry).1
      = [{ addr := upstream.addrLi[pos], req, attempt }] := by
  have ok := (http_spec attempt upstream.addrLi[pos] req).ok
  rcases called : http attempt upstream.addrLi[pos] req with ⟨sent, err | res⟩
  case ok => simp [retryLoop, List.getElem?_eq_getElem inside, Call.made, called]
  case error =>
    rw [called, succeeded] at ok
    cases ok

/-- What one more request does: it goes to the entry that the counter chooses. -/
structure Served (upstream : Arc Upstream) (before after : Tally Body)
    (request : Forwarded Body) : Prop where
  counted : after.n.toNat = before.n.toNat + 1
  appended : after.forwarded = before.forwarded ++ [request]
  its : request.upstream = upstream
  entry : request.entry = (before.n.toNat + 1) % upstream.val.addrLi.length
  below : request.entry < upstream.val.addrLi.length
  nonempty : request.sent ≠ []
  toEntry : ∀ sent ∈ request.sent, upstream.val.addrLi[request.entry]? = some sent.addr

/-- An accepted request increments the counter and is sent to the address that this chooses.
-/
theorem proxy_of_accepts (accepted : accepts route arrival = some upstream)
    : let handled := proxy subHost route n arrival.req arrival.collected arrival.attempts
      upstream.val.addrLi ≠ []
      ∧ handled.n = n + 1
      ∧ handled.sent ≠ []
      ∧ ∀ sent ∈ handled.sent,
          upstream.val.addrLi[(n + 1).toNat % upstream.val.addrLi.length]?
            = some sent.addr := by
  intro handled
  unfold accepts at accepted
  split at accepted
  case h_2 => cases accepted
  case h_1 siteConf found =>
    split at accepted
    case isFalse => cases accepted
    case isTrue conditions =>
      cases Option.some.inj accepted
      obtain ⟨nonempty, readable, first⟩ := conditions
      have inside := Nat.mod_lt (n + 1).toNat (List.length_pos_iff.mpr nonempty)
      cases read : arrival.collected with
      | error err =>
          rw [read] at readable
          cases readable
      | ok body =>
          obtain ⟨-, body, -, forwarded⟩ :=
            @proxy_forwards _ subHost _ n _ _ arrival.attempts _ _ found nonempty read
          have calls
              : handled.calls
                = (retryLoop siteConf.upstream.val
                    {
                      parts := forwardParts siteConf.upstream.val.protocol arrival.req
                      body
                    }
                    arrival.attempts ((n + 1).toNat % siteConf.upstream.val.addrLi.length)
                    0).1 :=
            congrArg Handled.calls forwarded
          cases attempts : arrival.attempts with
          | nil =>
              rw [attempts] at first
              cases first
          | cons attempt later =>
              rw [attempts] at first
              have succeeded : succeeds attempt = true := first
              rw [attempts, retryLoop_of_succeeds inside succeeded] at calls
              have sends : handled.sent = _ := congrArg (List.flatMap _) calls
              rw [List.flatMap_singleton, Call.made] at sends
              refine ⟨nonempty, congrArg Handled.n forwarded, ?_, fun sent member => ?_⟩
              · rw [sends, ne_eq, (http_spec _ _ _).silent, sends_of_succeeds succeeded]
                exact Bool.noConfusion
              · rw [sends] at member
                rw [(http_sent member).1, List.getElem?_eq_getElem inside]

theorem served_of_step (stepped : (serving subHost route n).step tally arrival = some after)
    : ∃ upstream request,
        accepts route arrival = some upstream ∧ Served upstream tally after request := by
  simp only [serving] at stepped
  cases accepted : accepts route arrival with
  | none =>
      rw [accepted] at stepped
      cases stepped
  | some upstream =>
      simp only [accepted] at stepped
      split at stepped
      case isFalse => cases stepped
      case isTrue room =>
        cases Option.some.inj stepped
        obtain ⟨nonempty, counted, sent, toEntry⟩ :=
          @proxy_of_accepts _ subHost _ tally.n _ _ accepted
        have next : (tally.n + 1).toNat = tally.n.toNat + 1 := by
          rw [UInt64.toNat_add]
          exact Nat.mod_eq_of_lt room
        have some_len : 0 < upstream.val.addrLi.length := List.length_pos_iff.mpr nonempty
        refine ⟨upstream, _, rfl, ?_, rfl, rfl, ?_, Nat.mod_lt _ some_len, sent, ?_⟩
        · rw [counted, next]
        · rw [counted, next]
        · rwa [counted]

theorem Served.entriesOf_eq (served : Served upstream tally after request)
    (other : Arc Upstream)
    : entriesOf after.forwarded other
      = entriesOf tally.forwarded other ++ if upstream = other then [request.entry] else [] := by
  rw [served.appended, entriesOf, List.filter_append, List.map_append, ← served.its]
  by_cases same : request.upstream = other
  case pos => simp [entriesOf, same]
  case neg => simp [entriesOf, same]

theorem Served.indicesOf_eq (served : Served upstream tally after request)
    (other : Arc Upstream)
    : indicesOf after.forwarded other
      = indicesOf tally.forwarded other
        ++ if upstream = other then [tally.forwarded.length] else [] := by
  rw [served.appended, indicesOf, List.zipIdx_append, List.filter_append, List.map_append,
    ← served.its]
  by_cases same : request.upstream = other
  case pos => simp [indicesOf, same]
  case neg => simp [indicesOf, same]

theorem lt_of_mem_indicesOf {index : Nat} (member : index ∈ indicesOf forwarded upstream)
    : index < forwarded.length := by
  obtain ⟨pair, found, rfl⟩ := List.mem_map.mp member
  have at_index := List.mem_zipIdx (List.mem_of_mem_filter found)
  omega

-----------------------------------------------------------------------------------------
-- Runs
-----------------------------------------------------------------------------------------

/-- The counter has counted the requests, and each went to the entry of its own number. -/
structure Numbered (start : UInt64) (tally : Tally Body) : Prop where
  counter : tally.n.toNat = start.toNat + tally.forwarded.length
  entries
    : ∀ upstream,
        entriesOf tally.forwarded upstream
        = (indicesOf tally.forwarded upstream).map
            (fun index => (start.toNat + 1 + index) % upstream.val.addrLi.length)

theorem Numbered.step {start : UInt64} (numbered : Numbered start tally)
    (served : Served upstream tally after request)
    : Numbered start after := by
  have counter := numbered.counter
  have counted := served.counted
  constructor
  case counter =>
    rw [served.appended, List.length_append, List.length_singleton]
    omega
  case entries =>
    intro other
    rw [served.entriesOf_eq, served.indicesOf_eq, List.map_append, numbered.entries]
    by_cases same : upstream = other
    case pos =>
      subst same
      have entry := served.entry
      rw [counter] at entry
      simp only [if_true, List.map_singleton, entry]
      congr 3
      omega
    case neg => simp only [same, if_false, List.map_nil]

/-- The upstreams with addresses have chosen these in rounds. -/
def AllInRounds (tally : Tally Body) : Prop :=
  ∀ upstream : Arc Upstream,
    upstream.val.addrLi ≠ []
    → InRounds upstream.val.addrLi.length (entriesOf tally.forwarded upstream)

theorem AllInRounds.fair (rounds : AllInRounds tally) : Fair tally := by
  intro upstream
  by_cases empty : upstream.val.addrLi = []
  case pos => simp [RoundRobin.Balanced, empty]
  case neg => exact (rounds upstream empty).balanced

/-- An entry is new to its round exactly if no request of the round has the same remainder,
that is, if none came a multiple of the number of addresses before.
-/
theorem Numbered.fresh_iff {start : UInt64} (numbered : Numbered start tally)
    (served : Served upstream tally after request)
    : request.entry
        ∉ currentRound upstream.val.addrLi.length (entriesOf tally.forwarded upstream)
      ↔ ∀ index ∈
            currentRound upstream.val.addrLi.length (indicesOf tally.forwarded upstream),
          ¬ upstream.val.addrLi.length ∣ tally.forwarded.length - index := by
  rw [numbered.entries, currentRound_map, List.mem_map, not_exists]
  refine forall_congr' fun index => ?_
  rw [not_and]
  refine imp_congr_right fun member => not_congr ?_
  have earlier := lt_of_mem_indicesOf (mem_of_mem_currentRound member)
  have ordered : start.toNat + 1 + index ≤ start.toNat + tally.forwarded.length + 1 := by omega
  have apart
      : start.toNat + tally.forwarded.length + 1 - (start.toNat + 1 + index)
        = tally.forwarded.length - index := by
    omega
  rw [served.entry, numbered.counter, ← apart]
  exact Nat.modEq_iff_dvd' ordered

/-- One more request keeps the choices in rounds if its entry is new to its round. -/
theorem AllInRounds.step (rounds : AllInRounds tally)
    (served : Served upstream tally after request)
    (fresh
      : request.entry
        ∉ currentRound upstream.val.addrLi.length (entriesOf tally.forwarded upstream))
    : AllInRounds after := by
  intro other nonempty
  rw [served.entriesOf_eq]
  by_cases same : upstream = other
  case pos =>
    subst same
    rw [if_pos rfl]
    exact (rounds upstream nonempty).concat served.below fresh
  case neg =>
    rw [if_neg same, List.append_nil]
    exact rounds other nonempty

/-- One more request is fair exactly if its entry is new to its round. -/
theorem AllInRounds.fair_iff (rounds : AllInRounds tally)
    (served : Served upstream tally after request)
    : Fair after
      ↔ request.entry
          ∉ currentRound upstream.val.addrLi.length
            (entriesOf tally.forwarded upstream) := by
  constructor
  · intro fair
    have balanced := fair upstream
    rw [served.entriesOf_eq, if_pos rfl] at balanced
    have nonempty : upstream.val.addrLi ≠ [] :=
      List.length_pos_iff.mp (Nat.zero_lt_of_lt served.below)
    exact ((rounds upstream nonempty).balanced_concat_iff served.below).mp balanced
  · exact fun fresh => (rounds.step served fresh).fair

/-- Whatever requests are served, each is sent to the address at its entry. -/
theorem serving_toEntry {arrivals : List (Arrival Body)}
    (ran
      : (serving subHost route n).run (serving subHost route n).init arrivals = some tally)
    : ToEntry tally := by
  have start : ToEntry (serving subHost route n : Machine (Tally Body) _).init :=
    fun _ member => by cases member
  refine Machine.run_invariant (fun before arrival after kept stepped => ?_) start ran
  obtain ⟨upstream, added, -, served⟩ := served_of_step stepped
  intro request member
  rw [served.appended] at member
  rcases List.mem_append.mp member with earlier | now
  · exact kept request earlier
  · rw [List.mem_singleton.mp now, served.its]
    exact ⟨served.nonempty, served.toEntry⟩

/-- For every table, every start of the counter and every sequence of requests that are
forwarded with success on their first attempts, the addresses of each upstream have got
equally many requests up to one after every request exactly if no two requests in the same
round of an upstream are a multiple of the number of its addresses apart. Each request is
counted for the address that it was sent to.
-/
theorem serving_fair_iff (Body : Type) (subHost : String → Option String) (route : Route)
    (n : UInt64) (arrivals : List (Arrival Body))
    : (∀ tally,
        (serving subHost route n).run (serving subHost route n).init arrivals = some tally
        → ToEntry tally)
      ∧ ((serving subHost route n).Always Fair (serving subHost route n).init arrivals
        ↔ (serving subHost route n).EachStep (SpreadOut route) (serving subHost route n).init
            arrivals) := by
  refine ⟨fun tally ran => serving_toEntry ran, ?_⟩
  have start : AllInRounds (serving subHost route n : Machine (Tally Body) _).init :=
    fun upstream nonempty => InRounds.nil (List.length_pos_iff.mpr nonempty)
  refine Machine.always_iff_eachStep
    (fun tally => Numbered n tally ∧ AllInRounds tally) ?_ ?_ ⟨⟨rfl, fun _ => rfl⟩, start⟩
    start.fair
  · intro before arrival after invariant _ stepped
    obtain ⟨numbered, rounds⟩ := invariant
    obtain ⟨upstream, request, accepted, served⟩ := served_of_step stepped
    rw [rounds.fair_iff served, numbered.fresh_iff served]
    constructor
    · intro spread other its
      cases Option.some.inj (accepted.symm.trans its)
      exact spread
    · exact fun spread => spread upstream accepted
  · intro before arrival after invariant _ stepped spread
    obtain ⟨numbered, rounds⟩ := invariant
    obtain ⟨upstream, request, accepted, served⟩ := served_of_step stepped
    refine ⟨numbered.step served, rounds.step served ?_⟩
    exact (numbered.fresh_iff served).mpr (spread upstream accepted)

def shop : Upstream where
  addrLi := [ipv4 10 0 0 1 80, ipv4 10 0 0 2 80]
  maxRetry := 0
  protocol := .h1

/-- Two sites, of which the first has two servers. -/
def twoSites : Route :=
  let upstreams := ((default : Route).addUpstream 0 "shop" shop).addUpstream 1 "blog" localServer
  (upstreams.set "shop.example" "shop.example" "shop").set "blog.example" "blog.example" "blog"

/-- A request whose first attempt succeeds. -/
def page (host : String) : Arrival Bytes where
  req :=
    {
      method := .get
      uri := { scheme := none, authority := none, pathAndQuery := some "/" }
      version := .http2
      headers := [("host", bytesOf host)]
    }
  collected := .ok []
  attempts :=
    [
      {
        cached := none
        opened := .ok ()
        fresh := .ok { status := 200, headers := [], body := [] }
      }
    ]

/-- Requests to the two sites in turn. -/
def alternating : List (Arrival Bytes) :=
  [page "shop.example", page "blog.example", page "shop.example"]

def alternatingTally : Option (Tally Bytes) :=
  (serving (fun _ => none) twoSites 0).run { n := 0, forwarded := [] } alternating

/-- One of the two servers gets all requests. Witness: the sends by evaluation. -/
theorem alternating_unfair
    : alternatingTally.map
          (fun tally => tally.forwarded.map fun request => request.sent.map (·.addr))
        = some [[ipv4 10 0 0 2 80], [localUpstream], [ipv4 10 0 0 2 80]]
      ∧ ¬ (serving (fun _ => none) twoSites 0).Always Fair
          { n := 0, forwarded := [] } alternating := by
  refine ⟨by decide, fun always => ?_⟩
  have entries
      : alternatingTally.map (fun tally => entriesOf tally.forwarded { ptr := 0, val := shop })
        = some [1, 1] := by
    decide
  obtain ⟨tally, ran, chosen⟩ := Option.map_eq_some_iff.mp entries
  have balanced := always.last ran { ptr := 0, val := shop }
  rw [chosen] at balanced
  have apart := balanced 1 (by decide) 0 (by decide)
  simp at apart

end Gway.Proxy
