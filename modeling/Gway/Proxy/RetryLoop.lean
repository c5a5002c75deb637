import Gway.Library.RoundRobin
import Gway.Proxy.Calls
import Mathlib.Data.ENat.Lattice

/-! How the loop of `_proxy` goes on: it walks around the list of addresses from the one that
the counter chose, until an attempt succeeds or the retries are used up.
-/

namespace Gway

/-- The address at an index of the list taken around. -/
def Upstream.addrAt (upstream : Upstream) (nonempty : upstream.addrLi ≠ []) (index : Nat)
    : SocketAddr :=
  upstream.addrLi.get
    ⟨index % upstream.addrLi.length, Nat.mod_lt _ (List.length_pos_iff.mpr nonempty)⟩

namespace Proxy

open PooledFetch

variable {Body : Type}

/-- The index of the first attempt that succeeds, or infinity. -/
noncomputable def firstSuccess (outcomes : Nat → Attempt Body) : ℕ∞ :=
  sInf {index | ∃ i : Nat, index = i ∧ succeeds (outcomes i) = true}

/-- The index of the last attempt that is made: the first that succeeds, or the last that the
retries allow.
-/
noncomputable def lastAttempt (retries : Nat) (outcomes : Nat → Attempt Body) : Nat :=
  (min (firstSuccess outcomes) retries).toNat

/-- What the loop returns after an attempt that is its last. -/
def loopAnswer : Except PooledFetch.Error (Response Body) → Except Failure (Answer Body)
  | .ok res => .ok { res with body := .boxed res.body }
  | .error err => .error (.err (.pooledFetch err))

/-- The attempts before this one fail, and it succeeds unless there are no retries left. -/
structure EndsAt (retries : Nat) (outcomes : Nat → Attempt Body) (last : Nat) : Prop where
  allowed : last ≤ retries
  failed : ∀ i < last, succeeds (outcomes i) = false
  succeeded : last < retries → succeeds (outcomes last) = true

variable {upstream : Upstream} {outcomes : Nat → Attempt Body} {retries last : Nat}

theorem firstSuccess_le {i : Nat} (succeeded : succeeds (outcomes i) = true)
    : firstSuccess outcomes ≤ i :=
  sInf_le ⟨i, rfl, succeeded⟩

/-- The first success is one, if there is any, since the indices are well-ordered. -/
theorem succeeds_firstSuccess {first : Nat} (found : firstSuccess outcomes = first)
    : succeeds (outcomes first) = true := by
  have some_success
      : {index : ℕ∞ | ∃ i : Nat, index = i ∧ succeeds (outcomes i) = true}.Nonempty := by
    by_contra none
    rw [Set.not_nonempty_iff_eq_empty] at none
    rw [firstSuccess, none, sInf_empty] at found
    exact ENat.top_ne_natCast first found
  obtain ⟨i, same, succeeded⟩ := csInf_mem some_success
  have index : (i : ℕ∞) = first := same.symm.trans found
  rwa [Nat.cast_inj.mp index] at succeeded

theorem lastAttempt_cast (retries : Nat) (outcomes : Nat → Attempt Body)
    : (lastAttempt retries outcomes : ℕ∞) = min (firstSuccess outcomes) retries :=
  ENat.natCast_toNat (ne_top_of_le_ne_top (ENat.natCast_ne_top retries) (min_le_right _ _))

/-- The last attempt is where the loop has to end. -/
theorem endsAt_lastAttempt (retries : Nat) (outcomes : Nat → Attempt Body)
    : EndsAt retries outcomes (lastAttempt retries outcomes) := by
  have last := lastAttempt_cast retries outcomes
  constructor
  case allowed =>
    have below : (lastAttempt retries outcomes : ℕ∞) ≤ retries := last ▸ min_le_right _ _
    exact Nat.cast_le.mp below
  case failed =>
    intro i before
    refine Bool.eq_false_iff.mpr fun succeeded => ?_
    have first : (lastAttempt retries outcomes : ℕ∞) ≤ i :=
      last ▸ (min_le_left _ _).trans (firstSuccess_le succeeded)
    exact absurd before (Nat.not_lt.mpr (Nat.cast_le.mp first))
  case succeeded =>
    intro early
    have below : (lastAttempt retries outcomes : ℕ∞) < retries := Nat.cast_lt.mpr early
    rw [last, min_lt_iff, or_iff_left (lt_irrefl _)] at below
    rw [min_eq_left below.le] at last
    exact succeeds_firstSuccess last.symm

/-- After a failed attempt the loop ends where it does with the later ones. -/
theorem EndsAt.tail (ends : EndsAt retries outcomes (last + 1))
    : EndsAt (retries - 1) (fun i => outcomes (i + 1)) last := by
  obtain ⟨allowed, failed, succeeded⟩ := ends
  refine ⟨by omega, fun i before => failed (i + 1) (by omega), fun early => ?_⟩
  exact succeeded (by omega)

/-- If the last attempt fails, no retries are left. -/
theorem EndsAt.last_eq (ends : EndsAt retries outcomes last)
    (failed : succeeds (outcomes last) = false)
    : last = retries := by
  refine Nat.le_antisymm ends.allowed (Nat.not_lt.mp fun early => ?_)
  have succeeded := ends.succeeded early
  rw [failed] at succeeded
  cases succeeded

-----------------------------------------------------------------------------------------
-- The loop
-----------------------------------------------------------------------------------------

theorem addrAt_of_lt (nonempty : upstream.addrLi ≠ []) {pos : Nat}
    (inside : pos < upstream.addrLi.length)
    : upstream.addrLi[pos]? = some (upstream.addrAt nonempty pos) := by
  rw [List.getElem?_eq_getElem inside]
  simp [Upstream.addrAt, Nat.mod_eq_of_lt inside]

theorem addrAt_mod (nonempty : upstream.addrLi ≠ []) (pos index : Nat)
    : upstream.addrAt nonempty (pos % upstream.addrLi.length + index)
      = upstream.addrAt nonempty (pos + index) := by
  simp [Upstream.addrAt]

/-- The calls of the loop when it ends at an attempt, as many as there are outcomes. -/
def callsUntil (upstream : Upstream) (nonempty : upstream.addrLi ≠ []) (req : Request Bytes)
    (outcomes : Nat → Attempt Body) (pos made : Nat) : List (Call Body) :=
  (List.range made).map fun i =>
    { addr := upstream.addrAt nonempty (pos + i), req, attempt := outcomes i }

/-- The first call is for the address at hand, and the others go on from the next one. -/
theorem callsUntil_succ (nonempty : upstream.addrLi ≠ []) (req : Request Bytes)
    (outcomes : Nat → Attempt Body) (pos made : Nat)
    : callsUntil upstream nonempty req outcomes pos (made + 1)
      = { addr := upstream.addrAt nonempty pos, req, attempt := outcomes 0 }
        :: callsUntil upstream nonempty req (fun i => outcomes (i + 1))
            ((pos + 1) % upstream.addrLi.length) made := by
  simp only [callsUntil, List.range_succ_eq_map, List.map_cons, List.map_map, Nat.add_zero,
    addrAt_mod]
  refine congrArg _ (List.map_congr_left fun i _ => ?_)
  simp [Nat.add_assoc, Nat.add_comm 1]

/-- The attempt at hand is the last one. -/
def Stops (upstream : Upstream) (attempt : Attempt Body) (retry : UInt64) : Prop :=
  succeeds attempt = true ∨ retry + 1 > upstream.maxRetry

/-- One round of the loop calls `http` for the address at hand. If it is the last one, the
loop returns what the call returns, and otherwise it goes on at the next address.
-/
theorem loop_cons (nonempty : upstream.addrLi ≠ []) (req : Request Bytes)
    (attempt : Attempt Body) (later : List (Attempt Body)) {pos : Nat} (retry : UInt64)
    (inside : pos < upstream.addrLi.length)
    : let call : Call Body := { addr := upstream.addrAt nonempty pos, req, attempt }
      let next := (pos + 1) % upstream.addrLi.length
      (Stops upstream attempt retry
        → retryLoop upstream req (attempt :: later) pos retry
          = ([call], some (loopAnswer call.made.2)))
      ∧ (¬ Stops upstream attempt retry
        → retryLoop upstream req (attempt :: later) pos retry
          = let (more, result) := retryLoop upstream req later next (retry + 1)
            (call :: more, result)) := by
  have spec := (http_spec attempt (upstream.addrAt nonempty pos) req).ok
  rcases called : http attempt (upstream.addrAt nonempty pos) req with ⟨sent, err | res⟩
  case ok =>
    have succeeded : succeeds attempt = true := by
      rw [← spec, called]
      rfl
    constructor
    · intro _
      simp [retryLoop, addrAt_of_lt nonempty inside, Call.made, called, loopAnswer]
    · intro goes_on
      exact absurd (Or.inl succeeded) goes_on
  case error =>
    have failed : succeeds attempt = false := by
      rw [← spec, called]
      rfl
    constructor
    · intro stops
      have limit : retry + 1 > upstream.maxRetry := by simpa [Stops, failed] using stops
      simp [retryLoop, addrAt_of_lt nonempty inside, Call.made, called, loopAnswer, limit]
    · intro goes_on
      have limit : ¬ retry + 1 > upstream.maxRetry := fun limit => goes_on (Or.inr limit)
      simp [retryLoop, addrAt_of_lt nonempty inside, Call.made, called, limit]

/-- Below the limit the counter of retries does not wrap, and passes it from there. -/
theorem retry_limit (bounded : upstream.maxRetry.toNat + 1 < 2 ^ 64) {retry : UInt64}
    (begun : retry.toNat ≤ upstream.maxRetry.toNat)
    : (retry + 1).toNat = retry.toNat + 1
      ∧ (retry + 1 > upstream.maxRetry ↔ upstream.maxRetry.toNat = retry.toNat) := by
  have incremented : (retry + 1).toNat = retry.toNat + 1 := by
    rw [UInt64.toNat_add]
    exact Nat.mod_eq_of_lt (by simp; omega)
  refine ⟨incremented, ?_⟩
  rw [gt_iff_lt, UInt64.lt_iff_toNat_lt, incremented]
  omega

/-- The loop makes the calls up to the one where it has to end, and returns what this one
returns. Witness: induction on the index of that call, one attempt after the other.
-/
theorem loop_outcomes (nonempty : upstream.addrLi ≠ []) (req : Request Bytes)
    (bounded : upstream.maxRetry.toNat + 1 < 2 ^ 64) {retry : UInt64} {pos : Nat}
    (begun : retry.toNat ≤ upstream.maxRetry.toNat) (inside : pos < upstream.addrLi.length)
    (ends : EndsAt (upstream.maxRetry.toNat - retry.toNat) outcomes last) (given : Nat)
    : retryLoop upstream req ((List.range given).map outcomes) pos retry
      = (callsUntil upstream nonempty req outcomes pos (min given (last + 1)),
        if given ≤ last then none
        else
          some (loopAnswer
            (http (outcomes last) (upstream.addrAt nonempty (pos + last)) req).2)) := by
  induction last generalizing outcomes retry pos given with
  | zero =>
      cases given with
      | zero => simp [retryLoop, callsUntil]
      | succ given =>
          have stops : Stops upstream (outcomes 0) retry := by
            by_cases left : 0 < upstream.maxRetry.toNat - retry.toNat
            case pos => exact Or.inl (ends.succeeded left)
            case neg => exact Or.inr ((retry_limit bounded begun).2.mpr (by omega))
          rw [List.range_succ_eq_map, List.map_cons, List.map_map]
          rw [(loop_cons nonempty req (outcomes 0)
            ((List.range given).map (outcomes ∘ Nat.succ)) retry inside).1 stops]
          simp [callsUntil, Call.made]
  | succ last ih =>
      cases given with
      | zero => simp [retryLoop, callsUntil]
      | succ given =>
          obtain ⟨incremented, limit_iff⟩ := retry_limit bounded begun
          have left := ends.allowed
          have goes_on : ¬ Stops upstream (outcomes 0) retry := by
            rintro (succeeded | limit)
            · rw [ends.failed 0 (Nat.succ_pos last)] at succeeded
              cases succeeded
            · rw [limit_iff] at limit
              omega
          have tail : EndsAt (upstream.maxRetry.toNat - (retry + 1).toNat)
              (fun i => outcomes (i + 1)) last := by
            rw [incremented, ← Nat.sub_sub]
            exact ends.tail
          have next_inside : (pos + 1) % upstream.addrLi.length < upstream.addrLi.length :=
            Nat.mod_lt _ (Nat.zero_lt_of_lt inside)
          have looped := ih (by omega) next_inside tail given
          have shifted : outcomes ∘ Nat.succ = fun i => outcomes (i + 1) := rfl
          rw [List.range_succ_eq_map, List.map_cons, List.map_map, shifted]
          rw [(loop_cons nonempty req (outcomes 0)
            ((List.range given).map fun i => outcomes (i + 1)) retry inside).2 goes_on, looped,
            addrAt_mod, Nat.add_min_add_right, callsUntil_succ]
          simp only [Nat.add_le_add_iff_right, Nat.add_assoc, Nat.add_comm 1]

/-- From any place in the list, as many attempts as there are addresses try each of them. -/
theorem exists_callsUntil (nonempty : upstream.addrLi ≠ []) (req : Request Bytes)
    (outcomes : Nat → Attempt Body) (pos : Nat) {made : Nat}
    (enough : upstream.addrLi.length ≤ made) {addr : SocketAddr}
    (member : addr ∈ upstream.addrLi)
    : ∃ call ∈ callsUntil upstream nonempty req outcomes pos made, call.addr = addr := by
  obtain ⟨entry, below, rfl⟩ := List.getElem_of_mem member
  obtain ⟨steps, soon, reached⟩ := RoundRobin.exists_step pos below
  refine ⟨_, List.mem_map.mpr ⟨steps, List.mem_range.mpr (soon.trans_le enough), rfl⟩, ?_⟩
  simp [Upstream.addrAt, reached]

/-- Only an attempt that does not succeed makes the loop fail. -/
theorem loopAnswer_error {attempt : Attempt Body} {addr : SocketAddr} {req : Request Bytes}
    {failure : Failure} (failed : loopAnswer (http attempt addr req).2 = .error failure)
    : succeeds attempt = false := by
  rw [← (http_spec attempt addr req).ok]
  cases result : (http attempt addr req).2 with
  | ok res =>
      rw [result] at failed
      cases failed
  | error err => rfl

/-- For every upstream with an address, every counter and every limit of retries below the
greatest, and whatever comes of the attempts, the loop makes the attempts up to the last one,
each with the same request and for the next address around the list; it then returns what the
last one returns. It fails only after all addresses have been tried, if the retries suffice
for that.
-/
theorem proxyInner_retries (subHost : String → Option String) (route : Route) (n : UInt64)
    (host pathAndQuery : String) (parts : Parts) (body : Bytes) (siteConf : SiteConf)
    (found : route.confByHost host = some siteConf)
    (nonempty : siteConf.upstream.val.addrLi ≠ [])
    (bounded : siteConf.upstream.val.maxRetry.toNat + 1 < 2 ^ 64)
    (outcomes : Nat → Attempt Body) (given : Nat)
    : let upstream := siteConf.upstream.val
      let len := upstream.addrLi.length
      let req := { parts := forwardParts upstream.protocol parts, body }
      let addrOf (i : Nat) := upstream.addrAt nonempty ((n.toNat + 1) % 2 ^ 64 % len + i)
      let last := lastAttempt upstream.maxRetry.toNat outcomes
      let attempts := (List.range given).map outcomes
      let handled := proxyInner subHost route n host pathAndQuery parts (.ok body) attempts
      handled.calls
        = (List.range (min given (last + 1))).map (fun i =>
            { addr := addrOf i, req, attempt := outcomes i })
      ∧ handled.sent = handled.calls.flatMap (fun call => call.made.1)
      ∧ handled.result
        = (if given ≤ last then none
          else some (loopAnswer (http (outcomes last) (addrOf last) req).2))
      ∧ (len ≤ upstream.maxRetry.toNat + 1
        → ∀ failure,
            handled.result = some (.error failure)
            → ∀ addr ∈ upstream.addrLi, ∃ call ∈ handled.calls, call.addr = addr) := by
  intro upstream len req addrOf last attempts handled
  have some_addr : 0 < len := List.length_pos_iff.mpr nonempty
  have counted : (n + 1).toNat = (n.toNat + 1) % 2 ^ 64 := by
    rw [UInt64.toNat_add]
    rfl
  have inside : (n.toNat + 1) % 2 ^ 64 % len < len := Nat.mod_lt _ some_addr
  have ends : EndsAt (upstream.maxRetry.toNat - (0 : UInt64).toNat) outcomes last :=
    endsAt_lastAttempt upstream.maxRetry.toNat outcomes
  have looped := loop_outcomes nonempty req bounded (Nat.zero_le _) inside ends given
  have served
      : handled
        = {
            n := n + 1
            calls :=
              callsUntil upstream nonempty req outcomes ((n.toNat + 1) % 2 ^ 64 % len)
                (min given (last + 1))
            result :=
              if given ≤ last then none
              else some (loopAnswer (http (outcomes last) (addrOf last) req).2)
          } := by
    have forwarded : handled = _ := proxyInner_of_served found nonempty rfl
    rw [forwarded, counted, looped]
  have made := congrArg Handled.calls served
  have result := congrArg Handled.result served
  refine ⟨made, rfl, result, fun enough failure failed addr member => ?_⟩
  rw [result] at failed
  split at failed
  case isTrue => cases failed
  case isFalse finished =>
    have used_up : last = upstream.maxRetry.toNat :=
      ends.last_eq (loopAnswer_error (Option.some.inj failed))
    rw [← used_up] at enough
    have tried : len ≤ min given (last + 1) :=
      le_min (enough.trans (Nat.lt_of_not_le finished)) enough
    rw [made]
    exact exists_callsUntil nonempty req outcomes _ tried member

/-- A connection is reset on the first attempts, and the later ones succeed. -/
def resetFirst (attempts i : Nat) : Attempt Bytes where
  cached := none
  opened := .ok ()
  fresh :=
    if i < attempts then .error { kind := .other, text := "connection reset" }
    else .ok { status := 200, headers := [], body := [] }

/-- With one retry and a counter that wraps, both servers are tried before the request fails.
-/
theorem proxyInner_retries_twoServers
    : let attempts := (List.range 5).map (resetFirst 2)
      let n := 0xffffffffffffffff
      let handled :=
        proxyInner (fun _ => none) twoServers n "example.com" "/order" order (.ok []) attempts
      handled.result
          = some (.error (.err (.pooledFetch
              (.hyper { kind := .other, text := "connection reset" }))))
      ∧ (∃ call ∈ handled.calls, call.addr = ipv4 10 0 0 1 80)
      ∧ ∃ call ∈ handled.calls, call.addr = ipv4 10 0 0 2 80 := by
  have retries := (proxyInner_retries (fun _ => none) twoServers 0xffffffffffffffff
    "example.com" "/order" order [] _ rfl (by decide) (by decide) (resetFirst 2) 5).2.2.2
  have tried := retries (by decide) _ rfl
  exact ⟨rfl, tried _ (by decide), tried _ (by decide)⟩

end Proxy

end Gway
