import Gway.Proxy.RetryLoop

/-! How long a request keeps the upstreams busy. The loop of `_proxy` counts its retries in a
counter that wraps, so it ends by itself unless the limit is the greatest number there is.
-/

namespace Gway.Proxy

open PooledFetch

variable {Body : Type} {upstream : Upstream} {req : Request Bytes}
  {attempts : List (Attempt Body)}

-----------------------------------------------------------------------------------------
-- The number of sends
-----------------------------------------------------------------------------------------

/-- A call sends at most twice: on a cached connection and on a new one. -/
theorem length_http_le (attempt : Attempt Body) (addr : SocketAddr) (req : Request Bytes)
    : (http attempt addr req).1.length ≤ 2 := by
  have fresh : (httpNew attempt addr req).1.length ≤ 1 := by
    cases opened : attempt.opened with
    | error err => simp [httpNew, opened]
    | ok _ => cases outcome : attempt.fresh <;> simp [httpNew, opened, outcome]
  rcases cached : attempt.cached with _ | (err | res)
  case none =>
    simp only [http, cached]
    omega
  case some.ok => simp [http, cached]
  case some.error =>
    simp only [http, cached]
    split
    case isTrue => simp
    case isFalse =>
      simp only [List.length_cons]
      omega

theorem length_sent_le (handled : Handled Body)
    : handled.sent.length ≤ 2 * handled.calls.length := by
  unfold Handled.sent
  induction handled.calls with
  | nil => rfl
  | cons call rest ih =>
      have own := length_http_le call.attempt call.addr call.req
      rw [List.flatMap_cons, List.length_append, List.length_cons, Call.made]
      omega

-----------------------------------------------------------------------------------------
-- The limit of the retries
-----------------------------------------------------------------------------------------

/-- A list of attempts, taken as what comes of them by their indices. -/
theorem exists_outcomes (some_attempt : attempts ≠ [])
    : ∃ outcomes : Nat → Attempt Body,
        attempts = (List.range attempts.length).map outcomes := by
  refine ⟨fun i => (attempts[i]?).getD (attempts.head some_attempt), ?_⟩
  apply List.ext_getElem
  · simp
  · intro i here there
    simp [here]

/-- With a limit below the greatest number the loop ends with the attempts that it allows. -/
theorem loop_ends (nonempty : upstream.addrLi ≠ [])
    (bounded : upstream.maxRetry.toNat + 1 < 2 ^ 64) {pos : Nat}
    (inside : pos < upstream.addrLi.length)
    (enough : upstream.maxRetry.toNat < attempts.length)
    : (retryLoop upstream req attempts pos 0).2.isSome
      ∧ (retryLoop upstream req attempts pos 0).1.length ≤ upstream.maxRetry.toNat + 1 := by
  obtain ⟨outcomes, given⟩ := exists_outcomes (List.length_pos_iff.mp (Nat.zero_lt_of_lt enough))
  have ends
      : EndsAt (upstream.maxRetry.toNat - (0 : UInt64).toNat) outcomes
          (lastAttempt upstream.maxRetry.toNat outcomes) :=
    endsAt_lastAttempt upstream.maxRetry.toNat outcomes
  have last := (endsAt_lastAttempt upstream.maxRetry.toNat outcomes).allowed
  have looped := loop_outcomes nonempty req bounded (Nat.zero_le _) inside ends attempts.length
  rw [← given] at looped
  rw [looped]
  constructor
  · rw [if_neg (Nat.not_le_of_lt (last.trans_lt enough))]
    rfl
  · rw [callsUntil, List.length_map, List.length_range]
    omega

/-- If no retry passes the limit, the loop goes on for as long as its attempts fail. -/
theorem loop_goes_on (unlimited : ∀ retry, ¬ retry > upstream.maxRetry)
    (failing : ∀ attempt ∈ attempts, succeeds attempt = false) {pos : Nat} (retry : UInt64)
    (inside : pos < upstream.addrLi.length)
    : (retryLoop upstream req attempts pos retry).2 = none := by
  induction attempts generalizing pos retry with
  | nil => rfl
  | cons attempt later ih =>
      obtain ⟨failed, others⟩ := List.forall_mem_cons.mp failing
      have goes_on : ¬ Stops upstream attempt retry := by
        rintro (succeeded | limit)
        · rw [failed] at succeeded
          cases succeeded
        · exact unlimited _ limit
      have nonempty : upstream.addrLi ≠ [] := List.length_pos_iff.mp (Nat.zero_lt_of_lt inside)
      rw [(loop_cons nonempty req attempt later retry inside).2 goes_on]
      exact ih others (retry + 1) (Nat.mod_lt _ (Nat.zero_lt_of_lt inside))

/-- The attempt for a server that refuses connections. -/
def refused : Attempt Body where
  cached := none
  opened := .error (.io "connection refused")
  fresh := .error { kind := .other, text := "connection refused" }

/-- For every upstream with an address, every request for it ends after `max_retry + 1` attempts
at most, whatever comes of them and wherever the counter stands, having been sent at most twice
in each, exactly if the limit is not the greatest number: then the requests whose attempts all
fail never end.
-/
theorem proxyInner_ends_iff (Body : Type) (subHost : String → Option String) {route : Route}
    {host : String} {siteConf : SiteConf} (found : route.confByHost host = some siteConf)
    (nonempty : siteConf.upstream.val.addrLi ≠ [])
    : (∀ (counter : UInt64) (pathAndQuery : String) (parts : Parts) (body : Bytes)
          (attempts : List (Attempt Body)),
        siteConf.upstream.val.maxRetry.toNat < attempts.length
        → let handled :=
            proxyInner subHost route counter host pathAndQuery parts (.ok body) attempts
          handled.result.isSome
          ∧ handled.calls.length ≤ siteConf.upstream.val.maxRetry.toNat + 1
          ∧ (∀ call ∈ handled.calls, call.made.1.length ≤ 2)
          ∧ handled.sent.length ≤ 2 * (siteConf.upstream.val.maxRetry.toNat + 1))
      ↔ siteConf.upstream.val.maxRetry ≠ 0xffffffffffffffff := by
  have some_addr := List.length_pos_iff.mpr nonempty
  constructor
  · intro ends greatest
    have unlimited (retry : UInt64) : ¬ retry > siteConf.upstream.val.maxRetry := by
      have below := retry.toNat_lt
      rw [gt_iff_lt, UInt64.lt_iff_toNat_lt, greatest]
      exact Nat.not_lt_of_le (Nat.le_of_lt_succ below)
    obtain ⟨failing, enough, all_fail⟩
        : ∃ failing : List (Attempt Body),
            siteConf.upstream.val.maxRetry.toNat < failing.length
            ∧ ∀ attempt ∈ failing, succeeds attempt = false := by
      refine ⟨List.replicate (2 ^ 64) refused, ?_, fun attempt member => ?_⟩
      · rw [List.length_replicate]
        exact siteConf.upstream.val.maxRetry.toNat_lt
      · rw [List.eq_of_mem_replicate member]
        rfl
    have ended := (ends 0 "/" order [] failing enough).1
    have looped (pos : Nat) (inside : pos < siteConf.upstream.val.addrLi.length) :=
      @loop_goes_on _ _ { parts := forwardParts siteConf.upstream.val.protocol order, body := [] }
        failing unlimited all_fail pos 0 inside
    rw [proxyInner_of_served found nonempty rfl, looped _ (Nat.mod_lt _ some_addr)] at ended
    cases ended
  · intro limited counter pathAndQuery parts body attempts enough
    have bounded : siteConf.upstream.val.maxRetry.toNat + 1 < 2 ^ 64 := by
      have below := siteConf.upstream.val.maxRetry.toNat_lt
      have apart : siteConf.upstream.val.maxRetry.toNat ≠ 2 ^ 64 - 1 :=
        fun same => limited (UInt64.toNat_inj.mp same)
      omega
    obtain ⟨ended, few⟩ :=
      @loop_ends _ _ { parts := forwardParts siteConf.upstream.val.protocol parts, body } _
        nonempty bounded _ (Nat.mod_lt (counter + 1).toNat some_addr) enough
    intro handled
    have served : handled = _ := proxyInner_of_served found nonempty rfl
    have calls : handled.calls.length ≤ siteConf.upstream.val.maxRetry.toNat + 1 := by
      rw [served]
      exact few
    refine ⟨by rw [served]; exact ended, calls, fun call _ => length_http_le .., ?_⟩
    exact (length_sent_le handled).trans (Nat.mul_le_mul_left 2 calls)

/-- With one retry a request ends after two attempts, though both servers refuse it. -/
theorem proxyInner_ends_twoServers
    : (proxyInner (fun _ => none) twoServers 7 "example.com" "/" order (.ok [])
        [(refused : Attempt Bytes), refused]).result.isSome :=
  ((proxyInner_ends_iff Bytes (fun _ => none)
    (rfl : twoServers.confByHost "example.com" = some _) (by decide)).mpr (by decide) 7 "/"
    order [] [refused, refused] (by decide)).1

end Gway.Proxy
