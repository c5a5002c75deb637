import Gway.Proxy.Bounded

/-! How many servers of an upstream may be down. The retries of a request go around the list of
addresses, so it gets an answer if there is a server that is up within reach of the retries.
-/

namespace Gway.Proxy

open PooledFetch

variable {Body : Type} {upstream : Upstream}

/-- The addresses that a request tries at most, from where the counter stands. -/
def window (upstream : Upstream) (nonempty : upstream.addrLi ≠ []) (start : Nat)
    : Finset SocketAddr :=
  (Finset.range (upstream.maxRetry.toNat + 1)).image fun i => upstream.addrAt nonempty (start + i)

/-- Every server that is not down answers, and those that are down may do anything. -/
def UpAnswer (upstream : Upstream) (nonempty : upstream.addrLi ≠ []) (start : Nat)
    (down : Finset SocketAddr) (outcomes : Nat → Attempt Body) : Prop :=
  ∀ i, upstream.addrAt nonempty (start + i) ∉ down → succeeds (outcomes i) = true

/-- The request gets the answer of an upstream, if the network decides as many attempts as the
retries allow.
-/
def Answered (route : Route) (counter : UInt64) (subHost : String → Option String)
    (host pathAndQuery : String) (parts : Parts) (body : Bytes) (upstream : Upstream)
    (outcomes : Nat → Attempt Body) : Prop :=
  ∃ res answered,
    (proxyInner subHost route counter host pathAndQuery parts (.ok body)
        ((List.range (upstream.maxRetry.toNat + 1)).map outcomes)).result
      = some (.ok res)
    ∧ res.body = .boxed answered

/-- Whichever servers are down, up to a number of them, and wherever the counter stands, every
request for the host gets the answer of an upstream.
-/
def Tolerates (Body : Type) (route : Route) (subHost : String → Option String) (host : String)
    (upstream : Upstream) (nonempty : upstream.addrLi ≠ []) (failures : Nat) : Prop :=
  ∀ (down : Finset SocketAddr) (counter : UInt64) (pathAndQuery : String) (parts : Parts)
      (body : Bytes) (outcomes : Nat → Attempt Body),
    down.card ≤ failures
    → UpAnswer upstream nonempty ((counter + 1).toNat % upstream.addrLi.length) down outcomes
    → Answered route counter subHost host pathAndQuery parts body upstream outcomes

variable {nonempty : upstream.addrLi ≠ []} {route : Route} {counter : UInt64}
  {subHost : String → Option String} {host pathAndQuery : String} {parts : Parts}
  {body : Bytes} {siteConf : SiteConf} {outcomes : Nat → Attempt Body}

-----------------------------------------------------------------------------------------
-- One request
-----------------------------------------------------------------------------------------

/-- A call that succeeds returns the answer of its upstream. -/
theorem loopAnswer_ok_iff {attempt : Attempt Body} {addr : SocketAddr} {req : Request Bytes}
    : (∃ res answered,
        loopAnswer (http attempt addr req).2 = .ok res ∧ res.body = .boxed answered)
      ↔ succeeds attempt = true := by
  rw [← (http_spec attempt addr req).ok]
  cases (http attempt addr req).2 with
  | ok res =>
      refine iff_of_true ⟨_, res.body, rfl, rfl⟩ rfl
  | error err =>
      refine iff_of_false ?_ Bool.noConfusion
      rintro ⟨res, answered, answer, -⟩
      cases answer

/-- With no more attempts than the retries allow, the loop returns the answer of an upstream
exactly if one of them succeeds. Witness: induction on the attempts; when the counter wraps or
passes the limit, there is no attempt left.
-/
theorem loop_answers_iff (nonempty : upstream.addrLi ≠ []) (req : Request Bytes)
    (attempts : List (Attempt Body)) {pos : Nat} {retry : UInt64}
    (inside : pos < upstream.addrLi.length)
    (allowed : retry.toNat + attempts.length ≤ upstream.maxRetry.toNat + 1)
    : (∃ res answered,
        (retryLoop upstream req attempts pos retry).2 = some (.ok res)
        ∧ res.body = .boxed answered)
      ↔ ∃ attempt ∈ attempts, succeeds attempt = true := by
  induction attempts generalizing pos retry with
  | nil => simp [retryLoop]
  | cons attempt later ih =>
      have incremented : (retry + 1).toNat ≤ retry.toNat + 1 := by
        rw [UInt64.toNat_add]
        exact Nat.mod_le _ _
      rw [List.length_cons] at allowed
      rw [List.exists_mem_cons_iff]
      by_cases stops : Stops upstream attempt retry
      case pos =>
        have none_later : succeeds attempt = true ∨ later = [] := by
          refine stops.imp_right fun limit => List.length_eq_zero_iff.mp ?_
          have passed := UInt64.lt_iff_toNat_lt.mp limit
          omega
        rw [(loop_cons nonempty req attempt later retry inside).1 stops]
        simp only [Option.some.injEq]
        rw [Call.made, loopAnswer_ok_iff]
        rcases none_later with succeeded | rfl
        · simp [succeeded]
        · simp
      case neg =>
        have failed : ¬ succeeds attempt = true := fun succeeded => stops (Or.inl succeeded)
        rw [(loop_cons nonempty req attempt later retry inside).2 stops, or_iff_right failed]
        exact ih (Nat.mod_lt _ (Nat.zero_lt_of_lt inside)) (by omega)

/-- A request is answered exactly if one of the attempts succeeds that the retries allow. -/
theorem answered_iff (found : route.confByHost host = some siteConf)
    (nonempty : siteConf.upstream.val.addrLi ≠ [])
    : Answered route counter subHost host pathAndQuery parts body siteConf.upstream.val outcomes
      ↔ ∃ i ≤ siteConf.upstream.val.maxRetry.toNat, succeeds (outcomes i) = true := by
  have inside : (counter + 1).toNat % siteConf.upstream.val.addrLi.length
      < siteConf.upstream.val.addrLi.length :=
    Nat.mod_lt _ (List.length_pos_iff.mpr nonempty)
  rw [Answered, proxyInner_of_served found nonempty rfl,
    loop_answers_iff nonempty _ _ inside (by simp)]
  simp only [List.mem_map, List.mem_range, Nat.lt_succ_iff, exists_exists_and_eq_and]

-----------------------------------------------------------------------------------------
-- Servers that are down
-----------------------------------------------------------------------------------------

theorem mem_window {start : Nat} {addr : SocketAddr}
    : addr ∈ window upstream nonempty start
      ↔ ∃ i ≤ upstream.maxRetry.toNat, upstream.addrAt nonempty (start + i) = addr := by
  simp only [window, Finset.mem_image, Finset.mem_range, Nat.lt_succ_iff]

/-- Different addresses are at different places, so the retries reach as many as they go steps,
up to the whole list.
-/
theorem card_window (once : upstream.addrLi.Nodup) (start : Nat)
    : (window upstream nonempty start).card
      = min upstream.addrLi.length (upstream.maxRetry.toNat + 1) := by
  have some_addr := List.length_pos_iff.mpr nonempty
  have places
      : window upstream nonempty start
        = ((Finset.range (upstream.maxRetry.toNat + 1)).image
            fun i => (start + i) % upstream.addrLi.length).image
            (upstream.addrAt nonempty) := by
    simp [window, Finset.image_image, Function.comp_def, Upstream.addrAt]
  have apart
      : Set.InjOn (upstream.addrAt nonempty)
          ((Finset.range (upstream.maxRetry.toNat + 1)).image
            fun i => (start + i) % upstream.addrLi.length) := by
    intro one one_in other other_in same
    rw [Finset.coe_image] at one_in other_in
    obtain ⟨i, -, rfl⟩ := one_in
    obtain ⟨j, -, rfl⟩ := other_in
    simpa using Fin.mk.inj (List.nodup_iff_injective_get.mp once same)
  rw [places, Finset.card_image_of_injOn apart, RoundRobin.card_image_steps start some_addr]

/-- The attempt for a server that answers on a new connection. -/
def answers [Inhabited Body] : Attempt Body where
  cached := none
  opened := .ok ()
  fresh := .ok { status := 200, headers := [], body := default }

/-- For every table, host and upstream, every number of failures is tolerated exactly if,
wherever the counter stands, the retries reach more addresses than that. If the addresses are
all different, these are the failures that leave a server up and do not use up the attempts.
-/
theorem tolerates_iff [Inhabited Body] (subHost : String → Option String)
    (found : route.confByHost host = some siteConf)
    (nonempty : siteConf.upstream.val.addrLi ≠ []) (failures : Nat)
    : let upstream := siteConf.upstream.val
      let len := upstream.addrLi.length
      (Tolerates Body route subHost host upstream nonempty failures
        ↔ ∀ counter : UInt64, failures < (window upstream nonempty (counter.toNat % len)).card)
      ∧ (upstream.addrLi.Nodup
        → (Tolerates Body route subHost host upstream nonempty failures
          ↔ failures < min len (upstream.maxRetry.toNat + 1))) := by
  intro upstream len
  have exactly
      : Tolerates Body route subHost host upstream nonempty failures
        ↔ ∀ counter : UInt64,
            failures < (window upstream nonempty (counter.toNat % len)).card := by
    constructor
    · intro tolerates counter
      by_contra short
      -- all servers within reach are down
      let down := window upstream nonempty (counter.toNat % len)
      let outcomes (i : Nat) : Attempt Body :=
        if upstream.addrAt nonempty (counter.toNat % len + i) ∈ down then refused
        else answers
      have up
          : UpAnswer upstream nonempty ((counter - 1 + 1).toNat % len) down outcomes := by
        rw [UInt64.sub_add_cancel]
        intro i running
        simp only [outcomes, if_neg running]
        rfl
      have few := Nat.le_of_not_lt short
      have answered := tolerates down (counter - 1) "/" order [] outcomes few up
      obtain ⟨i, allowed, succeeded⟩ := (answered_iff found nonempty).mp answered
      have tried : upstream.addrAt nonempty (counter.toNat % len + i) ∈ down :=
        mem_window.mpr ⟨i, allowed, rfl⟩
      simp only [outcomes, if_pos tried] at succeeded
      cases succeeded
    · intro reaches down counter pathAndQuery parts body outcomes few up
      obtain ⟨addr, tried, running⟩ :=
        Finset.exists_mem_notMem_of_card_lt_card (few.trans_lt (reaches (counter + 1)))
      obtain ⟨i, allowed, rfl⟩ := mem_window.mp tried
      exact (answered_iff found nonempty).mpr ⟨i, allowed, up i running⟩
  refine ⟨exactly, fun once => ?_⟩
  rw [exactly]
  simp only [card_window once]
  exact forall_const _

/-- A host with two servers and one retry: one of them may be down, but not both. -/
theorem tolerates_one_of_twoServers
    : ∃ siteConf,
        twoServers.confByHost "example.com" = some siteConf
        ∧ ∃ nonempty,
            Tolerates Bytes twoServers (fun _ => none) "example.com" siteConf.upstream.val
                nonempty 1
            ∧ ¬ Tolerates Bytes twoServers (fun _ => none) "example.com" siteConf.upstream.val
                nonempty 2 := by
  refine ⟨_, rfl, by decide, ?_, ?_⟩
  · exact ((tolerates_iff _ rfl (by decide) 1).2 (by decide)).mpr (by decide)
  · rw [(tolerates_iff _ rfl (by decide) 2).2 (by decide)]
    decide

end Gway.Proxy
