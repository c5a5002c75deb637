import Gway.Proxy.AtMostOnce

/-! The calls of `pooled_fetch::http` that are made for a request, also those that give it to
no connection.
-/

namespace Gway.Proxy

open PooledFetch

variable {Body : Type}

/-- Every call of the loop is given the same request, by induction on the attempts. -/
theorem retryLoop_req {upstream : Upstream} {req : Request Bytes}
    {attempts : List (Attempt Body)} {pos : Nat} {retry : UInt64} {call : Call Body}
    (member : call ∈ (retryLoop upstream req attempts pos retry).1)
    : call.req = req := by
  induction attempts generalizing pos retry with
  | nil => cases member
  | cons attempt later ih =>
      unfold retryLoop at member
      split at member
      case h_1 => cases member
      case h_2 upstreamAddr _ =>
        dsimp only at member
        split at member
        case h_1 => rw [List.mem_singleton.mp member]
        case h_2 =>
          split at member
          case isTrue => rw [List.mem_singleton.mp member]
          case isFalse =>
            rcases List.mem_cons.mp member with same | afterwards
            · rw [same]
            · exact ih afterwards

section Handed

variable {subHost : String → Option String} {route : Route} {n : UInt64}
  {host pathAndQuery : String} {parts : Parts} {collected : Except Error Bytes}
  {attempts : List (Attempt Body)} {siteConf : SiteConf}

/-- A request for a host with a server, whose body can be read, gets to the loop, and is answered
as that returns.
-/
theorem proxyInner_of_served {body : Bytes} (found : route.confByHost host = some siteConf)
    (nonempty : siteConf.upstream.val.addrLi ≠ []) (read : collected = .ok body)
    : let loop :=
        retryLoop siteConf.upstream.val
          { parts := forwardParts siteConf.upstream.val.protocol parts, body } attempts
          ((n + 1).toNat % siteConf.upstream.val.addrLi.length) 0
      proxyInner subHost route n host pathAndQuery parts collected attempts
      = { n := n + 1, calls := loop.1, result := loop.2 } := by
  have some_addr : siteConf.upstream.val.addrLi.length ≠ 0 :=
    fun none => nonempty (List.length_eq_zero_iff.mp none)
  simp only [proxyInner, found, some_addr, if_false, read]

/-- A call is made only with a body that could be read and for a host with a server, and it
is given the head for the upstream and this body.
-/
theorem mem_calls {call : Call Body}
    (member
      : call
        ∈ (proxyInner subHost route n host pathAndQuery parts collected attempts).calls)
    : ∃ siteConf body,
        route.confByHost host = some siteConf
        ∧ siteConf.upstream.val.addrLi ≠ []
        ∧ collected = .ok body
        ∧ call.req
          = { parts := forwardParts siteConf.upstream.val.protocol parts, body } := by
  cases found : route.confByHost host with
  | none =>
      simp only [proxyInner, found] at member
      cases member
  | some siteConf =>
      by_cases empty : siteConf.upstream.val.addrLi = []
      case pos =>
        simp only [proxyInner, found, empty, List.length_nil, if_true] at member
        cases member
      case neg =>
        cases read : collected with
        | error err =>
            subst read
            simp only [proxyInner, found] at member
            split at member <;> cases member
        | ok body =>
            rw [proxyInner_of_served found empty read] at member
            exact ⟨siteConf, body, rfl, empty, rfl, retryLoop_req member⟩

/-- A request that gets to the loop can be sent. Witness: a new connection opens, and breaks. -/
theorem exists_mem_calls {body : Bytes} (found : route.confByHost host = some siteConf)
    (nonempty : siteConf.upstream.val.addrLi ≠ []) (read : collected = .ok body)
    : ∃ attempts : List (Attempt Body),
        ∃ call ∈ (proxyInner subHost route n host pathAndQuery parts collected attempts).calls,
          call.made.1 ≠ [] := by
  have inside : (n + 1).toNat % siteConf.upstream.val.addrLi.length
      < siteConf.upstream.val.addrLi.length :=
    Nat.mod_lt _ (List.length_pos_iff.mpr nonempty)
  let broken : HyperError := { kind := .other, text := "connection reset" }
  let attempt : Attempt Body := { cached := none, opened := .ok (), fresh := .error broken }
  let req : Request Bytes :=
    { parts := forwardParts siteConf.upstream.val.protocol parts, body }
  have calls
      : (proxyInner subHost route n host pathAndQuery parts collected [attempt]).calls
        = [{ addr := siteConf.upstream.val.addrLi.get ⟨_, inside⟩, req, attempt }] := by
    rw [proxyInner_of_served found nonempty read]
    simp only [retryLoop, List.getElem?_eq_getElem inside, Call.made, http, httpNew, attempt]
    split <;> rfl
  refine ⟨[attempt], _, calls ▸ List.mem_singleton.mpr rfl, ?_⟩
  simp [Call.made, http, httpNew, attempt]

end Handed

end Gway.Proxy
