import Gway.Library.Machine
import Gway.Net

/-! The routing tables: the configuration of each host, and for each upstream the hosts that
were set to it.
-/

namespace Gway

inductive Protocol where
  | h1
deriving DecidableEq, Repr

/-- An upstream, less its two timeouts, which are never read. -/
structure Upstream where
  addrLi : List SocketAddr
  maxRetry : UInt64
  protocol : Protocol
deriving DecidableEq, Repr

structure SiteConf where
  upstream : Arc Upstream
  certHost : String
deriving DecidableEq, Repr

structure UpstreamSiteSet where
  upstream : Arc Upstream
  hostSet : Finset String
deriving DecidableEq

structure Route where
  hostConf : DashMap String SiteConf
  upstreamSite : HashMap String UpstreamSiteSet

namespace Route

/-- The tables are empty by default. -/
instance : Inhabited Route where
  default := { hostConf := ∅, upstreamSite := ∅ }

/-- Registers an upstream, whose `Arc` is allocated at `ptr`, under a name that may be in
use already.
-/
def addUpstream (route : Route) (ptr : Nat) (upstreamName : String) (upstream : Upstream)
    : Route :=
  { route with
    upstreamSite :=
      route.upstreamSite.insert upstreamName
        { upstream := { ptr, val := upstream }, hostSet := ∅ } }

/-- Sets the upstream and the certificate of a host, if the upstream is registered. -/
def set (route : Route) (host certHost upstreamName : String) : Route :=
  match route.upstreamSite.lookup upstreamName with
  | some site =>
      {
        hostConf := route.hostConf.insert host { upstream := site.upstream, certHost }
        upstreamSite :=
          route.upstreamSite.insert upstreamName
            { site with hostSet := insert host site.hostSet }
      }
  | none => route

def confByHost (route : Route) (host : String) : Option SiteConf :=
  route.hostConf.lookup host

/-- The upstream registered under a name. -/
def upstreamOf (route : Route) (name : String) : Option (Arc Upstream) :=
  (route.upstreamSite.lookup name).map (·.upstream)

/-- The host is in the set of the upstream of that name. -/
def Lists (route : Route) (name host : String) : Prop :=
  ∃ site, route.upstreamSite.lookup name = some site ∧ host ∈ site.hostSet

variable {route : Route} {name other host otherHost certHost : String} {ptr : Nat}
  {upstream : Upstream}

theorem upstreamOf_addUpstream
    : (route.addUpstream ptr name upstream).upstreamOf other
      = if other = name then some { ptr, val := upstream } else route.upstreamOf other := by
  simp only [addUpstream, upstreamOf, Finmap.lookup_insert_eq]
  split <;> rfl

/-- A registration forgets the hosts of its name and no others. -/
theorem lists_addUpstream
    : (route.addUpstream ptr name upstream).Lists other host
      ↔ other ≠ name ∧ route.Lists other host := by
  simp only [addUpstream, Lists, Finmap.lookup_insert_eq]
  by_cases same : other = name
  case pos => simp [same]
  case neg => simp [same]

theorem upstreamOf_set
    : (route.set host certHost name).upstreamOf other = route.upstreamOf other := by
  unfold set
  split
  case h_1 site found =>
    simp only [upstreamOf, Finmap.lookup_insert_eq]
    split
    case isTrue same =>
      subst same
      rw [found]
      rfl
    case isFalse => rfl
  case h_2 => rfl

/-- Setting a host to a registered upstream adds it to the hosts of that upstream. -/
theorem lists_set {registered : Arc Upstream} (found : route.upstreamOf name = some registered)
    : (route.set host certHost name).Lists other otherHost
      ↔ other = name ∧ otherHost = host ∨ route.Lists other otherHost := by
  obtain ⟨site, stored, -⟩ := Option.map_eq_some_iff.mp found
  simp only [set, stored, Lists, Finmap.lookup_insert_eq]
  by_cases same : other = name
  case pos =>
    subst same
    simp [stored]
  case neg => simp [same]

theorem confByHost_set {registered : Arc Upstream}
    (found : route.upstreamOf name = some registered)
    : (route.set host certHost name).confByHost otherHost
      = if otherHost = host then some { upstream := registered, certHost }
        else route.confByHost otherHost := by
  obtain ⟨site, stored, rfl⟩ := Option.map_eq_some_iff.mp found
  simp only [set, stored, confByHost, Finmap.lookup_insert_eq]

/-- Setting a host to an unknown upstream changes nothing. -/
theorem set_of_unregistered (unknown : route.upstreamOf name = none)
    : route.set host certHost name = route := by
  rw [upstreamOf, Option.map_eq_none_iff] at unknown
  simp only [set, unknown]

end Route

end Gway
