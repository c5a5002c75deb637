import Gway.Route

/-! When the two routing tables agree. Neither operation looks at what it leaves behind: a
host that is set again stays in its old set, and a name that is registered again loses its
hosts while their configurations keep the old upstream.
-/

namespace Gway.Route

inductive Op where
  | addUpstream (name : String) (upstream : Upstream)
  | set (host certHost name : String)
deriving DecidableEq, Repr

/-- The tables, and how many upstreams have been allocated. -/
structure State where
  route : Route
  allocated : Nat

def step (state : State) : Op → State
  | .addUpstream name upstream =>
      {
        route := state.route.addUpstream state.allocated name upstream
        allocated := state.allocated + 1
      }
  | .set host certHost name =>
      { state with route := state.route.set host certHost name }

/-- The tables from `Route::default()` on. -/
def routes : Machine State Op where
  init := { route := default, allocated := 0 }
  step state op := some (step state op)

/-- Each host of an upstream's set is configured with that upstream, each configured host is
in exactly one set, and no configuration has an upstream that is not registered.
-/
structure TablesAgree (route : Route) : Prop where
  listed
    : ∀ name host,
        route.Lists name host
        → ∃ conf,
            route.confByHost host = some conf
            ∧ route.upstreamOf name = some conf.upstream
  once
    : ∀ host conf, route.confByHost host = some conf → ∃! name, route.Lists name host
  registered
    : ∀ host conf,
        route.confByHost host = some conf
        → ∃ name, route.upstreamOf name = some conf.upstream

/-- The operation leaves nothing behind: a name that is registered has no hosts yet, and a
host that is set to a registered upstream is not in the set of another.
-/
def LeavesNothing (before : State) (op : Op) (_ : State) : Prop :=
  match op with
  | .addUpstream name _ => ∀ host, ¬ before.route.Lists name host
  | .set host _ name =>
      (before.route.upstreamOf name).isSome
      → ∀ other, before.route.Lists other host → other = name

variable {route : Route}

/-- The tables agree as soon as the first two conditions hold. Witness: the set that has a
host belongs to the upstream that the host is configured with.
-/
theorem TablesAgree.of_listed_once
    (listed
      : ∀ name host,
          route.Lists name host
          → ∃ conf,
              route.confByHost host = some conf
              ∧ route.upstreamOf name = some conf.upstream)
    (once
      : ∀ host conf, route.confByHost host = some conf → ∃! name, route.Lists name host)
    : TablesAgree route := by
  refine ⟨listed, once, fun host conf configured => ?_⟩
  obtain ⟨name, member, -⟩ := once host conf configured
  obtain ⟨found, same, registered⟩ := listed name host member
  obtain rfl := Option.some.inj (same.symm.trans configured)
  exact ⟨name, registered⟩

/-- A host of two sets has two names in agreeing tables, which are the same. -/
theorem TablesAgree.name_eq (agree : TablesAgree route) {name other host : String}
    (member : route.Lists name host) (also : route.Lists other host)
    : other = name := by
  obtain ⟨conf, configured, -⟩ := agree.listed name host member
  exact (agree.once host conf configured).unique also member

/-- A registration keeps the tables in agreement exactly if its name has no hosts.
Witness: a host it had is configured still, but in no set any more.
-/
theorem TablesAgree.addUpstream_iff (agree : TablesAgree route) (ptr : Nat) (name : String)
    (upstream : Upstream)
    : TablesAgree (route.addUpstream ptr name upstream)
      ↔ ∀ host, ¬ route.Lists name host := by
  constructor
  · intro after host member
    obtain ⟨conf, configured, -⟩ := agree.listed name host member
    obtain ⟨other, still, -⟩ := after.once host conf configured
    obtain ⟨apart, also⟩ := lists_addUpstream.mp still
    exact apart (agree.name_eq member also)
  · intro unlisted
    have same {other host : String}
        : (route.addUpstream ptr name upstream).Lists other host
          ↔ route.Lists other host := by
      rw [lists_addUpstream, and_iff_right_iff_imp]
      rintro member rfl
      exact unlisted host member
    refine TablesAgree.of_listed_once (fun other host member => ?_)
      (fun host conf configured => ?_)
    · obtain ⟨apart, before⟩ := lists_addUpstream.mp member
      rw [upstreamOf_addUpstream, if_neg apart]
      exact agree.listed other host before
    · simpa only [same] using agree.once host conf configured

/-- Setting a host keeps the tables in agreement exactly if no other upstream has the host.
Witness: it is in the set of the new upstream then, and stays in all sets that it was in.
-/
theorem TablesAgree.set_iff (agree : TablesAgree route) {name : String}
    {registered : Arc Upstream} (found : route.upstreamOf name = some registered)
    (host certHost : String)
    : TablesAgree (route.set host certHost name)
      ↔ ∀ other, route.Lists other host → other = name := by
  constructor
  · intro after other member
    exact after.name_eq ((lists_set found).mpr (.inl ⟨rfl, rfl⟩))
      ((lists_set found).mpr (.inr member))
  · intro alone
    have at_name {other : String}
        : (route.set host certHost name).Lists other host ↔ other = name := by
      rw [lists_set found]
      exact ⟨fun member => member.elim (·.1) (alone other), fun same => .inl ⟨same, rfl⟩⟩
    have elsewhere {other otherHost : String} (apart : otherHost ≠ host)
        : (route.set host certHost name).Lists other otherHost
          ↔ route.Lists other otherHost := by
      rw [lists_set found]
      simp [apart]
    refine TablesAgree.of_listed_once (fun other otherHost member => ?_)
      (fun otherHost conf configured => ?_)
    · rw [confByHost_set found, upstreamOf_set]
      by_cases apart : otherHost = host
      case pos =>
        subst apart
        rw [at_name] at member
        subst member
        exact ⟨_, if_pos rfl, found⟩
      case neg =>
        rw [if_neg apart]
        exact agree.listed other otherHost ((elsewhere apart).mp member)
    · rw [confByHost_set found] at configured
      by_cases apart : otherHost = host
      case pos =>
        subst apart
        exact ⟨name, at_name.mpr rfl, fun other member => at_name.mp member⟩
      case neg =>
        rw [if_neg apart] at configured
        simpa only [elsewhere apart] using agree.once otherHost conf configured

/-- An operation keeps the tables in agreement exactly if it leaves nothing behind. -/
theorem tablesAgree_step_iff {state : State} {op : Op} (agree : TablesAgree state.route)
    : TablesAgree (step state op).route ↔ LeavesNothing state op (step state op) := by
  cases op with
  | addUpstream name upstream => exact agree.addUpstream_iff state.allocated name upstream
  | set host certHost name =>
      cases found : state.route.upstreamOf name with
      | none => simpa [step, set_of_unregistered found, LeavesNothing, found] using agree
      | some registered =>
          simpa [step, LeavesNothing, found] using agree.set_iff found host certHost

theorem TablesAgree.default : TablesAgree default :=
  TablesAgree.of_listed_once (by rintro name host ⟨site, found, -⟩; cases found)
    (by intro host conf configured; cases configured)

/-- In every sequence of operations from the empty tables, these agree after every prefix
exactly if each operation leaves nothing behind.
-/
theorem tablesAgree_iff (ops : List Op)
    : routes.Always (fun state => TablesAgree state.route) routes.init ops
      ↔ routes.EachStep LeavesNothing routes.init ops := by
  refine Machine.always_iff_eachStep (fun _ => True)
    (fun before op after _ agree stepped => ?_) (fun _ _ _ _ _ _ _ => trivial) trivial
    TablesAgree.default
  cases stepped
  exact tablesAgree_step_iff agree

/-- An upstream without servers. -/
def noServers : Upstream where
  addrLi := []
  maxRetry := 0
  protocol := .h1

/-- A host is set to one upstream and then to another. -/
def movedHost : List Op :=
  [.addUpstream "a" noServers, .addUpstream "b" noServers, .set "host" "host" "a",
    .set "host" "host" "b"]

/-- An upstream is registered again after it has got a host. -/
def registeredAgain : List Op :=
  [.addUpstream "a" noServers, .set "host" "host" "a", .addUpstream "a" noServers]

/-- The tables disagree after either. Witness: the moved host is in two sets, the host of
the upstream registered again is in none.
-/
theorem tables_disagree
    : ¬ TablesAgree (movedHost.foldl step routes.init).route
      ∧ ¬ TablesAgree (registeredAgain.foldl step routes.init).route := by
  constructor
  · intro agree
    have old : Lists (movedHost.foldl step routes.init).route "a" "host" :=
      ⟨_, rfl, by decide⟩
    have new : Lists (movedHost.foldl step routes.init).route "b" "host" :=
      ⟨_, rfl, by decide⟩
    exact absurd (agree.name_eq old new) (by decide)
  · intro agree
    obtain ⟨name, member, -⟩ := agree.once "host" _ rfl
    obtain ⟨apart, member⟩ := lists_addUpstream.mp member
    have registered
        : ((default : Route).addUpstream 0 "a" noServers).upstreamOf "a"
          = some { ptr := 0, val := noServers } :=
      rfl
    rcases (lists_set registered).mp member with ⟨same, -⟩ | member
    · exact apart same
    · obtain ⟨-, site, found, -⟩ := lists_addUpstream.mp member
      cases found

end Gway.Route
