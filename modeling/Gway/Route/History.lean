import Gway.Library.LastWrite
import Gway.Route.Agreement

/-! Which configuration a host has after a sequence of operations. It is what the last `set` of
the host to a registered upstream gave it, with the upstream that its name had at the time.
-/

namespace Gway.Route

open LastWrite

/-- The operation registers an upstream. -/
def Op.registers : Op → Bool
  | .addUpstream .. => true
  | .set .. => false

/-- The upstream that the operation registers under a name. -/
def registered (name : String) (state : State) : Op → Option (Arc Upstream)
  | .addUpstream other upstream =>
      if name = other then some { ptr := state.allocated, val := upstream } else none
  | .set .. => none

/-- The configuration that the operation gives a host, if its upstream is registered. -/
def configured (host : String) (state : State) : Op → Option SiteConf
  | .addUpstream .. => none
  | .set other certHost name =>
      if host = other then
        (state.route.upstreamOf name).map fun upstream => { upstream, certHost }
      else none

/-- After these operations the next one sets the host to an upstream that is registered. -/
def SetsHost (host : String) (done : List Op) (op : Op) : Prop :=
  ∃ certHost name upstream,
    op = .set host certHost name ∧ .addUpstream name upstream ∈ done

variable {state : State} {ops : List Op} {op : Op} {name host : String}
  {upstream : Arc Upstream} {conf : SiteConf}

/-- An operation registers an upstream under the name or leaves what is registered. -/
theorem upstreamOf_step (name : String) (state : State) (op : Op)
    : (step state op).route.upstreamOf name
      = (registered name state op).or (state.route.upstreamOf name) := by
  cases op with
  | addUpstream other upstream =>
      simp only [step, upstreamOf_addUpstream, registered]
      split <;> rfl
  | set other certHost target => simp only [step, upstreamOf_set, registered, Option.none_or]

/-- An operation configures the host or leaves its configuration. -/
theorem confByHost_step (host : String) (state : State) (op : Op)
    : (step state op).route.confByHost host
      = (configured host state op).or (state.route.confByHost host) := by
  cases op with
  | addUpstream other upstream => rfl
  | set other certHost target =>
      cases found : state.route.upstreamOf target with
      | none =>
          simp only [step, set_of_unregistered found, configured, found, Option.map_none]
          split <;> rfl
      | some registered =>
          simp only [step, confByHost_set found, configured, found, Option.map_some]
          split <;> rfl

theorem allocated_foldl (ops : List Op)
    : (ops.foldl step routes.init).allocated = ops.countP Op.registers := by
  induction ops using List.reverseRecOn with
  | nil => rfl
  | append_singleton ops last ih =>
      rw [List.foldl_append, List.countP_append, ← ih]
      cases last <;> rfl

/-- No operation writes what is registered under a name unless it registers the name. -/
theorem quiet_registered_iff
    : Quiet step (registered name) state ops
      ↔ ∀ upstream, .addUpstream name upstream ∉ ops := by
  constructor
  · intro quiet upstream member
    obtain ⟨before, after, split⟩ := List.append_of_mem member
    have silent := quiet before _ after split
    simp [registered] at silent
  · rintro absent before (⟨other, upstream⟩ | _) after rfl
    case addUpstream =>
      rw [registered, if_neg]
      rintro rfl
      exact absent upstream (by simp)
    case set => rfl

/-- A name has an upstream exactly if it has been registered. -/
theorem upstreamOf_eq_none_iff
    : (ops.foldl step routes.init).route.upstreamOf name = none
      ↔ ∀ upstream, .addUpstream name upstream ∉ ops := by
  rw [observe_eq_none_iff (fun state : State => state.route.upstreamOf name)
    (upstreamOf_step name), quiet_registered_iff]
  exact and_iff_right rfl

/-- The upstream of a name is the one that was registered last. -/
theorem upstreamOf_iff
    : (ops.foldl step routes.init).route.upstreamOf name = some upstream
      ↔ ∃ before val after,
          ops = before ++ .addUpstream name val :: after
          ∧ (∀ other, .addUpstream name other ∉ after)
          ∧ upstream = { ptr := before.countP Op.registers, val } := by
  rw [observe_iff (fun state : State => state.route.upstreamOf name) (upstreamOf_step name)]
  constructor
  · rintro (⟨before, op, after, rfl, wrote, quiet⟩ | ⟨held, -⟩)
    case inr => cases held
    case inl =>
      cases op with
      | set => cases wrote
      | addUpstream other val =>
          obtain ⟨rfl, its⟩ := Option.ite_none_right_eq_some.mp wrote
          rw [allocated_foldl] at its
          exact ⟨before, val, after, rfl, quiet_registered_iff.mp quiet,
            (Option.some.inj its).symm⟩
  · rintro ⟨before, val, after, rfl, absent, rfl⟩
    refine .inl ⟨before, _, after, rfl, ?_, quiet_registered_iff.mpr absent⟩
    rw [registered, if_pos rfl, allocated_foldl]

/-- No operation configures the host unless it sets it to an upstream that is registered. -/
theorem quiet_configured_iff (done : List Op)
    : Quiet step (configured host) (done.foldl step routes.init) ops
      ↔ ∀ before op after, ops = before ++ op :: after → ¬ SetsHost host (done ++ before) op := by
  refine forall_congr' fun before => forall_congr' fun op => forall_congr' fun after =>
    imp_congr_right fun _ => ?_
  rw [← List.foldl_append]
  cases op with
  | addUpstream other upstream => exact iff_of_true rfl (by rintro ⟨_, _, _, same, -⟩; cases same)
  | set other certHost name =>
      rw [configured]
      split
      case isTrue same =>
        subst same
        rw [Option.map_eq_none_iff, upstreamOf_eq_none_iff]
        constructor
        · rintro absent ⟨_, _, upstream, same, member⟩
          cases same
          exact absent upstream member
        · exact fun silent upstream member => silent ⟨certHost, name, upstream, rfl, member⟩
      case isFalse apart =>
        refine iff_of_true rfl ?_
        rintro ⟨_, _, _, same, -⟩
        cases same
        exact apart rfl

/-- After every sequence of operations a host has a configuration exactly if some `set` gave it
to the host: one whose name had been registered, after which no `set` of the host had a name
that was registered by then. The configuration has the `cert_host` of this `set`, and the upstream
that was last registered under its name before it, whatever is registered afterwards.
-/
theorem confByHost_iff (ops : List Op) (host : String) (conf : SiteConf)
    : (ops.foldl step routes.init).route.confByHost host = some conf
      ↔ ∃ name val earlier between later,
          ops
            = earlier ++ .addUpstream name val
              :: (between ++ .set host conf.certHost name :: later)
          ∧ (∀ other, .addUpstream name other ∉ between)
          ∧ conf.upstream = { ptr := earlier.countP Op.registers, val }
          ∧ ∀ before op after,
              later = before ++ op :: after
              → ¬ SetsHost host
                  (earlier ++ .addUpstream name val
                    :: (between ++ .set host conf.certHost name :: before)) op := by
  have later_ops (earlier between before : List Op) (first last : Op)
      : earlier ++ first :: between ++ [last] ++ before
        = earlier ++ first :: (between ++ last :: before) := by
    simp
  have quiet_iff (done later : List Op) (op : Op)
      : Quiet step (configured host) (step (done.foldl step routes.init) op) later
        ↔ ∀ before next after,
            later = before ++ next :: after → ¬ SetsHost host (done ++ [op] ++ before) next := by
    rw [← quiet_configured_iff, List.foldl_append, List.foldl_cons, List.foldl_nil]
  rw [observe_iff (fun state : State => state.route.confByHost host) (confByHost_step host)]
  constructor
  · rintro (⟨done, op, later, rfl, wrote, quiet⟩ | ⟨held, -⟩)
    case inr => cases held
    case inl =>
      cases op with
      | addUpstream => cases wrote
      | set other certHost name =>
          obtain ⟨rfl, its⟩ := Option.ite_none_right_eq_some.mp wrote
          obtain ⟨upstream, found, rfl⟩ := Option.map_eq_some_iff.mp its
          obtain ⟨earlier, val, between, rfl, absent, rfl⟩ := upstreamOf_iff.mp found
          refine ⟨name, val, earlier, between, later, by simp, absent, rfl, ?_⟩
          intro before op after split
          rw [← later_ops]
          exact (quiet_iff _ later _).mp quiet before op after split
  · rintro ⟨name, val, earlier, between, later, rfl, absent, upstream, silent⟩
    refine .inl ⟨earlier ++ .addUpstream name val :: between, .set host conf.certHost name,
      later, by simp, ?_, (quiet_iff _ later _).mpr fun before op after split => ?_⟩
    · rw [configured, if_pos rfl, upstreamOf_iff.mpr ⟨earlier, val, between, rfl, absent, rfl⟩,
        ← upstream]
      rfl
    · rw [later_ops]
      exact silent before op after split

end Gway.Route
