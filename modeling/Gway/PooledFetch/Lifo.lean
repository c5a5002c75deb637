import Gway.PooledFetch.Pool

/-! The pool against the stack of connections that it is documented to be. All connections
to one upstream have the same peer address, so an address has a single slot: the pool
remembers the connection returned last, and only until the next one is taken or returned.
-/

namespace Gway.PooledFetch

/-- A body of an open connection to the address is dropped, or `cached_conn` is called. -/
inductive PoolOp where
  | drop (addr : SocketAddr) (conn : ConnId)
  | take (addr : SocketAddr)
deriving DecidableEq, Repr

/-- What the calls of `cached_conn` for `addr` return on the pool. The socket of a
connection to an address has the peer address that `remote` gives for it.
-/
def poolTakes (remote : SocketAddr → SocketAddr) (addr : SocketAddr) (pool : Pool)
    : List PoolOp → List (Option ConnId)
  | [] => []
  | .drop other conn :: rest =>
      let body := Body.new other { peerAddr := remote other, sender := { conn } }
      poolTakes remote addr (body.drop pool) rest
  | .take other :: rest =>
      let (found, after) := cachedConn other pool
      let returned := if other = addr then [found.map (·.sender.conn)] else []
      returned ++ poolTakes remote addr after rest

/-- What they would return on a stack of the connections returned and not taken since. -/
def stackTakes (addr : SocketAddr) (stack : List ConnId)
    : List PoolOp → List (Option ConnId)
  | [] => []
  | .drop other conn :: rest =>
      stackTakes addr (if other = addr then conn :: stack else stack) rest
  | .take other :: rest =>
      if other = addr then stack.head? :: stackTakes addr stack.tail rest
      else stackTakes addr stack rest

/-- Every take of `addr` directly follows a return to `addr`, whatever other addresses do in
between, or finds that all returned connections have been taken. `returned` says that
the latest operation on `addr` was a return, `untaken` counts the connections left.
-/
def TakesPrompt (addr : SocketAddr) (returned : Bool) (untaken : Nat)
    : List PoolOp → Prop
  | [] => True
  | .drop other _ :: rest =>
      if other = addr then TakesPrompt addr true (untaken + 1) rest
      else TakesPrompt addr returned untaken rest
  | .take other :: rest =>
      if other = addr then
        (returned = true ∨ untaken = 0) ∧ TakesPrompt addr false (untaken - 1) rest
      else TakesPrompt addr returned untaken rest

/-- Only the slot of the one peer address is ever in use, and it holds the top of the stack
while the latest operation was a return.
-/
structure HoldsTop (remote : SocketAddr → SocketAddr) (addr : SocketAddr) (pool : Pool)
    (returned : Bool) (stack : List ConnId)
    : Prop where
  keyed : ∀ key, key ≠ remote addr → slot pool addr key = none
  top
    : (slot pool addr (remote addr)).map (·.conn)
      = if returned then stack.head? else none

variable {remote : SocketAddr → SocketAddr} {addr other : SocketAddr} {pool : Pool}
  {returned : Bool} {stack : List ConnId}

/-- The pool is only looked at through the slots of the address. -/
theorem HoldsTop.congr {after : Pool} (held : HoldsTop remote addr pool returned stack)
    (same : ∀ key, slot after addr key = slot pool addr key)
    : HoldsTop remote addr after returned stack :=
  ⟨fun key apart => (same key).trans (held.keyed key apart),
    (congrArg _ (same _)).trans held.top⟩

/-- A return to the address puts its connection on top. -/
theorem HoldsTop.drop (held : HoldsTop remote addr pool returned stack) (conn : ConnId)
    : HoldsTop remote addr
        ((Body.new addr { peerAddr := remote addr, sender := { conn } }).drop pool)
        true (conn :: stack) := by
  constructor
  case keyed =>
    intro key apart
    rw [slot_drop]
    simpa [Body.new, apart] using held.keyed key apart
  case top => simp [slot_drop, Body.new]

/-- A return to another address does not touch the slots of this one. -/
theorem HoldsTop.drop_other (held : HoldsTop remote addr pool returned stack)
    (conn : Conn) (apart : other ≠ addr)
    : HoldsTop remote addr ((Body.new other conn).drop pool) returned stack :=
  held.congr fun key => by simp [slot_drop, Body.new, apart.symm]

/-- A take of the address returns what its slot holds and leaves all its slots empty.
Witness: a connection that comes out was stored under the one key in use.
-/
theorem HoldsTop.take (held : HoldsTop remote addr pool returned stack)
    : (cachedConn addr pool).1.map (·.sender.conn)
        = (if returned then stack.head? else none)
      ∧ HoldsTop remote addr (cachedConn addr pool).2 false stack.tail := by
  rcases taken : cachedConn addr pool with ⟨_ | conn, after⟩
  case none =>
    obtain ⟨rfl, vacant⟩ := slot_cachedConn_none taken
    refine ⟨?_, held.keyed, by simp [vacant]⟩
    rw [← held.top, vacant]
    rfl
  case some =>
    obtain ⟨stored, slots⟩ := slot_cachedConn taken
    have key_eq : conn.peerAddr = remote addr := by
      by_contra apart
      rw [held.keyed _ apart] at stored
      cases stored
    refine ⟨?_, fun key apart => ?_, by simp [slots, key_eq]⟩
    · rw [← held.top, ← key_eq, stored]
      rfl
    · simpa [slots, key_eq, apart] using held.keyed key apart

/-- A take of another address does not touch the slots of this one. -/
theorem HoldsTop.take_other (held : HoldsTop remote addr pool returned stack)
    (apart : other ≠ addr)
    : HoldsTop remote addr (cachedConn other pool).2 returned stack := by
  rcases taken : cachedConn other pool with ⟨_ | conn, after⟩
  case none =>
    obtain ⟨rfl, -⟩ := slot_cachedConn_none taken
    exact held
  case some =>
    obtain ⟨-, slots⟩ := slot_cachedConn taken
    exact held.congr fun key => by simp [slots, apart.symm]

/-- From matching states, pool and stack answer alike exactly when the takes are prompt.
Witness: induction on the operations. An operation on another address changes neither
side; a return keeps the top in the slot; a take that finds the slot empty agrees with
the stack only if that is empty too.
-/
theorem HoldsTop.poolTakes_eq_iff (held : HoldsTop remote addr pool returned stack)
    (ops : List PoolOp)
    : poolTakes remote addr pool ops = stackTakes addr stack ops
      ↔ TakesPrompt addr returned stack.length ops := by
  induction ops generalizing pool returned stack with
  | nil => simp [poolTakes, stackTakes, TakesPrompt]
  | cons op rest ih =>
      cases op with
      | drop other conn =>
          by_cases here : other = addr
          case pos =>
            subst here
            simpa [poolTakes, stackTakes, TakesPrompt] using ih (held.drop conn)
          case neg =>
            simpa [poolTakes, stackTakes, TakesPrompt, here]
              using ih (held.drop_other _ here)
      | take other =>
          by_cases here : other = addr
          case pos =>
            subst here
            obtain ⟨result, later⟩ := held.take
            have answers_agree
                : (if returned then stack.head? else none) = stack.head?
                  ↔ returned = true ∨ stack.length = 0 := by
              cases returned <;> cases stack <;> simp
            have rest_agrees := ih later
            rw [List.length_tail] at rest_agrees
            simp only [poolTakes, stackTakes, TakesPrompt, if_true, List.singleton_append,
              List.cons.injEq, result, answers_agree, rest_agrees]
          case neg =>
            simpa [poolTakes, stackTakes, TakesPrompt, here] using ih (held.take_other here)

/-- Starting from an empty pool, `cached_conn(addr)` returns the most recently returned
connection that has not been taken since, if there is one, exactly when every take of
`addr` directly follows a return to it or all its returned connections are taken.
-/
theorem poolTakes_eq_stackTakes_iff (remote : SocketAddr → SocketAddr)
    (addr : SocketAddr) (ops : List PoolOp)
    : poolTakes remote addr ∅ ops = stackTakes addr [] ops
      ↔ TakesPrompt addr false 0 ops :=
  HoldsTop.poolTakes_eq_iff ⟨by simp, by simp⟩ ops

/-- Two connections to one upstream come back and two are asked for. -/
def twoDrops : List PoolOp :=
  [.drop localUpstream 0, .drop localUpstream 1, .take localUpstream, .take localUpstream]

/-- The second return overwrites the first, which the stack still holds: the second take
gets nothing from the pool. Witness: evaluation.
-/
theorem poolTakes_twoDrops
    : poolTakes id localUpstream ∅ twoDrops = [some 1, none]
      ∧ stackTakes localUpstream [] twoDrops = [some 1, some 0] := by
  decide

end Gway.PooledFetch
