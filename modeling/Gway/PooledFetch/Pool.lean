import Gway.Net

/-! The pool of `pooled_fetch` and the four pieces of code that touch it. `POOL` holds one
ordered map for each upstream address, whose entries are keyed by the peer address of their
connection. The guard of the outer map is held over each piece, so each is one operation.
-/

namespace Gway.PooledFetch

abbrev ConnId := Nat

/-- The handle to send on a connection and the handle of its background task, which go
together: both name the connection they belong to.
-/
structure Sender where
  conn : ConnId
deriving DecidableEq, Repr

structure Conn where
  peerAddr : SocketAddr
  sender : Sender
deriving DecidableEq, Repr

/-- A response body, less the incoming data, which the pool never sees. -/
structure Body where
  sender : Sender
  addr : SocketAddr
  peerAddr : SocketAddr
deriving DecidableEq, Repr

abbrev Pool := DashMap SocketAddr (SkipMap SocketAddr Sender)

def Body.new (addr : SocketAddr) (conn : Conn) : Body where
  sender := conn.sender
  addr := addr
  peerAddr := conn.peerAddr

/-- `Drop for Body` puts the connection into the map of its address. -/
def Body.drop (body : Body) (pool : Pool) : Pool :=
  pool.insert body.addr
    (((pool.lookup body.addr).getD ∅).insert body.peerAddr body.sender)

/-- `cached_conn` pops the entry with the greatest key from the map of the address. -/
def cachedConn (addr : SocketAddr) (pool : Pool) : Option Conn × Pool :=
  match pool.lookup addr with
  | none => (none, pool)
  | some senderMap =>
      match senderMap.popBack with
      | none => (none, pool)
      | some ((peerAddr, sender), rest) =>
          (some { peerAddr, sender }, pool.insert addr rest)

/-- The first half of a connection task's cleanup: its key is removed from the map of its
address, and the result says whether that left the map empty.
-/
def removePeer (addr peerAddr : SocketAddr) (pool : Pool) : Bool × Pool :=
  match pool.lookup addr with
  | none => (false, pool)
  | some connMap =>
      ((connMap.erase peerAddr).isEmpty, pool.insert addr (connMap.erase peerAddr))

/-- The second half, `POOL.remove(&addr)`. -/
def removeKey (addr : SocketAddr) (pool : Pool) : Pool :=
  pool.erase addr

-----------------------------------------------------------------------------------------
-- What each operation does to the slots
-----------------------------------------------------------------------------------------

/-- The connection stored under an upstream address and a peer address. -/
def slot (pool : Pool) (addr key : SocketAddr) : Option Sender :=
  (pool.lookup addr).bind (·[key]?)

@[simp] theorem slot_empty (addr key : SocketAddr) : slot ∅ addr key = none := by
  simp [slot]

theorem slot_insert (pool : Pool) (addr other key : SocketAddr)
    (senderMap : SkipMap SocketAddr Sender)
    : slot (pool.insert addr senderMap) other key
      = if other = addr then senderMap[key]? else slot pool other key := by
  unfold slot
  rw [Finmap.lookup_insert_eq]
  split <;> rfl

/-- Replacing the map of one address by one that differs from it in one key only changes
that slot. Witness: the two conditions on the slot are decided one after the other.
-/
theorem slot_insert_update {pool : Pool} {addr key : SocketAddr} {found : Option Sender}
    {senderMap : SkipMap SocketAddr Sender}
    (updated
      : ∀ other, senderMap[other]? = if other = key then found else slot pool addr other)
    (otherAddr otherKey : SocketAddr)
    : slot (pool.insert addr senderMap) otherAddr otherKey
      = if otherAddr = addr ∧ otherKey = key then found
        else slot pool otherAddr otherKey := by
  rw [slot_insert]
  by_cases at_addr : otherAddr = addr
  case pos => simp only [at_addr, updated, true_and, if_true]
  case neg => simp only [at_addr, false_and, if_false]

/-- A dropped body fills the slot of its peer address, whatever that held. -/
theorem slot_drop (body : Body) (pool : Pool) (addr key : SocketAddr)
    : slot (body.drop pool) addr key
      = if addr = body.addr ∧ key = body.peerAddr then some body.sender
        else slot pool addr key := by
  refine slot_insert_update (fun other => ?_) addr key
  rw [Std.ExtTreeMap.lookup_insert_eq]
  cases found : pool.lookup body.addr <;> simp [slot, found]

/-- A cached connection comes out of its slot, which is empty afterwards. -/
theorem slot_cachedConn {addr : SocketAddr} {pool after : Pool} {conn : Conn}
    (taken : cachedConn addr pool = (some conn, after))
    : slot pool addr conn.peerAddr = some conn.sender
      ∧ ∀ other key,
          slot after other key
          = if other = addr ∧ key = conn.peerAddr then none else slot pool other key := by
  unfold cachedConn at taken
  cases found : pool.lookup addr with
  | none => simp [found] at taken
  | some senderMap =>
      cases popped : senderMap.popBack with
      | none => simp [found, popped] at taken
      | some entry =>
          obtain ⟨⟨peerAddr, sender⟩, rest⟩ := entry
          simp only [found, popped, Prod.mk.injEq, Option.some.injEq] at taken
          obtain ⟨rfl, rfl⟩ := taken
          obtain ⟨stored, rfl⟩ := Std.ExtTreeMap.popBack_eq_some popped
          refine ⟨by simp [slot, found, stored], slot_insert_update fun other => ?_⟩
          simp [slot, found, Std.ExtTreeMap.lookup_erase_eq]

/-- Without a cached connection all slots of the address are empty. -/
theorem slot_cachedConn_none {addr : SocketAddr} {pool after : Pool}
    (missed : cachedConn addr pool = (none, after))
    : after = pool ∧ ∀ key, slot pool addr key = none := by
  unfold cachedConn at missed
  cases found : pool.lookup addr with
  | none =>
      simp only [found, Prod.mk.injEq, true_and] at missed
      exact ⟨missed.symm, by simp [slot, found]⟩
  | some senderMap =>
      cases popped : senderMap.popBack with
      | none =>
          simp only [found, popped, Prod.mk.injEq, true_and] at missed
          refine ⟨missed.symm, fun key => ?_⟩
          simpa [slot, found] using Std.ExtTreeMap.popBack_eq_none.mp popped key
      | some entry => simp [found, popped] at missed

/-- The first half of a cleanup empties the slot of its own key. -/
theorem slot_removePeer (addr peerAddr : SocketAddr) (pool : Pool)
    (other key : SocketAddr)
    : slot (removePeer addr peerAddr pool).2 other key
      = if other = addr ∧ key = peerAddr then none else slot pool other key := by
  unfold removePeer
  cases found : pool.lookup addr with
  | none =>
      by_cases here : other = addr ∧ key = peerAddr
      case pos =>
        obtain ⟨rfl, rfl⟩ := here
        simp [slot, found]
      case neg => simp [here]
  | some connMap =>
      refine slot_insert_update (fun other => ?_) other key
      simp [slot, found, Std.ExtTreeMap.lookup_erase_eq]

/-- The second half empties every slot of the address. -/
theorem slot_removeKey (addr : SocketAddr) (pool : Pool) (other key : SocketAddr)
    : slot (removeKey addr pool) other key
      = if other = addr then none else slot pool other key := by
  unfold removeKey slot
  rw [Finmap.lookup_erase_eq]
  split <;> rfl

end Gway.PooledFetch
