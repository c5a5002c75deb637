import Gway.Error
import Gway.Library.Machine

/-! The sockets that a restarted gateway inherits: they are sorted by kind and address into two
maps, from which the services take theirs.
-/

namespace Gway.Srv

inductive Transport where
  | tcp
  | udp
deriving DecidableEq, Repr

/-- A descriptor is a TCP listener, a UDP socket or something else. -/
inductive SocketKind where
  | listening (transport : Transport)
  | other
deriving DecidableEq, Repr

/-- An inherited descriptor, and what the system says when it is made non-blocking and when
its address is asked for.
-/
structure Socket where
  fd : Nat
  kind : SocketKind
  setNonblocking : Except Error Unit
  localAddr : Except Error SocketAddr
deriving DecidableEq

/-- The descriptors that have not been taken yet, each at its index. -/
abbrev ListenFd := List (Option Socket)

/-- `take_tcp_listener` and `take_udp_socket`, which take a descriptor of their kind only. -/
def ListenFd.take (listenfd : ListenFd) (transport : Transport) (i : Nat)
    : Except Error (Option Socket) × ListenFd :=
  match listenfd[i]? with
  | some (some socket) =>
      if socket.kind = .listening transport then
        (.ok (some socket), listenfd.set i none)
      else (.error (.io "fd has the wrong type"), listenfd)
  | _ => (.ok none, listenfd)

/-- The two maps, and the inherited sockets that have been dropped, which closes them. -/
structure Sockets where
  tcpListeners : HashMap SocketAddr Socket
  udpSockets : HashMap SocketAddr Socket
  closed : List Socket

namespace Sockets

def empty : Sockets where
  tcpListeners := ∅
  udpSockets := ∅
  closed := []

/-- The map for a kind of sockets. -/
def of (sockets : Sockets) : Transport → HashMap SocketAddr Socket
  | .tcp => sockets.tcpListeners
  | .udp => sockets.udpSockets

def setMap (sockets : Sockets) (transport : Transport) (map : HashMap SocketAddr Socket)
    : Sockets :=
  match transport with
  | .tcp => { sockets with tcpListeners := map }
  | .udp => { sockets with udpSockets := map }

/-- The insertion into a map drops the socket that was there under the address. -/
def insert (sockets : Sockets) (transport : Transport) (addr : SocketAddr) (socket : Socket)
    : Sockets :=
  { sockets.setMap transport ((sockets.of transport).insert addr socket) with
    closed := sockets.closed ++ ((sockets.of transport).lookup addr).toList }

/-- The removal from a map. -/
def remove (sockets : Sockets) (transport : Transport) (addr : SocketAddr) : Sockets :=
  sockets.setMap transport ((sockets.of transport).erase addr)

end Sockets

/-- A socket that was taken is made non-blocking and put into its map. -/
def keepSocket (sockets : Sockets) (transport : Transport) (l : Socket)
    : Except Error Sockets :=
  match l.setNonblocking with
  | .error err => .error err
  | .ok () =>
      match l.localAddr with
      | .error err => .error err
      | .ok addr => .ok (sockets.insert transport addr l)

/-- One round of the loop of `socket_from_listenfd`: the descriptor at an index is tried as a
TCP listener and then as a UDP socket.
-/
def collectFd (state : ListenFd × Sockets) (i : Nat) : Except Error (ListenFd × Sockets) :=
  let (listenfd, sockets) := state
  match ListenFd.take listenfd .tcp i with
  | (.ok (some l), listenfd) => (keepSocket sockets .tcp l).map (listenfd, ·)
  | (_, listenfd) =>
      match ListenFd.take listenfd .udp i with
      | (.ok (some l), listenfd) => (keepSocket sockets .udp l).map (listenfd, ·)
      | (_, listenfd) => .ok (listenfd, sockets)

/-- `socket_from_listenfd`. -/
def socketFromListenfd (listenfd : ListenFd) : Except Error (ListenFd × Sockets) :=
  (List.range listenfd.length).foldlM collectFd (listenfd, .empty)

/-- The socket of a service was inherited, or bound for it. -/
inductive Listener where
  | inherited (socket : Socket)
  | bound (addr : SocketAddr)
deriving DecidableEq

/-- `get_or_create_tcp_listener`. An inherited listener is registered with the runtime, which
drops it if that fails.
-/
def getOrCreateTcpListener (sockets : Sockets) (addr : SocketAddr)
    (fromStd bind : Except Error Unit) : Except Error Listener × Sockets :=
  match (sockets.of .tcp).lookup addr with
  | some listener =>
      let sockets := sockets.remove .tcp addr
      match fromStd with
      | .ok () => (.ok (.inherited listener), sockets)
      | .error err => (.error err, { sockets with closed := sockets.closed ++ [listener] })
  | none => (bind.map fun _ => .bound addr, sockets)

/-- `get_or_create_udp_socket`. -/
def getOrCreateUdpSocket (sockets : Sockets) (addr : SocketAddr) (bind : Except Error Unit)
    : Except Error Listener × Sockets :=
  match (sockets.of .udp).lookup addr with
  | some socket => (.ok (.inherited socket), sockets.remove .udp addr)
  | none => (bind.map fun _ => .bound addr, sockets)

/-- A call for an address, and what the system says when a listener is registered and when a
socket is bound.
-/
structure SocketCall where
  transport : Transport
  addr : SocketAddr
  fromStd : Except Error Unit
  bind : Except Error Unit

/-- What a call returns, and the maps after it. -/
def SocketCall.run (call : SocketCall) (sockets : Sockets)
    : Except Error Listener × Sockets :=
  match call.transport with
  | .tcp => getOrCreateTcpListener sockets call.addr call.fromStd call.bind
  | .udp => getOrCreateUdpSocket sockets call.addr call.bind

/-- The maps, and the inherited sockets that calls have returned. -/
structure Startup where
  sockets : Sockets
  handedOut : List Socket

/-- The inherited socket that a call returns, if it returns one. -/
def inheritedSocket : Except Error Listener → List Socket
  | .ok (.inherited socket) => [socket]
  | _ => []

/-- The calls for the services one after the other, with the sockets collected before. They go
on after a call that fails, where `srv` itself returns.
-/
def startup (sockets : Sockets) : Machine Startup SocketCall where
  init := { sockets, handedOut := [] }
  step state call :=
    let (result, sockets) := call.run state.sockets
    some { sockets, handedOut := state.handedOut ++ inheritedSocket result }

/-- The calls of `srv`. -/
def serviceCalls (h1Addr h2Addr h3Addr : SocketAddr) : List SocketCall :=
  [
    { transport := .tcp, addr := h1Addr, fromStd := .ok (), bind := .ok () },
    { transport := .tcp, addr := h2Addr, fromStd := .ok (), bind := .ok () },
    { transport := .udp, addr := h3Addr, fromStd := .ok (), bind := .ok () }
  ]

variable {sockets : Sockets} {transport other : Transport} {addr otherAddr : SocketAddr}
  {socket : Socket}

theorem Sockets.of_setMap (map : HashMap SocketAddr Socket)
    : (sockets.setMap transport map).of other
      = if other = transport then map else sockets.of other := by
  cases transport <;> cases other <;> rfl

theorem Sockets.closed_setMap (map : HashMap SocketAddr Socket)
    : (sockets.setMap transport map).closed = sockets.closed := by
  cases transport <;> rfl

theorem Sockets.lookup_insert
    : ((sockets.insert transport addr socket).of other).lookup otherAddr
      = if other = transport ∧ otherAddr = addr then some socket
        else (sockets.of other).lookup otherAddr := by
  have map : (sockets.insert transport addr socket).of other
      = (sockets.setMap transport ((sockets.of transport).insert addr socket)).of other := by
    cases other <;> rfl
  rw [map, Sockets.of_setMap]
  by_cases same : other = transport
  case pos =>
    subst same
    simp [Finmap.lookup_insert_eq]
  case neg => simp [same]

theorem Sockets.lookup_remove
    : ((sockets.remove transport addr).of other).lookup otherAddr
      = if other = transport ∧ otherAddr = addr then none
        else (sockets.of other).lookup otherAddr := by
  rw [Sockets.remove, Sockets.of_setMap]
  by_cases same : other = transport
  case pos =>
    subst same
    simp [Finmap.lookup_erase_eq]
  case neg => simp [same]

-----------------------------------------------------------------------------------------
-- The loop
-----------------------------------------------------------------------------------------

/-- What the loop does with a descriptor. -/
def collectSocket (sockets : Sockets) (socket : Socket) : Except Error Sockets :=
  match socket.kind with
  | .listening transport => keepSocket sockets transport socket
  | .other => .ok sockets

/-- What the loop leaves of a descriptor that it can take or not. -/
def Socket.left (socket : Socket) : Option Socket :=
  if socket.kind = .other then some socket else none

/-- The descriptor at the index at hand is taken if it has the kind that is tried. -/
theorem take_of_passed (passed : List (Option Socket)) (later : List (Option Socket))
    (socket : Socket) (transport : Transport)
    : ListenFd.take (passed ++ some socket :: later) transport passed.length
      = if socket.kind = .listening transport then
          (.ok (some socket), passed ++ none :: later)
        else (.error (.io "fd has the wrong type"), passed ++ some socket :: later) := by
  simp [ListenFd.take]

/-- A round looks at its own index only, and leaves a descriptor of another kind there. -/
theorem collectFd_eq (passed later : List (Option Socket)) (socket : Socket)
    (sockets : Sockets)
    : collectFd (passed ++ some socket :: later, sockets) passed.length
      = (collectSocket sockets socket).map fun sockets =>
          (passed ++ socket.left :: later, sockets) := by
  cases kind : socket.kind with
  | other =>
      simp [collectFd, take_of_passed, kind, collectSocket, Socket.left, Except.map]
  | listening transport =>
      cases transport <;>
        simp [collectFd, take_of_passed, kind, collectSocket, Socket.left]

/-- The loop goes through the descriptors in order, by induction on those to come. -/
theorem foldlM_collectFd (passed : List (Option Socket)) (later : List Socket)
    (sockets : Sockets)
    : (List.range' passed.length later.length).foldlM collectFd
          (passed ++ later.map some, sockets)
      = (later.foldlM collectSocket sockets).map fun sockets =>
          (passed ++ later.map Socket.left, sockets) := by
  induction later generalizing passed sockets with
  | nil => rfl
  | cons socket later ih =>
      rw [List.length_cons, List.range'_succ, List.foldlM_cons, List.map_cons, collectFd_eq,
        List.foldlM_cons]
      cases collected : collectSocket sockets socket with
      | error err => rfl
      | ok sockets =>
          have rest := ih (passed ++ [socket.left]) sockets
          simpa [Except.map, bind, Except.bind] using rest

/-- The descriptors are collected in their order, and those of another kind are left. -/
theorem socketFromListenfd_eq (inherited : List Socket)
    : socketFromListenfd (inherited.map some)
      = (inherited.foldlM collectSocket .empty).map fun sockets =>
          (inherited.map Socket.left, sockets) := by
  have loop := foldlM_collectFd [] inherited .empty
  simpa [socketFromListenfd, List.range_eq_range'] using loop

end Gway.Srv
