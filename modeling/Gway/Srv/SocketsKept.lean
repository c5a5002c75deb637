import Gway.Srv.Sockets
import Mathlib.Data.List.Pairwise

/-! Whether inherited sockets stay open. The maps have room for one socket of each kind under
an address, so that another one with the same address closes the first.
-/

namespace Gway.Srv

/-- The socket belongs into the map for its kind under its address. -/
def Socket.HasKey (socket : Socket) (transport : Transport) (addr : SocketAddr) : Prop :=
  socket.kind = .listening transport ∧ socket.localAddr = .ok addr

/-- The two sockets do not belong under the same address of one map. -/
def Socket.Apart (left right : Socket) : Prop :=
  ∀ transport addr, left.HasKey transport addr → ¬ right.HasKey transport addr

instance : Std.Symm Socket.Apart where
  symm _ _ apart transport addr own other := apart transport addr other own

/-- No two TCP listeners and no two UDP sockets have the same address. -/
def DistinctAddrs (inherited : List Socket) : Prop :=
  inherited.Pairwise Socket.Apart

/-- Every inherited TCP listener and UDP socket is in its map or has been handed out, none is
closed, and none has been handed out twice.
-/
structure Kept (inherited : List Socket) (state : Startup) : Prop where
  held
    : ∀ socket ∈ inherited,
        ∀ transport,
          socket.kind = .listening transport
          → socket ∈ state.handedOut
            ∨ ∃ addr,
                socket.localAddr = .ok addr
                ∧ (state.sockets.of transport).lookup addr = some socket
  open_ : state.sockets.closed = []
  once : state.handedOut.Nodup

/-- A socket of this kind with this address was inherited and has not been handed out. -/
def Startup.Waits (inherited : List Socket) (state : Startup) (transport : Transport)
    (addr : SocketAddr) (socket : Socket) : Prop :=
  socket ∈ inherited ∧ socket.HasKey transport addr ∧ socket ∉ state.handedOut

/-- The call returns an inherited socket that waits for it, if there is one, and otherwise
binds a new one.
-/
def AnswersRight (inherited : List Socket) (before : Startup) (call : SocketCall)
    (_ : Startup) : Prop :=
  ((∃ socket, before.Waits inherited call.transport call.addr socket)
    → ∃ socket,
        before.Waits inherited call.transport call.addr socket
        ∧ (call.run before.sockets).1 = .ok (.inherited socket))
  ∧ ((¬ ∃ socket, before.Waits inherited call.transport call.addr socket)
    → (call.run before.sockets).1 = call.bind.map fun _ => .bound call.addr)

/-- An inherited listener that the call finds can be registered. -/
def Registers (before : Startup) (call : SocketCall) (_ : Startup) : Prop :=
  call.transport = .tcp
  → ((before.sockets.of .tcp).lookup call.addr).isSome = true
  → call.fromStd = .ok ()

instance (before : Startup) (call : SocketCall) (after : Startup)
    : Decidable (Registers before call after) :=
  inferInstanceAs (Decidable (_ → _ → _))

-----------------------------------------------------------------------------------------
-- The collected sockets
-----------------------------------------------------------------------------------------

theorem Socket.HasKey.unique {socket : Socket} {transport other : Transport}
    {addr otherAddr : SocketAddr} (key : socket.HasKey transport addr)
    (also : socket.HasKey other otherAddr)
    : other = transport ∧ otherAddr = addr := by
  have kinds := also.1.symm.trans key.1
  have addrs := also.2.symm.trans key.2
  exact ⟨SocketKind.listening.inj kinds, Except.ok.inj addrs⟩

/-- What the loop has collected from the descriptors that it has passed. A socket has been
dropped exactly if two of them belong under the same address.
-/
structure Collected (passed : List Socket) (sockets : Sockets) : Prop where
  answered
    : ∀ socket ∈ passed,
        ∀ transport,
          socket.kind = .listening transport → ∃ addr, socket.localAddr = .ok addr
  found
    : ∀ transport addr socket,
        (sockets.of transport).lookup addr = some socket
        → socket ∈ passed ∧ socket.HasKey transport addr
  present
    : ∀ socket ∈ passed,
        ∀ transport addr,
          socket.HasKey transport addr → (sockets.of transport).lookup addr ≠ none
  closed_iff : sockets.closed = [] ↔ DistinctAddrs passed

variable {passed inherited : List Socket} {sockets after : Sockets} {socket : Socket}

theorem Collected.empty : Collected [] .empty := by
  constructor
  case answered =>
    intro socket member
    cases member
  case found =>
    intro transport addr socket found
    cases transport <;> simp [Sockets.empty, Sockets.of] at found
  case present =>
    intro socket member
    cases member
  case closed_iff => simp [Sockets.empty, DistinctAddrs]

/-- A descriptor of another kind changes nothing. -/
theorem Collected.concat_other (collected : Collected passed sockets)
    (other : socket.kind = .other)
    : Collected (passed ++ [socket]) sockets := by
  have keyless (transport : Transport) (addr : SocketAddr) : ¬ socket.HasKey transport addr := by
    intro ⟨kind, _⟩
    rw [other] at kind
    cases kind
  constructor
  case answered =>
    intro found member transport kind
    rcases List.mem_append.mp member with earlier | own
    · exact collected.answered found earlier transport kind
    · rw [List.mem_singleton.mp own, other] at kind
      cases kind
  case found =>
    intro transport addr found known
    obtain ⟨member, key⟩ := collected.found transport addr found known
    exact ⟨List.mem_append_left _ member, key⟩
  case present =>
    intro found member transport addr key
    rcases List.mem_append.mp member with earlier | own
    · exact collected.present found earlier transport addr key
    · rw [List.mem_singleton.mp own] at key
      exact absurd key (keyless transport addr)
  case closed_iff =>
    rw [collected.closed_iff, DistinctAddrs, DistinctAddrs, List.pairwise_append]
    simp [Socket.Apart, keyless]

/-- A socket that is put under its address closes the one that was there. -/
theorem Collected.concat_insert {transport : Transport} {addr : SocketAddr}
    (collected : Collected passed sockets) (key : socket.HasKey transport addr)
    : Collected (passed ++ [socket]) (sockets.insert transport addr socket) := by
  constructor
  case answered =>
    intro found member other kind
    rcases List.mem_append.mp member with earlier | own
    · exact collected.answered found earlier other kind
    · exact ⟨addr, List.mem_singleton.mp own ▸ key.2⟩
  case found =>
    intro other otherAddr found known
    rw [Sockets.lookup_insert] at known
    split at known
    case isTrue same =>
      obtain rfl := Option.some.inj known
      obtain ⟨rfl, rfl⟩ := same
      exact ⟨List.mem_append_right _ (List.mem_singleton.mpr rfl), key⟩
    case isFalse =>
      obtain ⟨member, also⟩ := collected.found other otherAddr found known
      exact ⟨List.mem_append_left _ member, also⟩
  case present =>
    intro found member other otherAddr also
    rw [Sockets.lookup_insert]
    split
    case isTrue => simp
    case isFalse apart =>
      rcases List.mem_append.mp member with earlier | own
      · exact collected.present found earlier other otherAddr also
      · rw [List.mem_singleton.mp own] at also
        exact absurd (key.unique also) apart
  case closed_iff =>
    have alone
        : (sockets.of transport).lookup addr = none
          ↔ ∀ earlier ∈ passed, earlier.Apart socket := by
      constructor
      · intro vacant earlier member other otherAddr also own
        obtain ⟨rfl, rfl⟩ := key.unique own
        exact collected.present earlier member _ _ also vacant
      · intro apart
        refine Option.eq_none_iff_forall_ne_some.mpr fun earlier known => ?_
        obtain ⟨member, also⟩ := collected.found transport addr earlier known
        exact apart earlier member transport addr also key
    have dropped
        : (sockets.insert transport addr socket).closed = []
          ↔ sockets.closed = [] ∧ (sockets.of transport).lookup addr = none := by
      simp [Sockets.insert]
    rw [dropped, alone, collected.closed_iff, DistinctAddrs, DistinctAddrs,
      List.pairwise_append]
    simp

theorem Collected.concat (collected : Collected passed sockets)
    (next : collectSocket sockets socket = .ok after)
    : Collected (passed ++ [socket]) after := by
  unfold collectSocket at next
  split at next
  case h_1 transport kind =>
    unfold keepSocket at next
    split at next
    case h_1 => cases next
    case h_2 =>
      split at next
      case h_1 => cases next
      case h_2 addr found =>
        cases Except.ok.inj next
        exact collected.concat_insert ⟨kind, found⟩
  case h_2 kind =>
    cases Except.ok.inj next
    exact collected.concat_other kind

/-- The loop keeps this account to its end, by induction on the descriptors to come. -/
theorem Collected.foldlM {later : List Socket} (collected : Collected passed sockets)
    (ended : later.foldlM collectSocket sockets = .ok after)
    : Collected (passed ++ later) after := by
  induction later generalizing passed sockets with
  | nil =>
      cases Except.ok.inj ended
      rwa [List.append_nil]
  | cons socket later ih =>
      rw [List.foldlM_cons] at ended
      cases next : collectSocket sockets socket with
      | error err =>
          rw [next] at ended
          cases ended
      | ok between =>
          rw [next] at ended
          have all := ih (collected.concat next) ended
          rwa [List.append_assoc] at all

theorem collected_of_socketFromListenfd {left : ListenFd}
    (ended : socketFromListenfd (inherited.map some) = .ok (left, sockets))
    : Collected inherited sockets := by
  rw [socketFromListenfd_eq] at ended
  cases loop : inherited.foldlM collectSocket .empty with
  | error err =>
      rw [loop] at ended
      cases ended
  | ok last =>
      rw [loop] at ended
      obtain ⟨-, rfl⟩ := Prod.mk.inj (Except.ok.inj ended)
      exact Collected.empty.foldlM loop

-----------------------------------------------------------------------------------------
-- The calls
-----------------------------------------------------------------------------------------

variable {call : SocketCall} {state : Startup}

/-- A call that finds a socket under its address takes it. -/
theorem run_of_found (found : (sockets.of call.transport).lookup call.addr = some socket)
    (registered : call.transport = .tcp → call.fromStd = .ok ())
    : call.run sockets
      = (.ok (.inherited socket), sockets.remove call.transport call.addr) := by
  obtain ⟨transport, addr, fromStd, bind⟩ := call
  cases transport with
  | tcp =>
      obtain rfl : fromStd = .ok () := registered rfl
      simp only [SocketCall.run, getOrCreateTcpListener, found]
  | udp => simp only [SocketCall.run, getOrCreateUdpSocket, found]

/-- A listener that cannot be registered is closed. -/
theorem closed_of_unregistered
    (found : (sockets.of call.transport).lookup call.addr = some socket)
    (listener : call.transport = .tcp) (failed : call.fromStd ≠ .ok ())
    : (call.run sockets).2.closed ≠ [] := by
  obtain ⟨transport, addr, fromStd, bind⟩ := call
  cases transport with
  | udp => cases listener
  | tcp =>
      cases fromStd with
      | ok _ => exact absurd rfl failed
      | error err => simp [SocketCall.run, getOrCreateTcpListener, found]

/-- A call that finds none binds a new one and leaves the maps as they are. -/
theorem run_of_missing (missing : (sockets.of call.transport).lookup call.addr = none)
    : call.run sockets = (call.bind.map fun _ => .bound call.addr, sockets) := by
  obtain ⟨transport, addr, fromStd, bind⟩ := call
  cases transport with
  | tcp => simp only [SocketCall.run, getOrCreateTcpListener, missing]
  | udp => simp only [SocketCall.run, getOrCreateUdpSocket, missing]

theorem inheritedSocket_bound (bind : Except Error Unit) (addr : SocketAddr)
    : inheritedSocket (bind.map fun _ => .bound addr) = [] := by
  cases bind <;> rfl

/-- A call changes the maps, and hands out the inherited socket that it returns. -/
theorem startup_step {next : Startup}
    (stepped : (startup sockets).step state call = some next)
    : next
      = {
          sockets := (call.run state.sockets).2
          handedOut := state.handedOut ++ inheritedSocket (call.run state.sockets).1
        } :=
  (Option.some.inj stepped).symm

/-- The maps hold exactly the sockets that have not been handed out. -/
structure Holds (inherited : List Socket) (state : Startup) : Prop where
  answered
    : ∀ socket ∈ inherited,
        ∀ transport,
          socket.kind = .listening transport → ∃ addr, socket.localAddr = .ok addr
  lookup_iff
    : ∀ transport addr socket,
        (state.sockets.of transport).lookup addr = some socket
        ↔ state.Waits inherited transport addr socket
  open_ : state.sockets.closed = []
  once : state.handedOut.Nodup

/-- With distinct addresses no socket has been dropped by the loop. -/
theorem Collected.holds (collected : Collected inherited sockets)
    (distinct : DistinctAddrs inherited)
    : Holds inherited (startup sockets).init := by
  constructor
  case answered => exact collected.answered
  case lookup_iff =>
    intro transport addr socket
    constructor
    · intro found
      obtain ⟨member, key⟩ := collected.found transport addr socket found
      exact ⟨member, key, List.not_mem_nil⟩
    · intro ⟨member, key, _⟩
      obtain ⟨other, found⟩ :=
        Option.ne_none_iff_exists'.mp (collected.present socket member transport addr key)
      obtain ⟨also, same⟩ := collected.found transport addr other found
      by_cases equal : other = socket
      case pos => exact equal ▸ found
      case neg =>
        have apart : other.Apart socket := distinct.forall also member equal
        exact absurd key (apart transport addr same)
  case open_ => exact collected.closed_iff.mpr distinct
  case once => exact List.nodup_nil

theorem Holds.kept (holds : Holds inherited state) : Kept inherited state := by
  refine ⟨fun socket member transport kind => ?_, holds.open_, holds.once⟩
  by_cases handed : socket ∈ state.handedOut
  case pos => exact Or.inl handed
  case neg =>
    obtain ⟨addr, known⟩ := holds.answered socket member transport kind
    exact Or.inr ⟨addr, known, (holds.lookup_iff _ _ _).mpr ⟨member, ⟨kind, known⟩, handed⟩⟩

/-- A socket that is taken is the only one of its kind and address, and counts as handed out
from then on.
-/
theorem Holds.take {transport : Transport} {addr : SocketAddr} (holds : Holds inherited state)
    (found : (state.sockets.of transport).lookup addr = some socket)
    : Holds inherited
        {
          sockets := state.sockets.remove transport addr
          handedOut := state.handedOut ++ [socket]
        } := by
  obtain ⟨member, key, waits⟩ := (holds.lookup_iff _ _ _).mp found
  constructor
  case answered => exact holds.answered
  case lookup_iff =>
    intro other otherAddr otherSocket
    rw [Sockets.lookup_remove]
    split
    case isTrue same =>
      obtain ⟨rfl, rfl⟩ := same
      constructor
      · intro none
        cases none
      · intro ⟨also, sameKey, left⟩
        rw [List.mem_append, List.mem_singleton, not_or] at left
        have known := (holds.lookup_iff _ _ _).mpr ⟨also, sameKey, left.1⟩
        exact absurd (Option.some.inj (known.symm.trans found)) left.2
    case isFalse apart =>
      rw [holds.lookup_iff]
      refine and_congr_right fun _ => and_congr_right fun otherKey => not_congr ?_
      rw [List.mem_append, List.mem_singleton, or_iff_left]
      rintro rfl
      exact apart (key.unique otherKey)
  case open_ =>
    rw [Sockets.remove, Sockets.closed_setMap]
    exact holds.open_
  case once =>
    refine List.nodup_append.mpr ⟨holds.once, List.nodup_singleton socket, ?_⟩
    intro earlier handed own same rfl
    rw [List.mem_singleton.mp same] at handed
    exact waits handed

/-- A call keeps this if it can register the listener that it finds. -/
theorem Holds.step {next : Startup} (holds : Holds inherited state)
    (stepped : (startup sockets).step state call = some next)
    (registers : Registers state call next)
    : Holds inherited next := by
  rw [startup_step stepped]
  cases found : (state.sockets.of call.transport).lookup call.addr with
  | none =>
      rw [run_of_missing found]
      simpa [inheritedSocket_bound] using holds
  | some socket =>
      have registered (listener : call.transport = .tcp) : call.fromStd = .ok () :=
        registers listener (by rw [← listener, found]; rfl)
      rw [run_of_found found registered]
      exact holds.take found

/-- Where the maps hold what waits, a call keeps the sockets exactly if it can register the
listener that it finds.
-/
theorem Holds.kept_iff {next : Startup} (holds : Holds inherited state)
    (stepped : (startup sockets).step state call = some next)
    : Kept inherited next ↔ Registers state call next := by
  constructor
  · intro kept listener some_found
    rw [← listener] at some_found
    obtain ⟨socket, found⟩ := Option.isSome_iff_exists.mp some_found
    by_contra failed
    rw [startup_step stepped] at kept
    exact closed_of_unregistered found listener failed kept.open_
  · exact fun registers => (holds.step stepped registers).kept

/-- A call answers right if it can register the listener that it finds. -/
theorem Holds.answersRight {next : Startup} (holds : Holds inherited state)
    (registers : Registers state call next)
    : AnswersRight inherited state call next := by
  constructor
  · intro ⟨socket, waits⟩
    have found := (holds.lookup_iff _ _ _).mpr waits
    have registered (listener : call.transport = .tcp) : call.fromStd = .ok () :=
      registers listener (by rw [← listener, found]; rfl)
    exact ⟨socket, waits, by rw [run_of_found found registered]⟩
  · intro none_waits
    have missing : (state.sockets.of call.transport).lookup call.addr = none :=
      Option.eq_none_iff_forall_ne_some.mpr fun socket found =>
        none_waits ⟨socket, (holds.lookup_iff _ _ _).mp found⟩
    rw [run_of_missing missing]

/-- For every list of inherited descriptors whose sockets could be collected, and every
sequence of calls after that, the sockets are kept and the calls answer right throughout
exactly if no two of a kind have the same address and the inherited listeners can be
registered.
-/
theorem inherited_kept_iff (inherited : List Socket) (left : ListenFd) (sockets : Sockets)
    (collected : socketFromListenfd (inherited.map some) = .ok (left, sockets))
    (calls : List SocketCall)
    : (startup sockets).Always (Kept inherited) (startup sockets).init calls
        ∧ (startup sockets).EachStep (AnswersRight inherited) (startup sockets).init calls
      ↔ DistinctAddrs inherited
        ∧ (startup sockets).EachStep Registers (startup sockets).init calls := by
  have account := collected_of_socketFromListenfd collected
  have kept_iff (distinct : DistinctAddrs inherited)
      : (startup sockets).Always (Kept inherited) (startup sockets).init calls
        ↔ (startup sockets).EachStep Registers (startup sockets).init calls :=
    Machine.always_iff_eachStep (Holds inherited)
      (fun _ _ _ holds _ stepped => holds.kept_iff stepped)
      (fun _ _ _ holds _ stepped registers => holds.step stepped registers)
      (account.holds distinct) (account.holds distinct).kept
  constructor
  · intro ⟨kept, _⟩
    have distinct := account.closed_iff.mp kept.first.open_
    exact ⟨distinct, (kept_iff distinct).mp kept⟩
  · intro ⟨distinct, registers⟩
    have holds := registers.always
      (fun _ _ _ holds stepped registers => Holds.step holds stepped registers)
      (account.holds distinct)
    exact ⟨(kept_iff distinct).mpr registers,
      registers.mono (fun _ _ _ holds _ registers => Holds.answersRight holds registers) holds⟩

/-- A socket that the system answers for. -/
def openSocket (fd : Nat) (transport : Transport) (port : UInt16) : Socket where
  fd := fd
  kind := .listening transport
  setNonblocking := .ok ()
  localAddr := .ok (ipv4 0 0 0 0 port)

/-- One socket for each service. -/
def ownSockets : List Socket :=
  [openSocket 3 .tcp 80, openSocket 4 .tcp 443, openSocket 5 .udp 443]

/-- Two TCP listeners share the address of a service. -/
def sharedSockets : List Socket :=
  [openSocket 3 .tcp 80, openSocket 4 .tcp 443, openSocket 5 .tcp 443]

/-- Each service gets its socket, and none is closed. -/
theorem inherited_kept_ownSockets
    : ∃ left sockets,
        socketFromListenfd (ownSockets.map some) = .ok (left, sockets)
        ∧ (startup sockets).Always (Kept ownSockets) (startup sockets).init
            (serviceCalls (ipv4 0 0 0 0 80) (ipv4 0 0 0 0 443) (ipv4 0 0 0 0 443)) := by
  refine ⟨_, _, rfl, ((inherited_kept_iff ownSockets _ _ rfl _).mpr ⟨?_, ?_⟩).1⟩
  · simp [DistinctAddrs, ownSockets, Socket.Apart, Socket.HasKey, openSocket, ipv4]
  · decide

/-- The first of two listeners with one address is closed. Witness: the sockets that the
second has dropped, by evaluation.
-/
theorem sharedSockets_closed
    : ∃ left sockets,
        socketFromListenfd (sharedSockets.map some) = .ok (left, sockets)
        ∧ sockets.closed = [openSocket 4 .tcp 443]
        ∧ ¬ Kept sharedSockets (startup sockets).init := by
  refine ⟨_, _, rfl, rfl, fun kept => ?_⟩
  cases kept.open_

end Gway.Srv
