import CommBench.Run.Program
import CommBench.Wire.RawUdpRecv

set_option relaxedAutoImplicit false
set_option autoImplicit false

/-!
# The frames of the transports

What the `send` of each transport puts on the wire (`raw_udp.cpp`, `ros2_be.cpp`, `ros2_mte.cpp`),
and what its receive thread hands to the callback. The raw UDP transport sends the bytes of the
struct to the address that `inet_pton` reads off `peer_ip`, and drops the packet when it reads
none. The transports over ROS 2 publish the copied message on the topic of their publisher, in a
session of the middleware that the environment of the program and the transport have opened; the
middleware hands the messages of a topic to the subscriptions of the sessions that it has joined
with this one, as they were published.

## Main definitions

* `CommBench.inetPton` — `inet_pton` for `AF_INET`, as glibc has it.
* `CommBench.RosEnv`, `CommBench.RosSession` — what tells the sessions of the middleware apart.
* `CommBench.Frame` — a datagram or a published message.
* `CommBench.Tx.send` — what a transport puts on the wire.
* `CommBench.Tx.hears`, `CommBench.Tx.recv` — the frames that come to a transport, and what it
  makes of them.

## Main results

* `CommBench.recvLoop_cons` — the receive loop of the raw UDP transport is a sequence of passes.
* `CommBench.Tx.recv_of_send` — a frame that comes to a transport is received as it was sent.
* `CommBench.Tx.up_cases` — what a transport that is up sends to and listens on.
* `CommBench.Tx.hears_of_send` — which frames come to which program.

## Design

Which sessions the middleware joins is decided outside the repository, by the two implementations,
the configuration files and the network. It is a parameter, a relation `joins` from the session of
a publisher to the one of a subscription.
-/

namespace CommBench

/-! ## Addresses -/

/-- The loop of `inet_pton` for `AF_INET`, from a character on: the number of octets that have
begun, whether the current one has a digit, its value, and the octets before it. -/
def inetPtonLoop (octets : ℕ) (sawDigit : Bool) (tp addr : ℕ) : List Char → Option ℕ
  | [] => if octets < 4 then none else some (addr * 256 + tp)
  | ch :: src =>
    if ch.isDigit then
      let new := tp * 10 + (ch.toNat - '0'.toNat)
      -- no leading zero
      if sawDigit ∧ tp = 0 then none
      else if 255 < new then none
      else if sawDigit then inetPtonLoop octets true new addr src
      else if 4 < octets + 1 then none
      else inetPtonLoop (octets + 1) true new addr src
    else if ch = '.' ∧ sawDigit then
      if octets = 4 then none else inetPtonLoop octets false 0 (addr * 256 + tp) src
    else none

/-- `inet_pton(AF_INET, …)`: the address, when it returns `1`. -/
def inetPton (src : String) : Option UInt32 :=
  (inetPtonLoop 0 false 0 0 src.toList).map UInt32.ofNat

example : inetPton "192.168.1.10" = some 0xC0A8010A := by decide

/-! ## Sending and receiving -/

deriving instance DecidableEq for Payload
deriving instance DecidableEq for PayloadMsg

/-- The variables of the environment that `rclcpp::init` reads. -/
structure RosEnv where
  rmwImplementation : String
  rosDomainId : String
  deriving DecidableEq

/-- A session of the middleware: the environment of the program, and the transport whose
constructor has configured it. -/
structure RosSession extends RosEnv where
  transport : TransportKind
  deriving DecidableEq

/-- What is around a program: the addresses at which the frames of the other program come to its
host (a loopback address only where both run on one host), and its environment. -/
structure Host where
  addrs : List UInt32
  rosEnv : RosEnv

/-- The transport that an object over ROS 2 is. -/
def Ros2Transport.kind : Ros2Transport → TransportKind
  | ros2Be _ => .ros2Be
  | ros2Mte _ => .ros2Mte
  | zenohP2p _ => .zenohP2p
  | zenohRouter _ => .zenohRouter
  | ddsUnicast _ => .ddsUnicast

/-- What is on the wire: a datagram with its destination, or a message that was published on a
topic in a session. -/
inductive Frame
  | datagram (addr : UInt32) (port : UInt16) (bytes : List UInt8)
  | message (session : RosSession) (topic : String) (msg : PayloadMsg)
  deriving DecidableEq

/-- One pass through `RawUdpTransport::recv_loop_` while `running_` is true: the buffer behind
it, and the payload that is handed to the callback. -/
def recvPass (buf : ObjectRepr) (event : RecvEvent) : ObjectRepr × Option Payload :=
  let received := recvfrom buf event
  (received.2,
    if received.1 ≠ sizeofPayload then none else some (Payload.ofBytes received.2))

namespace Tx

variable (joins : RosSession → RosSession → Bool)

/-- `send`. `fill` and `m` stand for what C++ leaves indeterminate in the bytes of the struct and
in the message before it is filled. The result of `sendto` is ignored, so that a packet may be
lost at once. -/
def send (env : RosEnv) (fill : ℕ → UInt8) (m : PayloadMsg) (msg : Payload) : Tx → Option Frame
  | rawUdp cfg s =>
    if s.sockFd < 0 then none
    else (inetPton cfg.peerIp).map fun addr => .datagram addr cfg.peerPort (msg.objectRepr fill).1
  | ros2 t s => s.parts.pub.map fun pub => .message ⟨env, t.kind⟩ pub.topic (toMsg msg m)

/-- The frame comes to the transport: to its socket on the host, or to its subscription in a session
that is joined with the one of the publisher. -/
def hears (host : Host) : Tx → Frame → Bool
  | rawUdp _ s, .datagram addr port _ =>
    addr ∈ host.addrs ∧ ∃ k ∈ s.sockets, k.fd = s.sockFd ∧ k.port = some port
  | ros2 t s, .message session topic _ =>
    joins session ⟨host.rosEnv, t.kind⟩ ∧ ∃ sub ∈ s.parts.sub, sub.topic = topic
  | _, _ => false

/-- What the thread of the transport makes of a frame: the buffer of `recv_loop_` behind it, and
the payload that is handed to the callback. The struct that `from_msg` fills is indeterminate
before. -/
def recv (host : Host) (tx : Tx) (buf : ObjectRepr) (f : Frame) : ObjectRepr × Option Payload :=
  if tx.hears joins host f then
    match f with
    | .datagram _ _ bytes => recvPass buf (.datagram bytes)
    | .message _ _ msg => (buf, some (fromMsg msg (Payload.ofBytes buf)))
  else (buf, none)

end Tx

/-- **The receive loop is a sequence of passes.** -/
lemma recvLoop_cons (buf : ObjectRepr) (ev : RecvEvent) (nowNs : ℤ)
    (evs : List (RecvEvent × ℤ)) :
    recvLoop true buf (whileRunning ((ev, nowNs) :: evs)) =
      ((recvPass buf ev).2.map fun msg => (msg, nowNs)).toList ++
        recvLoop true (recvPass buf ev).1 (whileRunning evs) := by
  simp only [whileRunning, List.map_cons, recvLoop, recvPass, if_true, Bool.not_true,
    Bool.false_eq_true, if_false]
  split_ifs <;> rfl

/-- The bytes of a payload are received as the payload, whatever the buffer held. -/
lemma recvPass_objectRepr (fill : ℕ → UInt8) (msg : Payload) (buf : ObjectRepr) :
    (recvPass buf (.datagram (msg.objectRepr fill).1)).2 = some msg := by
  have hlen : (msg.objectRepr fill).1.length = sizeofPayload := (msg.objectRepr fill).2
  obtain ⟨hcount, hbuf⟩ := recvfrom_datagram_of_le hlen.ge buf
  have hrepr : (recvfrom buf (.datagram (msg.objectRepr fill).1)).2 = msg.objectRepr fill :=
    Subtype.ext (hbuf.trans (List.take_of_length_le hlen.le))
  simp only [recvPass, hcount, hrepr, Payload.ofBytes_objectRepr, ne_eq, not_true_eq_false,
    if_false]

namespace Tx

variable {joins : RosSession → RosSession → Bool} {env : RosEnv} {host : Host} {fill : ℕ → UInt8}
  {m : PayloadMsg} {msg : Payload} {tx tx' : Tx} {f : Frame} {c c' : CliConfig}

/-- The raw UDP transport sends while its socket is open and `peer_ip` is an address. -/
lemma send_rawUdp {cfg : RawUdpConfig} {s : RawUdp} :
    (rawUdp cfg s).send env fill m msg = some f ↔ 0 ≤ s.sockFd ∧
      ∃ addr, inetPton cfg.peerIp = some addr ∧
        f = .datagram addr cfg.peerPort (msg.objectRepr fill).1 := by
  simp only [send, Option.ite_none_left_eq_some, Option.map_eq_some_iff, not_lt,
    eq_comm (a := f)]

/-- A transport over ROS 2 publishes while it has a publisher. -/
lemma send_ros2 {t : Ros2Transport} {s : Ros2} :
    (ros2 t s).send env fill m msg = some f ↔
      ∃ pub, s.parts.pub = some pub ∧ f = .message ⟨env, t.kind⟩ pub.topic (toMsg msg m) := by
  simp only [send, Option.map_eq_some_iff, eq_comm (a := f)]

/-- Only a frame that comes to the transport is handed to the callback. -/
lemma hears_of_recv {buf : ObjectRepr} (h : (tx.recv joins host buf f).2 = some msg) :
    tx.hears joins host f = true := by
  by_contra hdeaf
  simp [recv, hdeaf] at h

/-- **A frame is received as it was sent**, on either wire, by every transport that it comes
to. -/
theorem recv_of_send (hsend : tx.send env fill m msg = some f)
    (hhears : tx'.hears joins host f = true) (buf : ObjectRepr) :
    (tx'.recv joins host buf f).2 = some msg := by
  simp only [recv, hhears, if_true]
  cases tx with
  | rawUdp cfg s =>
    obtain ⟨-, addr, -, rfl⟩ := send_rawUdp.mp hsend
    exact recvPass_objectRepr fill msg buf
  | ros2 t s =>
    obtain ⟨pub, -, rfl⟩ := send_ros2.mp hsend
    simp only [toMsg_eq, fromMsg_eq]

/-- **A transport that is up** has a socket that is bound to its local port, or a publisher and
a subscription on the topics of its role, in the session of its transport.

**Proof sketch.** The object that is up was made from the configuration by `makeTransport`, which
is one case for each transport; what `Up` says of it is read off. -/
theorem up_cases (hmake : makeTransport c = .ok tx.asNew) (hup : tx.Up) :
    (c.transport = .rawUdp ∧ ∃ fd : ℕ, tx = rawUdp c.rawUdp ⟨.idle, fd, true, some fd, none,
      [⟨fd, c.rawUdp.socketOptions, some c.localPort⟩], [fd]⟩) ∨
    (c.transport.needsRos = true ∧ ∃ t s, tx = ros2 t s ∧ t.kind = c.transport ∧
      s.parts.pub = some ⟨myTopic c.role, bestEffortQos⟩ ∧
      s.parts.sub = some ⟨peerTopic c.role, bestEffortQos⟩) := by
  cases tx with
  | rawUdp cfg s =>
    left
    unfold makeTransport at hmake
    cases ht : c.transport with
    | rawUdp =>
      rw [ht] at hmake
      obtain ⟨_, -, htx⟩ := Fallible.map_eq_ok.mp hmake
      cases htx
      obtain ⟨fd, rfl⟩ := hup
      exact ⟨rfl, fd, rfl⟩
    | _ =>
      rw [ht] at hmake
      cases hmake
  | ros2 t s =>
    right
    obtain ⟨-, -, -, hparts, -⟩ := hup
    unfold makeTransport at hmake
    cases ht : c.transport with
    | rawUdp =>
      rw [ht] at hmake
      obtain ⟨_, -, htx⟩ := Fallible.map_eq_ok.mp hmake
      cases htx
    | _ =>
      rw [ht] at hmake
      cases hmake
      exact ⟨rfl, _, s, rfl, rfl, by rw [hparts]; rfl, by rw [hparts]; rfl⟩

/-- The frames of a program with the configuration `c` and the environment `env` come to one with
the configuration `c'` on the host: the two sockets fit, or the two topics do and the middleware
has joined the two sessions. -/
def Reaches (joins : RosSession → RosSession → Bool) (c c' : CliConfig) (env : RosEnv)
    (host : Host) : Prop :=
  (c.transport = .rawUdp ∧ c'.transport = .rawUdp ∧ c.peerPort = c'.localPort ∧
    ∃ addr ∈ inetPton c.peerIp, addr ∈ host.addrs) ∨
  (c.transport.needsRos = true ∧ c'.transport.needsRos = true ∧ c.role ≠ c'.role ∧
    joins ⟨env, c.transport⟩ ⟨host.rosEnv, c'.transport⟩ = true)

/-- **Which frames come to which program.**

**Proof sketch.** By `up_cases` each of the two transports is a bound socket or a pair of topics in
a session. A datagram comes to no subscription and a message to no socket. In the other two cases
both sides of the equivalence compare the same ports and addresses, or the same topics and
sessions; the topics of two roles are the same exactly if the roles differ. -/
theorem hears_of_send (hmake : makeTransport c = .ok tx.asNew) (hup : tx.Up)
    (hmake' : makeTransport c' = .ok tx'.asNew) (hup' : tx'.Up) :
    (∃ f, tx.send env fill m msg = some f ∧ tx'.hears joins host f = true) ↔
      Reaches joins c c' env host := by
  rcases up_cases hmake hup with ⟨ht, fd, rfl⟩ | ⟨ht, t, s, rfl, hkind, hpub, -⟩ <;>
    rcases up_cases hmake' hup' with ⟨ht', fd', rfl⟩ | ⟨ht', t', s', rfl, hkind', -, hsub⟩
  · constructor
    · rintro ⟨f, hsend, hhears⟩
      obtain ⟨-, addr, haddr, rfl⟩ := send_rawUdp.mp hsend
      simp only [hears, decide_eq_true_eq, List.mem_singleton, exists_eq_left, true_and,
        Option.some.injEq] at hhears
      exact Or.inl ⟨ht, ht', hhears.2.symm, addr, haddr, hhears.1⟩
    · rintro (⟨-, -, hport, addr, haddr, hmem⟩ | ⟨hros, -⟩)
      · refine ⟨_, send_rawUdp.mpr ⟨Int.natCast_nonneg fd, addr, haddr, rfl⟩, ?_⟩
        simpa [hears, CliConfig.rawUdp, hport] using hmem
      · rw [ht] at hros
        cases hros
  · constructor
    · rintro ⟨f, hsend, hhears⟩
      obtain ⟨-, addr, -, rfl⟩ := send_rawUdp.mp hsend
      cases hhears
    · rintro (⟨-, hraw, -⟩ | ⟨hros, -⟩)
      · rw [hraw] at ht'
        cases ht'
      · rw [ht] at hros
        cases hros
  · constructor
    · rintro ⟨f, hsend, hhears⟩
      obtain ⟨pub, -, rfl⟩ := send_ros2.mp hsend
      cases hhears
    · rintro (⟨hraw, -⟩ | ⟨-, hros, -⟩)
      · rw [hraw] at ht
        cases ht
      · rw [ht'] at hros
        cases hros
  · have htopic : myTopic c.role = peerTopic c'.role ↔ c.role ≠ c'.role := by
      cases c.role <;> cases c'.role <;> decide
    have hnotRaw : c.transport ≠ .rawUdp := fun hraw => by
      rw [hraw] at ht
      cases ht
    simp only [Reaches, ht, ht', hnotRaw, false_and, false_or, true_and, ← htopic, send, hpub,
      Option.map_some, Option.some.injEq, exists_eq_left', hears, hsub, Option.mem_def,
      decide_eq_true_eq, hkind, hkind']
    rw [and_comm, eq_comm]

/-- A program does not reach itself, unless its host is the peer on its own port. -/
lemma not_reaches_self (hports : c.localPort ≠ c.peerPort ∨
    ∀ addr ∈ inetPton c.peerIp, addr ∉ host.addrs) : ¬Reaches joins c c env host := by
  rintro (⟨-, -, hport, addr, haddr, hmem⟩ | ⟨-, -, hrole, -⟩)
  · rcases hports with hne | hforeign
    · exact hne hport.symm
    · exact hforeign addr haddr hmem
  · exact hrole rfl

end Tx

end CommBench
