import Mathlib.Data.Int.Notation
import CommBench.Lib.Trace

set_option relaxedAutoImplicit false
set_option autoImplicit false

/-!
# Starting and stopping the raw UDP transport

The model of the constructor, of `start` and of `stop` of `RawUdpTransport` (`raw_udp.hpp`,
`raw_udp.cpp`). Every system call and every assignment that another call can see is one step,
and `socket`, `bind` and the creation of the thread may each fail.

`start` does not test `running_`, which `stop` relies on. So the contract of `Transport`
(`transport.hpp`) holds as long as nobody calls `start` while `running_` is true, except at one
moment of `stop`: behind `sock_fd_ = -1` the thread of the closed socket may still be in its loop.

## Main definitions

* `CommBench.RawUdp` — the members of the transport, its open sockets and its receive threads.
* `CommBench.RawUdpEvent`, `CommBench.RawUdp.step` — the steps of the two calls.
* `CommBench.RawUdp.CallContract`, `CommBench.RawUdp.ThreadOnSocket`,
  `CommBench.RawUdp.Contract` — what the transport promises after a sequence of steps.
* `CommBench.RawUdp.Waiting` — `stop` waits for a thread whose socket it has closed.

## Main results

* `CommBench.rawUdp_contract` — in every run that starts the transport only while `running_` is
  false, the contract holds exactly while `stop` does not wait for the thread.
* `CommBench.rawUdp_restart` — a second `start` ends the process.

## Design

The options of a socket are those that `start` asks for, since their failure is ignored. The
receive thread shows only in that it exists from its creation until its loop ends, which it
does only when it finds `running_` false.
-/

namespace CommBench

open Trace

/-- `RawUdpTransport::Config`. -/
structure RawUdpConfig where
  peerIp : String
  localPort : UInt16 := 0
  peerPort : UInt16 := 0
  rtPriority : Int32 := 0
  rcvbufBytes : Int32 := 0
  sndbufBytes : Int32 := 0
  busyPoll : Bool := false

/-- The socket options that `start` sets, with their values. -/
inductive SocketOption
  | rcvbuf (bytes : Int32)
  | sndbuf (bytes : Int32)
  | busyPoll (us : Int32)
  | reuseAddr
  deriving DecidableEq

/-- The options that `start` sets for a configuration, in order. -/
def RawUdpConfig.socketOptions (cfg : RawUdpConfig) : List SocketOption :=
  (if 0 < cfg.rcvbufBytes then [.rcvbuf cfg.rcvbufBytes] else []) ++
    (if 0 < cfg.sndbufBytes then [.sndbuf cfg.sndbufBytes] else []) ++
    (if cfg.busyPoll then [.busyPoll 50] else []) ++ [.reuseAddr]

/-- An open socket: its descriptor, the options set on it and the port that it is bound to. -/
structure Socket where
  fd : ℤ
  options : List SocketOption
  port : Option UInt16
  deriving DecidableEq

/-- The exceptions of `start`, with the `errno` that their text reports. -/
inductive StartError
  | socket (errno : ℤ)
  | bind (errno : ℤ)
  | thread
  deriving DecidableEq

/-- The text of an exception; the one of the thread creation is the library's own. -/
def StartError.what (strerror : ℤ → String) (threadError : String) : StartError → String
  | .socket errno => "socket(): " ++ strerror errno
  | .bind errno => "bind(): " ++ strerror errno
  | .thread => threadError

/-- The next step of the thread that uses the transport. Between two calls it is `idle`. -/
inductive RawUdpPc
  | idle
  | socket
  | options
  | bind
  | thread
  | assign
  | sched
  | close
  | join
  | terminated
  deriving DecidableEq

/-- The state of the transport: the members `sock_fd_`, `running_` and `recv_thread_`, which is
`none` when it is not joinable and else holds the socket that the thread was started on, the
exception of the last `start`, the open sockets, and the threads whose loop has not ended. -/
structure RawUdp where
  pc : RawUdpPc
  sockFd : ℤ
  running : Bool
  recvThread : Option ℤ
  thrown : Option StartError
  sockets : List Socket
  threads : List ℤ
  deriving DecidableEq

/-- The steps of the calls. `loopEnds` is the end of the loop of the receive thread. -/
inductive RawUdpEvent
  | start
  | socket (result : Except ℤ ℕ)
  | options
  | bind (error : Option ℤ)
  | thread (created : Bool)
  | assign
  | sched (ok : Bool)
  | stop
  | close
  | loopEnds (fd : ℤ)
  | join

/-- The members as they are initialised. -/
def RawUdp.fresh : RawUdp := ⟨.idle, -1, false, none, none, [], []⟩

/-- The constructor, with the texts of its exceptions. -/
def RawUdpConfig.construct (cfg : RawUdpConfig) : Except String RawUdp :=
  if cfg.peerIp = "" then .error "RawUdp: peer_ip empty"
  else if cfg.localPort = 0 then .error "RawUdp: local_port 0"
  else if cfg.peerPort = 0 then .error "RawUdp: peer_port 0"
  else .ok .fresh

namespace RawUdp

/-- Carry out `f` on the socket with the descriptor `sock_fd_`. -/
def onSocket (s : RawUdp) (f : Socket → Socket) : RawUdp :=
  { s with sockets := s.sockets.map fun k => if k.fd = s.sockFd then f k else k }

/-- `::close(sock_fd_)` and the assignment behind it. -/
def closeSocket (s : RawUdp) : RawUdp :=
  { s with sockets := s.sockets.filter (·.fd ≠ s.sockFd), sockFd := -1 }

/-- End the call of `start` with an exception. -/
def throw (s : RawUdp) (e : StartError) : RawUdp := { s with pc := .idle, thrown := some e }

/-- One step of `start`, of `stop` or of the receive thread. -/
def step (cfg : RawUdpConfig) (s : RawUdp) : RawUdpEvent → Option RawUdp
  | .start => if s.pc = .idle then some { s with pc := .socket, thrown := none } else none
  | .socket (.error errno) =>
    if s.pc = .socket then some ({ s with sockFd := -1 }.throw (.socket errno)) else none
  | .socket (.ok fd) =>
    -- the kernel hands out a descriptor that is not in use
    if s.pc = .socket ∧ ∀ k ∈ s.sockets, k.fd ≠ fd then
      some { s with sockFd := fd, sockets := s.sockets ++ [⟨fd, [], none⟩], pc := .options }
    else none
  | .options =>
    if s.pc = .options then
      some { s.onSocket fun k => { k with options := cfg.socketOptions } with pc := .bind }
    else none
  | .bind (some errno) =>
    if s.pc = .bind then some (s.closeSocket.throw (.bind errno)) else none
  | .bind none =>
    if s.pc = .bind then
      some { s.onSocket fun k => { k with port := some cfg.localPort } with pc := .thread }
    else none
  | .thread created =>
    if s.pc = .thread then
      if created then
        some { s with running := true, threads := s.threads ++ [s.sockFd], pc := .assign }
      else some ({ s with running := true }.throw .thread)
    else none
  | .assign =>
    if s.pc = .assign then
      -- assigning to a joinable thread calls `std::terminate`
      if s.recvThread.isSome then some { s with pc := .terminated }
      else some { s with
        recvThread := some s.sockFd
        pc := if 0 < cfg.rtPriority then .sched else .idle }
    else none
  | .sched _ => if s.pc = .sched then some { s with pc := .idle } else none
  | .stop =>
    if s.pc = .idle then
      if s.running then some { s with running := false, pc := .close } else some s
    else none
  | .close =>
    if s.pc = .close then
      if 0 ≤ s.sockFd then some { s.closeSocket with pc := .join } else some { s with pc := .join }
    else none
  | .loopEnds fd =>
    if s.running = false ∧ fd ∈ s.threads then some { s with threads := s.threads.erase fd }
    else none
  | .join =>
    if s.pc = .join ∧ ∀ fd ∈ s.recvThread, fd ∉ s.threads then
      some { s with recvThread := none, pc := .idle }
    else none

/-- A `start` has returned, and no `stop` since. -/
def Started (s : RawUdp) : Prop :=
  s.pc = .idle ∧ s.running = true ∧ s.thrown = none

/-- What a call of `start` or `stop` may change. -/
def members (s : RawUdp) : ℤ × Bool × Option ℤ × List Socket × List ℤ :=
  (s.sockFd, s.running, s.recvThread, s.sockets, s.threads)

/-- What the calls promise after the steps `es`, which led from `s₀` to `s`: a `start` on a started
transport has changed nothing, at most one socket and one thread exist, `recv_thread_` was never
assigned while it was joinable, and a `stop` leaves nothing behind. Since this is asked of every
sequence of steps, it is asked at every moment. -/
structure CallContract (cfg : RawUdpConfig) (s₀ : RawUdp) (es : List RawUdpEvent) (s : RawUdp) :
    Prop where
  idempotent : ∀ t s₁, es[t]? = some .start → run (step cfg) s₀ (es.take t) = some s₁ →
    s₁.Started → (∀ e ∈ es.drop (t + 1), e ≠ .start ∧ e ≠ .stop) → s.members = s₁.members
  sockets : s.sockets.length ≤ 1
  threads : s.threads.length ≤ 1
  assigned : s.pc ≠ .terminated
  stopped : es.getLast? = some .stop ∨ es.getLast? = some .join → s.pc = .idle →
    s.sockets = [] ∧ s.threads = [] ∧ s.recvThread = none

/-- `sock_fd_` is the open socket that the receive thread was started on. -/
def ThreadOnSocket (s : RawUdp) : Prop :=
  ∀ fd ∈ s.threads, s.sockFd = fd ∧ ∃ k ∈ s.sockets, k.fd = fd

/-- The contract of `Transport` after the steps `es`, at every moment: what the calls promise, and
that a thread uses the socket of the transport. -/
structure Contract (cfg : RawUdpConfig) (s₀ : RawUdp) (es : List RawUdpEvent) (s : RawUdp) : Prop
    extends CallContract cfg s₀ es s where
  threadSocket : s.ThreadOnSocket

/-- `stop` has closed the socket, and the loop of the thread on it has not ended yet. -/
def Waiting (s : RawUdp) : Prop := s.pc = .join ∧ s.threads ≠ []

/-- Every `start` among the steps `es` from `s₀` is called while `running_` is false. -/
def StartsWhenDown (cfg : RawUdpConfig) (s₀ : RawUdp) (es : List RawUdpEvent) : Prop :=
  Guarded (step cfg) (fun s e => e = .start → s.running = false) s₀ es

/-! ## The states of a run -/

/-- The receive thread on the socket `fd` when `stop` runs: never created, in its loop, or behind
it. -/
def ThreadStates (fd : ℤ) : List (Option ℤ × List ℤ) :=
  [(none, []), (some fd, [fd]), (some fd, [])]

/-- The states of a transport that is started only while it is down. -/
inductive Disciplined (cfg : RawUdpConfig) : RawUdp → Prop
  | down (e : Option StartError) : Disciplined cfg ⟨.idle, -1, false, none, e, [], []⟩
  | socket : Disciplined cfg ⟨.socket, -1, false, none, none, [], []⟩
  | options (fd : ℕ) : Disciplined cfg ⟨.options, fd, false, none, none, [⟨fd, [], none⟩], []⟩
  | bind (fd : ℕ) :
    Disciplined cfg ⟨.bind, fd, false, none, none, [⟨fd, cfg.socketOptions, none⟩], []⟩
  | thread (fd : ℕ) : Disciplined cfg
      ⟨.thread, fd, false, none, none, [⟨fd, cfg.socketOptions, cfg.localPort⟩], []⟩
  | assign (fd : ℕ) : Disciplined cfg
      ⟨.assign, fd, true, none, none, [⟨fd, cfg.socketOptions, cfg.localPort⟩], [fd]⟩
  | sched (fd : ℕ) : Disciplined cfg
      ⟨.sched, fd, true, some fd, none, [⟨fd, cfg.socketOptions, cfg.localPort⟩], [fd]⟩
  | up (fd : ℕ) : Disciplined cfg
      ⟨.idle, fd, true, some fd, none, [⟨fd, cfg.socketOptions, cfg.localPort⟩], [fd]⟩
  | noThread (fd : ℕ) : Disciplined cfg
      ⟨.idle, fd, true, none, some .thread, [⟨fd, cfg.socketOptions, cfg.localPort⟩], []⟩
  | close (fd : ℕ) (e : Option StartError) (t : Option ℤ) (l : List ℤ)
      (ht : (t, l) ∈ ThreadStates fd) : Disciplined cfg
      ⟨.close, fd, false, t, e, [⟨fd, cfg.socketOptions, cfg.localPort⟩], l⟩
  | join (fd : ℕ) (e : Option StartError) (t : Option ℤ) (l : List ℤ)
      (ht : (t, l) ∈ ThreadStates fd) : Disciplined cfg ⟨.join, -1, false, t, e, [], l⟩

section Step

variable {cfg : RawUdpConfig} {s s' : RawUdp} {e : RawUdpEvent}

/-- When the loop of the thread ends, no thread is left. -/
lemma threadStates_loopEnds {fd fd' : ℤ} {t : Option ℤ} {l : List ℤ}
    (ht : (t, l) ∈ ThreadStates fd) (hmem : fd' ∈ l) : (t, l.erase fd') ∈ ThreadStates fd := by
  simp only [ThreadStates, List.mem_cons, Prod.mk.injEq, List.not_mem_nil, or_false] at ht ⊢
  rcases ht with ⟨rfl, rfl⟩ | ⟨rfl, rfl⟩ | ⟨rfl, rfl⟩
  · cases hmem
  · obtain rfl : fd' = fd := by simpa using hmem
    simp
  · cases hmem

/-- When the thread can be joined, no thread is left. -/
lemma threadStates_joined {fd : ℤ} {t : Option ℤ} {l : List ℤ} (ht : (t, l) ∈ ThreadStates fd)
    (hended : ∀ x ∈ t, x ∉ l) : l = [] := by
  simp only [ThreadStates, List.mem_cons, Prod.mk.injEq, List.not_mem_nil, or_false] at ht
  rcases ht with ⟨rfl, rfl⟩ | ⟨rfl, rfl⟩ | ⟨rfl, rfl⟩
  · rfl
  · exact absurd List.mem_cons_self (hended fd rfl)
  · rfl

/-- At most one thread exists while `stop` runs, on the socket of the transport. -/
lemma threadStates_length {fd : ℤ} {t : Option ℤ} {l : List ℤ} (ht : (t, l) ∈ ThreadStates fd) :
    l.length ≤ 1 := by
  simp only [ThreadStates, List.mem_cons, Prod.mk.injEq, List.not_mem_nil, or_false] at ht
  rcases ht with ⟨-, rfl⟩ | ⟨-, rfl⟩ | ⟨-, rfl⟩ <;> simp

/-- A thread that exists while `stop` runs is on the socket of the transport. -/
lemma threadStates_mem {fd x : ℤ} {t : Option ℤ} {l : List ℤ} (ht : (t, l) ∈ ThreadStates fd)
    (hx : x ∈ l) : x = fd := by
  simp only [ThreadStates, List.mem_cons, Prod.mk.injEq, List.not_mem_nil, or_false] at ht
  rcases ht with ⟨-, rfl⟩ | ⟨-, rfl⟩ | ⟨-, rfl⟩
  · cases hx
  · exact List.mem_singleton.mp hx
  · cases hx

/-- **One step** of a transport that is not started while it runs. The cases follow the state;
in each of them only the events of its next step are possible.

**Proof sketch.** Case analysis on the state. In each state the function `step` is evaluated on all
events; the ones that are possible lead to the state named by the constructor, and a `start` on a
running transport is excluded by the hypothesis. -/
theorem disciplined_step (hs : Disciplined cfg s) (h : s.step cfg e = some s')
    (hstart : e = .start → s.running = false) : Disciplined cfg s' := by
  cases hs with
  | down err =>
    rcases e with _ | (_ | _) | _ | (_ | _) | _ | _ | _ | _ | _ | _ | _ <;> simp [step] at h
    · exact h ▸ .socket
    · exact h ▸ .down err
  | socket =>
    rcases e with _ | (errno | fd) | _ | (_ | _) | _ | _ | _ | _ | _ | _ | _ <;>
      simp [step, throw] at h
    · exact h ▸ .down _
    · exact h ▸ .options fd
  | options fd =>
    rcases e with _ | (_ | _) | _ | (_ | _) | _ | _ | _ | _ | _ | _ | _ <;>
      simp [step, onSocket] at h
    exact h ▸ .bind fd
  | bind fd =>
    rcases e with _ | (_ | _) | _ | (_ | errno) | _ | _ | _ | _ | _ | _ | _ <;>
      simp [step, onSocket, closeSocket, throw] at h
    · exact h ▸ .thread fd
    · exact h ▸ .down _
  | thread fd =>
    rcases e with _ | (_ | _) | _ | (_ | _) | (_ | _) | _ | _ | _ | _ | _ | _ <;>
      simp [step, throw] at h
    · exact h ▸ .noThread fd
    · exact h ▸ .assign fd
  | assign fd =>
    rcases e with _ | (_ | _) | _ | (_ | _) | _ | _ | _ | _ | _ | _ | _ <;> simp [step] at h
    split_ifs at h
    · exact h ▸ .sched fd
    · exact h ▸ .up fd
  | sched fd =>
    rcases e with _ | (_ | _) | _ | (_ | _) | _ | _ | _ | _ | _ | _ | _ <;> simp [step] at h
    exact h ▸ .up fd
  | up fd =>
    rcases e with _ | (_ | _) | _ | (_ | _) | _ | _ | _ | _ | _ | _ | _ <;> simp [step] at h
    · cases hstart rfl
    · exact h ▸ .close fd none _ _ (by simp [ThreadStates])
  | noThread fd =>
    rcases e with _ | (_ | _) | _ | (_ | _) | _ | _ | _ | _ | _ | _ | _ <;> simp [step] at h
    · cases hstart rfl
    · exact h ▸ .close fd _ _ _ (by simp [ThreadStates])
  | close fd err th l ht =>
    rcases e with _ | (_ | _) | _ | (_ | _) | _ | _ | _ | _ | _ | fd' | _ <;>
      simp [step, closeSocket] at h
    · exact h ▸ .join fd err th l ht
    · exact h.2 ▸ .close fd err th _ (threadStates_loopEnds ht h.1)
  | join fd err th l ht =>
    rcases e with _ | (_ | _) | _ | (_ | _) | _ | _ | _ | _ | _ | fd' | _ <;> simp [step] at h
    · exact h.2 ▸ .join fd err th _ (threadStates_loopEnds ht h.1)
    · obtain ⟨hended, h⟩ := h
      obtain rfl : l = [] := threadStates_joined ht hended
      exact h ▸ .down err

/-- What remains after a call of `stop`.

**Proof sketch.** A `stop` on a transport that is down changes nothing, and otherwise the call is
over at the `join`, which needs all threads to have ended. -/
lemma disciplined_stopped (hs : Disciplined cfg s) (h : s.step cfg e = some s')
    (he : e = .stop ∨ e = .join) (hidle : s'.pc = .idle) :
    s'.sockets = [] ∧ s'.threads = [] ∧ s'.recvThread = none := by
  cases hs <;> rcases he with rfl | rfl <;> simp [step] at h
  case down err =>
    subst h
    exact ⟨rfl, rfl, rfl⟩
  case join fd err th l ht =>
    obtain ⟨hended, rfl⟩ := h
    exact ⟨rfl, threadStates_joined ht hended, rfl⟩
  all_goals
    subst h
    cases hidle

end Step

/-- A new transport is down. -/
lemma construct_disciplined {cfg : RawUdpConfig} {s₀ : RawUdp} (h : cfg.construct = .ok s₀) :
    Disciplined cfg s₀ := by
  unfold RawUdpConfig.construct at h
  split_ifs at h
  cases h
  exact .down none

section Run

variable {cfg : RawUdpConfig} {s₀ s : RawUdp} {es : List RawUdpEvent}

/-- **Every state of a disciplined run** is one of the listed ones. -/
theorem disciplined_run (hs₀ : Disciplined cfg s₀) (h : run (step cfg) s₀ es = some s)
    (hstarts : StartsWhenDown cfg s₀ es) : Disciplined cfg s :=
  run_guarded (Disciplined cfg) hs₀ (fun _ _ _ hs hstart h => disciplined_step hs h hstart)
    h hstarts

/-- **What the calls promise** holds in a disciplined run.

**Proof sketch.** No `start` of the run finds a started transport, so the first clause is about
no call. The states of the run are the listed ones, which have at most one socket and one thread.
A run that ends in `stop` or in `join` has a last step, which is one of `disciplined_stopped`. -/
lemma callContract_of_disciplined (hs₀ : Disciplined cfg s₀) (h : run (step cfg) s₀ es = some s)
    (hstarts : StartsWhenDown cfg s₀ es) : CallContract cfg s₀ es s := by
  have hs := disciplined_run hs₀ h hstarts
  constructor
  · intro t s₁ ht hs₁ hstarted
    have hdown := hstarts t s₁ .start ht hs₁ rfl
    rw [hstarted.2.1] at hdown
    cases hdown
  · cases hs <;> simp
  · cases hs with
    | close fd err th l ht | join fd err th l ht => exact threadStates_length ht
    | _ => simp
  · cases hs <;> simp
  · intro hlast hidle
    obtain ⟨e, he, hlast⟩ : ∃ e, (e = .stop ∨ e = .join) ∧ es.getLast? = some e := by
      rcases hlast with hlast | hlast
      · exact ⟨_, Or.inl rfl, hlast⟩
      · exact ⟨_, Or.inr rfl, hlast⟩
    obtain ⟨es', rfl⟩ := List.getLast?_eq_some_iff.mp hlast
    obtain ⟨s₁, hs₁, hstep⟩ := run_snoc_eq_some.mp h
    exact disciplined_stopped (disciplined_run hs₀ hs₁ hstarts.of_append) hstep he hidle

/-- **The thread is on the socket of the transport** except while `stop` waits for it.

**Proof sketch.** Where `stop` waits, `sock_fd_` is `-1`, while the descriptor of a thread is the
one that `socket` returned. In every other listed state with a thread, its descriptor is that of
the only socket. -/
lemma threadOnSocket_iff (hs : Disciplined cfg s) : s.ThreadOnSocket ↔ ¬s.Waiting := by
  constructor
  · rintro hsocket ⟨hpc, hthreads⟩
    obtain ⟨fd, hfd⟩ := List.exists_mem_of_ne_nil _ hthreads
    cases hs with
    | join => exact absurd (hsocket fd hfd).2 (by simp)
    | _ => cases hpc
  · intro hwaiting fd hfd
    cases hs with
    | close fd' err th l ht => simpa using (threadStates_mem ht hfd).symm
    | join => exact absurd ⟨rfl, List.ne_nil_of_mem hfd⟩ hwaiting
    | _ => simp_all

/-- A `start` on a running transport leaves it with two sockets once `socket` succeeds. -/
lemma two_sockets (hs : Disciplined cfg s) (hidle : s.pc = .idle) (hrun : s.running = true)
    {fd : ℕ} (hfd : ∀ k ∈ s.sockets, k.fd ≠ fd) :
    ∃ s', run (step cfg) s [.start, .socket (.ok fd)] = some s' ∧ s'.sockets.length = 2 := by
  have hone : s.sockets.length = 1 := by
    cases hs <;> first | cases hidle; done | cases hrun; done | rfl
  refine ⟨{ s with
    thrown := none, sockFd := fd, sockets := s.sockets ++ [⟨fd, [], none⟩], pc := .options },
    ?_, ?_⟩
  · simpa [run_cons, step, hidle] using hfd
  · simp [hone]

end Run

end RawUdp

open RawUdp

/-- In every run that calls `start` only while `running_` is false, what the calls promise holds at
the end, and so at every moment, and the contract holds exactly if `stop` is not waiting for a
thread whose socket it has closed. Any other call breaks it: where `running_` is true, a further
`start` whose `socket` succeeds leaves two sockets open.

**Proof sketch.** `disciplined_run` gives the state; `callContract_of_disciplined` and
`threadOnSocket_iff` are the two halves of the contract. The state before a further `start` has
one socket, and `socket` adds another (`two_sockets`). -/
theorem rawUdp_contract {cfg : RawUdpConfig} {s₀ s : RawUdp} {es : List RawUdpEvent}
    (hcfg : cfg.construct = .ok s₀) (h : run (RawUdp.step cfg) s₀ es = some s)
    (hstarts : StartsWhenDown cfg s₀ es) :
    CallContract cfg s₀ es s ∧ (Contract cfg s₀ es s ↔ ¬s.Waiting) ∧
      (s.pc = .idle → s.running = true → ∀ fd : ℕ, (∀ k ∈ s.sockets, k.fd ≠ fd) →
        ∃ s', run (RawUdp.step cfg) s₀ (es ++ [.start, .socket (.ok fd)]) = some s' ∧
          ¬Contract cfg s₀ (es ++ [.start, .socket (.ok fd)]) s') := by
  have hs₀ := construct_disciplined hcfg
  have hs := disciplined_run hs₀ h hstarts
  have hcalls := callContract_of_disciplined hs₀ h hstarts
  refine ⟨hcalls, ?_, ?_⟩
  · rw [← threadOnSocket_iff hs]
    exact ⟨fun hcontract => hcontract.threadSocket, fun hsocket => ⟨hcalls, hsocket⟩⟩
  · intro hidle hrun fd hfd
    obtain ⟨s', hs', hlen⟩ := two_sockets hs hidle hrun hfd
    refine ⟨s', run_append_eq_some.mpr ⟨s, h, hs'⟩, ?_⟩
    intro hcontract
    have hle := hcontract.sockets
    omega

/-- A configuration for the own host. -/
def loopback : RawUdpConfig := { peerIp := "127.0.0.1", localPort := 18000, peerPort := 18001 }

/-- The steps of a `start` in which everything succeeds, with the descriptor `fd`. -/
def startSteps (fd : ℕ) : List RawUdpEvent :=
  [.start, .socket (.ok fd), .options, .bind none, .thread true, .assign]

/-- A run whose first step is its only `start` starts the transport only while it is down. -/
lemma RawUdp.startsWhenDown_of_tail {cfg : RawUdpConfig} {s₀ : RawUdp} {es : List RawUdpEvent}
    (hs₀ : s₀.running = false) (htail : ∀ e ∈ es.tail, e ≠ .start) :
    StartsWhenDown cfg s₀ es := by
  rintro t s₁ e ht hs₁ rfl
  cases t with
  | zero =>
    cases hs₁
    exact hs₀
  | succ t =>
    refine absurd rfl (htail .start (List.mem_of_getElem? (i := t) ?_))
    rwa [List.getElem?_tail]

/-- A started transport keeps the contract, and loses it while its `stop` waits for the thread.

**Proof sketch.** Both runs start once, on a transport that is down. The first one ends outside
`stop`; the second one waits in `join` for the thread that still has its socket. -/
theorem rawUdp_contract_started : ∃ s₀ s s', loopback.construct = .ok s₀ ∧
    run (RawUdp.step loopback) s₀ (startSteps 3) = some s ∧ s.Started ∧
      Contract loopback s₀ (startSteps 3) s ∧
    run (RawUdp.step loopback) s₀ (startSteps 3 ++ [.stop, .close]) = some s' ∧
      ¬Contract loopback s₀ (startSteps 3 ++ [.stop, .close]) s' := by
  have hcfg : loopback.construct = .ok _ := rfl
  have hstarted : run (RawUdp.step loopback) .fresh (startSteps 3) = some _ := rfl
  have hstopping : run (RawUdp.step loopback) .fresh (startSteps 3 ++ [.stop, .close]) =
    some _ := rfl
  refine ⟨_, _, _, hcfg, hstarted, ⟨rfl, rfl, rfl⟩, ?_, hstopping, ?_⟩
  · refine (rawUdp_contract hcfg hstarted ?_).2.1.mpr ?_
    · exact startsWhenDown_of_tail rfl (by simp [startSteps])
    · rintro ⟨hpc, -⟩
      cases hpc
  · intro hcontract
    refine (rawUdp_contract hcfg hstopping ?_).2.1.mp hcontract ⟨rfl, ?_⟩
    · exact startsWhenDown_of_tail rfl (by simp [startSteps])
    · exact List.cons_ne_nil _ _

/-- A second `start` creates a second socket and a second thread, and ends the process. -/
theorem rawUdp_restart : ∃ s₀ s₁ s, loopback.construct = .ok s₀ ∧
    run (RawUdp.step loopback) s₀ (startSteps 3) = some s₁ ∧ s₁.Started ∧
      run (RawUdp.step loopback) s₀ (startSteps 3 ++ startSteps 4) = some s ∧
      s.pc = .terminated ∧ s.sockets.length = 2 ∧ s.threads.length = 2 ∧
      ¬Contract loopback s₀ (startSteps 3 ++ startSteps 4) s := by
  refine ⟨_, _, _, rfl, rfl, ⟨rfl, rfl, rfl⟩, rfl, rfl, rfl, rfl, ?_⟩
  intro hcontract
  exact hcontract.assigned rfl

end CommBench
