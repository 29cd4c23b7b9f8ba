import CommBench.Cli.Reading

set_option relaxedAutoImplicit false
set_option autoImplicit false

/-!
# Ports and endpoints of the two sides

What an accepted command line fixes about the other side: the ports that the raw UDP transport
uses by default, and the address that the selected transport sends to.

The default ports belong to the role that the command line asks for, while the two binaries
overwrite the role afterwards. The checks for a missing `--peer-ip` test whether the address is
empty, which it is not by default.

## Main definitions

* `CommBench.NoPorts` — the command line leaves both ports to their defaults.
* `CommBench.EndpointGiven` — the command line gives the address that its transport needs.
* `CommBench.MissesPeerIp` — the command line leaves the address to its default, or empty.

## Main results

* `CommBench.ports_mirror_iff` — the default ports of the two sides fit together if and only if
  the command lines ask for different roles.
* `CommBench.parseCli_endpoint` — an accepted command line gives its endpoint if and only if it
  does not miss the peer address.
-/

namespace CommBench

open Fallible

/-- The command line gives neither `--local-port` nor `--peer-port`. -/
def NoPorts (argv : List String) : Prop :=
  flagValues .localPort argv = [] ∧ flagValues .peerPort argv = []

/-- The flag for the endpoint of a transport. -/
def endpointFlag : TransportKind → Option ValueFlag
  | .rawUdp | .zenohP2p | .ddsUnicast => some .peerIp
  | .zenohRouter => some .routerIp
  | .ros2Be | .ros2Mte => none

/-- The flag for the endpoint of the transport `t` occurs, and its last value is not empty. -/
def EndpointGiven (argv : List String) (t : TransportKind) : Prop :=
  ∀ f ∈ endpointFlag t, ∃ v, lastValue f argv = some v ∧ v ≠ ""

/-- The selected transport needs a peer address and no `--peer-ip` occurs, or the transport is
`raw_udp` and the last `--peer-ip` is empty. -/
def MissesPeerIp (argv : List String) : Prop :=
  (selectedTransport argv).bind endpointFlag = some .peerIp ∧ flagValues .peerIp argv = [] ∨
    selectedTransport argv = some .rawUdp ∧ lastValue .peerIp argv = some ""

/-- A flag has no last value exactly when it does not occur. -/
lemma lastValue_eq_none {f : ValueFlag} {argv : List String} :
    lastValue f argv = none ↔ flagValues f argv = [] := List.getLast?_eq_none_iff

/-! ## What the configuration says about the command line -/

/-- The default ports leave the transport alone. -/
@[simp] lemma defaultPorts_transport (c : CliConfig) :
    (defaultPorts c).transport = c.transport := by
  unfold defaultPorts
  split
  · cases c.role <;> rfl
  · rfl

/-- The checks pass exactly when a transport was selected and the address that it needs is not
empty.

**Proof sketch.** The checks are tested one after the other. -/
lemma check_eq_ok {st : ParseState} {c : CliConfig} :
    check st = .ok c ↔ st.transportSet = true ∧
      ¬(st.transport = .zenohP2p ∧ st.peerIp = "") ∧
      ¬(st.transport = .zenohRouter ∧ st.routerIp = "") ∧
      ¬(st.transport = .ddsUnicast ∧ st.peerIp = "") ∧ st.toCliConfig = c := by
  unfold check
  cases st.transportSet
  · simp
  · by_cases h₁ : st.transport = .zenohP2p ∧ st.peerIp = ""
    · simp [h₁]
    by_cases h₂ : st.transport = .zenohRouter ∧ st.routerIp = ""
    · simp [h₂]
    by_cases h₃ : st.transport = .ddsUnicast ∧ st.peerIp = ""
    · simp [h₃]
    simp [h₁, h₂, h₃]

/-- An accepted command line runs through the flag loop and the checks. -/
lemma parseCli_eq_ok {conv : Conversions} {argv : List String} {c : CliConfig} :
    parseCli conv argv = .ok c ↔ ∃ st, parseArgs conv (initialState argv.head?) argv.tail = .ok st ∧
      check st = .ok st.toCliConfig ∧ defaultPorts st.toCliConfig = c := by
  rw [parseCli, map_eq_ok]
  constructor
  · rintro ⟨c', h, rfl⟩
    obtain ⟨st, hst, hc⟩ := bind_eq_ok.mp h
    obtain ⟨-, -, -, -, rfl⟩ := check_eq_ok.mp hc
    exact ⟨st, hst, hc, rfl⟩
  · rintro ⟨st, hst, hc, rfl⟩
    exact ⟨st.toCliConfig, bind_eq_ok.mpr ⟨st, hst, hc⟩, rfl⟩

section Accepted

variable {conv : Conversions} {argv : List String} {st : ParseState}

/-- The result of a comparison chain is the value that it found. -/
lemma orThrow_eq_ok {α : Type} {x : Option α} {what : String} {a : α} :
    orThrow x what = .ok a ↔ x = some a := by
  cases x with
  | none => simp [orThrow]
  | some b => simp [orThrow]

/-- The transport of the loop is the selected one, if one was.

**Proof sketch.** A transport was set only if `--transport` occurs (`parseArgs_transportSet`), and
its last value was then converted to the member (`parseArgs_field`). -/
lemma selectedTransport_eq (h : parseArgs conv (initialState argv.head?) argv.tail = .ok st)
    (hset : st.transportSet = true) : selectedTransport argv = some st.transport := by
  have hfield := parseArgs_field .transport h
  have hocc := parseArgs_transportSet h
  rw [hset] at hocc
  unfold selectedTransport
  cases hv : lastValue .transport argv with
  | none =>
    rw [hv] at hocc
    cases hocc
  | some v =>
    rw [hv] at hfield
    exact orThrow_eq_ok.mp hfield.symm

/-- The role of the loop is the one that the command line asks for. -/
lemma requestedRole_eq (h : parseArgs conv (initialState argv.head?) argv.tail = .ok st) :
    requestedRole argv = some st.role := by
  have hfield := parseArgs_field .role h
  unfold requestedRole
  cases hv : lastValue .role argv with
  | none =>
    rw [hv] at hfield
    exact congrArg some (Except.ok.inj hfield).symm
  | some v =>
    rw [hv] at hfield
    exact orThrow_eq_ok.mp hfield.symm

/-- The peer address of the loop is the last one given, or the default. -/
lemma peerIp_eq (h : parseArgs conv (initialState argv.head?) argv.tail = .ok st) :
    st.peerIp = (lastValue .peerIp argv).getD "127.0.0.1" := by
  have hfield : st.peerIp = ((lastValue .peerIp argv).map fun v => v).getD "127.0.0.1" :=
    parseArgs_field_of_ok .peerIp (fun _ => rfl) h
  rwa [Option.map_id'] at hfield

/-- The router address of the loop is the last one given, or empty. -/
lemma routerIp_eq (h : parseArgs conv (initialState argv.head?) argv.tail = .ok st) :
    st.routerIp = (lastValue .routerIp argv).getD "" := by
  have hfield : st.routerIp = ((lastValue .routerIp argv).map fun v => v).getD "" :=
    parseArgs_field_of_ok .routerIp (fun _ => rfl) h
  rwa [Option.map_id'] at hfield

/-- Ports that are not given are still zero behind the loop. -/
lemma ports_eq_zero (h : parseArgs conv (initialState argv.head?) argv.tail = .ok st)
    (hports : NoPorts argv) : st.localPort = 0 ∧ st.peerPort = 0 := by
  have hlocal := parseArgs_field .localPort h
  have hpeer := parseArgs_field .peerPort h
  rw [lastValue_eq_none.mpr hports.1] at hlocal
  rw [lastValue_eq_none.mpr hports.2] at hpeer
  exact ⟨Except.ok.inj hlocal, Except.ok.inj hpeer⟩

end Accepted

/-! ## The default ports -/

/-- The ports that a role has by default: its own and the one of its peer. -/
def rolePorts : Role → UInt16 × UInt16
  | .a => (18000, 18001)
  | .b => (18001, 18000)

/-- Two roles have fitting ports exactly when they differ. -/
lemma rolePorts_mirror (r r' : Role) :
    (rolePorts r).1 = (rolePorts r').2 ∧ (rolePorts r).2 = (rolePorts r').1 ↔ r ≠ r' := by
  cases r <;> cases r' <;> decide

/-- An accepted raw UDP command line without ports gets the ports of the role it asks for.

**Proof sketch.** No port flag occurs, so both ports are zero behind the loop (`ports_eq_zero`), and
the default ports replace them by those of the role. -/
lemma parseCli_ports {conv : Conversions} {argv : List String} {c : CliConfig}
    (h : parseCli conv argv = .ok c) (ht : selectedTransport argv = some .rawUdp)
    (hports : NoPorts argv) :
    ∃ r, requestedRole argv = some r ∧ (c.localPort, c.peerPort) = rolePorts r := by
  obtain ⟨st, hst, hcheck, rfl⟩ := parseCli_eq_ok.mp h
  refine ⟨st.role, requestedRole_eq hst, ?_⟩
  obtain ⟨hlocal, hpeer⟩ := ports_eq_zero hst hports
  have htransport : st.transport = .rawUdp := by
    rw [selectedTransport_eq hst (check_eq_ok.mp hcheck).1] at ht
    exact Option.some.inj ht
  cases hr : st.role with
  | a => simp [defaultPorts, htransport, hr, hlocal, hpeer, rolePorts]
  | b => simp [defaultPorts, htransport, hr, hlocal, hpeer, rolePorts]

/-- **The default ports fit together exactly when the roles differ.** For two accepted command
lines that select `raw_udp` and give no port, the configurations that the binaries pass to `run`
mirror each other if and only if the command lines ask for different roles.

**Proof sketch.** Both configurations have the default ports of the role that their command line
asks for (`parseCli_ports`); what main assigns to the role does not touch them. The ports of two
roles mirror each other exactly if the roles differ (`rolePorts_mirror`). -/
theorem ports_mirror_iff {conv : Conversions} {argvA argvB : List String} {cA cB : CliConfig}
    (hA : benchAConfig conv argvA = .ok cA) (hB : benchBConfig conv argvB = .ok cB)
    (htA : selectedTransport argvA = some .rawUdp) (htB : selectedTransport argvB = some .rawUdp)
    (hpA : NoPorts argvA) (hpB : NoPorts argvB) :
    cA.localPort = cB.peerPort ∧ cA.peerPort = cB.localPort ↔
      requestedRole argvA ≠ requestedRole argvB := by
  -- the role that the binary pins afterwards does not touch the ports
  obtain ⟨c, hc, rfl⟩ := map_eq_ok.mp hA
  obtain ⟨d, hd, rfl⟩ := map_eq_ok.mp hB
  obtain ⟨r, hr, hcr⟩ := parseCli_ports hc htA hpA
  obtain ⟨r', hr', hdr⟩ := parseCli_ports hd htB hpB
  have hmirror := rolePorts_mirror r r'
  rw [← hcr, ← hdr] at hmirror
  rw [hr, hr', Ne, Option.some.injEq]
  exact hmirror

/-- Conversions for command lines without numbers, which never call them. -/
def noNumbers : Conversions where
  stod _ := .error .invalidArgument
  stoi _ := .error .invalidArgument

/-- The two binaries on the same arguments, each under its own name. -/
theorem ports_mirror_plain :
    ∃ cA cB, benchAConfig noNumbers ["bench_a", "--transport", "raw_udp"] = .ok cA ∧
      benchBConfig noNumbers ["bench_b", "--transport", "raw_udp"] = .ok cB ∧
      cA.localPort = cB.peerPort ∧ cA.peerPort = cB.localPort := by
  have hA : benchAConfig noNumbers ["bench_a", "--transport", "raw_udp"] = .ok _ := rfl
  have hB : benchBConfig noNumbers ["bench_b", "--transport", "raw_udp"] = .ok _ := rfl
  refine ⟨_, _, hA, hB, ?_⟩
  apply (ports_mirror_iff hA hB (by decide) (by decide) ⟨by decide, by decide⟩
    ⟨by decide, by decide⟩).mpr
  decide

/-- With `--role b` given to `bench_a`, both sides bind port 18001 and send to port 18000. -/
theorem ports_clash :
    ∃ cA cB, benchAConfig noNumbers ["bench_a", "--role", "b", "--transport", "raw_udp"] = .ok cA ∧
      benchBConfig noNumbers ["bench_b", "--transport", "raw_udp"] = .ok cB ∧
      NoPorts ["bench_a", "--role", "b", "--transport", "raw_udp"] ∧
      NoPorts ["bench_b", "--transport", "raw_udp"] ∧
      cA.transport = .rawUdp ∧ cB.transport = .rawUdp ∧
      cA.localPort ≠ cB.peerPort ∧ cA.localPort = cB.localPort := by
  refine ⟨_, _, rfl, rfl, ⟨by decide, by decide⟩, ⟨by decide, by decide⟩, rfl, rfl, ?_, rfl⟩
  decide

/-! ## The endpoint -/

/-- An accepted command line gives the endpoint of its transport exactly when it does not miss
the peer address: the check for the router address does its work, and a peer address that is
given is checked for `zenoh_p2p` and `dds_unicast`.

**Proof sketch.** One case for each transport. The checks compare the value of the member with the
empty text, and this is the last value of the flag, or the default of the struct: not empty for the
peer address, and empty for the router address. -/
lemma endpointGiven_iff {conv : Conversions} {argv : List String} {c : CliConfig}
    (h : parseCli conv argv = .ok c) :
    EndpointGiven argv c.transport ↔ ¬MissesPeerIp argv := by
  obtain ⟨st, hst, hcheck, rfl⟩ := parseCli_eq_ok.mp h
  obtain ⟨hset, hp2p, hrouter, hdds, -⟩ := check_eq_ok.mp hcheck
  have hsel := selectedTransport_eq hst hset
  rw [peerIp_eq hst] at hp2p hdds
  rw [routerIp_eq hst] at hrouter
  rw [defaultPorts_transport]
  unfold EndpointGiven MissesPeerIp
  rw [hsel, ← lastValue_eq_none]
  cases ht : st.transport with
  | ros2Be => simp [endpointFlag]
  | ros2Mte => simp [endpointFlag]
  | rawUdp => cases hv : lastValue .peerIp argv <;> simp [endpointFlag, hv]
  | zenohP2p => cases hv : lastValue .peerIp argv <;> simp_all [endpointFlag]
  | zenohRouter => cases hv : lastValue .routerIp argv <;> simp_all [endpointFlag]
  | ddsUnicast => cases hv : lastValue .peerIp argv <;> simp_all [endpointFlag]

/-- No branch for a value flag exits.

**Proof sketch.** Each branch converts its value with one of four functions, none of which exits. -/
lemma convert_ne_exit (conv : Conversions) (f : ValueFlag) (v : String) (k : ℤ) :
    convert conv f v ≠ .error (.exit k) := by
  have horThrow {α : Type} (x : Option α) (what : String) : orThrow x what ≠ .error (.exit k) := by
    cases x <;> simp [orThrow]
  have hdouble : conv.toDouble v ≠ .error (.exit k) := by
    unfold Conversions.toDouble
    cases conv.stod v <;> simp [Except.mapError]
  have hint : conv.toInt v ≠ .error (.exit k) := by
    unfold Conversions.toInt
    cases conv.stoi v <;> simp [Except.mapError]
  cases f with
  | role | transport => exact horThrow _ _
  | rateHz | durationSec => exact hdouble
  | csv | peerIp | routerIp => exact fun h => by cases h
  | localPort | peerPort | zenohPort => exact fun h => hint (map_eq_error.mp h)
  | rtPriority | rcvbuf | sndbuf | numThreads => exact hint

/-- `parse_cli` exits only at a `-h` or `--help`.

**Proof sketch.** The checks do not exit, so a group has let the loop exit (`foldlM_error`). Of all
groups only the one for help does. -/
lemma help_of_exit {conv : Conversions} {argv : List String} {k : ℤ}
    (h : parseCli conv argv = .error (.exit k)) : .help ∈ groups argv.tail := by
  rcases bind_eq_error.mp (map_eq_error.mp h) with hloop | ⟨st, -, hcheck⟩
  · rw [parseArgs_eq_foldlM] at hloop
    obtain ⟨g, hg, st, hst⟩ := foldlM_error hloop
    cases g with
    | help => exact hg
    | value f v => exact absurd (map_eq_error.mp hst) (convert_ne_exit conv f v k)
    | missing a => cases hst
    | busyPoll => cases hst
    | unknown a => cases hst
    | other a => cases hst
  · unfold check at hcheck
    split_ifs at hcheck <;> cases hcheck

/-- **When the endpoint was given.** An accepted command line gives the endpoint that its
transport needs if and only if it does not miss the peer address; a command line that is not
accepted ends with an exception, unless it asks for help.

**Proof sketch.** The first part is `endpointGiven_iff`. For the second one, only a help flag makes
the parser exit, by `help_of_exit`. -/
theorem parseCli_endpoint (conv : Conversions) (argv : List String) :
    (∀ c, parseCli conv argv = .ok c →
      (EndpointGiven argv c.transport ↔ ¬MissesPeerIp argv)) ∧
    ∀ k, parseCli conv argv = .error (.exit k) → .help ∈ groups argv.tail :=
  ⟨fun _ h => endpointGiven_iff h, fun _ h => help_of_exit h⟩

/-- An accepted command line for `zenoh_p2p` that gives its peer address. -/
theorem parseCli_endpoint_p2p :
    ∃ c, parseCli noNumbers
        ["bench_a", "--transport", "zenoh_p2p", "--peer-ip", "10.42.2.110"] = .ok c ∧
      EndpointGiven ["bench_a", "--transport", "zenoh_p2p", "--peer-ip", "10.42.2.110"]
        c.transport := by
  refine ⟨_, rfl, ?_⟩
  refine ((parseCli_endpoint noNumbers _).1 _ rfl).mpr ?_
  unfold MissesPeerIp
  decide

/-- Without `--peer-ip`, `zenoh_p2p` is accepted with the address of the own host. -/
theorem parseCli_no_endpoint :
    ∃ c, parseCli noNumbers ["bench_a", "--transport", "zenoh_p2p"] = .ok c ∧
      c.transport = .zenohP2p ∧ c.peerIp = "127.0.0.1" ∧
      ¬EndpointGiven ["bench_a", "--transport", "zenoh_p2p"] c.transport := by
  refine ⟨_, rfl, rfl, rfl, fun h => ?_⟩
  obtain ⟨v, hv, -⟩ := h .peerIp rfl
  have hnone : lastValue .peerIp ["bench_a", "--transport", "zenoh_p2p"] = none := by decide
  rw [hnone] at hv
  cases hv

end CommBench
