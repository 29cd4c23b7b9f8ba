import Mathlib.Data.Rat.Init
import Mathlib.Data.List.Infix
import Mathlib.Tactic.Common

set_option relaxedAutoImplicit false
set_option autoImplicit false

/-!
# The command line

The model of `parse_cli` (`cli.hpp`, `cli.cpp`) and of what the two `main` functions
(`bench_a_main.cpp`, `bench_b_main.cpp`) make of its result. The flag loop walks over the
tokens after `argv[0]`, and a value flag takes the token behind it, whatever it is.

## Main definitions

* `CommBench.CliConfig` — the configuration with its default values.
* `CommBench.parseArgs` — the flag loop.
* `CommBench.parseCli` — the loop, the checks behind it and the default ports.
* `CommBench.benchAConfig`, `CommBench.benchBConfig` — the configuration that the `main` of
  either binary passes to `run`.

## Design

The number conversions of the C++ library are parameters, partial functions on strings. The
usage text that is printed before some errors is left out.
-/

namespace CommBench

/-- `Role`. -/
inductive Role
  | a
  | b
  deriving DecidableEq

/-- `TransportKind`. -/
inductive TransportKind
  | ros2Be
  | ros2Mte
  | rawUdp
  | zenohP2p
  | zenohRouter
  | ddsUnicast
  deriving DecidableEq

/-- The value of a `double` that `std::stod` returns. -/
inductive DoubleValue
  | finite (x : ℚ)
  | posInf
  | negInf
  | nan
  deriving DecidableEq

/-- `CliConfig`. -/
structure CliConfig where
  role : Role := .a
  transport : TransportKind := .ros2Be
  rateHz : DoubleValue := .finite 500
  durationSec : DoubleValue := .finite 120
  csvPath : String := "bench.csv"
  peerIp : String := "127.0.0.1"
  localPort : UInt16 := 0
  peerPort : UInt16 := 0
  rcvbufBytes : Int32 := 0
  sndbufBytes : Int32 := 0
  busyPoll : Bool := false
  numThreads : Int32 := 2
  zenohPort : UInt16 := 7447
  routerIp : String := ""
  rtPriority : Int32 := 0
  deriving DecidableEq

/-- The exceptions of the number conversions. -/
inductive ConvError
  | invalidArgument
  | outOfRange
  deriving DecidableEq

/-- `std::stod` and `std::stoi`. -/
structure Conversions where
  stod : String → Except ConvError DoubleValue
  stoi : String → Except ConvError Int32

/-- How `parse_cli` ends without a configuration: a `std::runtime_error` with its text, the
exception of a number conversion, or `std::exit`. -/
inductive Halt
  | runtimeError (what : String)
  | conversion (e : ConvError)
  | exit (status : ℤ)
  deriving DecidableEq

/-- The flags that take a value. -/
inductive ValueFlag
  | role
  | transport
  | rateHz
  | durationSec
  | csv
  | rtPriority
  | peerIp
  | localPort
  | peerPort
  | rcvbuf
  | sndbuf
  | numThreads
  | zenohPort
  | routerIp
  deriving DecidableEq

/-- The kinds of token that the flag loop tells apart. -/
inductive Token
  | value (f : ValueFlag)
  | busyPoll
  | help
  | unknown
  | other
  deriving DecidableEq

/-- `starts_with`. -/
def startsWith (s p : String) : Bool := p.toList.isPrefixOf s.toList

/-- The comparisons of the flag loop, in the order of the source. -/
def tokenOf (a : String) : Token :=
  if a = "--role" then .value .role
  else if a = "--transport" then .value .transport
  else if a = "--rate-hz" then .value .rateHz
  else if a = "--duration-sec" then .value .durationSec
  else if a = "--csv" then .value .csv
  else if a = "--rt-priority" then .value .rtPriority
  else if a = "--peer-ip" then .value .peerIp
  else if a = "--local-port" then .value .localPort
  else if a = "--peer-port" then .value .peerPort
  else if a = "--rcvbuf" then .value .rcvbuf
  else if a = "--sndbuf" then .value .sndbuf
  else if a = "--busy-poll" then .busyPoll
  else if a = "--num-threads" then .value .numThreads
  else if a = "--zenoh-port" then .value .zenohPort
  else if a = "--router-ip" then .value .routerIp
  else if a = "-h" ∨ a = "--help" then .help
  else if startsWith a "--" then .unknown
  else .other

/-- The comparisons of `--transport` with its values. -/
def transportOf (v : String) : Option TransportKind :=
  if v = "ros2_be" then some .ros2Be
  else if v = "ros2_mte" then some .ros2Mte
  else if v = "raw_udp" then some .rawUdp
  else if v = "zenoh_p2p" then some .zenohP2p
  else if v = "zenoh_router" then some .zenohRouter
  else if v = "dds_unicast" then some .ddsUnicast
  else none

/-- The comparisons of `--role` with its values. -/
def roleOf (v : String) : Option Role :=
  if v = "a" then some .a else if v = "b" then some .b else none

/-- `static_cast<uint16_t>` of an `int`. -/
def toPort (x : Int32) : UInt16 := x.toUInt32.toUInt16

/-- The variables of `parse_cli` that the flag loop changes. -/
structure ParseState extends CliConfig where
  transportSet : Bool

/-- The type of the field that a flag sets. -/
def ValueFlag.Field : ValueFlag → Type
  | .role => Role
  | .transport => TransportKind
  | .rateHz | .durationSec => DoubleValue
  | .csv | .peerIp | .routerIp => String
  | .localPort | .peerPort | .zenohPort => UInt16
  | .rtPriority | .rcvbuf | .sndbuf | .numThreads => Int32

/-- The field `f` of the configuration. -/
def ParseState.field (st : ParseState) : (f : ValueFlag) → f.Field
  | .role => st.role
  | .transport => st.transport
  | .rateHz => st.rateHz
  | .durationSec => st.durationSec
  | .csv => st.csvPath
  | .rtPriority => st.rtPriority
  | .peerIp => st.peerIp
  | .localPort => st.localPort
  | .peerPort => st.peerPort
  | .rcvbuf => st.rcvbufBytes
  | .sndbuf => st.sndbufBytes
  | .numThreads => st.numThreads
  | .zenohPort => st.zenohPort
  | .routerIp => st.routerIp

/-- The assignment in the branch of the flag `f`. -/
def ParseState.assign (st : ParseState) : (f : ValueFlag) → f.Field → ParseState
  | .role, x => { st with role := x }
  | .transport, x => { st with transport := x, transportSet := true }
  | .rateHz, x => { st with rateHz := x }
  | .durationSec, x => { st with durationSec := x }
  | .csv, x => { st with csvPath := x }
  | .rtPriority, x => { st with rtPriority := x }
  | .peerIp, x => { st with peerIp := x }
  | .localPort, x => { st with localPort := x }
  | .peerPort, x => { st with peerPort := x }
  | .rcvbuf, x => { st with rcvbufBytes := x }
  | .sndbuf, x => { st with sndbufBytes := x }
  | .numThreads, x => { st with numThreads := x }
  | .zenohPort, x => { st with zenohPort := x }
  | .routerIp, x => { st with routerIp := x }

/-- The value of a comparison chain, or a `std::runtime_error`. -/
def orThrow {α : Type} (x : Option α) (what : String) : Except Halt α :=
  x.elim (.error (.runtimeError what)) .ok

section Loop

variable (conv : Conversions)

/-- `std::stod` with its exception. -/
def Conversions.toDouble (v : String) : Except Halt DoubleValue :=
  (conv.stod v).mapError .conversion

/-- `std::stoi` with its exception. -/
def Conversions.toInt (v : String) : Except Halt Int32 :=
  (conv.stoi v).mapError .conversion

/-- The conversion of the value in the branch of the flag `f`. -/
def convert : (f : ValueFlag) → String → Except Halt f.Field
  | .role, v => orThrow (roleOf v) "--role must be 'a' or 'b'"
  | .transport, v => orThrow (transportOf v) ("unknown transport: " ++ v)
  | .rateHz, v | .durationSec, v => conv.toDouble v
  | .csv, v | .peerIp, v | .routerIp, v => .ok v
  | .localPort, v | .peerPort, v | .zenohPort, v => (conv.toInt v).map toPort
  | .rtPriority, v | .rcvbuf, v | .sndbuf, v | .numThreads, v => conv.toInt v

/-- The branch of the flag loop for a value flag, once it has taken its value. -/
def store (st : ParseState) (f : ValueFlag) (v : String) : Except Halt ParseState :=
  (convert conv f v).map (st.assign f)

/-- The flag loop of `parse_cli` on the tokens from the loop index on. -/
def parseArgs (st : ParseState) : List String → Except Halt ParseState
  | [] => .ok st
  | a :: rest =>
    match tokenOf a with
    | .value f =>
      match rest with
      -- `need(1)` finds that the index would leave `argv`
      | [] => .error (.runtimeError ("missing value for " ++ a))
      | v :: rest => (store conv st f v).bind fun st => parseArgs st rest
    | .busyPoll => parseArgs { st with busyPoll := true } rest
    | .help => .error (.exit 0)
    | .unknown => .error (.runtimeError ("unknown flag: " ++ a))
    | .other => parseArgs st rest

end Loop

/-- The part of a path behind its last slash, as `std::strrchr` finds it. -/
def basename (path : List Char) : List Char := (path.reverse.takeWhile (· ≠ '/')).reverse

/-- The default role from `argv[0]`, where `std::strstr` looks for `bench_b`. -/
def roleOfProgram : Option String → Role
  | some prog => if "bench_b".toList <:+: basename prog.toList then .b else .a
  | none => .a

/-- The checks behind the flag loop. -/
def check (st : ParseState) : Except Halt CliConfig :=
  if !st.transportSet then
    .error (.runtimeError "--transport is required")
  else if st.transport = .zenohP2p ∧ st.peerIp = "" then
    .error (.runtimeError "--peer-ip is required for zenoh_p2p")
  else if st.transport = .zenohRouter ∧ st.routerIp = "" then
    .error (.runtimeError "--router-ip is required for zenoh_router (host running rmw_zenohd)")
  else if st.transport = .ddsUnicast ∧ st.peerIp = "" then
    .error (.runtimeError
      "--peer-ip is required for dds_unicast (peer's IP for initialPeersList)")
  else
    .ok st.toCliConfig

/-- The default ports: A binds 18000 and sends to 18001, B the other way round. -/
def defaultPorts (c : CliConfig) : CliConfig :=
  let orElse (port default : UInt16) : UInt16 := if port = 0 then default else port
  if c.transport = .rawUdp then
    match c.role with
    | .a => { c with localPort := orElse c.localPort 18000, peerPort := orElse c.peerPort 18001 }
    | .b => { c with localPort := orElse c.localPort 18001, peerPort := orElse c.peerPort 18000 }
  else c

/-- The configuration before the flag loop. -/
def initialState (prog : Option String) : ParseState :=
  { role := roleOfProgram prog, transportSet := false }

/-- `parse_cli`. -/
def parseCli (conv : Conversions) (argv : List String) : Except Halt CliConfig :=
  ((parseArgs conv (initialState argv.head?) argv.tail).bind check).map defaultPorts

/-- The configuration that the `main` of `bench_a` passes to `run`. -/
def benchAConfig (conv : Conversions) (argv : List String) : Except Halt CliConfig :=
  (parseCli conv argv).map fun c => { c with role := .a }

/-- The configuration that the `main` of `bench_b` passes to `run`. -/
def benchBConfig (conv : Conversions) (argv : List String) : Except Halt CliConfig :=
  (parseCli conv argv).map fun c => { c with role := .b }

end CommBench
