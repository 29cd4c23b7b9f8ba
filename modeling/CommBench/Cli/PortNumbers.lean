import CommBench.Cli.Numerals

set_option relaxedAutoImplicit false
set_option autoImplicit false

/-!
# Port numbers on the command line

The three port flags convert their value to an `int` and keep its last 16 bits, and the default
ports take a zero port for one that is not given. So a given port is used as it is exactly when
it is a port number that no default replaces.

## Main definitions

* `CommBench.PortFlag` — the flags that set a port.
* `CommBench.UsablePort` — the numbers that are used as they are given.

## Main results

* `CommBench.parseCli_port_iff` — when the port of an accepted command line is the number given.
-/

namespace CommBench

open Fallible

/-- The flags that set a port. -/
inductive PortFlag
  | localPort
  | peerPort
  | zenohPort
  deriving DecidableEq

/-- The flag itself. -/
def PortFlag.flag : PortFlag → ValueFlag
  | .localPort => .localPort
  | .peerPort => .peerPort
  | .zenohPort => .zenohPort

/-- The port in the configuration. -/
def CliConfig.port (c : CliConfig) : PortFlag → UInt16
  | .localPort => c.localPort
  | .peerPort => c.peerPort
  | .zenohPort => c.zenohPort

/-- A port number that no default replaces: a local or peer port of `raw_udp` is not zero. -/
def UsablePort (argv : List String) (p : PortFlag) (x : Int32) : Prop :=
  0 ≤ x.toInt ∧ x.toInt < 2 ^ 16 ∧
    ¬(x = 0 ∧ selectedTransport argv = some .rawUdp ∧ p ≠ .zenohPort)

/-- The narrowing keeps exactly the port numbers. -/
lemma toNat_toPort_eq_iff (x : Int32) :
    ((toPort x).toNat : ℤ) = x.toInt ↔ 0 ≤ x.toInt ∧ x.toInt < 2 ^ 16 := by
  rw [toNat_toPort]
  omega

/-- The narrowing of a multiple of `2^16` is zero. -/
lemma toPort_eq_zero_iff (x : Int32) : toPort x = 0 ↔ x.toInt % 2 ^ 16 = 0 := by
  rw [← toNat_toPort, ← UInt16.toNat_inj]
  exact_mod_cast Iff.rfl

section Ports

variable {conv : Conversions} {argv : List String} {c : CliConfig} {p : PortFlag} {v : String}

/-- A port that is stored is the narrowed number.

**Proof sketch.** The conversion of the flag is `std::stoi`, whose exceptions are not caught. -/
lemma toPort_of_convert {port : UInt16} (h : (conv.toInt v).map toPort = .ok port) :
    ∃ x, conv.stoi v = .ok x ∧ port = toPort x := by
  obtain ⟨x, hx, rfl⟩ := map_eq_ok.mp h
  refine ⟨x, ?_, rfl⟩
  rw [Conversions.toInt] at hx
  cases hstoi : conv.stoi v with
  | ok y =>
    rw [hstoi] at hx
    exact congrArg Except.ok (Except.ok.inj hx)
  | error e =>
    rw [hstoi] at hx
    cases hx

/-- Behind the flag loop, a given port is the narrowed number. -/
lemma port_eq_toPort {st : ParseState}
    (h : parseArgs conv (initialState argv.head?) argv.tail = .ok st)
    (hv : lastValue p.flag argv = some v) :
    ∃ x, conv.stoi v = .ok x ∧ st.toCliConfig.port p = toPort x := by
  have hfield := parseArgs_field p.flag h
  rw [hv, Option.map_some, Option.getD_some] at hfield
  cases p with
  | localPort | peerPort | zenohPort => exact toPort_of_convert hfield.symm

/-- Where a default replaces a port: the local or peer port of `raw_udp` is zero. -/
def Replaced (c : CliConfig) (p : PortFlag) : Prop :=
  c.transport = .rawUdp ∧ c.port p = 0 ∧ p ≠ .zenohPort

/-- A default port is not zero. -/
lemma port_of_replaced (h : Replaced c p) :
    (defaultPorts c).port p = 18000 ∨ (defaultPorts c).port p = 18001 := by
  obtain ⟨ht, hzero, hp⟩ := h
  cases p with
  | localPort | peerPort =>
    rw [CliConfig.port] at hzero
    cases hr : c.role <;> simp [defaultPorts, CliConfig.port, ht, hr, hzero]
  | zenohPort => exact absurd rfl hp

/-- The other ports stay as they are. -/
lemma port_of_not_replaced (h : ¬Replaced c p) : (defaultPorts c).port p = c.port p := by
  by_cases ht : c.transport = .rawUdp
  · cases p with
    | localPort | peerPort =>
      simp only [Replaced, ht, CliConfig.port, ne_eq, reduceCtorEq, not_false_eq_true, and_true,
        true_and] at h
      cases hr : c.role <;> simp [defaultPorts, CliConfig.port, ht, hr, h]
    | zenohPort => cases hr : c.role <;> simp [defaultPorts, CliConfig.port, ht, hr]
  · simp [defaultPorts, ht]

end Ports

/-- For every accepted command line and every port flag that occurs in it: the port in the
configuration is the number that `std::stoi` reads from the last value of the flag if and only if
that is a port number, and not a zero for a local or peer port of `raw_udp`.

**Proof sketch.** The port behind the loop is the integer modulo `2^16` (`port_eq_toPort`). If it is
not replaced by a default port, it is the integer exactly for a port number. If it is, it was zero,
while the default ports are not zero modulo `2^16`, so the configuration cannot have the number
given. -/
theorem parseCli_port_iff {conv : Conversions} {argv : List String} {c : CliConfig}
    (h : parseCli conv argv = .ok c) (p : PortFlag) {v : String}
    (hv : lastValue p.flag argv = some v) :
    ∃ x, conv.stoi v = .ok x ∧ (((c.port p).toNat : ℤ) = x.toInt ↔ UsablePort argv p x) := by
  obtain ⟨st, hst, hcheck, rfl⟩ := parseCli_eq_ok.mp h
  obtain ⟨x, hx, hport⟩ := port_eq_toPort hst hv
  refine ⟨x, hx, ?_⟩
  have hzero : x = 0 ↔ x.toInt = 0 := by
    rw [← Int32.toInt_inj]
    rfl
  rw [UsablePort, selectedTransport_eq hst (check_eq_ok.mp hcheck).1, Option.some.injEq, hzero]
  by_cases hreplaced : Replaced st.toCliConfig p
  · obtain ⟨ht, hnull, hp⟩ := hreplaced
    have hmod := (toPort_eq_zero_iff x).mp (hport.symm.trans hnull)
    have hdefault : (((defaultPorts st.toCliConfig).port p).toNat : ℤ) % 2 ^ 16 ≠ 0 := by
      rcases port_of_replaced ⟨ht, hnull, hp⟩ with heq | heq <;> rw [heq] <;> decide
    constructor
    · intro heq
      rw [heq] at hdefault
      exact absurd hmod hdefault
    · rintro ⟨hlow, hhigh, hgiven⟩
      exact absurd ⟨by omega, ht, hp⟩ hgiven
  · rw [port_of_not_replaced hreplaced, hport, toNat_toPort_eq_iff]
    constructor
    · rintro ⟨hlow, hhigh⟩
      refine ⟨hlow, hhigh, ?_⟩
      rintro ⟨hnull, ht, hp⟩
      apply hreplaced
      refine ⟨ht, ?_, hp⟩
      rw [hport, toPort_eq_zero_iff, hnull]
      rfl
    · exact fun hx => ⟨hx.1, hx.2.1⟩

/-- The conversions on command lines without a rate or a duration. -/
def intConversions : Conversions := stdConversions fun _ => none

/-- A port number is used as it is given.

**Proof sketch.** The number lies between 1 and 65535, and is not one that the parser replaces by a
default. -/
theorem parseCli_port_18002 : ∃ c x,
    parseCli intConversions ["bench_a", "--transport", "raw_udp", "--local-port", "18002"] =
      .ok c ∧ intConversions.stoi "18002" = .ok x ∧ (c.localPort.toNat : ℤ) = x.toInt := by
  have hparse : parseCli intConversions
      ["bench_a", "--transport", "raw_udp", "--local-port", "18002"] = .ok _ := rfl
  obtain ⟨x, hx, hport⟩ := @parseCli_port_iff intConversions
    ["bench_a", "--transport", "raw_udp", "--local-port", "18002"] _ hparse .localPort "18002" rfl
  obtain rfl : x = 18002 := (Except.ok.inj hx).symm
  refine ⟨_, 18002, hparse, hx, hport.mpr ⟨by decide, by decide, ?_⟩⟩
  rintro ⟨hzero, -⟩
  revert hzero
  decide

/-- Port `70000` becomes port `4464`, and port `65536` the default port. -/
theorem parseCli_port_narrowed :
    (∃ c, parseCli intConversions
        ["bench_a", "--transport", "raw_udp", "--local-port", "70000"] = .ok c ∧
      intConversions.stoi "70000" = .ok 70000 ∧ c.localPort = 4464) ∧
    ∃ c, parseCli intConversions
        ["bench_a", "--transport", "raw_udp", "--peer-port", "65536"] = .ok c ∧
      intConversions.stoi "65536" = .ok 65536 ∧ c.peerPort = 18001 :=
  ⟨⟨_, rfl, rfl, rfl⟩, ⟨_, rfl, rfl, rfl⟩⟩

end CommBench
