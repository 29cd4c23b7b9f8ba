import Mathlib.Algebra.Group.Int.Defs
import Mathlib.Data.List.Nodup
import CommBench.Cli.Argv
import CommBench.Cli.Peers

set_option relaxedAutoImplicit false
set_option autoImplicit false

/-!
# The declarative reading of a command line

`parse_cli` as a specification: which command lines it accepts, and the configuration that an
accepted one declares, both read off the groups of its tokens. Since the last group of a flag
decides, the order of groups with different flags does not matter.

## Main definitions

* `CommBench.Accepted` — the command lines that are accepted.
* `CommBench.declaredConfig` — the configuration that a command line declares.
* `CommBench.Reads` — what the value of a flag stands for.
* `CommBench.Arg` — a complete group, as it is written.

## Main results

* `CommBench.parseCli_eq_ok_iff` — `parse_cli` returns a configuration if and only if the command
  line is accepted and declares it.
* `CommBench.convert_eq_ok`, `CommBench.declaredField_reads` — the converted values are what the
  values stand for.
* `CommBench.parseCli_declared` — together with the accesses to `argv` and the order of the groups.
-/

namespace CommBench

open Fallible

section Reading

variable (conv : Conversions) (argv : List String)

/-- The flag loop can process a group. -/
def Applicable : Group → Prop
  | .value f v => ∃ x, convert conv f v = .ok x
  | .missing _ | .unknown _ | .help => False
  | .busyPoll | .other _ => True

/-- The converted value of the last group of the flag `f`, or the default when there is none. -/
def declaredField (f : ValueFlag) (default : f.Field) : f.Field :=
  match lastValue f argv with
  | none => default
  | some v =>
    match convert conv f v with
    | .ok x => x
    | .error _ => default

/-- The configuration that a command line without flags declares. -/
def defaultConfig : CliConfig := { role := roleOfProgram argv.head? }

/-- What the flags of a command line declare. -/
def declaredFlags : CliConfig where
  role := declaredField conv argv .role (defaultConfig argv).role
  transport := declaredField conv argv .transport (defaultConfig argv).transport
  rateHz := declaredField conv argv .rateHz (defaultConfig argv).rateHz
  durationSec := declaredField conv argv .durationSec (defaultConfig argv).durationSec
  csvPath := declaredField conv argv .csv (defaultConfig argv).csvPath
  peerIp := declaredField conv argv .peerIp (defaultConfig argv).peerIp
  localPort := declaredField conv argv .localPort (defaultConfig argv).localPort
  peerPort := declaredField conv argv .peerPort (defaultConfig argv).peerPort
  rcvbufBytes := declaredField conv argv .rcvbuf (defaultConfig argv).rcvbufBytes
  sndbufBytes := declaredField conv argv .sndbuf (defaultConfig argv).sndbufBytes
  busyPoll := decide (.busyPoll ∈ groups argv.tail)
  numThreads := declaredField conv argv .numThreads (defaultConfig argv).numThreads
  zenohPort := declaredField conv argv .zenohPort (defaultConfig argv).zenohPort
  routerIp := declaredField conv argv .routerIp (defaultConfig argv).routerIp
  rtPriority := declaredField conv argv .rtPriority (defaultConfig argv).rtPriority

/-- The configuration that a command line declares: for `raw_udp`, a local or peer port that is
still zero is the one that the role has by default. -/
def declaredConfig : CliConfig :=
  let c := declaredFlags conv argv
  { c with
    localPort := if c.transport = .rawUdp ∧ c.localPort = 0 then (rolePorts c.role).1
      else c.localPort
    peerPort := if c.transport = .rawUdp ∧ c.peerPort = 0 then (rolePorts c.role).2
      else c.peerPort }

/-- The checks of the endpoint. -/
def EndpointPresent (c : CliConfig) : Prop :=
  (c.transport = .zenohP2p → c.peerIp ≠ "") ∧ (c.transport = .zenohRouter → c.routerIp ≠ "") ∧
    (c.transport = .ddsUnicast → c.peerIp ≠ "")

/-- A command line is accepted when every group can be processed, a transport is given, and the
endpoint that the transport needs is not empty. -/
structure Accepted : Prop where
  groups : ∀ g ∈ groups argv.tail, Applicable conv g
  transport : flagValues .transport argv ≠ []
  endpoint : EndpointPresent (declaredFlags conv argv)

end Reading

section Accepts

variable {conv : Conversions} {argv : List String} {st : ParseState}

/-- The flag loop succeeds on the groups that it can process.

**Proof sketch.** A group with a value succeeds when its conversion does. The other groups succeed
or throw whatever the conversions are. -/
lemma applyGroup_isOk (st : ParseState) (g : Group) :
    (∃ st', applyGroup conv st g = .ok st') ↔ Applicable conv g := by
  cases g with
  | value f v =>
    simp only [applyGroup, store, map_eq_ok, Applicable]
    constructor
    · rintro ⟨st', x, hx, -⟩
      exact ⟨x, hx⟩
    · rintro ⟨x, hx⟩
      exact ⟨_, x, hx, rfl⟩
  | busyPoll | other a => simp [applyGroup, Applicable]
  | missing a | help | unknown a => simp [applyGroup, Applicable]

/-- The flag loop succeeds exactly when it can process every group. -/
lemma parseArgs_isOk (st : ParseState) :
    (∃ st', parseArgs conv st argv.tail = .ok st') ↔
      ∀ g ∈ groups argv.tail, Applicable conv g := by
  rw [parseArgs_eq_foldlM]
  exact foldlM_isOk_iff applyGroup_isOk

/-- Behind the flag loop, a field is as declared. -/
lemma field_eq_declared {st₀ : ParseState} (h : parseArgs conv st₀ argv.tail = .ok st)
    (f : ValueFlag) : st.field f = declaredField conv argv f (st₀.field f) := by
  have hfield := parseArgs_field f h
  unfold declaredField
  cases hv : lastValue f argv with
  | none =>
    rw [hv] at hfield
    exact Except.ok.inj hfield
  | some v =>
    rw [hv, Option.map_some, Option.getD_some] at hfield
    simp only [← hfield]

/-- The flag loop notes that a `--busy-poll` occurred.

**Proof sketch.** The member is written by one group only, so after the fold it is what the last
such group has written (`foldlM_field`), which is `true`, or its initial value when there is none.
-/
lemma busyPoll_eq_declared {st₀ : ParseState} (h : parseArgs conv st₀ argv.tail = .ok st)
    (hst₀ : st₀.busyPoll = false) : st.busyPoll = decide (.busyPoll ∈ groups argv.tail) := by
  rw [parseArgs_eq_foldlM] at h
  have hfield := foldlM_field (fun s : ParseState => s.busyPoll)
    (fun g => if g = Group.busyPoll then some true else none) ?_ h
  · rw [hfield, hst₀]
    by_cases hmem : .busyPoll ∈ groups argv.tail
    · have hsome : true ∈ (groups argv.tail).filterMap
          fun g => if g = Group.busyPoll then some true else none :=
        List.mem_filterMap.mpr ⟨_, hmem, by simp⟩
      have hall : ∀ b ∈ (groups argv.tail).filterMap
          fun g => if g = Group.busyPoll then some true else none, b = true := by
        intro b hb
        obtain ⟨g, -, hg⟩ := List.mem_filterMap.mp hb
        split_ifs at hg
        exact (Option.some.inj hg).symm
      rw [List.getLast?_eq_getLast_of_ne_nil (List.ne_nil_of_mem hsome), Option.getD_some,
        hall _ (List.getLast_mem _)]
      simp [hmem]
    · have hnil : ((groups argv.tail).filterMap
          fun g => if g = Group.busyPoll then some true else none) = [] := by
        rw [List.filterMap_eq_nil_iff]
        intro g hg
        rw [if_neg]
        rintro rfl
        exact hmem hg
      rw [hnil]
      simp [hmem]
  · intro s g s' hg
    cases g with
    | value f v =>
      obtain ⟨x, -, rfl⟩ := map_eq_ok.mp hg
      cases f <;> rfl
    | busyPoll | other a =>
      cases hg
      rfl
    | missing a | help | unknown a => cases hg

/-- **The flag loop computes what the flags declare.** -/
theorem parseArgs_eq_declared (h : parseArgs conv (initialState argv.head?) argv.tail = .ok st) :
    st.toCliConfig = declaredFlags conv argv := by
  have hfield := field_eq_declared h
  rw [declaredFlags, ← busyPoll_eq_declared h rfl]
  obtain ⟨c, set⟩ := st
  obtain ⟨role, transport, rate, duration, csv, peerIp, localPort, peerPort, rcvbuf, sndbuf,
    busyPoll, numThreads, zenohPort, routerIp, rtPriority⟩ := c
  refine (iff_of_eq (CliConfig.mk.injEq ..)).mpr ?_
  exact ⟨hfield .role, hfield .transport, hfield .rateHz, hfield .durationSec, hfield .csv,
    hfield .peerIp, hfield .localPort, hfield .peerPort, hfield .rcvbuf, hfield .sndbuf, rfl,
    hfield .numThreads, hfield .zenohPort, hfield .routerIp, hfield .rtPriority⟩

/-- The default ports are the declared ones. -/
lemma defaultPorts_declared :
    defaultPorts (declaredFlags conv argv) = declaredConfig conv argv := by
  simp only [defaultPorts, declaredConfig]
  generalize declaredFlags conv argv = c
  by_cases ht : c.transport = .rawUdp
  · cases hr : c.role <;> simp [ht, rolePorts]
  · simp [ht]

/-- The checks behind the loop pass when a transport is given and its endpoint is not empty. -/
lemma check_isOk_iff : check st = .ok st.toCliConfig ↔
    st.transportSet = true ∧ EndpointPresent st.toCliConfig := by
  rw [check_eq_ok, EndpointPresent]
  simp only [not_and, ne_eq, and_true]

/-- The flag loop has noted a transport exactly when one is given. -/
lemma transportSet_iff (h : parseArgs conv (initialState argv.head?) argv.tail = .ok st) :
    st.transportSet = true ↔ flagValues .transport argv ≠ [] := by
  rw [parseArgs_transportSet h, ne_eq, ← lastValue_eq_none]
  cases lastValue .transport argv <;> simp [initialState]

/-- **The declarative reading.** `parse_cli` returns a configuration if and only if the command
line is accepted and declares it.

**Proof sketch.** `parse_cli` succeeds when the loop does, which asks of each group only that it
applies (`parseArgs_isOk`), and the checks pass on the state behind it. This state is the declared
one (`parseArgs_eq_declared`), and the checks and the default ports are functions of it. -/
theorem parseCli_eq_ok_iff {c : CliConfig} :
    parseCli conv argv = .ok c ↔ Accepted conv argv ∧ c = declaredConfig conv argv := by
  rw [parseCli_eq_ok]
  constructor
  · rintro ⟨st, hst, hcheck, rfl⟩
    obtain ⟨hset, hendpoint⟩ := check_isOk_iff.mp hcheck
    rw [parseArgs_eq_declared hst] at hendpoint ⊢
    exact ⟨⟨(parseArgs_isOk _).mp ⟨st, hst⟩, (transportSet_iff hst).mp hset, hendpoint⟩,
      defaultPorts_declared⟩
  · rintro ⟨haccepted, rfl⟩
    obtain ⟨st, hst⟩ := (parseArgs_isOk (initialState argv.head?)).mpr haccepted.groups
    have hdeclared := parseArgs_eq_declared hst
    refine ⟨st, hst, check_isOk_iff.mpr ⟨(transportSet_iff hst).mpr haccepted.transport, ?_⟩, ?_⟩
    · rw [hdeclared]
      exact haccepted.endpoint
    · rw [hdeclared, defaultPorts_declared]

end Accepts

/-! ## What the values stand for -/

/-- `transport_name`. -/
def transportName : TransportKind → String
  | .ros2Be => "ros2_be"
  | .ros2Mte => "ros2_mte"
  | .rawUdp => "raw_udp"
  | .zenohP2p => "zenoh_p2p"
  | .zenohRouter => "zenoh_router"
  | .ddsUnicast => "dds_unicast"

/-- The value of `--role` for a role. -/
def roleName : Role → String
  | .a => "a"
  | .b => "b"

/-- `parse_cli` reads exactly the names of the transports. -/
lemma transportOf_eq_some {v : String} {t : TransportKind} :
    transportOf v = some t ↔ v = transportName t := by
  constructor
  · intro h
    unfold transportOf at h
    split_ifs at h with h₁ h₂ h₃ h₄ h₅ h₆ <;> cases h <;> assumption
  · rintro rfl
    cases t <;> rfl

/-- `parse_cli` reads exactly the names of the roles. -/
lemma roleOf_eq_some {v : String} {r : Role} : roleOf v = some r ↔ v = roleName r := by
  constructor
  · intro h
    unfold roleOf at h
    split_ifs at h with h₁ h₂ <;> cases h <;> assumption
  · rintro rfl
    cases r <;> rfl

/-- The narrowing keeps the last 16 bits. -/
lemma toNat_toPort (x : Int32) : ((toPort x).toNat : ℤ) = x.toInt % 2 ^ 16 := by
  have hsigned : x.toInt = x.toUInt32.toNat ∨ x.toInt = (x.toUInt32.toNat : ℤ) - 2 ^ 32 := by
    rw [show x.toInt = x.toUInt32.toBitVec.toInt from rfl, BitVec.toInt_eq_toNat_cond]
    split_ifs
    · exact Or.inl rfl
    · exact Or.inr rfl
  have hport : (toPort x).toNat = x.toUInt32.toNat % 2 ^ 16 := rfl
  omega

/-- What the value `v` of a flag stands for: a role or a transport by its name, a text, a number, or
a port by the last 16 bits of a number. -/
def Reads (conv : Conversions) : (f : ValueFlag) → String → f.Field → Prop
  | .role, v, x => v = roleName x
  | .transport, v, x => v = transportName x
  | .rateHz, v, x | .durationSec, v, x => conv.stod v = .ok x
  | .csv, v, x | .peerIp, v, x | .routerIp, v, x => v = x
  | .localPort, v, (x : UInt16) | .peerPort, v, (x : UInt16) | .zenohPort, v, (x : UInt16) =>
    ∃ n, conv.stoi v = .ok n ∧ (x.toNat : ℤ) = n.toInt % 2 ^ 16
  | .rtPriority, v, x | .rcvbuf, v, x | .sndbuf, v, x | .numThreads, v, x => conv.stoi v = .ok x

section Reads

variable {conv : Conversions} {argv : List String}

/-- A number is stored as it is converted. -/
lemma mapError_eq_ok {α : Type} {r : Except ConvError α} {x : α} :
    r.mapError Halt.conversion = .ok x ↔ r = .ok x := by
  cases r <;> simp [Except.mapError]

/-- A port is stored by its last 16 bits. -/
lemma toPort_eq_ok {v : String} {x : UInt16} : (conv.toInt v).map toPort = .ok x ↔
    ∃ n, conv.stoi v = .ok n ∧ (x.toNat : ℤ) = n.toInt % 2 ^ 16 := by
  simp only [map_eq_ok, Conversions.toInt, mapError_eq_ok, ← toNat_toPort, Int.natCast_inj,
    UInt16.toNat_inj, eq_comm (a := x)]

/-- **A value is converted** to what it stands for. -/
theorem convert_eq_ok {f : ValueFlag} {v : String} {x : f.Field} :
    convert conv f v = .ok x ↔ Reads conv f v x := by
  cases f with
  | role => exact orThrow_eq_ok.trans roleOf_eq_some
  | transport => exact orThrow_eq_ok.trans transportOf_eq_some
  | rateHz | durationSec | rtPriority | rcvbuf | sndbuf | numThreads => exact mapError_eq_ok
  | csv | peerIp | routerIp => exact Except.ok.injEq v x ▸ Iff.rfl
  | localPort | peerPort | zenohPort => exact toPort_eq_ok

/-- **What an accepted command line declares** for a flag is what the last value of the flag stands
for.

**Proof sketch.** The last value stands in a group of the command line, every group of an accepted
one applies, and `convert_eq_ok` says what the conversion of the flag yields. -/
theorem declaredField_reads (h : Accepted conv argv) {f : ValueFlag} {v : String}
    (hv : lastValue f argv = some v) (default : f.Field) :
    Reads conv f v (declaredField conv argv f default) := by
  have hmem : v ∈ flagValues f argv := List.mem_of_getLast? hv
  obtain ⟨g, hg, hvalue⟩ := List.mem_filterMap.mp hmem
  have happlicable := h.groups g hg
  cases g with
  | value f' v' =>
    by_cases hf : f' = f
    · subst hf
      obtain rfl : v' = v := by simpa [valueOf] using hvalue
      obtain ⟨x, hx⟩ := happlicable
      rw [declaredField, hv]
      simp only [hx]
      exact convert_eq_ok.mp hx
    · simp [valueOf, hf] at hvalue
  | _ => cases hvalue

end Reads

/-! ## The order of the groups -/

/-- A value flag as it is written. -/
def ValueFlag.spelling : ValueFlag → String
  | .role => "--role"
  | .transport => "--transport"
  | .rateHz => "--rate-hz"
  | .durationSec => "--duration-sec"
  | .csv => "--csv"
  | .rtPriority => "--rt-priority"
  | .peerIp => "--peer-ip"
  | .localPort => "--local-port"
  | .peerPort => "--peer-port"
  | .rcvbuf => "--rcvbuf"
  | .sndbuf => "--sndbuf"
  | .numThreads => "--num-threads"
  | .zenohPort => "--zenoh-port"
  | .routerIp => "--router-ip"

/-- A complete group: a value flag with its value, or `--busy-poll`. -/
inductive Arg
  | value (f : ValueFlag) (v : String)
  | busyPoll

namespace Arg

/-- The tokens of a complete group. -/
def tokens : Arg → List String
  | value f v => [f.spelling, v]
  | busyPoll => ["--busy-poll"]

/-- The flag of a complete group, `none` for `--busy-poll`. -/
def flag : Arg → Option ValueFlag
  | value f _ => some f
  | busyPoll => none

/-- A complete group as the flag loop reads it. -/
def group : Arg → Group
  | value f v => .value f v
  | busyPoll => .busyPoll

end Arg

section Order

variable {conv : Conversions} {args args' : List Arg} {prog : String}

/-- A value flag is read as written. -/
lemma tokenOf_spelling (f : ValueFlag) : tokenOf f.spelling = .value f := by
  cases f <;> decide

/-- **Complete groups are read as written.**

**Proof sketch.** Induction over the arguments. A flag with its value is two tokens, `--busy-poll`
is one, and each is read as its group. -/
theorem groups_tokens (args : List Arg) :
    groups (args.flatMap Arg.tokens) = args.map Arg.group := by
  induction args with
  | nil => rfl
  | cons g args ih =>
    rw [List.flatMap_cons, List.map_cons, ← ih]
    cases g with
    | value f v => simp only [Arg.tokens, List.cons_append, List.nil_append, groups,
        tokenOf_spelling, Arg.group]
    | busyPoll =>
      have htok : tokenOf "--busy-poll" = .busyPoll := by decide
      simp only [Arg.tokens, List.cons_append, List.nil_append, groups, htok, Arg.group]

/-- The values of a flag are at most as many as the groups of the flag.

**Proof sketch.** Induction over the arguments; a value counts exactly when its group is one of the
flag. -/
lemma length_filterMap_valueOf (f : ValueFlag) (args : List Arg) :
    ((args.map Arg.group).filterMap (valueOf f)).length = (args.map Arg.flag).count (some f) := by
  induction args with
  | nil => rfl
  | cons g args ih =>
    cases g with
    | value f' v =>
      by_cases hf : f' = f
      · simp [Arg.group, Arg.flag, valueOf, hf, ← ih]
      · simp [Arg.group, Arg.flag, valueOf, hf, ← ih]
    | busyPoll =>
      rw [List.map_cons, List.map_cons, Arg.group, Arg.flag,
        List.filterMap_cons_none (by rfl), List.count_cons_of_ne (by simp), ih]

/-- Two orders of a list with at most one entry are the same. -/
lemma eq_of_perm_of_length_le_one {α : Type} {l l' : List α} (h : l.Perm l')
    (hlen : l.length ≤ 1) : l = l' := by
  match l, hlen with
  | [], _ => exact (List.nil_perm.mp h).symm
  | [a], _ => exact List.singleton_perm.mp h

/-- With different flags, the values of each flag do not depend on the order of the groups. -/
lemma flagValues_perm (hperm : args.Perm args') (hnodup : (args.map Arg.flag).Nodup)
    (f : ValueFlag) : flagValues f (prog :: args.flatMap Arg.tokens) =
      flagValues f (prog :: args'.flatMap Arg.tokens) := by
  unfold flagValues
  rw [List.tail_cons, List.tail_cons, groups_tokens, groups_tokens]
  apply eq_of_perm_of_length_le_one
  · exact (hperm.map Arg.group).filterMap (valueOf f)
  · rw [length_filterMap_valueOf]
    exact List.nodup_iff_count_le_one.mp hnodup (some f)

/-- What the flags declare depends on the last value of each flag only. -/
lemma declaredFlags_congr {argv argv' : List String} (hprog : argv.head? = argv'.head?)
    (hvalues : ∀ f, flagValues f argv = flagValues f argv')
    (hbusy : .busyPoll ∈ groups argv.tail ↔ .busyPoll ∈ groups argv'.tail) :
    declaredFlags conv argv = declaredFlags conv argv' := by
  simp only [declaredFlags, declaredField, defaultConfig, lastValue, hprog, hvalues, hbusy]

/-- A command line is accepted in every order of its groups, and declares the same.

**Proof sketch.** Being accepted looks at which groups there are, and at the last values of the
flags. A permutation keeps the former, and the latter as no flag occurs twice (`flagValues_perm`).
-/
lemma accepted_perm (hperm : args.Perm args') (hnodup : (args.map Arg.flag).Nodup)
    (h : Accepted conv (prog :: args.flatMap Arg.tokens)) :
    Accepted conv (prog :: args'.flatMap Arg.tokens) ∧
      declaredConfig conv (prog :: args'.flatMap Arg.tokens) =
        declaredConfig conv (prog :: args.flatMap Arg.tokens) := by
  have hmem (g : Group) : g ∈ groups (prog :: args'.flatMap Arg.tokens).tail ↔
      g ∈ groups (prog :: args.flatMap Arg.tokens).tail := by
    rw [List.tail_cons, List.tail_cons, groups_tokens, groups_tokens]
    exact (hperm.map Arg.group).mem_iff.symm
  have hvalues := @flagValues_perm args args' prog hperm hnodup
  have hflags : declaredFlags conv (prog :: args'.flatMap Arg.tokens) =
      declaredFlags conv (prog :: args.flatMap Arg.tokens) :=
    declaredFlags_congr rfl (fun f => (hvalues f).symm) (hmem _)
  refine ⟨⟨?_, ?_, ?_⟩, ?_⟩
  · exact fun g hg => h.groups g ((hmem g).mp hg)
  · rw [← hvalues]
    exact h.transport
  · rw [hflags]
    exact h.endpoint
  · rw [declaredConfig, declaredConfig, hflags]

/-- The order of complete groups with different flags does not matter. -/
lemma parseCli_perm (hperm : args.Perm args') (hnodup : (args.map Arg.flag).Nodup)
    {c : CliConfig} (h : parseCli conv (prog :: args.flatMap Arg.tokens) = .ok c) :
    parseCli conv (prog :: args'.flatMap Arg.tokens) = .ok c := by
  obtain ⟨haccepted, rfl⟩ := parseCli_eq_ok_iff.mp h
  obtain ⟨haccepted', hconfig⟩ := accepted_perm hperm hnodup haccepted
  exact parseCli_eq_ok_iff.mpr ⟨haccepted', hconfig.symm⟩

end Order

/-- `parse_cli` stays within `argv`. A command line without `-h` and `--help` in the place of a
flag yields a configuration if and only if it is accepted and declares that configuration, and
else an exception. For complete groups with pairwise different flags, every order of the groups
yields the same configuration, or none.

**Proof sketch.** The three parts are `parseCliAt_eq`, `parseCli_eq_ok_iff` with `help_of_exit`, and
`parseCli_perm` in both directions. -/
theorem parseCli_declared (conv : Conversions) :
    (∀ argv, parseCliAt conv argv = (parseCli conv argv).mapError .halt) ∧
      (∀ argv, .help ∉ groups argv.tail →
        (∀ c, parseCli conv argv = .ok c ↔ Accepted conv argv ∧ c = declaredConfig conv argv) ∧
          ∀ k, parseCli conv argv ≠ .error (.exit k)) ∧
      ∀ (prog : String) (args args' : List Arg), args.Perm args' → (args.map Arg.flag).Nodup → ∀ c,
        parseCli conv (prog :: args.flatMap Arg.tokens) = .ok c ↔
          parseCli conv (prog :: args'.flatMap Arg.tokens) = .ok c := by
  refine ⟨fun argv => parseCliAt_eq, fun argv hhelp => ⟨fun c => parseCli_eq_ok_iff, ?_⟩, ?_⟩
  · intro k hk
    exact hhelp (help_of_exit hk)
  · intro prog args args' hperm hnodup c
    have hnodup' : (args'.map Arg.flag).Nodup := (hperm.map Arg.flag).nodup_iff.mp hnodup
    exact ⟨parseCli_perm hperm hnodup, parseCli_perm hperm.symm hnodup'⟩

/-- The address before the transport, and behind it. -/
theorem parseCli_declared_swap : ∃ c,
    parseCli noNumbers ["bench_a", "--transport", "raw_udp", "--peer-ip", "10.42.2.110"] = .ok c ∧
      parseCli noNumbers ["bench_a", "--peer-ip", "10.42.2.110", "--transport", "raw_udp"] =
        .ok c := by
  refine ⟨_, rfl, ?_⟩
  exact ((parseCli_declared noNumbers).2.2 "bench_a"
    [.value .transport "raw_udp", .value .peerIp "10.42.2.110"]
    [.value .peerIp "10.42.2.110", .value .transport "raw_udp"]
    (List.Perm.swap _ _ _) (by decide) _).mp rfl

end CommBench
