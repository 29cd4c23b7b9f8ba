import CommBench.Lib.CsvText
import CommBench.Run.Program

set_option relaxedAutoImplicit false
set_option autoImplicit false

/-!
# The sessions of the middleware

The transports over Zenoh and over unicast DDS wrap `ros2_be`. Their constructors write a file
under `/tmp` and name it in an environment variable, and `rclcpp::init` makes the middleware read
that file. The file has the process id in its name, so that two programs on a host do not
overwrite each other's files. No file is ever removed, and process ids are used again.

## Main definitions

* `CommBench.SessionFile` — the file of a transport, with its path, its variable and its text.
* `CommBench.Machine` — a host with its files and with the programs that run on it.
* `CommBench.Machine.step` — the steps of the programs of a host, in any order.

## Main results

* `CommBench.SessionFile.path_inj` — the path determines the process.
* `CommBench.session_own` — a program whose file could be written reads its own file.

## Design

The variables `ZENOH_SESSION_CONFIG_URI` and `FASTRTPS_DEFAULT_PROFILES_FILE` belong to two
middlewares, and `RMW_IMPLEMENTATION` says which one rclcpp loads. `Process.middleware`, `fileVar`
and `Process.readSession` stand for this code, which is not in the repository. They follow the
comments in the headers of the three transports; a middleware reads the whole file once, when
`rclcpp::init` initialises it. A file may fail to open, and a part of it may be all that can be
written; the constructors check neither. A program may end anywhere. Only the programs of the
benchmark write to these paths.
-/

namespace CommBench

open CsvText Trace

/-! ## The files of the transports -/

/-- The file of a transport: what stands in its path in front of and behind the process id, the
environment variable that is set to the path, and the text. -/
structure SessionFile where
  stem : String
  suffix : String
  envVar : String
  text : String
  deriving DecidableEq

/-- The path, which `snprintf` writes to an array of 128 characters. -/
def SessionFile.path (f : SessionFile) (pid : Int32) : String :=
  String.ofList ((f.stem.toList ++ showInt pid.toInt ++ f.suffix.toList).take 127)

/-- `write_peer_config`, for `ZenohP2pTransport`. -/
def writePeerConfig (peerIp : String) (port : UInt16) : SessionFile where
  stem := "/tmp/comm_bench_zenoh_p2p_"
  suffix := ".json5"
  envVar := "ZENOH_SESSION_CONFIG_URI"
  text := "\x7b\n" ++
    "  mode: \"peer\",\n" ++
    "  connect: \x7b endpoints: [\"tcp/" ++ peerIp ++ ":" ++ String.ofList (showInt port.toNat) ++
      "\"] \x7d,\n" ++
    "  listen:  \x7b endpoints: [\"tcp/0.0.0.0:" ++ String.ofList (showInt port.toNat) ++
      "\"] \x7d,\n" ++
    "  scouting: \x7b multicast: \x7b enabled: false \x7d, " ++
      "gossip: \x7b enabled: false \x7d \x7d,\n" ++
    "\x7d\n"

/-- `write_client_config`, for `ZenohRouterTransport`. -/
def writeClientConfig (routerIp : String) (port : UInt16) : SessionFile where
  stem := "/tmp/comm_bench_zenoh_router_"
  suffix := ".json5"
  envVar := "ZENOH_SESSION_CONFIG_URI"
  text := "\x7b\n" ++
    "  mode: \"client\",\n" ++
    "  connect: \x7b endpoints: [\"tcp/" ++ routerIp ++ ":" ++ String.ofList (showInt port.toNat) ++
      "\"] \x7d,\n" ++
    "  scouting: \x7b multicast: \x7b enabled: false \x7d, " ++
      "gossip: \x7b enabled: false \x7d \x7d,\n" ++
    "\x7d\n"

/-- `write_fastdds_unicast_profile`, for `DdsUnicastTransport`. -/
def writeFastddsUnicastProfile (peerIp : String) : SessionFile where
  stem := "/tmp/comm_bench_dds_unicast_"
  suffix := ".xml"
  envVar := "FASTRTPS_DEFAULT_PROFILES_FILE"
  text := "<?xml version=\"1.0\" encoding=\"UTF-8\"?>\n" ++
    "<profiles xmlns=\"http://www.eprosima.com/XMLSchemas/fastRTPS_Profiles\">\n" ++
    "  <participant profile_name=\"participant_unicast\" is_default_profile=\"true\">\n" ++
    "    <rtps>\n" ++
    "      <builtin>\n" ++
    "        <metatrafficUnicastLocatorList>\n" ++
    "          <locator>\n" ++
    "            <udpv4>\n" ++
    "              <address>0.0.0.0</address>\n" ++
    "            </udpv4>\n" ++
    "          </locator>\n" ++
    "        </metatrafficUnicastLocatorList>\n" ++
    "        <initialPeersList>\n" ++
    "          <locator>\n" ++
    "            <udpv4>\n" ++
    "              <address>" ++ peerIp ++ "</address>\n" ++
    "            </udpv4>\n" ++
    "          </locator>\n" ++
    "        </initialPeersList>\n" ++
    "      </builtin>\n" ++
    "    </rtps>\n" ++
    "  </participant>\n" ++
    "</profiles>\n"

/-- The file that the constructor of the transport writes. -/
def CliConfig.sessionFile (c : CliConfig) : Option SessionFile :=
  match c.transport with
  | .zenohP2p => some (writePeerConfig c.peerIp c.zenohPort)
  | .zenohRouter => some (writeClientConfig c.routerIp c.zenohPort)
  | .ddsUnicast => some (writeFastddsUnicastProfile c.peerIp)
  | .ros2Be | .ros2Mte | .rawUdp => none

/-- What stands in the paths around the process id. -/
def sessionNames : List (String × String) :=
  [("/tmp/comm_bench_zenoh_p2p_", ".json5"), ("/tmp/comm_bench_zenoh_router_", ".json5"),
    ("/tmp/comm_bench_dds_unicast_", ".xml")]

/-- The paths of the files are made from the listed names. -/
lemma CliConfig.mem_sessionNames {c : CliConfig} {f : SessionFile} (hf : c.sessionFile = some f) :
    (f.stem, f.suffix) ∈ sessionNames := by
  unfold CliConfig.sessionFile at hf
  split at hf <;> cases hf
  · exact List.mem_cons_self
  · exact List.mem_cons_of_mem _ List.mem_cons_self
  · exact List.mem_cons_of_mem _ (List.mem_cons_of_mem _ List.mem_cons_self)

/-- An `int` has at most eleven characters.

**Proof sketch.** The absolute value of an `int` is less than `10^10`, and a negative one has a sign
before its digits. -/
lemma length_showInt_le (pid : Int32) : (showInt pid.toInt).length ≤ 11 := by
  have hlo := pid.le_toInt
  have hhi := pid.toInt_lt
  have hdigits {n k : ℕ} (hk : 0 < k) (h : n < 10 ^ k) : (Nat.toDigits 10 n).length ≤ k :=
    (Nat.length_toDigits_le_iff (by decide) hk).mpr h
  cases hpid : pid.toInt with
  | ofNat n =>
    rw [hpid, Int.ofNat_eq_natCast] at hhi
    exact hdigits (by decide) (by omega)
  | negSucc n =>
    rw [hpid] at hlo
    exact Nat.succ_le_succ (hdigits (by decide) (by omega))

/-- **The path fits in its array.** -/
lemma SessionFile.path_toList {c : CliConfig} {f : SessionFile} (hf : c.sessionFile = some f)
    (pid : Int32) :
    (f.path pid).toList = f.stem.toList ++ (showInt pid.toInt ++ f.suffix.toList) := by
  have hnames : ∀ n ∈ sessionNames, n.1.toList.length + n.2.toList.length ≤ 35 := by decide
  have hlen := hnames (f.stem, f.suffix) (CliConfig.mem_sessionNames hf)
  dsimp only at hlen
  have hpid := length_showInt_le pid
  rw [SessionFile.path, String.toList_ofList, List.append_assoc, List.take_of_length_le]
  simp only [List.length_append]
  omega

/-- **The path determines the process**, and which transport it has.

**Proof sketch.** The first 24 characters of a path are those of its stem, and they differ for the
three transports. So the stems and the suffixes are the same, and with them the digits of the
process ids, which are read back (`pyInt_showInt`). -/
theorem SessionFile.path_inj {c c' : CliConfig} {f g : SessionFile} {pid pid' : Int32}
    (hf : c.sessionFile = some f) (hg : c'.sessionFile = some g) (h : f.path pid = g.path pid') :
    pid = pid' ∧ f.stem = g.stem := by
  have hlist := congrArg String.toList h
  rw [path_toList hf, path_toList hg] at hlist
  -- the first 24 characters tell the transports apart
  have hlong : ∀ n ∈ sessionNames, 24 ≤ n.1.toList.length := by decide
  have hnames : ∀ n ∈ sessionNames, ∀ m ∈ sessionNames,
      n.1.toList.take 24 = m.1.toList.take 24 → n = m := by decide
  have hmemf := CliConfig.mem_sessionNames hf
  have hmemg := CliConfig.mem_sessionNames hg
  have htake := congrArg (List.take 24) hlist
  rw [List.take_append_of_le_length (hlong (f.stem, f.suffix) hmemf),
    List.take_append_of_le_length (hlong (g.stem, g.suffix) hmemg)] at htake
  obtain ⟨hstem, hsuffix⟩ := Prod.mk.inj (hnames _ hmemf _ hmemg htake)
  refine ⟨?_, hstem⟩
  rw [hstem, hsuffix, List.append_cancel_left_eq, List.append_cancel_right_eq] at hlist
  have hread := congrArg pyInt hlist
  rw [pyInt_showInt, pyInt_showInt] at hread
  exact Int32.toInt_inj.mp (Option.some.inj hread)

/-! ## The programs of a host -/

/-- Where the constructor of the transport is. -/
inductive Making
  | start
  | opened
  | closed
  | exported
  deriving DecidableEq

/-- A program on a host: its configuration, its environment, and whether its file was opened and
written as a whole. `session` is what the middleware has read, if it was initialised. -/
structure Process where
  config : CliConfig
  loop : LoopConfig
  env : String → Option String
  program : Program
  making : Making
  intact : Bool
  session : Option (Option String)

/-- A program that was started in an environment. -/
def Process.initial (c : CliConfig) (l : LoopConfig) (env : String → Option String) : Process :=
  ⟨c, l, env, .initial l, .start, false, none⟩

/-- The middleware that rclcpp loads, which is outside the repository. -/
def Process.middleware (p : Process) : String :=
  (p.env "RMW_IMPLEMENTATION").getD "rmw_fastrtps_cpp"

/-- The variable that a middleware looks for its file in. -/
def fileVar (rmw : String) : Option String :=
  if rmw = "rmw_zenoh_cpp" then some "ZENOH_SESSION_CONFIG_URI"
  else if rmw = "rmw_fastrtps_cpp" then some "FASTRTPS_DEFAULT_PROFILES_FILE"
  else none

/-- A host: the files with their contents, and the programs by their process ids. -/
structure Machine where
  files : String → Option String
  procs : Int32 → Option Process

/-- What the middleware, outside the repository, reads when it is initialised. -/
def Process.readSession (p : Process) (files : String → Option String) : Option String :=
  ((fileVar p.middleware).bind p.env).bind files

/-- The steps on a host: a program is started or is gone, its constructor opens the file, writes
the first characters of the text and closes the file, and sets the variable, and the other steps of
the program. -/
inductive MachineEvent
  | spawn (pid : Int32) (c : CliConfig) (l : LoopConfig) (env : String → Option String)
  | openFile (pid : Int32) (ok : Bool)
  | closeFile (pid : Int32) (written : ℕ)
  | setenv (pid : Int32)
  | program (pid : Int32) (e : ProgramEvent)
  | gone (pid : Int32)

/-- A program takes a step that may change a file. -/
def Machine.put (s : Machine) (pid : Int32) (p : Option Process) (files : String → Option String) :
    Machine := ⟨files, Function.update s.procs pid p⟩

/-- The program that was put under a process id. -/
lemma Machine.put_self {s : Machine} {pid : Int32} {p : Option Process}
    {files : String → Option String} : (s.put pid p files).procs pid = p := Function.update_self ..

/-- The programs under other process ids stay. -/
lemma Machine.put_of_ne {s : Machine} {pid pid' : Int32} {p : Option Process}
    {files : String → Option String} (h : pid' ≠ pid) :
    (s.put pid p files).procs pid' = s.procs pid' := Function.update_of_ne h ..

/-- The step of a program; `construct` is the end of the constructor. -/
def Process.step (p : Process) (files : String → Option String) (e : ProgramEvent) :
    Option Process :=
  match e with
  | .construct =>
    if p.config.sessionFile.isSome → p.making = .exported then
      (p.program.step p.config p.loop .construct).map fun r => { p with program := r }
    else none
  | .init true =>
    (p.program.step p.config p.loop (.init true)).map fun r =>
      { p with program := r, session := some (p.readSession files) }
  | e => (p.program.step p.config p.loop e).map fun r => { p with program := r }

/-- One step on the host. -/
def Machine.step (s : Machine) : MachineEvent → Option Machine
  | .spawn pid c l env =>
    match s.procs pid with
    | none => some (s.put pid (some (.initial c l env)) s.files)
    | some _ => none
  | .openFile pid ok =>
    (s.procs pid).bind fun p => p.config.sessionFile.bind fun f =>
      if p.making = .start then
        some (s.put pid (some { p with making := .opened, intact := ok })
          (if ok then Function.update s.files (f.path pid) (some "") else s.files))
      else none
  | .closeFile pid written =>
    (s.procs pid).bind fun p => p.config.sessionFile.bind fun f =>
      if p.making = .opened then
        some (if p.intact then
          s.put pid (some { p with making := .closed, intact := f.text.length ≤ written })
            (Function.update s.files (f.path pid)
              (some (String.ofList (f.text.toList.take written))))
          else s.put pid (some { p with making := .closed }) s.files)
      else none
  | .setenv pid =>
    (s.procs pid).bind fun p => p.config.sessionFile.bind fun f =>
      if p.making = .closed then
        some (s.put pid (some { p with
          making := .exported
          env := Function.update p.env f.envVar (some (f.path pid)) }) s.files)
      else none
  | .program pid e =>
    (s.procs pid).bind fun p => (p.step s.files e).map fun p' => s.put pid (some p') s.files
  | .gone pid => (s.procs pid).map fun _ => s.put pid none s.files

/-- A host without programs. -/
def Machine.fresh (files : String → Option String) : Machine := ⟨files, fun _ => none⟩

/-! ## What a step can do -/

/-- The first step of a program is the construction of its transport. -/
lemma Program.eq_construct {c : CliConfig} {l : LoopConfig} {e : ProgramEvent} {r : Program}
    (h : (Program.initial l).step c l e = some r) : e = .construct := by
  cases steps_of_step h with
  | construct | constructThrows => rfl
  | transport e tx tx' he hcalm htx => cases htx
  | callback e p hmay | dangle e p hmay =>
    obtain ⟨-, hset, -⟩ := hmay
    cases hset
  | signal hset => cases hset
  | _ => contradiction

/-- What a step of a program does to its process and to its file. -/
inductive Process.Moves (pid : Int32) (f : SessionFile) (p : Process)
    (files : String → Option String) : Process → (String → Option String) → Prop
  | opened (hmaking : p.making = .start) (ok : Bool) :
    Moves pid f p files { p with making := .opened, intact := ok }
      (if ok then Function.update files (f.path pid) (some "") else files)
  | written (hmaking : p.making = .opened) (written : ℕ) (hintact : p.intact = true) :
    Moves pid f p files { p with making := .closed, intact := f.text.length ≤ written }
      (Function.update files (f.path pid) (some (String.ofList (f.text.toList.take written))))
  | lost (hmaking : p.making = .opened) (hintact : p.intact = false) :
    Moves pid f p files { p with making := .closed } files
  | exported (hmaking : p.making = .closed) :
    Moves pid f p files { p with
      making := .exported
      env := Function.update p.env f.envVar (some (f.path pid)) } files
  | init (r : Program) (hconstructed : p.program = .initial p.loop → p.making = .exported) :
    Moves pid f p files { p with program := r, session := some (p.readSession files) } files
  | program (r : Program) (hconstructed : p.program = .initial p.loop → p.making = .exported) :
    Moves pid f p files { p with program := r } files

/-- **What a step of a program can do**, if its transport writes a file.

**Proof sketch.** The construction is over only when the constructor has done its last step, and
every other step of the program finds it constructed. -/
lemma Process.moves_of_step {pid : Int32} {f : SessionFile} {p p' : Process}
    {files : String → Option String} {e : ProgramEvent} (hf : p.config.sessionFile = some f)
    (h : p.step files e = some p') : p.Moves pid f files p' files := by
  have hconstruct {e : ProgramEvent} {r : Program} (hne : e ≠ .construct)
      (hstep : p.program.step p.config p.loop e = some r) (hinitial : p.program = .initial p.loop) :
      p.making = .exported := by
    rw [hinitial] at hstep
    exact absurd (Program.eq_construct hstep) hne
  unfold Process.step at h
  split at h
  · obtain ⟨hmaking, h⟩ := Option.ite_none_right_eq_some.mp h
    obtain ⟨r, -, rfl⟩ := Option.map_eq_some_iff.mp h
    exact .program r fun _ => hmaking (by rw [hf]; rfl)
  · obtain ⟨r, hstep, rfl⟩ := Option.map_eq_some_iff.mp h
    exact .init r (hconstruct (by simp) hstep)
  · obtain ⟨r, hstep, rfl⟩ := Option.map_eq_some_iff.mp h
    exact .program r (hconstruct (by assumption) hstep)

/-- The steps of a host: a program comes, is gone, or takes a step. -/
inductive Machine.Steps (s : Machine) : MachineEvent → Machine → Prop
  | spawn (pid : Int32) (c : CliConfig) (l : LoopConfig) (env : String → Option String) :
    Steps s (.spawn pid c l env) (s.put pid (some (.initial c l env)) s.files)
  | moves {e : MachineEvent} {files : String → Option String} (pid : Int32) (p p' : Process)
    (f : SessionFile) (hp : s.procs pid = some p) (hf : p.config.sessionFile = some f)
    (hmoves : p.Moves pid f s.files p' files) :
    Steps s e (s.put pid (some p') files)
  | plain {e : MachineEvent} (pid : Int32) (p p' : Process) (hp : s.procs pid = some p)
    (hf : p.config.sessionFile = none) (hconfig : p'.config = p.config) :
    Steps s e (s.put pid (some p') s.files)
  | gone (pid : Int32) : Steps s (.gone pid) (s.put pid none s.files)

/-- A step of a program does not change its configuration. -/
lemma Process.config_of_step {p p' : Process} {files : String → Option String} {e : ProgramEvent}
    (h : p.step files e = some p') : p'.config = p.config := by
  unfold Process.step at h
  split at h
  · obtain ⟨-, h⟩ := Option.ite_none_right_eq_some.mp h
    obtain ⟨r, -, rfl⟩ := Option.map_eq_some_iff.mp h
    rfl
  · obtain ⟨r, -, rfl⟩ := Option.map_eq_some_iff.mp h
    rfl
  · obtain ⟨r, -, rfl⟩ := Option.map_eq_some_iff.mp h
    rfl

/-- **Every step of a host is one of the listed ones.**

**Proof sketch.** One case for each event: its guards give the premises of the constructor. -/
theorem Machine.steps_of_step {s s' : Machine} {e : MachineEvent} (h : s.step e = some s') :
    s.Steps e s' := by
  cases e with
  | spawn pid c l env =>
    rw [step] at h
    split at h <;> cases h
    exact .spawn pid c l env
  | openFile pid ok =>
    obtain ⟨p, hp, h⟩ := Option.bind_eq_some_iff.mp h
    obtain ⟨f, hf, h⟩ := Option.bind_eq_some_iff.mp h
    obtain ⟨hmaking, h⟩ := Option.ite_none_right_eq_some.mp h
    cases h
    exact .moves pid p _ f hp hf (.opened hmaking ok)
  | closeFile pid written =>
    obtain ⟨p, hp, h⟩ := Option.bind_eq_some_iff.mp h
    obtain ⟨f, hf, h⟩ := Option.bind_eq_some_iff.mp h
    obtain ⟨hmaking, h⟩ := Option.ite_none_right_eq_some.mp h
    cases h
    split_ifs with hintact
    · exact .moves pid p _ f hp hf (.written hmaking written hintact)
    · exact .moves pid p _ f hp hf (.lost hmaking (Bool.eq_false_iff.mpr hintact))
  | setenv pid =>
    obtain ⟨p, hp, h⟩ := Option.bind_eq_some_iff.mp h
    obtain ⟨f, hf, h⟩ := Option.bind_eq_some_iff.mp h
    obtain ⟨hmaking, h⟩ := Option.ite_none_right_eq_some.mp h
    cases h
    exact .moves pid p _ f hp hf (.exported hmaking)
  | program pid e =>
    obtain ⟨p, hp, h⟩ := Option.bind_eq_some_iff.mp h
    obtain ⟨p', hstep, rfl⟩ := Option.map_eq_some_iff.mp h
    cases hf : p.config.sessionFile with
    | none => exact .plain pid p p' hp hf (Process.config_of_step hstep)
    | some f => exact .moves pid p p' f hp hf (Process.moves_of_step hf hstep)
  | gone pid =>
    obtain ⟨p, -, rfl⟩ := Option.map_eq_some_iff.mp h
    exact .gone pid

/-! ## Whose text is read -/

/-- What a process has done with its file; `K` is what can be in it. -/
structure Process.Own (K : Option String → Prop) (files : String → Option String) (pid : Int32)
    (f : SessionFile) (p : Process) : Prop where
  making : p.making ≠ .exported → p.program = .initial p.loop ∧ p.session = none
  written : p.making = .closed ∨ p.making = .exported → p.intact = true →
    files (f.path pid) = some f.text
  exported : p.making = .exported → p.env f.envVar = some (f.path pid)
  session : ∀ got, p.session = some got → fileVar p.middleware = some f.envVar →
    K got ∧ (p.intact = true → got = some f.text)

namespace Process

variable {K K' : Option String → Prop} {files files' : String → Option String} {pid : Int32}
  {f : SessionFile} {p p' : Process}

/-- A program that has just been started. -/
lemma own_initial {c : CliConfig} {l : LoopConfig} {env : String → Option String} :
    Own K files pid f (.initial c l env) := by
  refine ⟨fun _ => ⟨rfl, rfl⟩, ?_, ?_, ?_⟩
  · rintro (h | h) <;> cases h
  · intro h
    cases h
  · intro got h
    cases h

/-- **The steps of the others** do not touch the file of a process. -/
lemma Own.frame (h : Own K files pid f p) (hfile : files' (f.path pid) = files (f.path pid))
    (hK : ∀ got, K got → K' got) : Own K' files' pid f p where
  making := h.making
  written hmaking hintact := hfile.trans (h.written hmaking hintact)
  exported := h.exported
  session got hgot hvar := (h.session got hgot hvar).imp_left (hK got)

/-- **The steps of the process itself.**

**Proof sketch.** One case for each step. Opening and writing change the file of the process itself,
which is whole behind the last of them if everything was written; the middleware reads it through
the variable, which the constructor has set to its path. -/
lemma Own.moves (h : Own K files pid f p) (hK : K (files (f.path pid)))
    (hmoves : p.Moves pid f files p' files') : Own K files' pid f p' := by
  have hnone (hmaking : p.making ≠ .exported) {got : Option String} (hgot : p.session = some got) :
      False := by
    rw [(h.making hmaking).2] at hgot
    cases hgot
  have hexported (hconstructed : p.program = .initial p.loop → p.making = .exported) :
      p.making = .exported := by
    by_contra hmaking
    exact hmaking (hconstructed (h.making hmaking).1)
  cases hmoves with
  | opened hmaking ok =>
    have hne : p.making ≠ .exported := by simp [hmaking]
    refine ⟨fun _ => h.making hne, ?_, ?_, fun got hgot => (hnone hne hgot).elim⟩
    · rintro (h | h) <;> cases h
    · intro h
      cases h
  | written hmaking n hintact =>
    have hne : p.making ≠ .exported := by simp [hmaking]
    refine ⟨fun _ => h.making hne, fun _ hlen => ?_, ?_, fun got hgot => (hnone hne hgot).elim⟩
    · rw [Function.update_self, List.take_of_length_le]
      · rw [String.ofList_toList]
      · rw [String.length_toList]
        exact of_decide_eq_true hlen
    · intro h
      cases h
  | lost hmaking hintact =>
    have hne : p.making ≠ .exported := by simp [hmaking]
    refine ⟨fun _ => h.making hne, fun _ htrue => ?_, ?_, fun got hgot => (hnone hne hgot).elim⟩
    · rw [hintact] at htrue
      cases htrue
    · intro h
      cases h
  | exported hmaking =>
    have hne : p.making ≠ .exported := by simp [hmaking]
    refine ⟨fun hne => absurd rfl hne, fun _ => h.written (Or.inl hmaking), fun _ => ?_,
      fun got hgot => (hnone hne hgot).elim⟩
    exact Function.update_self ..
  | init r hconstructed =>
    have hmaking := hexported hconstructed
    refine ⟨fun hne => absurd hmaking hne, h.written, h.exported, ?_⟩
    rintro got hgot hvar
    have hread : p.readSession files = files (f.path pid) := by
      rw [readSession, show fileVar p.middleware = some f.envVar from hvar, Option.bind_some,
        h.exported hmaking, Option.bind_some]
    cases hgot
    rw [hread]
    exact ⟨hK, h.written (Or.inr hmaking)⟩
  | program r hconstructed =>
    exact ⟨fun hne => absurd (hexported hconstructed) hne, h.written, h.exported, h.session⟩

/-- **A process writes to its own file only**, and nothing but the beginning of its text.

**Proof sketch.** Case analysis on the move; only the opening and the writing of the file concern
it. -/
lemma Moves.writes (h : p.Moves pid f files p' files') : files' = files ∨
    ∃ text : String, text.toList <+: f.text.toList ∧
      files' = Function.update files (f.path pid) (some text) := by
  cases h with
  | opened hmaking ok =>
    cases ok with
    | false => exact Or.inl rfl
    | true => exact Or.inr ⟨"", List.nil_prefix, rfl⟩
  | written hmaking n =>
    refine Or.inr ⟨_, ?_, rfl⟩
    rw [String.toList_ofList]
    exact List.take_prefix n _
  | _ => exact Or.inl rfl

/-- A program keeps its configuration. -/
lemma Moves.config (h : p.Moves pid f files p' files') : p'.config = p.config := by
  cases h <;> rfl

end Process

/-- What can be at the path of a file after the steps `es`: what was there before them, or the
beginning of the text of a program that had the same process id and the same path. -/
def Left (files : String → Option String) (es : List MachineEvent) (pid : Int32) (f : SessionFile)
    (got : Option String) : Prop :=
  got = files (f.path pid) ∨
    ∃ c l env g, .spawn pid c l env ∈ es ∧ c.sessionFile = some g ∧ g.path pid = f.path pid ∧
      ∃ text : String, got = some text ∧ text.toList <+: g.text.toList

/-- What holds on a host. -/
structure Machine.Inv (files : String → Option String) (es : List MachineEvent) (s : Machine) :
    Prop where
  left : ∀ (pid : Int32) (c : CliConfig) (f : SessionFile), c.sessionFile = some f →
    Left files es pid f (s.files (f.path pid))
  spawned : ∀ pid p, s.procs pid = some p → ∃ l env, .spawn pid p.config l env ∈ es
  own : ∀ pid p f, s.procs pid = some p → p.config.sessionFile = some f →
    p.Own (Left files es pid f) s.files pid f

section Runs

variable {files files' : String → Option String} {es : List MachineEvent} {e : MachineEvent}
  {pid : Int32} {f : SessionFile} {got : Option String} {s s' : Machine}

/-- What was left at a path stays so when more events take place. -/
lemma Left.mono (h : Left files es pid f got) : Left files (es ++ [e]) pid f got := by
  refine h.imp_right ?_
  rintro ⟨c, l, env, g, hmem, hrest⟩
  exact ⟨c, l, env, g, List.mem_append_left _ hmem, hrest⟩

namespace Machine

/-- **A step that only replaces a program** by one that satisfies the invariant, or by none.

**Proof sketch.** A path whose file has changed belongs to this process id. The other programs have
other ids, and so other paths. -/
lemma Inv.put {q : Option Process} (h : s.Inv files es)
    (hfiles : ∀ (pid' : Int32) (c : CliConfig) (f : SessionFile), c.sessionFile = some f →
      files' (f.path pid') = s.files (f.path pid') ∨
        pid' = pid ∧ Left files (es ++ [e]) pid' f (files' (f.path pid')))
    (hspawned : ∀ p ∈ q, ∃ l env, .spawn pid p.config l env ∈ es ++ [e])
    (hown : ∀ p ∈ q, ∀ f, p.config.sessionFile = some f →
      p.Own (Left files (es ++ [e]) pid f) files' pid f) :
    (s.put pid q files').Inv files (es ++ [e]) := by
  refine ⟨fun pid' c f hf => ?_, fun pid' p hp => ?_, fun pid' p f hp hf => ?_⟩
  · rcases hfiles pid' c f hf with heq | ⟨-, hleft⟩
    · change Left files (es ++ [e]) pid' f (files' (f.path pid'))
      rw [heq]
      exact (h.left pid' c f hf).mono
    · exact hleft
  · by_cases hpid : pid' = pid
    · subst hpid
      rw [put_self] at hp
      exact hspawned p hp
    · rw [put_of_ne hpid] at hp
      obtain ⟨l, env, hmem⟩ := h.spawned pid' p hp
      exact ⟨l, env, List.mem_append_left _ hmem⟩
  · by_cases hpid : pid' = pid
    · subst hpid
      rw [put_self] at hp
      exact hown p hp f hf
    · rw [put_of_ne hpid] at hp
      refine (h.own pid' p f hp hf).frame ?_ fun _ => Left.mono
      exact (hfiles pid' p.config f hf).resolve_right fun hr => hpid hr.1

/-- **Every step keeps the invariant.**

**Proof sketch.** The steps that start, end or only continue a program change no file. A step of a
constructor changes the file at its own path, which no other program has (`SessionFile.path_inj`),
and leaves the beginning of its text there. -/
lemma Inv.step (h : s.Inv files es) (hs : s.step e = some s') : s'.Inv files (es ++ [e]) := by
  cases steps_of_step hs with
  | spawn pid c l env =>
    refine h.put (fun _ _ _ _ => Or.inl rfl) ?_ ?_
    · intro p hp
      obtain rfl := Option.some.inj hp
      exact ⟨l, env, List.mem_append_right _ List.mem_cons_self⟩
    · intro p hp f _
      obtain rfl := Option.some.inj hp
      exact Process.own_initial
  | gone pid =>
    refine h.put (fun _ _ _ _ => Or.inl rfl) ?_ ?_
    · intro p hp
      exact absurd hp (Option.not_mem_none p)
    · intro p hp
      exact absurd hp (Option.not_mem_none p)
  | plain pid p p' hp hf hconfig =>
    refine h.put (fun _ _ _ _ => Or.inl rfl) ?_ ?_
    · intro q hq
      obtain rfl := Option.some.inj hq
      obtain ⟨l, env, hmem⟩ := h.spawned pid p hp
      exact ⟨l, env, List.mem_append_left _ (hconfig ▸ hmem)⟩
    · intro q hq f hf'
      obtain rfl := Option.some.inj hq
      rw [hconfig, hf] at hf'
      cases hf'
  | moves pid p p' f hp hf hmoves =>
    have hspawned : ∃ l env, .spawn pid p'.config l env ∈ es ++ [e] := by
      obtain ⟨l, env, hmem⟩ := h.spawned pid p hp
      exact ⟨l, env, List.mem_append_left _ (hmoves.config ▸ hmem)⟩
    refine h.put ?_ ?_ ?_
    · intro pid' c g hg
      rcases hmoves.writes with heq | ⟨text, hprefix, heq⟩
      · exact Or.inl (congrFun heq _)
      by_cases hpath : g.path pid' = f.path pid
      · obtain ⟨rfl, -⟩ := SessionFile.path_inj hg hf hpath
        refine Or.inr ⟨rfl, Or.inr ?_⟩
        obtain ⟨l, env, hmem⟩ := hspawned
        refine ⟨p'.config, l, env, f, hmem, ?_, hpath.symm, text, ?_, hprefix⟩
        · rw [hmoves.config, hf]
        · rw [heq, hpath, Function.update_self]
      · exact Or.inl (heq ▸ Function.update_of_ne hpath ..)
    · intro q hq
      obtain rfl := Option.some.inj hq
      exact hspawned
    · intro q hq g hg
      obtain rfl := Option.some.inj hq
      rw [hmoves.config, hf] at hg
      cases hg
      exact ((h.own pid p f hp hf).frame rfl fun _ => Left.mono).moves
        (h.left pid p.config f hf).mono hmoves

/-- **In every run of the programs of a host.** -/
theorem inv_of_run (h : run step (fresh files) es = some s) : s.Inv files es := by
  refine run_invariant (fun es s => s.Inv files es) ?_ ?_ h
  · refine ⟨fun _ _ _ _ => Or.inl rfl, fun pid p hp => ?_, fun pid p f hp => ?_⟩
    · exact absurd hp (Option.not_mem_none p)
    · exact absurd hp (Option.not_mem_none p)
  · intro es s e s' _ ih hs
    exact ih.step hs

end Machine

end Runs

/-- Any number of programs on one host, which come and go in any order, with process ids that are
used again, and with files of earlier programs left behind. When the middleware of a program has
been initialised, and looks in the variable that the program's transport sets, then it has read the
text of this program's own configuration if the program could write its file. In any case it has
read the beginning of the text of a program with the same process id and path, or what was there
before the first of them.

**Proof sketch.** Two programs that write to one path have the same process id
(`SessionFile.path_inj`), so while a program has its id, only its own steps change its file. The
invariant (`Machine.inv_of_run`) follows these steps from the opening of the file to the reading. -/
theorem session_own {files : String → Option String} {es : List MachineEvent} {s : Machine}
    (h : run Machine.step (Machine.fresh files) es = some s) {pid : Int32} {p : Process}
    (hp : s.procs pid = some p) {f : SessionFile} (hf : p.config.sessionFile = some f)
    (hvar : fileVar p.middleware = some f.envVar) {got : Option String}
    (hgot : p.session = some got) :
    (p.intact = true → got = some f.text) ∧ Left files es pid f got := by
  obtain ⟨hleft, hown⟩ := ((Machine.inv_of_run h).own pid p f hp hf).session got hgot hvar
  exact ⟨hown, hleft⟩

/-- The programs of the two roles on one host, over Zenoh. -/
def localConfig : Role → CliConfig
  | .a => { transport := .zenohP2p, peerIp := "192.168.1.11" }
  | .b => { role := .b, transport := .zenohP2p, peerIp := "192.168.1.10" }

/-- The two programs are constructed at the same time, and then initialised. -/
def localEvents : List MachineEvent :=
  let env := fun v => if v = "RMW_IMPLEMENTATION" then some "rmw_zenoh_cpp" else none
  [.spawn 100 (localConfig .a) ⟨2000000, 0, 120000000000, true⟩ env,
    .spawn 200 (localConfig .b) ⟨2000000, 0, 120000000000, true⟩ env,
    .openFile 100 true, .openFile 200 true, .closeFile 200 400, .closeFile 100 400, .setenv 100,
    .setenv 200, .program 200 .construct, .program 100 .construct, .program 200 (.init true),
    .program 100 (.init true)]

/-- The program in the role `a` has read its own configuration.

**Proof sketch.** The run is computed, and `session_own` says that a file that is intact is the own
one. -/
theorem session_own_local : ∃ s p,
    run Machine.step (Machine.fresh fun _ => none) localEvents = some s ∧ s.procs 100 = some p ∧
      p.session = some (some (writePeerConfig "192.168.1.11" 7447).text) := by
  have hview : ((run Machine.step (Machine.fresh fun _ => none) localEvents).bind
      fun s => s.procs 100).map
        (fun p => (p.config.sessionFile, fileVar p.middleware, p.intact, p.session.isSome)) =
      some (some (writePeerConfig "192.168.1.11" 7447), some "ZENOH_SESSION_CONFIG_URI", true,
        true) := by
    decide +kernel
  obtain ⟨p, hp, hp'⟩ := Option.map_eq_some_iff.mp hview
  obtain ⟨s, hs, hp⟩ := Option.bind_eq_some_iff.mp hp
  simp only [Prod.mk.injEq] at hp'
  obtain ⟨hf, hvar, hintact, hsome⟩ := hp'
  obtain ⟨got, hgot⟩ := Option.isSome_iff_exists.mp hsome
  refine ⟨s, p, hs, hp, ?_⟩
  rw [hgot, (session_own hs hp hf hvar hgot).1 hintact]

end CommBench
