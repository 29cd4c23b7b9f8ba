import CommBench.Lib.Shell
import CommBench.Lib.Trace

set_option relaxedAutoImplicit false
set_option autoImplicit false

/-!
# The set-up of the tunnel

`setup_wg.sh` is run on PC b and on PC c, first to generate a key pair and to print its public
key, then with the public key of the other PC to write the configuration of WireGuard and to bring
the tunnel up. The operator carries the public keys from one PC to the other.

The keys are in `/etc/wireguard`, which the script itself makes accessible to root only. Its
commands run under `sudo`, but its tests `[[ ! -s … ]]` run as the user who calls it. For another
user than root they find no file.

## Main definitions

* `CommBench.Wg.Pc` — a PC, as far as the script sees it.
* `CommBench.Wg.setupWg` — the script.
* `CommBench.Wg.Invocation`, `CommBench.Wg.step` — an invocation on one of the two PCs.
* `CommBench.Wg.Tunnel` — two configurations that make a tunnel.

## Design

A file is known by its content, without the newline at its end. A command may fail for a reason
outside of the model, and the conduct of the machine says which commands do. The keys are generated
by a pipeline, whose status is that of its last command, `wg pubkey`: a `tee` that cannot write the
private key to its file still passes it on, and the script does not notice. A `wg pubkey` that
succeeds has written its file. A configuration that a failed `tee` has not written whole counts as
none. An invocation may be killed between any two of its commands, and names the PC that it runs
on. The routes and the rules of the firewall, which `wg-quick` sets up by `PostUp`, are left out.
-/

namespace CommBench.Wg

open Shell

/-! ## The state -/

/-- The two PCs. -/
inductive Host
  | b
  | c
  deriving DecidableEq

/-- `OTHER` -/
def Host.other : Host → Host
  | .b => .c
  | .c => .b

/-- The variables that the script sets for its host. -/
structure Vars where
  selfIp : String
  peerIp : String
  peerNet : String
  peerEndpoint : String

/-- The `case` over the host. -/
def vars : Host → Vars
  | .b => ⟨"10.99.0.1", "10.99.0.2", "10.42.2.0/24", "12.56.52.76:51820"⟩
  | .c => ⟨"10.99.0.2", "10.99.0.1", "10.42.0.0/24", ""⟩

/-- `/etc/wireguard/wg0.conf`: the private key and the address `selfIp/30` of the interface, and
the public key, the endpoint and the allowed addresses of the peer. -/
structure Conf where
  privateKey : String
  selfIp : String
  publicKey : String
  endpoint : Option String
  allowedIPs : List String
  deriving DecidableEq

/-- The text that the script writes to the file. -/
def heredoc (host : Host) (privVal peerPub : String) : Conf where
  privateKey := privVal
  selfIp := (vars host).selfIp
  publicKey := peerPub
  endpoint := if (vars host).peerEndpoint ≠ "" then some (vars host).peerEndpoint else none
  allowedIPs := [(vars host).peerNet, (vars host).peerIp ++ "/32"]

/-- A public key that was printed: as the one of the PC, or as the one of its peer. -/
inductive Printed
  | own (pub : String)
  | peer (pub : String)
  deriving DecidableEq

/-- A PC: whether `wg` is installed, the files of the private and of the public key, the
configuration, the one that `wg0` is up with, and the public keys that were printed. -/
structure Pc where
  installed : Bool
  priv : Option String
  pub : Option String
  conf : Option Conf
  link : Option Conf
  screen : List Printed
  deriving DecidableEq

/-- `PRIV_VAL`, empty where there is no file. -/
def Pc.privVal (pc : Pc) : String := pc.priv.getD ""

/-- `PUB_VAL`, empty where there is no file. -/
def Pc.pubVal (pc : Pc) : String := pc.pub.getD ""

/-- The configurations on a PC. -/
def Pc.confs (pc : Pc) : List Conf := pc.conf.toList ++ pc.link.toList

/-- `wg pubkey`. The keys of WireGuard have 44 characters. -/
structure Tool where
  pubkey : String → String
  pubkey_length : ∀ key, key.utf8ByteSize = 44 → (pubkey key).utf8ByteSize = 44

/-! ## The commands -/

/-- The commands of the script. -/
inductive Cmd
  /-- `sudo apt update -qq && sudo apt install -y wireguard` -/
  | apt
  /-- `sudo sh -c "wg genkey | tee PRIV | wg pubkey > PUB"` -/
  | genkey
  /-- `sudo cat PUB` -/
  | catPub
  /-- `sudo cat PRIV` -/
  | catPriv
  /-- `sudo wg-quick down wg0` -/
  | wgDown
  /-- `sudo tee CONF` -/
  | tee (conf : Conf)
  /-- `sudo wg-quick up wg0` -/
  | wgUp
  /-- `sudo wg show wg0` -/
  | wgShow
  /-- The `echo` of the public key. -/
  | echo (pub : String)
  /-- A command whose effect is outside of the model. -/
  | other (what : String)
  deriving DecidableEq

/-- How the machine conducts itself during an invocation: the commands that fail, with one less
than their status; whether `apt update` fails, behind which `set -e` lets the script go on; the
key that `wg genkey` generates; what is in the file of the private key where the `tee` of the
pipeline has not written this key to it; whether a failed `wg pubkey` has emptied its file; and
whether a failed `tee` of the configuration has. -/
structure Conduct where
  failure : Cmd → Option ℕ
  updateFails : Bool
  key : String
  key_length : key.utf8ByteSize = 44
  spoiled : Option (Option String)
  emptied : Bool
  truncates : Bool

/-- The generation of the keys hides no failure: where it has the status `0`, the private key was
written as well. -/
def Conduct.Unmasked (conduct : Conduct) : Prop :=
  conduct.failure .genkey = none → conduct.spoiled = none

instance (conduct : Conduct) : Decidable conduct.Unmasked := inferInstanceAs (Decidable (_ → _))

/-- What a command does when nothing outside of the model keeps it from it. -/
def Cmd.perform (tool : Tool) (conduct : Conduct) (pc : Pc) : Cmd → Pc × ℕ
  | .apt => ({ pc with installed := pc.installed || !conduct.updateFails }, 0)
  | .genkey =>
    -- the status is that of `wg pubkey`, which gets the key also from a `tee` that fails
    if pc.installed then
      ({ pc with
        priv := conduct.spoiled.getD (some conduct.key)
        pub := some (tool.pubkey conduct.key) }, 0)
    else ({ pc with priv := conduct.spoiled.getD (some ""), pub := some "" }, 127)
  | .catPub => (pc, if pc.pub.isSome then 0 else 1)
  | .catPriv => (pc, if pc.priv.isSome then 0 else 1)
  | .wgDown => if pc.link.isSome then ({ pc with link := none }, 0) else (pc, 1)
  | .tee conf => ({ pc with conf := some conf }, 0)
  | .wgUp =>
    match pc.link, pc.conf with
    | none, some conf =>
      if conf.privateKey.utf8ByteSize = 44 ∧ conf.publicKey.utf8ByteSize = 44 then
        ({ pc with link := some conf }, 0)
      else (pc, 1)
    | _, _ => (pc, 1)
  | .wgShow =>
    match pc.link with
    -- the listing has the public keys of the interface and of the peer
    | some conf =>
      ({ pc with
        screen := pc.screen ++ [.own (tool.pubkey conf.privateKey), .peer conf.publicKey] }, 0)
    | none => (pc, 1)
  | .echo pub => ({ pc with screen := pc.screen ++ [.own pub] }, 0)
  | .other _ => (pc, 0)

/-- What a command does when it fails. -/
def Cmd.fail (conduct : Conduct) (pc : Pc) : Cmd → Pc
  | .genkey =>
    { pc with
      priv := conduct.spoiled.getD (some conduct.key)
      pub := if conduct.emptied then some "" else pc.pub }
  | .tee _ => if conduct.truncates then { pc with conf := none } else pc
  | _ => pc

/-- What a command does, with its exit status. -/
def eff (tool : Tool) (conduct : Conduct) (cmd : Cmd) (pc : Pc) : Pc × ℕ :=
  match conduct.failure cmd with
  | none => cmd.perform tool conduct pc
  | some k => (cmd.fail conduct pc, k + 1)

/-! ## The script -/

/-- Install WireGuard if it is missing. -/
def install : Script Cmd Pc := .ite (fun pc => pc.installed) .skip (.run .apt)

/-- Generate the keys unless both files are there. The test finds them only when root runs the
script. -/
def ensureKeys (asRoot : Bool) : Script Cmd Pc :=
  .ite (fun pc => asRoot ∧ pc.privVal ≠ "" ∧ pc.pubVal ≠ "") .skip
    ((Script.run .genkey).seq (.run (.other "chmod 600 PRIV")))

/-- Write the configuration and bring the tunnel up. -/
def bringUp (host : Host) (peerPub privVal : String) : Script Cmd Pc :=
  (Script.attempt .wgDown).seq <|
  (Script.attempt (.other "ip link set gre1 down")).seq <|
  (Script.attempt (.other "ip tunnel del gre1")).seq <|
  (Script.attempt (.other "ip route del PEER_NET")).seq <|
  (Script.run (.tee (heredoc host privVal peerPub))).seq <|
  (Script.run (.other "chmod 600 CONF")).seq <|
  (Script.run .wgUp).seq (.run .wgShow)

/-- The mode with the public key of the peer. -/
def applyMode (host : Host) (peerPub : String) : Script Cmd Pc :=
  .ite (fun _ => peerPub.utf8ByteSize ≠ 44) (.exit 1) <|
    (Script.run .catPriv).seq (.capture Pc.privVal (bringUp host peerPub))

/-- `setup_wg.sh HOST [PEER_PUB]`, where a missing argument is empty. -/
def setupWg (host : Host) (asRoot : Bool) (peerPub : String) : Script Cmd Pc :=
  install.seq <|
  (Script.run (.other "mkdir -p /etc/wireguard")).seq <|
  (Script.run (.other "chmod 700 /etc/wireguard")).seq <|
  (ensureKeys asRoot).seq <|
  (Script.run .catPub).seq <|
  .capture Pc.pubVal fun pubVal =>
    .ite (fun _ => peerPub = "") ((Script.run (.echo pubVal)).seq (.exit 0))
      (applyMode host peerPub)

/-! ## Invocations on both PCs -/

/-- An invocation of the script on a PC, by root or by another user, which may be killed after any
number of its commands. -/
structure Invocation where
  host : Host
  asRoot : Bool
  peerPub : String
  conduct : Conduct
  limit : ℕ

/-- Carry out an invocation. -/
def Invocation.exec (tool : Tool) (inv : Invocation) (pc : Pc) : Result Pc :=
  (setupWg inv.host inv.asRoot inv.peerPub).exec (eff tool inv.conduct) inv.limit pc

/-- An invocation changes the PC that it runs on. -/
def step (tool : Tool) (s : Host → Pc) (inv : Invocation) : Option (Host → Pc) :=
  some (Function.update s inv.host (inv.exec tool (s inv.host)).state)

/-- The PCs before any invocation: without keys and configurations. -/
def fresh (installed : Host → Bool) (X : Host) : Pc := ⟨installed X, none, none, none, none, []⟩

/-- Two configurations make a tunnel: each names the public key and allows the address of the
other, and one of them knows where the other is. -/
structure Tunnel (tool : Tool) (mine theirs : Conf) : Prop where
  key : mine.publicKey = tool.pubkey theirs.privateKey
  key' : theirs.publicKey = tool.pubkey mine.privateKey
  ip : theirs.selfIp ++ "/32" ∈ mine.allowedIPs
  ip' : mine.selfIp ++ "/32" ∈ theirs.allowedIPs
  endpoint : mine.endpoint ≠ none ∨ theirs.endpoint ≠ none

/-! ## A machine -/

/-- Four private keys with their public keys; the public key of another one is left open. -/
def sampleTool : Tool where
  pubkey key :=
    if key = "6P0IpxUuGpAZkCaDHQi005bdTqfRsJMKi8o0q960CVo=" then
      "JChmhoalyNZt775i695FK09OBOvrFb1utX4h6fmwjlY="
    else if key = "4OHraC6Lo0f11+MeCq9usEpdjMk+yt6Xu+BTJXGFoVI=" then
      "NO3+IbQxgWny2FvN67UmMWVYCjbWqpc/SfQ4koFoZCU="
    else if key = "IHlDpe7LMa/J6BppkvJHph1bxroRt0FUEMq2gQNc/m8=" then
      "J/+o6H3KLTfOCJ1Nc4CvtEZ10Mg/GS3vWizwYx7Ikjk="
    else "o8L2aSBEy83bwPJncpTy+vQonmBG37P9YGN5UTru9gY="
  pubkey_length key _ := by
    split_ifs <;> decide

/-- The first of the four keys has the length of a key. -/
lemma length_sampleKey : "6P0IpxUuGpAZkCaDHQi005bdTqfRsJMKi8o0q960CVo=".utf8ByteSize = 44 := by
  decide

/-- A machine on which every command does what it should. -/
def fine (key : String) (hkey : key.utf8ByteSize = 44) : Conduct where
  failure _ := none
  updateFails := false
  key := key
  key_length := hkey
  spoiled := none
  emptied := false
  truncates := false

end CommBench.Wg
