import Mathlib.Data.List.MinMax
import CommBench.Lib.Shell

set_option relaxedAutoImplicit false
set_option autoImplicit false

/-!
# The mode switch of PC c

`pc_c_mode.sh` switches the path of `10.42.0.0/24` on PC c between the hub interface and the
WireGuard tunnel. Its state is that of four stores: the hub-side connection of NetworkManager
with its address, the routes of the network, the forwarding switch of the kernel, and the forward
chain of the interface to PC d.

## Main definitions

* `CommBench.PcC.Net` — the four stores, for the network `10.42.0.0/24`.
* `CommBench.PcC.Site` — the environment variables of the script and the hub-side connection.
* `CommBench.PcC.eff` — what a command does, given how the machine conducts itself.
* `CommBench.PcC.pcCMode` — the script.
* `CommBench.PcC.after` — the state after a sequence of invocations.

## Design

A command that takes effect exits with `0`. A command may also fail for a reason outside of the
model; the conduct of the machine says which commands do, and what NetworkManager does in the two
cases that it leaves open. The queries of the script (`nft list chain`, `ip route show`, `nmcli`)
are taken not to fail, and read the state as it is. The listing of the connections is given by its
columns, for a name without a colon, and the `grep` patterns by the fields of a route or a rule
that they match.
-/

namespace CommBench.PcC

open Shell

/-! ## The state -/

/-- A route for `10.42.0.0/24`. -/
structure Route where
  via : Option String
  dev : String
  metric : ℕ
  deriving DecidableEq

/-- A rule of the forward chain: the interfaces that it matches, what else it matches, and
whether it accepts. -/
structure Rule where
  iifname : Option String
  oifname : Option String
  more : String
  accept : Bool
  deriving DecidableEq

/-- The state of PC c. `chain` is the chain `nm-sh-fw-<D_IFACE>`, if it exists. -/
structure Net where
  wgLink : Bool
  hubActive : Bool
  hubAddr : Bool
  routes : List Route
  ipForward : Bool
  chain : Option (List Rule)
  deriving DecidableEq

/-- The variables of the script, the name of the connection of the hub interface, and the metric
that NetworkManager gives its connected route. -/
structure Site where
  hubIface : String
  wgIface : String
  wgGateway : String
  connName : String
  connMetric : ℕ
  hubIface_ne_nil : hubIface ≠ ""
  connName_ne_nil : connName ≠ ""
  hubIface_ne_wgIface : hubIface ≠ wgIface

/-- The route over the tunnel. -/
def Site.wgRoute (site : Site) : Route := ⟨some site.wgGateway, site.wgIface, 0⟩

/-- A connected route of the hub interface. -/
def Site.hubRoute (site : Site) (metric : ℕ) : Route := ⟨none, site.hubIface, metric⟩

/-- The rule `iifname "wg0" accept`. -/
def Site.iifRule (site : Site) : Rule := ⟨some site.wgIface, none, "", true⟩

/-- The rule `oifname "wg0" accept`. -/
def Site.oifRule (site : Site) : Rule := ⟨none, some site.wgIface, "", true⟩

/-- `ip route show … | grep "via … dev …"`, and the selector of `ip route del`. -/
def Route.isOn (via : Option String) (dev : String) (r : Route) : Bool :=
  r.dev = dev ∧ (via = none ∨ r.via = via)

namespace Net

/-- Route lookup takes the lowest metric. -/
def device (net : Net) : Option String := (net.routes.argmin Route.metric).map Route.dev

/-- `nmcli -t -f NAME,DEVICE c show`, with or without `--active`: a device is printed only for an
active connection. -/
def nmcliShow (site : Site) (net : Net) (active : Bool) : List (String × String) :=
  if net.hubActive then [(site.connName, site.hubIface)]
  else if active then [] else [(site.connName, "")]

/-- `awk -F: -v d=… '$2==d{print $1; exit}'` -/
def awkName (d : String) (rows : List (String × String)) : String :=
  match rows.find? fun row => row.2 = d with
  | some row => row.1
  | none => ""

/-- `nft list chain … | grep -q "iifname … .*accept"` -/
def acceptsIif (site : Site) (net : Net) : Bool :=
  (net.chain.getD []).any fun rule => rule.iifname = some site.wgIface ∧ rule.accept

/-- The hub-side connection goes down, with its address and its routes. -/
def disconnect (site : Site) (net : Net) : Net :=
  { net with
    hubActive := false
    hubAddr := false
    routes := net.routes.filter fun r => r.dev ≠ site.hubIface }

/-- The hub-side connection comes up, with its address and, unless that is added with
`noprefixroute`, with its connected route. -/
def connect (site : Site) (prefixRoute : Bool) (net : Net) : Net :=
  { net with
    hubActive := true
    hubAddr := true
    routes := (net.disconnect site).routes ++
      if prefixRoute then [site.hubRoute site.connMetric] else [] }

end Net

/-! ## The commands -/

/-- The commands of the script that run a program on the state. -/
inductive Cmd
  /-- `sudo nmcli c down NAME` -/
  | nmcliDown (name : String)
  /-- `sudo nmcli c up NAME` -/
  | nmcliUp (name : String)
  /-- `sudo ip route del 10.42.0.0/24 [via VIA] dev DEV` -/
  | routeDel (via : Option String) (dev : String)
  /-- `sudo ip route add 10.42.0.0/24 …` -/
  | routeAdd (r : Route)
  /-- `echo 1 | sudo tee /proc/sys/net/ipv4/ip_forward` -/
  | teeForward
  /-- `sudo nft "insert rule ip filter CHAIN …"` -/
  | nftInsert (rule : Rule)
  /-- A command that only prints. -/
  | display (what : String)
  deriving DecidableEq

/-- How the machine conducts itself during an invocation: the commands that fail, with one less
than their status, whether an activation adds the connected route, and whether a failed
activation takes the connection down. -/
structure Conduct where
  failure : Cmd → Option ℕ
  prefixRoute : Bool
  drops : Bool

/-- What a command does when nothing outside of the model keeps it from it. -/
def Cmd.perform (site : Site) (conduct : Conduct) (net : Net) : Cmd → Net × ℕ
  | .nmcliDown name =>
    if name = site.connName ∧ net.hubActive then (net.disconnect site, 0) else (net, 10)
  | .nmcliUp name =>
    if name = site.connName then (net.connect site conduct.prefixRoute, 0) else (net, 10)
  | .routeDel via dev =>
    if net.routes.any (Route.isOn via dev) then
      ({ net with routes := net.routes.eraseP (Route.isOn via dev) }, 0)
    else (net, 2)
  | .routeAdd r =>
    -- a second route of the same metric is refused with `File exists`
    if net.routes.any fun r' => r'.metric = r.metric then (net, 2)
    else ({ net with routes := net.routes ++ [r] }, 0)
  | .teeForward => ({ net with ipForward := true }, 0)
  | .nftInsert rule =>
    match net.chain with
    | some rules => ({ net with chain := some (rule :: rules) }, 0)
    | none => (net, 1)
  | .display _ => (net, 0)

/-- What a command does when it fails. -/
def Cmd.fail (site : Site) (conduct : Conduct) (net : Net) : Cmd → Net
  | .nmcliUp name => if name = site.connName ∧ conduct.drops then net.disconnect site else net
  | _ => net

/-- What a command does, with its exit status. -/
def eff (site : Site) (conduct : Conduct) (cmd : Cmd) (net : Net) : Net × ℕ :=
  match conduct.failure cmd with
  | none => cmd.perform site conduct net
  | some k => (cmd.fail site conduct net, k + 1)

/-! ## The script -/

section Script

variable (site : Site)

/-- `show_status`: the last line is the only one whose failure is not ignored. -/
def showStatus : Script Cmd Net :=
  (Script.attempt (.display "ip route show")).seq <|
  (Script.attempt (.display "ip route get")).seq <|
  (Script.attempt (.display "ip -br a show HUB_IFACE")).seq <|
  (Script.attempt (.display "ip -br a show WG_IFACE")).seq <|
  .run (.display "cat /proc/sys/net/ipv4/ip_forward")

/-- `ensure_forward` -/
def ensureForward : Script Cmd Net := .ite (fun net => net.ipForward) .skip (.run .teeForward)

/-- Mode `abcd`: the WireGuard interface must be there. -/
def checkWg : Script Cmd Net := .ite (fun net => net.wgLink) .skip (.exit 1)

/-- Mode `abcd`: bring down the hub-side connection, and drop a route that was added by hand. -/
def lowerHub : Script Cmd Net :=
  .capture (fun net => Net.awkName site.hubIface (net.nmcliShow site true)) fun connName =>
    (Script.ite (fun _ => connName ≠ "") (.attempt (.nmcliDown connName)) .skip).seq
      (.attempt (.routeDel none site.hubIface))

/-- Mode `abcd`: ensure the route over the tunnel. -/
def addWgRoute : Script Cmd Net :=
  .ite (fun net => net.routes.any (Route.isOn (some site.wgGateway) site.wgIface)) .skip
    (.run (.routeAdd site.wgRoute))

/-- Mode `abcd`: accept forwarded packets from and to the tunnel. -/
def acceptWg : Script Cmd Net :=
  .ite (fun net => net.chain.isSome)
    (.ite (fun net => net.acceptsIif site) .skip
      ((Script.run (.nftInsert site.iifRule)).seq (.run (.nftInsert site.oifRule))))
    .skip

/-- Mode `abcd`. -/
def abcd : Script Cmd Net :=
  checkWg.seq <| (lowerHub site).seq <| (addWgRoute site).seq <| ensureForward.seq <|
    (acceptWg site).seq showStatus

/-- Mode `clean_lan`: remove the route over the tunnel. -/
def delWgRoute : Script Cmd Net :=
  .ite (fun net => net.routes.any (Route.isOn (some site.wgGateway) site.wgIface))
    (.run (.routeDel (some site.wgGateway) site.wgIface)) .skip

/-- Mode `clean_lan`: bring the hub-side connection back up. -/
def raiseHub : Script Cmd Net :=
  .capture (fun net => Net.awkName site.hubIface (net.nmcliShow site false)) fun connName =>
    .ite (fun _ => connName ≠ "") (.attempt (.nmcliUp connName)) .skip

/-- Mode `clean_lan`: add the connected route if it is missing. -/
def addHubRoute : Script Cmd Net :=
  .ite (fun net => net.hubAddr)
    (.ite (fun net => net.routes.any (Route.isOn none site.hubIface)) .skip
      (.run (.routeAdd (site.hubRoute 0))))
    .skip

/-- Mode `clean_lan`. -/
def cleanLan : Script Cmd Net :=
  (delWgRoute site).seq <| (raiseHub site).seq <| (addHubRoute site).seq <|
    ensureForward.seq showStatus

/-- `pc_c_mode.sh MODE` -/
def pcCMode (mode : String) : Script Cmd Net :=
  match mode with
  | "abcd" => abcd site
  | "clean_lan" => cleanLan site
  | "status" => showStatus
  | "" => showStatus
  | _ => .exit 1

end Script

/-- An invocation of the script, which may be killed after any number of its commands. -/
structure Invocation where
  mode : String
  conduct : Conduct
  limit : ℕ

/-- Carry out an invocation. -/
def Invocation.exec (site : Site) (inv : Invocation) (net : Net) : Result Net :=
  (pcCMode site inv.mode).exec (eff site inv.conduct) inv.limit net

/-- The state after a sequence of invocations. -/
def after (site : Site) (net : Net) (invs : List Invocation) : Net :=
  invs.foldl (fun net inv => (inv.exec site net).state) net

end CommBench.PcC
