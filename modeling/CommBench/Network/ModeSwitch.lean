import CommBench.Network.PcCMode

set_option relaxedAutoImplicit false
set_option autoImplicit false

/-!
# What a mode of PC c leaves behind

Every invocation of `pc_c_mode.sh`, wherever it stops, keeps an invariant of the routes, so the
guards of the next one decide what they are meant to decide, with two exceptions. The switch to
the clean LAN looks for the hub-side connection in a listing that names the interface of an
active connection only, so it does not bring up the connection that the other mode took down.
And the switch to the tunnel takes one of the two rules of the forward chain for both of them.

## Main definitions

* `CommBench.PcC.Inv` — the invariant of the invocations.
* `CommBench.PcC.AbcdMode`, `CommBench.PcC.CleanLanMode` — what the two modes promise.

## Main results

* `CommBench.PcC.inv_after` — the invariant holds after every sequence of invocations.
* `CommBench.pcCMode_iff` — when an invocation that exits with `0` keeps the promise of its mode.
* `CommBench.pcCMode_stays_down` — the hub-side connection stays down.
-/

namespace CommBench

open Shell

namespace PcC

/-! ## The invariant -/

/-- The tunnel is there, the address of the hub interface is that of its connection, and the
routes are those of the hub interface and at most one over the tunnel, which no other one
precedes. -/
structure Inv (site : Site) (net : Net) : Prop where
  wgLink : net.wgLink = true
  addr : net.hubAddr = net.hubActive
  routes : ∀ r ∈ net.routes, r.dev = site.hubIface ∨ r = site.wgRoute
  once : net.routes.count site.wgRoute ≤ 1
  best : site.wgRoute ∈ net.routes → ∀ r ∈ net.routes, r.dev = site.hubIface → 0 < r.metric

/-- The state from which the invocations start. -/
structure Start (site : Site) (net : Net) : Prop where
  wgLink : net.wgLink = true
  hubActive : net.hubActive = true
  hubAddr : net.hubAddr = true
  routes : ∀ r ∈ net.routes, r.dev = site.hubIface

section Inv

variable {site : Site} {conduct : Conduct} {net net' : Net}

/-- No route of the hub interface is the one over the tunnel. -/
lemma ne_wgRoute {r : Route} (h : r.dev = site.hubIface) : r ≠ site.wgRoute := by
  rintro rfl
  exact site.hubIface_ne_wgIface h.symm

/-- The state from which the invocations start satisfies the invariant. -/
lemma inv_of_start (h : Start site net) : Inv site net := by
  have hwg : site.wgRoute ∉ net.routes := fun hmem => ne_wgRoute (h.routes _ hmem) rfl
  constructor
  · exact h.wgLink
  · rw [h.hubAddr, h.hubActive]
  · exact fun r hr => Or.inl (h.routes r hr)
  · rw [List.count_eq_zero.mpr hwg]
    exact Nat.zero_le 1
  · exact fun hmem => absurd hmem hwg

/-- The removal of routes keeps the invariant. -/
lemma Inv.of_sublist (h : Inv site net) (hlink : net'.wgLink = net.wgLink)
    (haddr : net'.hubAddr = net'.hubActive) (hroutes : net'.routes.Sublist net.routes) :
    Inv site net' := by
  constructor
  · rw [hlink]
    exact h.wgLink
  · exact haddr
  · exact fun r hr => h.routes r (hroutes.subset hr)
  · exact (hroutes.count_le _).trans h.once
  · exact fun hwg r hr => h.best (hroutes.subset hwg) r (hroutes.subset hr)

/-- The state outside of the routes and of the hub-side connection does not matter. -/
lemma Inv.of_eq (h : Inv site net) (hlink : net'.wgLink = net.wgLink)
    (haddr : net'.hubAddr = net.hubAddr) (hactive : net'.hubActive = net.hubActive)
    (hroutes : net'.routes = net.routes) : Inv site net' := by
  apply h.of_sublist hlink
  · rw [haddr, hactive]
    exact h.addr
  · rw [hroutes]

/-- Taking the connection down keeps the invariant. -/
lemma Inv.disconnect (h : Inv site net) : Inv site (net.disconnect site) :=
  h.of_sublist rfl rfl List.filter_sublist

/-- With a further route of the hub interface, there is still none over the tunnel. -/
lemma notMem_concat {routes : List Route} (hwg : site.wgRoute ∉ routes) {r : Route}
    (hr : r.dev = site.hubIface) : site.wgRoute ∉ routes ++ [r] := by
  rw [List.mem_append, List.mem_singleton]
  rintro (hmem | heq)
  · exact hwg hmem
  · exact ne_wgRoute hr heq.symm

/-- A route of the hub interface joins the others while there is none over the tunnel.

**Proof sketch.** The new route is of the hub interface, and as none is over the tunnel, the clauses
about that one are void. -/
lemma Inv.addHubRoute (h : Inv site net) (hwg : site.wgRoute ∉ net.routes) {r : Route}
    (hr : r.dev = site.hubIface) : Inv site { net with routes := net.routes ++ [r] } := by
  have hwg' := notMem_concat hwg hr
  constructor
  · exact h.wgLink
  · exact h.addr
  · intro r' hr'
    rcases List.mem_append.mp hr' with hmem | hmem
    · exact h.routes r' hmem
    · rw [List.mem_singleton.mp hmem]
      exact Or.inl hr
  · rw [List.count_eq_zero.mpr hwg']
    exact Nat.zero_le 1
  · exact fun hmem => absurd hmem hwg'

/-- A deactivation adds no route over the tunnel. -/
lemma notMem_disconnect (hwg : site.wgRoute ∉ net.routes) :
    site.wgRoute ∉ (net.disconnect site).routes :=
  fun hmem => hwg (List.mem_of_mem_filter hmem)

/-- An activation adds no route over the tunnel. -/
lemma notMem_connect (hwg : site.wgRoute ∉ net.routes) (prefixRoute : Bool) :
    site.wgRoute ∉ (net.connect site prefixRoute).routes := by
  cases prefixRoute with
  | false =>
    show site.wgRoute ∉ (net.disconnect site).routes ++ []
    rw [List.append_nil]
    exact notMem_disconnect hwg
  | true => exact notMem_concat (notMem_disconnect hwg) rfl

/-- The connection comes up while there is no route over the tunnel. -/
lemma Inv.connect (h : Inv site net) (hwg : site.wgRoute ∉ net.routes) (prefixRoute : Bool) :
    Inv site (net.connect site prefixRoute) := by
  have hdown := h.disconnect
  cases prefixRoute with
  | false =>
    refine hdown.of_sublist rfl rfl ?_
    show ((net.disconnect site).routes ++ []).Sublist _
    rw [List.append_nil]
  | true =>
    have hup := hdown.addHubRoute (notMem_disconnect hwg) (r := site.hubRoute site.connMetric) rfl
    exact hup.of_sublist rfl rfl (List.Sublist.refl _)

/-- The route over the tunnel joins routes of higher metrics.

**Proof sketch.** No route has the metric zero, so none is the one over the tunnel, which is then
there once, and every other one has a higher metric. -/
lemma Inv.addWgRoute (h : Inv site net) (hmetric : ∀ r ∈ net.routes, r.metric ≠ 0) :
    Inv site { net with routes := net.routes ++ [site.wgRoute] } := by
  have hwg : site.wgRoute ∉ net.routes := fun hmem => hmetric _ hmem rfl
  constructor
  · exact h.wgLink
  · exact h.addr
  · intro r hr
    rcases List.mem_append.mp hr with hmem | hmem
    · exact h.routes r hmem
    · exact Or.inr (List.mem_singleton.mp hmem)
  · rw [List.count_append, List.count_eq_zero.mpr hwg, List.count_singleton_self]
  · intro _ r hr hdev
    rcases List.mem_append.mp hr with hmem | hmem
    · exact Nat.pos_of_ne_zero (hmetric r hmem)
    · exact absurd (List.mem_singleton.mp hmem) (ne_wgRoute hdev)

/-- On the routes of the invariant, the pattern for the tunnel finds the route over the tunnel.

**Proof sketch.** A route of the invariant runs over the hub device, which is not the device of the
tunnel, or is the route of the tunnel. -/
lemma Inv.isOn_wg (h : Inv site net) {r : Route} (hr : r ∈ net.routes) :
    r.isOn (some site.wgGateway) site.wgIface = true ↔ r = site.wgRoute := by
  constructor
  · intro hon
    rcases h.routes r hr with hdev | hwg
    · have hon' : r.dev = site.wgIface := by
        simp only [Route.isOn, decide_eq_true_eq] at hon
        exact hon.1
      exact absurd (hdev.symm.trans hon') site.hubIface_ne_wgIface
    · exact hwg
  · rintro rfl
    simp [Route.isOn, Site.wgRoute]

/-- The guard finds the route over the tunnel exactly if it is there. -/
lemma Inv.any_wg (h : Inv site net) :
    net.routes.any (Route.isOn (some site.wgGateway) site.wgIface) = true ↔
      site.wgRoute ∈ net.routes := by
  rw [List.any_eq_true]
  constructor
  · rintro ⟨r, hr, hon⟩
    rw [← (h.isOn_wg hr).mp hon]
    exact hr
  · exact fun hmem => ⟨_, hmem, (h.isOn_wg hmem).mpr rfl⟩

/-- The route over the tunnel is found when it is there.

**Proof sketch.** The lookup takes a route with the least metric, which is zero. A route of the hub
interface has a positive one, so it is the route over the tunnel. -/
lemma Inv.device_wg (h : Inv site net) (hwg : site.wgRoute ∈ net.routes) :
    net.device = some site.wgIface := by
  cases hmin : net.routes.argmin Route.metric with
  | none =>
    rw [List.argmin_eq_none] at hmin
    rw [hmin] at hwg
    cases hwg
  | some r =>
    rw [Net.device, hmin, Option.map_some]
    have hle : r.metric ≤ 0 := List.le_of_mem_argmin hwg hmin
    rcases h.routes r (List.argmin_mem hmin) with hdev | rfl
    · have hpos := h.best hwg r (List.argmin_mem hmin) hdev
      omega
    · rfl

/-- A route of the hub interface is found when there is none over the tunnel. -/
lemma Inv.device_hub (h : Inv site net) (hwg : site.wgRoute ∉ net.routes)
    (hhub : net.routes ≠ []) : net.device = some site.hubIface := by
  cases hmin : net.routes.argmin Route.metric with
  | none => exact absurd (List.argmin_eq_none.mp hmin) hhub
  | some r =>
    rw [Net.device, hmin, Option.map_some]
    rcases h.routes r (List.argmin_mem hmin) with hdev | rfl
    · rw [hdev]
    · exact absurd (List.argmin_mem hmin) hwg

end Inv

/-! ## The commands -/

section Commands

variable {site : Site} {conduct : Conduct} {cmd : Cmd} {net : Net}

/-- A command that does what it should and has another status than `0` changes nothing.

**Proof sketch.** One case for each command: the status other than zero is that of the branch
without an effect. -/
lemma perform_of_status_ne_zero (h : (cmd.perform site conduct net).2 ≠ 0) :
    (cmd.perform site conduct net).1 = net := by
  cases cmd with
  | nmcliDown | nmcliUp | routeDel =>
    simp only [Cmd.perform] at h ⊢
    split_ifs at h ⊢
    · exact absurd rfl h
    · rfl
  | routeAdd =>
    simp only [Cmd.perform] at h ⊢
    split_ifs at h ⊢
    · rfl
    · exact absurd rfl h
  | teeForward | display => exact absurd rfl h
  | nftInsert rule =>
    cases hchain : net.chain with
    | some rules =>
      simp only [Cmd.perform, hchain] at h
      exact absurd rfl h
    | none => simp only [Cmd.perform, hchain]

/-- A command that fails, other than an activation, changes nothing. -/
lemma eff_of_status_ne_zero (hcmd : ∀ name, cmd ≠ .nmcliUp name)
    (h : (eff site conduct cmd net).2 ≠ 0) : (eff site conduct cmd net).1 = net := by
  cases hfailure : conduct.failure cmd with
  | none =>
    simp only [eff, hfailure] at h ⊢
    exact perform_of_status_ne_zero h
  | some k =>
    simp only [eff, hfailure]
    cases cmd with
    | nmcliUp name => exact absurd rfl (hcmd name)
    | _ => rfl

/-- A command with status `0` did what it should. -/
lemma eff_of_status_zero (h : (eff site conduct cmd net).2 = 0) :
    eff site conduct cmd net = cmd.perform site conduct net := by
  cases hfailure : conduct.failure cmd with
  | none => simp only [eff, hfailure]
  | some k =>
    simp only [eff, hfailure] at h
    exact absurd h (Nat.succ_ne_zero k)

/-- A command that only prints changes nothing. -/
lemma eff_display (what : String) : (eff site conduct (.display what) net).1 = net := by
  cases hfailure : conduct.failure (.display what) <;> simp [eff, hfailure, Cmd.perform, Cmd.fail]

/-- A deactivation changes the state, if at all, to that without the connection. -/
lemma eff_nmcliDown (name : String) :
    (eff site conduct (.nmcliDown name) net).1 = net ∨
      (eff site conduct (.nmcliDown name) net).1 = net.disconnect site := by
  by_cases h : (eff site conduct (.nmcliDown name) net).2 = 0
  · rw [eff_of_status_zero h, Cmd.perform]
    split_ifs
    · exact Or.inr rfl
    · exact Or.inl rfl
  · exact Or.inl (eff_of_status_ne_zero (fun _ hne => by cases hne) h)

/-- The removal of a route removes it, if at all. -/
lemma eff_routeDel (via : Option String) (dev : String) :
    (eff site conduct (.routeDel via dev) net).1 = net ∨
      (eff site conduct (.routeDel via dev) net).1 =
        { net with routes := net.routes.eraseP (Route.isOn via dev) } := by
  by_cases h : (eff site conduct (.routeDel via dev) net).2 = 0
  · rw [eff_of_status_zero h, Cmd.perform]
    split_ifs
    · exact Or.inr rfl
    · exact Or.inl rfl
  · exact Or.inl (eff_of_status_ne_zero (fun _ hne => by cases hne) h)

/-- The activation of the hub-side connection fails and takes it down. -/
def Conduct.loses (site : Site) (conduct : Conduct) : Bool :=
  (conduct.failure (.nmcliUp site.connName)).isSome && conduct.drops

/-- The activation of the hub-side connection. -/
lemma eff_nmcliUp :
    (eff site conduct (.nmcliUp site.connName) net).1 = net.connect site conduct.prefixRoute ∧
        conduct.loses site = false ∨
      (eff site conduct (.nmcliUp site.connName) net).1 = net.disconnect site ∧
        conduct.loses site = true ∨
      (eff site conduct (.nmcliUp site.connName) net).1 = net ∧ conduct.loses site = false := by
  cases hfailure : conduct.failure (.nmcliUp site.connName) with
  | none => simp [eff, Conduct.loses, hfailure, Cmd.perform]
  | some k => cases hdrops : conduct.drops <;> simp [eff, Conduct.loses, hfailure, hdrops, Cmd.fail]

/-- What the script reads from the listing of the connections: the name of the hub-side
connection if it is active, and nothing otherwise. -/
lemma awkName_nmcliShow (net : Net) (active : Bool) :
    Net.awkName site.hubIface (net.nmcliShow site active) =
      if net.hubActive then site.connName else "" := by
  have hne : ¬"" = site.hubIface := fun h => site.hubIface_ne_nil h.symm
  cases hactive : net.hubActive <;> cases active <;>
    simp [Net.awkName, Net.nmcliShow, hactive, hne]

end Commands

/-! ## The parts of the script -/

/-- A script that is stopped leaves the invariant behind, and not the status `0`. -/
def Stopped (site : Site) (o : Outcome) (net : Net) : Prop := Inv site net ∧ o.status ≠ some 0

/-- The rules of the forward chain after `abcd`. -/
def opened (site : Site) (net : Net) : Option (List Rule) :=
  if net.acceptsIif site then net.chain
  else net.chain.map fun rules => site.oifRule :: site.iifRule :: rules

section Parts

variable {site : Site} {conduct : Conduct} {P Q : Net → Prop} {cmd : Cmd}

/-- A command under `set -e`, other than an activation.

**Proof sketch.** A command that returns zero has done its work. One that fails has changed nothing,
and the script stops with a status that is not zero; a command that is killed has no status. -/
lemma triple_run (hcmd : ∀ name, cmd ≠ .nmcliUp name) (hinv : ∀ net, P net → Inv site net)
    (hdone : ∀ net, P net → (cmd.perform site conduct net).2 = 0 →
      Q (cmd.perform site conduct net).1) :
    Triple (eff site conduct) P (.run cmd) Q (Stopped site) := by
  apply Triple.run
  · exact fun net hP => ⟨hinv net hP, fun hkilled => by cases hkilled⟩
  · intro net hP hstatus
    have heff := eff_of_status_zero hstatus
    rw [heff] at hstatus ⊢
    exact hdone net hP hstatus
  · intro net hP hstatus
    rw [eff_of_status_ne_zero hcmd hstatus]
    exact ⟨hinv net hP, fun hzero => hstatus (Option.some.inj hzero)⟩

/-- A command whose failure is ignored. -/
lemma triple_attempt (hinv : ∀ net, P net → Inv site net)
    (h : ∀ net, P net → Q (eff site conduct cmd net).1) :
    Triple (eff site conduct) P (.attempt cmd) Q (Stopped site) := by
  apply Triple.attempt
  · exact fun net hP => ⟨hinv net hP, fun hkilled => by cases hkilled⟩
  · exact h

/-- `show_status` changes nothing.

**Proof sketch.** All five commands only display something. -/
lemma triple_showStatus (hinv : ∀ net, P net → Inv site net) :
    Triple (eff site conduct) P showStatus P (Stopped site) := by
  have hattempt (what : String) :
      Triple (eff site conduct) P (.attempt (.display what)) P (Stopped site) := by
    apply triple_attempt hinv
    intro net hP
    rwa [eff_display]
  apply (hattempt _).seq
  apply (hattempt _).seq
  apply (hattempt _).seq
  apply (hattempt _).seq
  exact triple_run (fun _ hne => by cases hne) hinv fun net hP _ => hP

/-- `ensure_forward` sets the switch and changes nothing else. -/
lemma triple_ensureForward (hinv : ∀ net, P net → Inv site net)
    (hP : ∀ net, P net → P { net with ipForward := true }) :
    Triple (eff site conduct) P ensureForward (fun net => P net ∧ net.ipForward = true)
      (Stopped site) := by
  apply Triple.ite
  · exact Triple.skip fun net h => h
  · apply triple_run (fun _ hne => by cases hne)
    · exact fun net h => hinv net h.1
    · exact fun net h _ => ⟨hP net h.1, rfl⟩

/-- Mode `abcd`, to the hub side: the chain stays as it is.

**Proof sketch.** The connection is taken down or not, and the route of the hub interface is deleted
or not; failures are ignored, and each of the four outcomes keeps the invariant. -/
lemma triple_lowerHub (chain : Option (List Rule)) :
    Triple (eff site conduct) (fun net => Inv site net ∧ net.chain = chain) (lowerHub site)
      (fun net => Inv site net ∧ net.chain = chain) (Stopped site) := by
  apply Triple.capture
  intro connName
  apply Triple.seq (R := fun net => Inv site net ∧ net.chain = chain)
  · apply Triple.ite
    · apply triple_attempt
      · exact fun net h => h.1.1.1
      · rintro net ⟨⟨⟨hinv, hchain⟩, -⟩, -⟩
        rcases @eff_nmcliDown site conduct net connName with heq | heq <;> rw [heq]
        · exact ⟨hinv, hchain⟩
        · exact ⟨hinv.disconnect, hchain⟩
    · exact Triple.skip fun net h => h.1.1
  · apply triple_attempt
    · exact fun net h => h.1
    · rintro net ⟨hinv, hchain⟩
      rcases @eff_routeDel site conduct net none site.hubIface with heq | heq <;> rw [heq]
      · exact ⟨hinv, hchain⟩
      · exact ⟨hinv.of_sublist rfl hinv.addr List.eraseP_sublist, hchain⟩

/-- Mode `abcd`, to the tunnel: its route is there.

**Proof sketch.** If the guard finds the route, it is there (`Inv.any_wg`). If not, the command has
to succeed, and it refuses to add a second route with the metric zero, so all others have higher
ones. -/
lemma triple_addWgRoute (chain : Option (List Rule)) :
    Triple (eff site conduct) (fun net => Inv site net ∧ net.chain = chain) (addWgRoute site)
      (fun net => Inv site net ∧ net.chain = chain ∧ site.wgRoute ∈ net.routes)
      (Stopped site) := by
  apply Triple.ite
  · apply Triple.skip
    rintro net ⟨⟨hinv, hchain⟩, hany⟩
    exact ⟨hinv, hchain, hinv.any_wg.mp hany⟩
  · apply triple_run (fun _ hne => by cases hne)
    · exact fun net h => h.1.1
    · rintro net ⟨⟨hinv, hchain⟩, -⟩ hstatus
      simp only [Cmd.perform] at hstatus ⊢
      split_ifs at hstatus ⊢ with hexists
      refine ⟨hinv.addWgRoute ?_, hchain, ?_⟩
      · intro r hr hzero
        exact hexists (List.any_eq_true.mpr ⟨r, hr, decide_eq_true hzero⟩)
      · exact List.mem_append_right _ List.mem_cons_self

/-- Mode `abcd`, to the forward chain: both rules are inserted unless the first is found.

**Proof sketch.** Nothing is inserted where the chain does not exist or accepts packets from the
tunnel. Otherwise both commands have to succeed, and each puts its rule in front. -/
lemma triple_acceptWg (start : Net) (hP : ∀ net rules, P net → P { net with chain := rules })
    (hinv : ∀ net, P net → Inv site net) :
    Triple (eff site conduct) (fun net => P net ∧ net.chain = start.chain) (acceptWg site)
      (fun net => P net ∧ net.chain = opened site start) (Stopped site) := by
  have haccepts {net : Net} (hchain : net.chain = start.chain) :
      net.acceptsIif site = start.acceptsIif site := by
    rw [Net.acceptsIif, Net.acceptsIif, hchain]
  have hinsert (rule : Rule) (rules : Option (List Rule)) :
      Triple (eff site conduct) (fun net => P net ∧ net.chain = rules) (.run (.nftInsert rule))
        (fun net => P net ∧ net.chain = rules.map (rule :: ·)) (Stopped site) := by
    apply triple_run (fun _ hne => by cases hne)
    · exact fun net h => hinv net h.1
    · rintro net ⟨hnet, hrules⟩ hstatus
      cases rules with
      | none =>
        simp only [Cmd.perform, hrules] at hstatus
        cases hstatus
      | some rules =>
        simp only [Cmd.perform, hrules]
        exact ⟨hP net _ hnet, rfl⟩
  apply Triple.ite
  · apply Triple.ite
    · apply Triple.skip
      rintro net ⟨⟨⟨hnet, hchain⟩, -⟩, hfound⟩
      rw [haccepts hchain] at hfound
      rw [opened, if_pos hfound]
      exact ⟨hnet, hchain⟩
    · -- whether the rules are inserted is decided before the first of them is
      by_cases hfound : start.acceptsIif site = true
      · intro n net h
        rw [← haccepts h.1.1.2, h.2] at hfound
        cases hfound
      · rw [opened, if_neg hfound]
        refine ((hinsert _ start.chain).seq (hinsert _ _)).consequence (fun net h => h.1.1) ?_
        rintro net ⟨hnet, hchain⟩
        refine ⟨hnet, hchain.trans ?_⟩
        rw [Option.map_map]
        rfl
  · apply Triple.skip
    rintro net ⟨⟨hnet, hchain⟩, hnone⟩
    have hstart : start.chain = none := by
      rw [← hchain]
      exact Option.not_isSome_iff_eq_none.mp (by rw [hnone]; exact Bool.false_ne_true)
    refine ⟨hnet, hchain.trans ?_⟩
    rw [opened, hstart]
    split_ifs <;> rfl

/-- Mode `clean_lan`, to the tunnel: its route is gone.

**Proof sketch.** If the guard finds a route over the tunnel, the first one is deleted, and by the
invariant there is only one. If not, there is none. -/
lemma triple_delWgRoute (active : Bool) :
    Triple (eff site conduct) (fun net => Inv site net ∧ net.hubActive = active) (delWgRoute site)
      (fun net => Inv site net ∧ net.hubActive = active ∧ site.wgRoute ∉ net.routes)
      (Stopped site) := by
  apply Triple.ite
  · apply triple_run (fun _ hne => by cases hne)
    · exact fun net h => h.1.1
    · rintro net ⟨⟨hinv, hactive⟩, hany⟩ -
      simp only [Cmd.perform, if_pos hany]
      refine ⟨hinv.of_sublist rfl hinv.addr List.eraseP_sublist, hactive, ?_⟩
      obtain ⟨r, hr, hon⟩ := List.any_eq_true.mp hany
      obtain ⟨r', before, behind, -, hon', hroutes, herase⟩ := List.exists_of_eraseP hr hon
      have hr' : r' ∈ net.routes := by
        rw [hroutes]
        exact List.mem_append_right _ List.mem_cons_self
      obtain rfl := (hinv.isOn_wg hr').mp hon'
      have honce := hinv.once
      rw [hroutes, List.count_append, List.count_cons_self] at honce
      rw [herase, ← List.count_eq_zero, List.count_append]
      omega
  · apply Triple.skip
    rintro net ⟨⟨hinv, hactive⟩, hany⟩
    refine ⟨hinv, hactive, fun hmem => ?_⟩
    rw [hinv.any_wg.mpr hmem] at hany
    cases hany

/-- Mode `clean_lan`, to the hub side: a connection that is down stays down, and one that is
active stays so unless its activation fails and takes it down.

**Proof sketch.** The listing names the connection only if it is active, so one that is down is not
found and nothing is done. An active one is activated again, which succeeds, or fails with or
without taking it down (`eff_nmcliUp`). -/
lemma triple_raiseHub (active : Bool) :
    Triple (eff site conduct)
      (fun net => Inv site net ∧ net.hubActive = active ∧ site.wgRoute ∉ net.routes)
      (raiseHub site)
      (fun net => Inv site net ∧ net.hubActive = (active && !conduct.loses site) ∧
        site.wgRoute ∉ net.routes) (Stopped site) := by
  apply Triple.capture
  intro connName
  apply Triple.ite
  · apply triple_attempt
    · exact fun net h => h.1.1.1
    · rintro net ⟨⟨⟨hinv, hactive, hwg⟩, hname⟩, hne⟩
      rw [awkName_nmcliShow, hactive] at hname
      cases active with
      | false => simp [← hname] at hne
      | true =>
        rw [if_pos rfl] at hname
        subst hname
        obtain ⟨heff, hloses⟩ | ⟨heff, hloses⟩ | ⟨heff, hloses⟩ :=
          @eff_nmcliUp site conduct net
        · rw [heff, hloses]
          exact ⟨hinv.connect hwg _, rfl, notMem_connect hwg _⟩
        · rw [heff, hloses]
          exact ⟨hinv.disconnect, rfl, notMem_disconnect hwg⟩
        · rw [heff, hloses]
          exact ⟨hinv, hactive, hwg⟩
  · apply Triple.skip
    rintro net ⟨⟨⟨hinv, hactive, hwg⟩, hname⟩, hnil⟩
    rw [awkName_nmcliShow, hactive] at hname
    refine ⟨hinv, ?_, hwg⟩
    cases active with
    | false => exact hactive
    | true =>
      rw [if_pos rfl] at hname
      subst hname
      exact absurd (by simpa using hnil) site.connName_ne_nil

/-- Mode `clean_lan`, to the hub side: an active connection has a route.

**Proof sketch.** An active connection has its address, so the guard is passed; then a route is
there, or the command that adds it has to succeed. -/
lemma triple_addHubRoute (active : Bool) :
    Triple (eff site conduct)
      (fun net => Inv site net ∧ net.hubActive = active ∧ site.wgRoute ∉ net.routes)
      (addHubRoute site)
      (fun net => Inv site net ∧ net.hubActive = active ∧ site.wgRoute ∉ net.routes ∧
        (active = true → net.routes ≠ [])) (Stopped site) := by
  apply Triple.ite
  · apply Triple.ite
    · apply Triple.skip
      rintro net ⟨⟨⟨hinv, hactive, hwg⟩, -⟩, hany⟩
      refine ⟨hinv, hactive, hwg, fun _ hnil => ?_⟩
      rw [hnil] at hany
      cases hany
    · apply triple_run (fun _ hne => by cases hne)
      · exact fun net h => h.1.1.1
      · rintro net ⟨⟨⟨hinv, hactive, hwg⟩, -⟩, -⟩ hstatus
        simp only [Cmd.perform] at hstatus ⊢
        split_ifs at hstatus ⊢
        exact ⟨hinv.addHubRoute hwg rfl, hactive, notMem_concat hwg rfl,
          fun _ => List.concat_ne_nil _ _⟩
  · apply Triple.skip
    rintro net ⟨⟨hinv, hactive, hwg⟩, haddr⟩
    refine ⟨hinv, hactive, hwg, fun htrue => ?_⟩
    rw [hinv.addr, hactive, htrue] at haddr
    cases haddr

end Parts

/-! ## The modes -/

/-- The rules of the forward chain, if it exists, accept packets from and to the tunnel. -/
def HasRules (site : Site) (net : Net) : Prop :=
  ∀ rules, net.chain = some rules → site.iifRule ∈ rules ∧ site.oifRule ∈ rules

/-- What mode `abcd` promises. -/
def AbcdMode (site : Site) (net : Net) : Prop :=
  net.device = some site.wgIface ∧ net.ipForward = true ∧ HasRules site net

/-- What mode `clean_lan` promises. -/
def CleanLanMode (site : Site) (net : Net) : Prop :=
  net.hubActive = true ∧ net.device = some site.hubIface

section Modes

variable {site : Site} {conduct : Conduct} {net : Net}

/-- The rules are there behind `abcd`, unless the first of them hides that the second is missing. -/
lemma hasRules_opened {net' : Net} (h : net'.chain = opened site net) :
    HasRules site net' ↔ (net.acceptsIif site = true → HasRules site net) := by
  rw [HasRules, h, opened]
  split_ifs with hfound
  · exact ⟨fun hrules _ => hrules, fun hrules => hrules hfound⟩
  · refine ⟨fun _ htrue => absurd htrue hfound, fun _ rules hrules => ?_⟩
    obtain ⟨old, -, rfl⟩ := Option.map_eq_some_iff.mp hrules
    simp

/-- **Mode `abcd`** reaches the tunnel, and adds the rules unless it finds the first.

**Proof sketch.** The parts of the mode in their order. The rules at the end are those at the start
if the first was found, and both otherwise (`hasRules_opened`); the route over the tunnel is there,
so the lookup takes it (`Inv.device_wg`). -/
lemma triple_abcd (start : Net) :
    Triple (eff site conduct) (fun net => Inv site net ∧ net.chain = start.chain) (abcd site)
      (fun net => Inv site net ∧
        (AbcdMode site net ↔ (start.acceptsIif site = true → HasRules site start)))
      (Stopped site) := by
  have hcheck : Triple (eff site conduct) (fun net => Inv site net ∧ net.chain = start.chain)
      checkWg (fun net => Inv site net ∧ net.chain = start.chain) (Stopped site) := by
    apply Triple.ite
    · exact Triple.skip fun net h => h.1
    · exact Triple.exit fun net h => ⟨h.1.1, fun hzero => by cases hzero⟩
  have hforward : Triple (eff site conduct)
      (fun net => Inv site net ∧ net.chain = start.chain ∧ site.wgRoute ∈ net.routes)
      ensureForward
      (fun net => (Inv site net ∧ net.chain = start.chain ∧ site.wgRoute ∈ net.routes) ∧
        net.ipForward = true) (Stopped site) := by
    apply triple_ensureForward
    · exact fun net h => h.1
    · exact fun net h => ⟨h.1.of_eq rfl rfl rfl rfl, h.2⟩
  have haccept : Triple (eff site conduct)
      (fun net => (Inv site net ∧ site.wgRoute ∈ net.routes ∧ net.ipForward = true) ∧
        net.chain = start.chain) (acceptWg site)
      (fun net => (Inv site net ∧ site.wgRoute ∈ net.routes ∧ net.ipForward = true) ∧
        net.chain = opened site start) (Stopped site) := by
    apply triple_acceptWg start
    · exact fun net rules h => ⟨h.1.of_eq rfl rfl rfl rfl, h.2⟩
    · exact fun net h => h.1
  refine hcheck.seq ((triple_lowerHub start.chain).seq ((triple_addWgRoute start.chain).seq
    (hforward.seq (Triple.seq (haccept.consequence ?_ ?_) (triple_showStatus fun net h => h.1)))))
  · rintro net ⟨⟨hinv, hchain, hwg⟩, hforward⟩
    exact ⟨⟨hinv, hwg, hforward⟩, hchain⟩
  · rintro net ⟨⟨hinv, hwg, hforward⟩, hchain⟩
    refine ⟨hinv, ?_⟩
    rw [AbcdMode, hasRules_opened hchain]
    exact ⟨fun h => h.2.2, fun h => ⟨hinv.device_wg hwg, hforward, h⟩⟩

/-- **Mode `clean_lan`** reaches the hub interface, if the connection is active.

**Proof sketch.** The parts of the mode in their order. The connection is active at the end exactly
if it was at the start and its activation did not take it down. Then the hub interface has a route,
and the tunnel has none (`Inv.device_hub`). -/
lemma triple_cleanLan (active : Bool) :
    Triple (eff site conduct) (fun net => Inv site net ∧ net.hubActive = active) (cleanLan site)
      (fun net => Inv site net ∧
        (CleanLanMode site net ↔ active = true ∧ conduct.loses site = false)) (Stopped site) := by
  refine (triple_delWgRoute active).seq ((triple_raiseHub active).seq
    ((triple_addHubRoute _).seq (Triple.seq ((triple_ensureForward ?_ ?_).consequence
      (fun net h => h) ?_) (triple_showStatus fun net h => h.1))))
  · exact fun net h => h.1
  · exact fun net h => ⟨h.1.of_eq rfl rfl rfl rfl, h.2⟩
  · rintro net ⟨⟨hinv, hactive, hwg, hroutes⟩, -⟩
    refine ⟨hinv, ?_⟩
    rw [CleanLanMode, hactive, Bool.and_eq_true, Bool.not_eq_true']
    constructor
    · exact fun h => h.1
    · intro h
      refine ⟨h, hinv.device_hub hwg (hroutes ?_)⟩
      rw [h.1, h.2]
      rfl

end Modes

/-! ## The invocations -/

section Invocations

variable {site : Site} {net : Net}

/-- A part of the script that ends with the invariant keeps it, wherever it stops. -/
lemma inv_of_triple {conduct : Conduct} {P Q : Net → Prop} {script : Script Cmd Net}
    (h : Triple (eff site conduct) P script Q (Stopped site)) (hQ : ∀ net, Q net → Inv site net)
    (limit : ℕ) (hP : P net) : Inv site (script.exec (eff site conduct) limit net).state := by
  obtain ⟨hnext, hstop⟩ := h limit net hP
  by_cases hout : (script.exec (eff site conduct) limit net).outcome = .next
  · exact hQ _ (hnext hout)
  · exact (hstop hout).1

/-- A script that exits with `0` comes to its end. -/
lemma post_of_triple {conduct : Conduct} {P Q : Net → Prop} {script : Script Cmd Net}
    (h : Triple (eff site conduct) P script Q (Stopped site)) {limit : ℕ} (hP : P net)
    (hstatus : (script.exec (eff site conduct) limit net).outcome.status = some 0) :
    Q (script.exec (eff site conduct) limit net).state := by
  obtain ⟨hnext, hstop⟩ := h limit net hP
  by_cases hout : (script.exec (eff site conduct) limit net).outcome = .next
  · exact hnext hout
  · exact absurd hstatus (hstop hout).2

/-- **One invocation** of any mode, complete or not, keeps the invariant. -/
lemma inv_exec (h : Inv site net) (inv : Invocation) : Inv site (inv.exec site net).state := by
  unfold Invocation.exec pcCMode
  have hstatus := @triple_showStatus site inv.conduct (Inv site) fun _ h => h
  split
  · exact inv_of_triple (triple_abcd net) (fun _ hQ => hQ.1) _ ⟨h, rfl⟩
  · exact inv_of_triple (triple_cleanLan net.hubActive) (fun _ hQ => hQ.1) _ ⟨h, rfl⟩
  · exact inv_of_triple hstatus (fun _ hQ => hQ) _ h
  · exact inv_of_triple hstatus (fun _ hQ => hQ) _ h
  · exact h

/-- **Every sequence of invocations** keeps the invariant. -/
theorem inv_after (h : Inv site net) (invs : List Invocation) :
    Inv site (after site net invs) := by
  induction invs generalizing net with
  | nil => exact h
  | cons inv invs ih => exact ih (inv_exec h inv)

/-- The last invocation starts from what the others have left. -/
lemma after_concat (invs : List Invocation) (last : Invocation) :
    after site net (invs ++ [last]) = (last.exec site (after site net invs)).state := by
  rw [after, List.foldl_append]
  rfl

end Invocations

end PcC

open PcC

/-- After every sequence of invocations, complete or not: one more of mode `abcd` that exits with
`0` leaves what the mode promises if and only if the forward chain did not already have the first
of its two rules without the second, and one more of mode `clean_lan` if and only if the hub-side
connection was active already, and its activation does not fail and take it down.

**Proof sketch.** The invariant holds in front of the last invocation (`inv_after`), so the rule of
its mode (`triple_abcd`, `triple_cleanLan`) says what holds behind it when it exits with `0`. -/
theorem pcCMode_iff {site : Site} {start : Net} (hstart : Start site start)
    (invs : List Invocation) (last : Invocation)
    (hexit : (last.exec site (after site start invs)).outcome.status = some 0) :
    (last.mode = "abcd" →
      (AbcdMode site (after site start (invs ++ [last])) ↔
        ((after site start invs).acceptsIif site = true → HasRules site (after site start invs)))) ∧
    (last.mode = "clean_lan" →
      (CleanLanMode site (after site start (invs ++ [last])) ↔
        (after site start invs).hubActive = true ∧ last.conduct.loses site = false)) := by
  have hinv := inv_after (inv_of_start hstart) invs
  rw [after_concat]
  rw [Invocation.exec] at hexit ⊢
  constructor
  · intro hmode
    rw [hmode] at hexit ⊢
    exact (post_of_triple (triple_abcd (after site start invs)) ⟨hinv, rfl⟩ hexit).2
  · intro hmode
    rw [hmode] at hexit ⊢
    exact (post_of_triple (triple_cleanLan (after site start invs).hubActive) ⟨hinv, rfl⟩ hexit).2

/-- The defaults of the script, with a connection `hub` for the hub interface. -/
def pcC : Site where
  hubIface := "eno3np0"
  wgIface := "wg0"
  wgGateway := "10.99.0.1"
  connName := "hub"
  connMetric := 100
  hubIface_ne_nil := by decide
  connName_ne_nil := by decide
  hubIface_ne_wgIface := by decide

/-- PC c on the clean LAN, with the given forward chain. -/
def cleanLanNet (chain : Option (List Rule)) : Net :=
  ⟨true, true, true, [pcC.hubRoute 100], true, chain⟩

/-- No command fails. -/
def obedient : Conduct := ⟨fun _ => none, true, false⟩

/-- The clean LAN is a state to start from. -/
lemma start_cleanLanNet (chain : Option (List Rule)) : Start pcC (cleanLanNet chain) := by
  refine ⟨rfl, rfl, rfl, fun r hr => ?_⟩
  rw [List.mem_singleton.mp hr]
  rfl

/-- The switch to the tunnel succeeds behind one to the clean LAN that was killed at once. -/
theorem pcCMode_abcd :
    AbcdMode pcC (after pcC (cleanLanNet (some []))
      [⟨"clean_lan", obedient, 0⟩, ⟨"abcd", obedient, 20⟩]) := by
  have habcd := (pcCMode_iff (start_cleanLanNet (some [])) [⟨"clean_lan", obedient, 0⟩]
    ⟨"abcd", obedient, 20⟩ (by decide)).1 rfl
  exact habcd.mpr fun hfound => absurd hfound (by decide)

/-- No command fails: the switch to the tunnel and back exits with `0` and leaves the hub-side
connection down; and behind a switch to the tunnel that was killed between its two rules, the
next one exits with `0` without the second.

**Proof sketch.** Both sequences of invocations are computed. -/
theorem pcCMode_stays_down :
    (Start pcC (cleanLanNet none) ∧
      (Invocation.exec pcC ⟨"clean_lan", obedient, 20⟩
        (after pcC (cleanLanNet none) [⟨"abcd", obedient, 20⟩])).outcome.status = some 0 ∧
      ¬CleanLanMode pcC
        (after pcC (cleanLanNet none) [⟨"abcd", obedient, 20⟩, ⟨"clean_lan", obedient, 20⟩])) ∧
    (Start pcC (cleanLanNet (some [])) ∧
      (Invocation.exec pcC ⟨"abcd", obedient, 20⟩
        (after pcC (cleanLanNet (some [])) [⟨"abcd", obedient, 4⟩])).outcome.status = some 0 ∧
      ¬AbcdMode pcC
        (after pcC (cleanLanNet (some [])) [⟨"abcd", obedient, 4⟩, ⟨"abcd", obedient, 20⟩])) := by
  refine ⟨⟨start_cleanLanNet none, by decide, ?_⟩, ⟨start_cleanLanNet (some []), by decide, ?_⟩⟩
  · rintro ⟨hactive, -⟩
    revert hactive
    decide
  · rintro ⟨-, -, hrules⟩
    have hchain : (after pcC (cleanLanNet (some []))
        [⟨"abcd", obedient, 4⟩, ⟨"abcd", obedient, 20⟩]).chain = some [pcC.iifRule] := by decide
    have hoif := (hrules _ hchain).2
    revert hoif
    decide

end CommBench
