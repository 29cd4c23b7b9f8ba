import CommBench.Network.SetupWg

set_option relaxedAutoImplicit false
set_option autoImplicit false

/-!
# The manual set-up of the tunnel

`apply_wg.sh` is the manual way to the tunnel that `setup_wg.sh` sets up: it takes `wg0` down,
copies a prepared configuration, fills in the private key and brings `wg0` up. The configurations
name the public keys of the two PCs. That of PC c, in the configuration of PC b, has lost a
character, and `wg-quick` does not accept it.

## Main definitions

* `CommBench.Wg.template` — the two prepared configurations.
* `CommBench.Wg.applyWg` — the script.

## Main results

* `CommBench.Wg.triple_applyWg` — the script comes to its end only with a key of 44 characters.
* `CommBench.Wg.applyRun_up` — with such a key it does, if nothing fails.
* `CommBench.applyWg_b` — on PC b the script never succeeds, and `wg0` is down behind it.

## Design

The configurations are those of `Network.SetupWg`, and lie beside the script. `sed` replaces the
placeholder by a value without special characters as it is; another value may be read as more of
the program of `sed`, and what this makes of the configuration is up to the conduct of the machine,
as are the failures. The test for the key file runs as the user who calls the script, and finds
nothing in a directory of mode 700 unless that is root.
-/

namespace CommBench

open Shell

namespace Wg

/-- `__PASTE_B_PRIV_HERE__` and `__PASTE_C_PRIV_HERE__` -/
def placeholder : Host → String
  | .b => "__PASTE_B_PRIV_HERE__"
  | .c => "__PASTE_C_PRIV_HERE__"

/-- `wg0.b.conf` and `wg0.c.conf`. -/
def template : Host → Conf
  | .b =>
    { privateKey := placeholder .b
      selfIp := "10.99.0.1"
      publicKey := "g4osTCqyfyD9k+98ub7RiuI6UMAfoqjRMqW+rMlqhM="
      endpoint := some "12.56.52.76:51820"
      allowedIPs := ["10.42.2.0/24", "10.99.0.2/32"] }
  | .c =>
    { privateKey := placeholder .c
      selfIp := "10.99.0.2"
      publicKey := "aUfSpkNKsXyt5584f1RH8Mqnnd0nq5Vy+PefvChXKG0="
      endpoint := none
      allowedIPs := ["10.42.0.0/24", "10.99.0.1/32"] }

/-- The commands of the script. -/
inductive ApplyCmd
  /-- A command that `setup_wg.sh` has as well. -/
  | shared (cmd : Cmd)
  /-- `sudo cp SRC_CONF DST_CONF` -/
  | cp
  /-- `sudo sed -i "s|PLACEHOLDER|PRIV_VALUE|" DST_CONF` -/
  | sed (privValue : String)

/-- How the machine conducts itself, with the failures of the further commands, and what `sed` makes
of a configuration when the value has special characters. -/
structure ApplyConduct extends Conduct where
  cpFailure : Option ℕ
  sedFailure : Option ℕ
  sedSpecial : String → Conf → Conf

/-- The value has none of the characters that are special in the replacement of `sed`. -/
def Plain (privValue : String) : Prop := ∀ c ∈ privValue.toList, c ∉ ['&', '|', '\\', '\n']

instance (privValue : String) : Decidable (Plain privValue) := List.decidableBAll ..

/-- `sed`, on a configuration. -/
def substitute (conduct : ApplyConduct) (host : Host) (privValue : String) (conf : Conf) : Conf :=
  if Plain privValue then
    if conf.privateKey = placeholder host then { conf with privateKey := privValue } else conf
  else conduct.sedSpecial privValue conf

/-- What a command does, with its exit status. -/
def applyEff (tool : Tool) (conduct : ApplyConduct) (host : Host) (cmd : ApplyCmd) (pc : Pc) :
    Pc × ℕ :=
  match cmd with
  | .shared cmd => eff tool conduct.toConduct cmd pc
  | .cp =>
    match conduct.cpFailure with
    | none => ({ pc with conf := some (template host) }, 0)
    | some k => (if conduct.truncates then { pc with conf := none } else pc, k + 1)
  | .sed privValue =>
    match conduct.sedFailure with
    | none => ({ pc with conf := pc.conf.map (substitute conduct host privValue) }, 0)
    | some k => (pc, k + 1)

/-- The script behind its tests. -/
def replaceWg : Script ApplyCmd Pc :=
  (Script.attempt (.shared .wgDown)).seq <|
  (Script.run .cp).seq <|
  (Script.run (.shared .catPriv)).seq <|
  .capture Pc.privVal fun privValue =>
    (Script.run (.sed privValue)).seq <|
    (Script.run (.shared (.other "chmod 600 DST_CONF"))).seq <|
    (Script.run (.shared .wgUp)).seq (.run (.shared .wgShow))

/-- `apply_wg.sh`, whose test finds the key file only when root runs it. -/
def applyWg (asRoot : Bool) : Script ApplyCmd Pc :=
  .ite (fun pc => !(asRoot && pc.priv.isSome)) (.exit 1) replaceWg

section

variable {tool : Tool} {conduct : ApplyConduct} {host : Host} {cmd : ApplyCmd} {old pc : Pc}

/-- `wg0` is down, unless something has kept `wg-quick down` from it. -/
def Down (conduct : ApplyConduct) (pc : Pc) : Prop :=
  conduct.failure .wgDown = none → pc.link = none

/-- `wg0` is down, the key file is the one of before, and there is a configuration with the public
key of the prepared one. -/
structure Prepared (conduct : ApplyConduct) (host : Host) (old pc : Pc) : Prop where
  down : Down conduct pc
  priv : pc.priv = old.priv
  conf : ∃ conf ∈ pc.conf, conf.publicKey = (template host).publicKey

/-- `wg-quick down` takes the interface down, and leaves the key file. -/
lemma down_wgDown : Down conduct (applyEff tool conduct host (.shared .wgDown) pc).1 ∧
    (applyEff tool conduct host (.shared .wgDown) pc).1.priv = pc.priv := by
  simp only [applyEff, eff]
  cases hfailure : conduct.failure .wgDown with
  | some k => exact ⟨fun hnone => (by rw [hfailure] at hnone; cases hnone), rfl⟩
  | none =>
    simp only [Cmd.perform]
    split_ifs with hlink
    · exact ⟨fun _ => rfl, rfl⟩
    · exact ⟨fun _ => by simpa using hlink, rfl⟩

/-- `cp` copies the prepared configuration. -/
lemma prepared_cp (h : Down conduct pc ∧ pc.priv = old.priv)
    (hstatus : (applyEff tool conduct host .cp pc).2 = 0) :
    Prepared conduct host old (applyEff tool conduct host .cp pc).1 := by
  rw [applyEff] at hstatus ⊢
  cases hfailure : conduct.cpFailure with
  | none => exact ⟨h.1, h.2, template host, rfl, rfl⟩
  | some k => simp [hfailure] at hstatus

/-- A `cp` that fails does not touch the interface. -/
lemma down_cp (h : Down conduct pc) : Down conduct (applyEff tool conduct host .cp pc).1 := by
  rw [applyEff]
  split
  · exact h
  · split_ifs
    · exact h
    · exact h

/-- With a plain value, `sed` does not touch the public key.

**Proof sketch.** A plain value only replaces the placeholder in the line of the private key;
without the file the command fails and changes nothing. -/
lemma prepared_sed {privValue : String} (hplain : Plain privValue)
    (h : Prepared conduct host old pc) :
    Prepared conduct host old (applyEff tool conduct host (.sed privValue) pc).1 := by
  obtain ⟨hdown, hpriv, conf, hconf, hkey⟩ := h
  rw [applyEff]
  split
  · refine ⟨hdown, hpriv, substitute conduct host privValue conf, ?_, ?_⟩
    · exact Option.mem_map_of_mem _ hconf
    · rw [substitute, if_pos hplain]
      split_ifs
      · exact hkey
      · exact hkey
  · exact ⟨hdown, hpriv, conf, hconf, hkey⟩

/-- `cat` only prints. -/
lemma prepared_catPriv (h : Prepared conduct host old pc) :
    Prepared conduct host old (applyEff tool conduct host (.shared .catPriv) pc).1 := by
  rw [applyEff, eff]
  split
  · exact h
  · exact h

/-- A command whose effect is outside of the model keeps what was prepared. -/
lemma prepared_other {what : String} (h : Prepared conduct host old pc) :
    Prepared conduct host old (applyEff tool conduct host (.shared (.other what)) pc).1 := by
  rw [applyEff, eff]
  split
  · exact h
  · exact h

/-- `wg-quick up` accepts only keys of 44 characters.

**Proof sketch.** A configuration is there, with the prepared public key. If the command is kept
from it, or finds a key of another length or the interface up, it fails and changes nothing. -/
lemma wgUp_cases (h : Prepared conduct host old pc) :
    (applyEff tool conduct host (.shared .wgUp) pc).2 ≠ 0 ∧
        (applyEff tool conduct host (.shared .wgUp) pc).1 = pc ∨
      (template host).publicKey.utf8ByteSize = 44 := by
  obtain ⟨-, -, conf, hconf, hkey⟩ := h
  simp only [applyEff, eff]
  cases hfailure : conduct.failure .wgUp with
  | some k => exact Or.inl ⟨Nat.succ_ne_zero k, rfl⟩
  | none =>
    simp only [Cmd.perform]
    split
    · rename_i conf' hlink hconf'
      obtain rfl : conf = conf' := Option.some.inj (hconf.symm.trans hconf')
      split_ifs with hsize
      · exact Or.inr (hkey ▸ hsize.2)
      · exact Or.inl ⟨Nat.one_ne_zero, rfl⟩
    · exact Or.inl ⟨Nat.one_ne_zero, rfl⟩

/-- How the script stops: without success, and with nothing done, with `wg0` down, or with a
public key that `wg-quick` accepts. -/
def Stopped (conduct : ApplyConduct) (host : Host) (old : Pc) (o : Outcome) (pc : Pc) : Prop :=
  o.status ≠ some 0 ∧ (pc = old ∨ Down conduct pc) ∨ (template host).publicKey.utf8ByteSize = 44

/-- A command that fails, or before which the script is killed. -/
lemma Stopped.of_down (h : Down conduct pc) {status : ℕ} (hstatus : status ≠ 0) :
    Stopped conduct host old .killed pc ∧ Stopped conduct host old (.exited status) pc :=
  ⟨Or.inl ⟨by simp [Outcome.status], Or.inr h⟩,
    Or.inl ⟨by simpa [Outcome.status] using hstatus, Or.inr h⟩⟩

/-- **The script comes to its end** only with a public key of 44 characters, when the key file has
no special characters.

**Proof sketch.** One rule for each command. Behind `wg-quick down` the interface is down, and it
stays so until `wg-quick up`. Behind `cp` the configuration has the prepared public key, which
`sed` leaves as it is, since its value is that of the key file. `wg-quick up` then succeeds only
with a key of 44 characters. -/
theorem triple_applyWg {asRoot : Bool} (hplain : Plain old.privVal) :
    Triple (applyEff tool conduct host) (· = old) (applyWg asRoot)
      (fun _ => (template host).publicKey.utf8ByteSize = 44) (Stopped conduct host old) := by
  have hkill {pc : Pc} (h : Down conduct pc) : Stopped conduct host old .killed pc :=
    (Stopped.of_down h Nat.one_ne_zero).1
  have hfail {pc : Pc} {status : ℕ} (h : Down conduct pc) (hstatus : status ≠ 0) :
      Stopped conduct host old (.exited status) pc :=
    (Stopped.of_down h hstatus).2
  have hdown : Triple (applyEff tool conduct host) (· = old) (.attempt (.shared .wgDown))
      (fun pc => Down conduct pc ∧ pc.priv = old.priv) (Stopped conduct host old) := by
    refine Triple.attempt (fun pc h => ?_) ?_
    · exact Or.inl ⟨by simp [Outcome.status], Or.inl h⟩
    · rintro pc rfl
      exact down_wgDown
  have hcp : Triple (applyEff tool conduct host) (fun pc => Down conduct pc ∧ pc.priv = old.priv)
      (.run .cp) (Prepared conduct host old) (Stopped conduct host old) :=
    Triple.run (fun _ h => hkill h.1) (fun _ => prepared_cp)
      fun _ h hstatus => hfail (down_cp h.1) hstatus
  -- the commands in front of `wg-quick up` keep what was copied
  have hkeep {cmd : ApplyCmd} (h : ∀ pc, Prepared conduct host old pc →
      Prepared conduct host old (applyEff tool conduct host cmd pc).1) :
      Triple (applyEff tool conduct host) (Prepared conduct host old) (.run cmd)
        (Prepared conduct host old) (Stopped conduct host old) :=
    Triple.run (fun _ hpc => hkill hpc.down) (fun pc hpc _ => h pc hpc)
      fun pc hpc hstatus => hfail (h pc hpc).down hstatus
  have hup : Triple (applyEff tool conduct host) (Prepared conduct host old)
      (.run (.shared .wgUp)) (fun _ => (template host).publicKey.utf8ByteSize = 44)
      (Stopped conduct host old) := by
    refine Triple.run (fun _ h => hkill h.down) (fun pc h hstatus => ?_) fun pc h hstatus => ?_
    · exact (wgUp_cases h).resolve_left fun hne => hne.1 hstatus
    · rcases wgUp_cases h with ⟨-, hsame⟩ | hsize
      · exact hfail (hsame.symm ▸ h.down) hstatus
      · exact Or.inr hsize
  have hshow : Triple (applyEff tool conduct host)
      (fun _ => (template host).publicKey.utf8ByteSize = 44) (.run (.shared .wgShow))
      (fun _ => (template host).publicKey.utf8ByteSize = 44) (Stopped conduct host old) :=
    Triple.run (fun _ => Or.inr) (fun _ h _ => h) fun _ h _ => Or.inr h
  refine Triple.ite (Triple.exit fun pc h => ?_) ?_
  · exact Or.inl ⟨by simp [Outcome.status], Or.inl h.1⟩
  · refine Triple.consequence ?_ (fun pc h => h.1) fun pc h => h
    refine hdown.seq <| hcp.seq <| (hkeep fun _ => prepared_catPriv).seq <|
      Triple.capture fun privValue => ?_
    -- the value that is substituted is the one of the key file
    intro n pc hpc
    have hvalue : Plain privValue := by
      rw [← hpc.2, Pc.privVal, hpc.1.priv]
      exact hplain
    exact ((hkeep fun _ => prepared_sed hvalue).seq <| (hkeep fun _ => prepared_other).seq <|
      hup.seq hshow) n pc hpc.1

end

/-- Carry out `apply_wg.sh` on a PC, until it ends or is killed. -/
def applyRun (tool : Tool) (conduct : ApplyConduct) (host : Host) (asRoot : Bool) (limit : ℕ)
    (pc : Pc) : Result Pc :=
  (applyWg asRoot).exec (applyEff tool conduct host) limit pc

/-- **A prepared configuration with a key of 44 characters** is brought up, with the private key of
the PC, when root runs the script and nothing fails.

**Proof sketch.** Carry out the seven commands one after the other. -/
theorem applyRun_up {tool : Tool} {conduct : ApplyConduct} {host : Host} (limit : ℕ) {pc : Pc}
    (hquiet : conduct.failure = (fun _ => none) ∧ conduct.cpFailure = none ∧
      conduct.sedFailure = none) {priv : String} (hpriv : pc.priv = some priv)
    (hsize : priv.utf8ByteSize = 44) (hplain : Plain priv)
    (hpub : (template host).publicKey.utf8ByteSize = 44) :
    (applyRun tool conduct host true (limit + 7) pc).outcome = .next ∧
      (applyRun tool conduct host true (limit + 7) pc).state.link =
        some { template host with privateKey := priv } := by
  obtain ⟨hfailure, hcp, hsed⟩ := hquiet
  have hplaceholder : (template host).privateKey = placeholder host := by
    cases host <;> rfl
  have hsubst : substitute conduct host priv (template host) =
      { template host with privateKey := priv } := by
    rw [substitute, if_pos hplain, if_pos hplaceholder]
  obtain ⟨installed, _, pub, conf, link, screen⟩ := pc
  subst hpriv
  -- `wg-quick down` fails where `wg0` is not up, and is ignored
  cases link <;> simp [applyRun, applyWg, replaceWg, Script.exec, applyEff, eff, hfailure, hcp,
    hsed, Cmd.perform, Pc.privVal, hsubst, hsize, hpub]

end Wg

open Wg

/-- Whatever the state of PC b is, with a key file without the characters that are special to
`sed`, whoever runs `apply_wg.sh b`, and wherever it fails or is killed: it does not succeed, and
it has done nothing, or `wg0` is down behind it, unless something has kept `wg-quick down` from
taking it down.

**Proof sketch.** The public key in the prepared configuration has 43 characters, so neither of the
two ways in which `triple_applyWg` lets the script succeed is open. -/
theorem applyWg_b (tool : Tool) (conduct : ApplyConduct) (asRoot : Bool) (limit : ℕ) (pc : Pc)
    (hplain : Plain pc.privVal) :
    (applyRun tool conduct .b asRoot limit pc).outcome.status ≠ some 0 ∧
      ((applyRun tool conduct .b asRoot limit pc).state = pc ∨
        (conduct.failure .wgDown = none →
          (applyRun tool conduct .b asRoot limit pc).state.link = none)) := by
  have hsize : (template .b).publicKey.utf8ByteSize ≠ 44 := by decide
  have htriple : Triple (applyEff tool conduct .b) (· = pc) (applyWg asRoot)
      (fun _ => (template .b).publicKey.utf8ByteSize = 44) (Stopped conduct .b pc) :=
    triple_applyWg hplain
  obtain ⟨hnext, hstop⟩ := htriple limit pc rfl
  exact (hstop fun hout => hsize (hnext hout)).resolve_right hsize

/-- A machine on which every command does what it should. -/
def fineApply : ApplyConduct :=
  { fine "6P0IpxUuGpAZkCaDHQi005bdTqfRsJMKi8o0q960CVo=" length_sampleKey with
    cpFailure := none
    sedFailure := none
    sedSpecial := fun _ conf => conf }

/-- A PC b whose interface is up. -/
def upPc : Pc :=
  let conf := heredoc .b "6P0IpxUuGpAZkCaDHQi005bdTqfRsJMKi8o0q960CVo="
    "NO3+IbQxgWny2FvN67UmMWVYCjbWqpc/SfQ4koFoZCU="
  ⟨true, some "6P0IpxUuGpAZkCaDHQi005bdTqfRsJMKi8o0q960CVo=",
    some "JChmhoalyNZt775i695FK09OBOvrFb1utX4h6fmwjlY=", some conf, some conf, []⟩

/-- Root runs the script on a PC b whose tunnel works, every command does what it should, and the
tunnel is gone. -/
theorem applyWg_b_up : upPc.link.isSome = true ∧
    (applyRun sampleTool fineApply .b true 10 upPc).outcome.status ≠ some 0 ∧
      (applyRun sampleTool fineApply .b true 10 upPc).state.link = none := by
  have hplain : Plain upPc.privVal := by decide
  obtain ⟨hstatus, hsame | hdown⟩ := applyWg_b sampleTool fineApply true 10 upPc hplain
  · have hconf := congrArg (fun pc => pc.conf) hsame
    exact absurd hconf (by decide)
  · exact ⟨rfl, hstatus, hdown rfl⟩

end CommBench
