import CommBench.Network.SetupWg

set_option relaxedAutoImplicit false
set_option autoImplicit false

/-!
# The keys of the tunnel

`setup_wg.sh` says that the keys are not generated again if they are there. That holds when root
runs it: then the configurations of the two PCs always make a tunnel, in whatever order the
invocations come, however often they are repeated and wherever they stop, as long as the operator
copies the public keys that each PC printed as its own. When another user runs the script, it
generates new keys every time, also when it writes the configuration, and the public key that the
other PC has got is out of date: no two configurations ever make a tunnel. Both results leave out
the failure that the pipeline hides: a `tee` that cannot write the private key.

## Main definitions

* `CommBench.Wg.RootInv` — what an invocation by root keeps on its PC.
* `CommBench.Wg.Fresh` — no generated key was known before.

## Main results

* `CommBench.Wg.eff_cases` — what a command can do.
* `CommBench.Wg.triple_root`, `CommBench.Wg.triple_user` — the script run by root, and by another
  user.
* `CommBench.tunnel_of_root` — run by root, the configurations always make a tunnel.
* `CommBench.no_tunnel_of_user` — run by another user, they never do.
-/

namespace CommBench

open Shell Trace

namespace Wg

section Commands

variable {tool : Tool} {conduct : Conduct} {cmd : Cmd} {pc pc' : Pc}

/-- **What a command can do** to the keys, to the configurations and to the screen. -/
inductive Effect (tool : Tool) (conduct : Conduct) (pc : Pc) : Cmd → Pc → Prop
  | keep {cmd : Cmd} {pc' : Pc} (hpriv : pc'.priv = pc.priv) (hpub : pc'.pub = pc.pub)
    (hconfs : ∀ c ∈ pc'.confs, c ∈ pc.confs) (hscreen : pc'.screen = pc.screen) :
    Effect tool conduct pc cmd pc'
  | newKey (priv : Option String) (hpriv : conduct.Unmasked → priv = some conduct.key) :
    Effect tool conduct pc .genkey { pc with priv := priv, pub := some (tool.pubkey conduct.key) }
  | noKey (priv pub : Option String) (hpub : pub = some "" ∨ pub = pc.pub) :
    Effect tool conduct pc .genkey { pc with priv := priv, pub := pub }
  | tee (conf : Conf) : Effect tool conduct pc (.tee conf) { pc with conf := some conf }
  | wgShow (conf : Conf) (hconf : conf ∈ pc.confs) : Effect tool conduct pc .wgShow
      { pc with
        screen := pc.screen ++ [.own (tool.pubkey conf.privateKey), .peer conf.publicKey] }
  | echo (pub : String) : Effect tool conduct pc (.echo pub)
      { pc with screen := pc.screen ++ [.own pub] }

/-- The configurations are the file and the interface. -/
lemma mem_confs {conf : Conf} : conf ∈ pc.confs ↔ pc.conf = some conf ∨ pc.link = some conf := by
  simp only [Pc.confs, List.mem_append, Option.mem_toList]

/-- A command that changes nothing. -/
lemma Effect.refl : Effect tool conduct pc cmd pc := .keep rfl rfl (fun _ h => h) rfl

/-- A command that nothing keeps from what it should do.

**Proof sketch.** One case for each command, and one for each branch of it. `wg-quick` moves a
configuration that is there already, and `wg show` needs an interface with one. -/
lemma effect_perform (hfailure : conduct.failure cmd = none) :
    Effect tool conduct pc cmd (cmd.perform tool conduct pc).1 := by
  cases cmd with
  | apt => exact .keep rfl rfl (fun _ h => h) rfl
  | genkey =>
    rw [Cmd.perform]
    split_ifs
    · exact .newKey _ fun hunmasked => by rw [hunmasked hfailure, Option.getD_none]
    · exact .noKey _ _ (Or.inl rfl)
  | catPub | catPriv | other => exact .refl
  | wgDown =>
    rw [Cmd.perform]
    split_ifs
    · refine .keep rfl rfl (fun c hc => ?_) rfl
      exact mem_confs.mpr (Or.inl (by simpa [mem_confs] using hc))
    · exact .refl
  | tee conf => exact .tee conf
  | wgUp =>
    rw [Cmd.perform]
    split
    · rename_i conf hlink hconf
      split_ifs
      · refine .keep rfl rfl (fun c hc => ?_) rfl
        rcases mem_confs.mp hc with h | h
        · exact mem_confs.mpr (Or.inl h)
        · exact mem_confs.mpr (Or.inl (hconf.trans h))
      · exact .refl
    · exact .refl
  | wgShow =>
    rw [Cmd.perform]
    split
    · rename_i conf hlink
      exact .wgShow conf (mem_confs.mpr (Or.inr hlink))
    · exact .refl
  | echo pub => exact .echo pub

/-- A command that fails.

**Proof sketch.** A `genkey` that fails leaves an empty public key, or the one from before. A `tee`
that fails may have emptied the configuration, and every other command that fails has changed
nothing. -/
lemma effect_fail : Effect tool conduct pc cmd (cmd.fail conduct pc) := by
  cases cmd with
  | genkey =>
    rw [Cmd.fail]
    refine .noKey _ _ ?_
    split_ifs
    · exact Or.inl rfl
    · exact Or.inr rfl
  | tee conf =>
    rw [Cmd.fail]
    split_ifs
    · refine .keep rfl rfl (fun c hc => ?_) rfl
      exact mem_confs.mpr (Or.inr (by simpa [mem_confs] using hc))
    · exact .refl
  | _ => exact .refl

/-- **Every command has one of the listed effects.** -/
theorem effect (tool : Tool) (conduct : Conduct) (cmd : Cmd) (pc : Pc) :
    Effect tool conduct pc cmd (eff tool conduct cmd pc).1 := by
  cases hfailure : conduct.failure cmd with
  | none =>
    simp only [eff, hfailure]
    exact effect_perform hfailure
  | some k =>
    simp only [eff, hfailure]
    exact effect_fail

/-- A generation of the keys that has the status `0` and hides no failure. -/
lemma eff_genkey (hunmasked : conduct.Unmasked) (h : (eff tool conduct .genkey pc).2 = 0) :
    (eff tool conduct .genkey pc).1 =
      { pc with priv := some conduct.key, pub := some (tool.pubkey conduct.key) } := by
  cases hfailure : conduct.failure .genkey with
  | none =>
    simp only [eff, hfailure, Cmd.perform, hunmasked hfailure, Option.getD_none] at h ⊢
    split_ifs at h ⊢
    rfl
  | some k =>
    simp only [eff, hfailure] at h
    cases h

/-- The commands behind the generation of the keys leave them alone. -/
lemma keys_eff (hcmd : cmd ≠ .genkey) : (eff tool conduct cmd pc).1.privVal = pc.privVal ∧
    (eff tool conduct cmd pc).1.pubVal = pc.pubVal := by
  have heffect := effect tool conduct cmd pc
  generalize (eff tool conduct cmd pc).1 = pc' at heffect ⊢
  cases heffect with
  | keep hpriv hpub => rw [Pc.privVal, Pc.pubVal, hpriv, hpub]; exact ⟨rfl, rfl⟩
  | newKey | noKey => exact absurd rfl hcmd
  | tee | wgShow | echo => exact ⟨rfl, rfl⟩

/-- A public key is not empty. -/
lemma pubkey_ne_nil (tool : Tool) (conduct : Conduct) : tool.pubkey conduct.key ≠ "" := by
  intro hnil
  have hlen := tool.pubkey_length conduct.key conduct.key_length
  rw [hnil] at hlen
  cases hlen

/-- **The script**, for an assertion `P` of its first part and `R` of the part behind the
generation of the keys; `E` is what it leaves, wherever it stops.

**Proof sketch.** The rules for the commands in their order. The test for the argument separates the
part that prints the public key from the one that writes the configuration. -/
lemma triple_setupWg {P R E : Pc → Prop} {host : Host} {asRoot : Bool} {peerPub : String}
    (hPE : ∀ pc, P pc → E pc) (hRE : ∀ pc, R pc → E pc)
    (hapt : ∀ pc, P pc → P (eff tool conduct .apt pc).1)
    (hother : ∀ what pc, P pc → P (eff tool conduct (.other what) pc).1)
    (hkeys : Triple (eff tool conduct) P (ensureKeys asRoot) R fun _ => E)
    (hcat : ∀ pc, R pc → (eff tool conduct .catPub pc).2 = 0 → R (eff tool conduct .catPub pc).1)
    (hcat' : ∀ pc, R pc → E (eff tool conduct .catPub pc).1)
    (hecho : ∀ pc, R pc → E (eff tool conduct (.echo pc.pubVal) pc).1)
    (happly : peerPub ≠ "" → Triple (eff tool conduct) R (applyMode host peerPub) E fun _ => E) :
    Triple (eff tool conduct) P (setupWg host asRoot peerPub) E fun _ => E := by
  have hinstall : Triple (eff tool conduct) P install P fun _ => P :=
    Triple.of_commands ⟨trivial, hapt⟩
  have hrun (what : String) : Triple (eff tool conduct) P (.run (.other what)) P fun _ => P :=
    Triple.of_commands (hother what)
  refine (hinstall.stopped fun _ => hPE).seq <| ((hrun _).stopped fun _ => hPE).seq <|
    ((hrun _).stopped fun _ => hPE).seq <| hkeys.seq <|
    (Triple.run hRE hcat fun pc h _ => hcat' pc h).seq <| Triple.capture fun pubVal =>
    Triple.ite ?_ ?_
  · refine Triple.seq (R := E) (Triple.run (fun pc h => hRE pc h.1.1) ?_ ?_)
      (Triple.exit fun pc h => h)
    · rintro pc ⟨⟨h, rfl⟩, -⟩ -
      exact hecho pc h
    · rintro pc ⟨⟨h, rfl⟩, -⟩ -
      exact hecho pc h
  · by_cases hnil : peerPub = ""
    · intro n pc h
      simp [hnil] at h
    · exact (happly hnil).consequence (fun pc h => h.1.1) fun pc h => h

/-- **Writing the configuration**: `T` is what the commands keep, with the private key that was
read.

**Proof sketch.** All commands behind the reading of the private key keep `T`: seven of them by
`hkeep`, and the one that writes the configuration by `htee`. -/
lemma triple_applyMode {R E : Pc → Prop} {T : String → Pc → Prop} {host : Host} {peerPub : String}
    (hRE : ∀ pc, R pc → E pc) (hTE : ∀ privVal pc, T privVal pc → E pc)
    (hcat : ∀ pc, R pc → R (eff tool conduct .catPriv pc).1) (hT : ∀ pc, R pc → T pc.privVal pc)
    (hkeep : ∀ cmd, cmd ≠ .genkey → (∀ conf, cmd ≠ .tee conf) → (∀ pub, cmd ≠ .echo pub) →
      ∀ privVal pc, T privVal pc → T privVal (eff tool conduct cmd pc).1)
    (htee : ∀ privVal pc, T privVal pc →
      T privVal (eff tool conduct (.tee (heredoc host privVal peerPub)) pc).1) :
    Triple (eff tool conduct) R (applyMode host peerPub) E fun _ => E := by
  have hquiet {cmd : Cmd} {privVal : String} (hkey : cmd ≠ .genkey)
      (hconf : ∀ conf, cmd ≠ .tee conf) (hpub : ∀ pub, cmd ≠ .echo pub) (pc : Pc)
      (h : T privVal pc) :
      T privVal (eff tool conduct cmd pc).1 := hkeep cmd hkey hconf hpub privVal pc h
  apply Triple.ite
  · exact Triple.exit fun pc h => hRE pc h.1
  · refine Triple.seq (R := R) (Triple.run (fun pc h => hRE pc h.1) (fun pc h _ => hcat pc h.1)
      fun pc h _ => hRE _ (hcat pc h.1)) (Triple.capture fun privVal => ?_)
    have hbringUp : Triple (eff tool conduct) (T privVal) (bringUp host peerPub privVal) (T privVal)
        fun _ => T privVal := by
      refine Triple.of_commands ⟨?_, ?_, ?_, ?_, htee privVal, ?_, ?_, ?_⟩ <;>
        exact hquiet (by simp) (by simp) (by simp)
    refine (hbringUp.stopped fun _ => hTE privVal).consequence ?_ (hTE privVal)
    rintro pc ⟨h, rfl⟩
    exact hT pc h

end Commands

/-! ## The script of another user -/

/-- The configurations on a PC are those of before, and those with the given keys. -/
def Grown (old : List Conf) (key peerPub : String) (pc : Pc) : Prop :=
  ∀ conf ∈ pc.confs, conf ∈ old ∨ conf.privateKey = key ∧ conf.publicKey = peerPub

section User

variable {tool : Tool} {conduct : Conduct} {cmd : Cmd} {pc : Pc} {old : List Conf}
  {key peerPub : String} {host : Host}

/-- A command adds only the configuration that `tee` writes.

**Proof sketch.** By the effects of the commands: only `tee` brings a configuration that was not
there. -/
lemma Grown.eff (h : Grown old key peerPub pc)
    (htee : ∀ conf, cmd = .tee conf → conf.privateKey = key ∧ conf.publicKey = peerPub) :
    Grown old key peerPub (eff tool conduct cmd pc).1 := by
  have heffect := effect tool conduct cmd pc
  generalize (Wg.eff tool conduct cmd pc).1 = pc' at heffect ⊢
  intro conf hconf
  cases heffect with
  | keep hpriv hpub hconfs => exact h conf (hconfs conf hconf)
  | newKey | noKey | wgShow | echo => exact h conf hconf
  | tee new =>
    rcases mem_confs.mp hconf with hnew | hlink
    · obtain rfl : new = conf := Option.some.inj hnew
      exact Or.inr (htee new rfl)
    · exact h conf (mem_confs.mpr (Or.inr hlink))

/-- **The script of another user than root** generates a key every time, and writes a
configuration with this key and the given public key, if any.

**Proof sketch.** The test does not see the files, so the keys are generated, and behind that the
private key is the new one. No later command writes the keys, so `tee` writes this one. -/
theorem triple_user (hunmasked : conduct.Unmasked) :
    Triple (Wg.eff tool conduct) (Grown old conduct.key peerPub) (setupWg host false peerPub)
      (Grown old conduct.key peerPub) fun _ => Grown old conduct.key peerPub := by
  have hkeep {cmd : Cmd} (htee : ∀ conf, cmd ≠ .tee conf) (pc : Pc)
      (h : Grown old conduct.key peerPub pc) :
      Grown old conduct.key peerPub (Wg.eff tool conduct cmd pc).1 :=
    h.eff fun conf hconf => absurd hconf (htee conf)
  have hkeep' {cmd : Cmd} (htee : ∀ conf, cmd ≠ .tee conf) (hkey : cmd ≠ .genkey) (pc : Pc)
      (h : Grown old conduct.key peerPub pc ∧ pc.privVal = conduct.key) :
      Grown old conduct.key peerPub (Wg.eff tool conduct cmd pc).1 ∧
        (Wg.eff tool conduct cmd pc).1.privVal = conduct.key :=
    ⟨hkeep htee pc h.1, (keys_eff hkey).1.trans h.2⟩
  refine triple_setupWg (R := fun pc => Grown old conduct.key peerPub pc ∧ pc.privVal = conduct.key)
    (fun pc h => h) (fun pc h => h.1) (hkeep (by simp)) (fun what => hkeep (by simp)) ?_
    (fun pc h _ => hkeep' (by simp) (by simp) pc h) (fun pc h => hkeep (by simp) pc h.1)
    (fun pc h => hkeep (by simp) pc h.1) fun _ => ?_
  · have hchmod : Triple (Wg.eff tool conduct)
        (fun pc => Grown old conduct.key peerPub pc ∧ pc.privVal = conduct.key)
        (.run (.other "chmod 600 PRIV"))
        (fun pc => Grown old conduct.key peerPub pc ∧ pc.privVal = conduct.key)
        fun _ pc => Grown old conduct.key peerPub pc ∧ pc.privVal = conduct.key :=
      Triple.of_commands (hkeep' (by simp) (by simp))
    -- the test does not see the files
    apply Triple.ite
    · exact Triple.skip fun pc h => by simp at h
    · refine Triple.seq (R := fun pc => Grown old conduct.key peerPub pc ∧ pc.privVal = conduct.key)
        (Triple.run (fun pc h => h.1) (fun pc h hstatus => ?_) fun pc h _ => ?_)
        (hchmod.stopped fun _ pc h => h.1)
      · exact ⟨hkeep (by simp) pc h.1, by rw [eff_genkey hunmasked hstatus]; rfl⟩
      · exact hkeep (by simp) pc h.1
  · refine triple_applyMode
      (T := fun privVal pc => Grown old conduct.key peerPub pc ∧ privVal = conduct.key)
      (fun pc h => h.1) (fun _ pc h => h.1) (hkeep' (by simp) (by simp)) (fun pc h => h) ?_ ?_
    · exact fun cmd _ htee _ privVal pc h => ⟨hkeep htee pc h.1, h.2⟩
    · rintro privVal pc ⟨h, rfl⟩
      refine ⟨h.eff ?_, rfl⟩
      rintro conf hconf
      cases hconf
      exact ⟨rfl, rfl⟩

end User

/-! ## The script of root -/

/-- What an invocation by root keeps on its PC: the key files belong together, only their public
key was printed as that of the PC, and every configuration is one with their private key and a
public key that `A` allows. -/
structure RootInv (tool : Tool) (host : Host) (A : String → Prop) (pc : Pc) : Prop where
  keys : pc.pubVal ≠ "" → pc.pubVal = tool.pubkey pc.privVal ∧ pc.privVal ≠ ""
  screen : ∀ pub, .own pub ∈ pc.screen → pub = pc.pubVal ∧ pc.pubVal ≠ ""
  confs : ∀ conf ∈ pc.confs, pc.pubVal ≠ "" ∧ ∃ peerPub, A peerPub ∧
    conf = heredoc host pc.privVal peerPub

/-- The keys of before are still there. -/
def Stable (old pc : Pc) : Prop :=
  old.pubVal ≠ "" → pc.pubVal = old.pubVal ∧ pc.privVal = old.privVal

section Root

variable {tool : Tool} {conduct : Conduct} {cmd : Cmd} {pc old : Pc} {host : Host}
  {A : String → Prop} {peerPub : String}

/-- The commands that do not touch the keys keep both.

**Proof sketch.** By the effects of the commands. What `echo` and `wg show` print as the own key is
the public key of the PC, and `tee` writes the present private key. -/
lemma RootInv.eff (h : RootInv tool host A pc ∧ Stable old pc) (hkey : cmd ≠ .genkey)
    (htee : ∀ conf, cmd = .tee conf → pc.pubVal ≠ "" ∧ ∃ peerPub, A peerPub ∧
      conf = heredoc host pc.privVal peerPub)
    (hecho : ∀ pub, cmd = .echo pub → pub = pc.pubVal ∧ pc.pubVal ≠ "") :
    RootInv tool host A (Wg.eff tool conduct cmd pc).1 ∧
      Stable old (Wg.eff tool conduct cmd pc).1 := by
  obtain ⟨⟨hkeys, hscreen, hconfs⟩, hstable⟩ := h
  have heffect := effect tool conduct cmd pc
  generalize (Wg.eff tool conduct cmd pc).1 = pc' at heffect ⊢
  cases heffect with
  | keep hpriv hpub hsub hsame =>
    have hprivVal : pc'.privVal = pc.privVal := congrArg (Option.getD · "") hpriv
    have hpubVal : pc'.pubVal = pc.pubVal := congrArg (Option.getD · "") hpub
    rw [Stable, hprivVal, hpubVal]
    refine ⟨⟨?_, ?_, ?_⟩, hstable⟩
    · rwa [hprivVal, hpubVal]
    · rwa [hsame, hpubVal]
    · rw [hprivVal, hpubVal]
      exact fun conf hconf => hconfs conf (hsub conf hconf)
  | newKey | noKey => exact absurd rfl hkey
  | tee conf =>
    refine ⟨⟨hkeys, hscreen, fun conf' hconf' => ?_⟩, hstable⟩
    rcases mem_confs.mp hconf' with hnew | hlink
    · obtain rfl : conf = conf' := Option.some.inj hnew
      exact htee conf rfl
    · exact hconfs conf' (mem_confs.mpr (Or.inr hlink))
  | wgShow conf hconf =>
    refine ⟨⟨hkeys, fun pub hpub => ?_, hconfs⟩, hstable⟩
    rcases List.mem_append.mp hpub with hold | hnew
    · exact hscreen pub hold
    · obtain ⟨hne, p, -, rfl⟩ := hconfs conf hconf
      obtain rfl : pub = tool.pubkey pc.privVal := by simpa [heredoc] using hnew
      exact ⟨(hkeys hne).1.symm, hne⟩
  | echo pub =>
    refine ⟨⟨hkeys, fun pub' hpub' => ?_, hconfs⟩, hstable⟩
    rcases List.mem_append.mp hpub' with hold | hnew
    · exact hscreen pub' hold
    · obtain rfl : pub' = pub := by simpa using hnew
      exact hecho pub' rfl

/-- Root generates the keys only while there are none.

**Proof sketch.** Without a public key nothing was printed as the own one, and there is no
configuration. A generation that succeeds has written both keys, and one that fails leaves the
public key empty. -/
lemma RootInv.genkey (hunmasked : conduct.Unmasked) (h : RootInv tool host A pc ∧ Stable old pc)
    (hnone : pc.pubVal = "") : RootInv tool host A (Wg.eff tool conduct .genkey pc).1 ∧
      Stable old (Wg.eff tool conduct .genkey pc).1 := by
  obtain ⟨⟨hkeys, hscreen, hconfs⟩, hstable⟩ := h
  have hscreen' : ∀ pub, .own pub ∉ pc.screen := fun pub hpub => (hscreen pub hpub).2 hnone
  have hconfs' : ∀ conf, conf ∉ pc.confs := fun conf hconf => (hconfs conf hconf).1 hnone
  have hold : old.pubVal = "" := by
    by_contra hne
    exact hne ((hstable hne).1.symm.trans hnone)
  have heffect := effect tool conduct .genkey pc
  generalize (Wg.eff tool conduct .genkey pc).1 = pc' at heffect ⊢
  refine ⟨?_, fun hne => absurd hold hne⟩
  cases heffect with
  | keep hpriv hpub hsub hsame =>
    have hpubVal : pc'.pubVal = "" := (congrArg (Option.getD · "") hpub).trans hnone
    refine ⟨fun hne => absurd hpubVal hne, fun pub hpub => ?_, fun conf hconf => ?_⟩
    · exact absurd (hsame ▸ hpub) (hscreen' pub)
    · exact absurd (hsub conf hconf) (hconfs' conf)
  | newKey priv hpriv =>
    refine ⟨fun _ => ?_, fun pub hpub => absurd hpub (hscreen' pub),
      fun conf hconf => absurd hconf (hconfs' conf)⟩
    rw [hpriv hunmasked]
    refine ⟨rfl, fun hnil => ?_⟩
    have hnil' : conduct.key = "" := hnil
    have hlen := conduct.key_length
    rw [hnil'] at hlen
    cases hlen
  | noKey priv pub hpub =>
    -- a failed generation has emptied the public key, or has left the empty one there
    have hnil : pub.getD "" = "" := by
      rcases hpub with rfl | rfl
      · rfl
      · exact hnone
    exact ⟨fun hne => absurd hnil hne, fun pub' hpub' => absurd hpub' (hscreen' pub'),
      fun conf hconf => absurd hconf (hconfs' conf)⟩

/-- **The script of root** keeps the invariant, and the keys that are there.

**Proof sketch.** The keys are generated only where one of the files is empty, and then there is no
public key yet (`RootInv.genkey`). The other commands keep the invariant by `RootInv.eff`, where
`echo` prints and `tee` writes what was read from the files. -/
theorem triple_root (hunmasked : conduct.Unmasked) (hA : peerPub ≠ "" → A peerPub) :
    Triple (Wg.eff tool conduct) (fun pc => RootInv tool host A pc ∧ Stable old pc)
      (setupWg host true peerPub) (fun pc => RootInv tool host A pc ∧ Stable old pc)
      fun _ pc => RootInv tool host A pc ∧ Stable old pc := by
  have hkeep {cmd : Cmd} (hkey : cmd ≠ .genkey) (htee : ∀ conf, cmd ≠ .tee conf)
      (hecho : ∀ pub, cmd ≠ .echo pub) (pc : Pc) (h : RootInv tool host A pc ∧ Stable old pc) :
      RootInv tool host A (Wg.eff tool conduct cmd pc).1 ∧
        Stable old (Wg.eff tool conduct cmd pc).1 :=
    RootInv.eff h hkey (fun conf hconf => absurd hconf (htee conf))
      fun pub hpub => absurd hpub (hecho pub)
  have hkeep' {cmd : Cmd} (hkey : cmd ≠ .genkey) (htee : ∀ conf, cmd ≠ .tee conf)
      (hecho : ∀ pub, cmd ≠ .echo pub) (pc : Pc)
      (h : (RootInv tool host A pc ∧ Stable old pc) ∧ pc.pubVal ≠ "") :
      (RootInv tool host A (Wg.eff tool conduct cmd pc).1 ∧
        Stable old (Wg.eff tool conduct cmd pc).1) ∧ (Wg.eff tool conduct cmd pc).1.pubVal ≠ "" :=
    ⟨hkeep hkey htee hecho pc h.1, by rw [(keys_eff hkey).2]; exact h.2⟩
  refine triple_setupWg (R := fun pc => (RootInv tool host A pc ∧ Stable old pc) ∧ pc.pubVal ≠ "")
    (fun pc h => h) (fun pc h => h.1) (hkeep (by simp) (by simp) (by simp))
    (fun what => hkeep (by simp) (by simp) (by simp)) ?_
    (fun pc h _ => hkeep' (by simp) (by simp) (by simp) pc h)
    (fun pc h => hkeep (by simp) (by simp) (by simp) pc h.1) (fun pc h => ?_) fun hne => ?_
  · have hchmod : Triple (Wg.eff tool conduct)
        (fun pc => (RootInv tool host A pc ∧ Stable old pc) ∧ pc.pubVal ≠ "")
        (.run (.other "chmod 600 PRIV"))
        (fun pc => (RootInv tool host A pc ∧ Stable old pc) ∧ pc.pubVal ≠ "")
        fun _ pc => (RootInv tool host A pc ∧ Stable old pc) ∧ pc.pubVal ≠ "" :=
      Triple.of_commands (hkeep' (by simp) (by simp) (by simp))
    apply Triple.ite
    · exact Triple.skip fun pc h => ⟨h.1, by simpa using (of_decide_eq_true h.2).2.2⟩
    · -- there are no keys yet, since the file of the private key is not empty when the other is not
      have hnone {pc : Pc} (h : (RootInv tool host A pc ∧ Stable old pc) ∧
          decide (true = true ∧ pc.privVal ≠ "" ∧ pc.pubVal ≠ "") = false) : pc.pubVal = "" := by
        by_contra hpub
        exact of_decide_eq_false h.2 ⟨rfl, (h.1.1.keys hpub).2, hpub⟩
      refine Triple.seq
        (R := fun pc => (RootInv tool host A pc ∧ Stable old pc) ∧ pc.pubVal ≠ "")
        (Triple.run (fun pc h => h.1) (fun pc h hstatus => ?_) fun pc h _ => ?_)
        (hchmod.stopped fun _ pc h => h.1)
      · refine ⟨RootInv.genkey hunmasked h.1 (hnone h), ?_⟩
        rw [eff_genkey hunmasked hstatus]
        exact pubkey_ne_nil tool conduct
      · exact RootInv.genkey hunmasked h.1 (hnone h)
  · refine RootInv.eff h.1 (by simp) (by simp) ?_
    rintro pub hpub
    cases hpub
    exact ⟨rfl, h.2⟩
  · refine triple_applyMode
      (T := fun privVal pc => ((RootInv tool host A pc ∧ Stable old pc) ∧ pc.pubVal ≠ "") ∧
        pc.privVal = privVal)
      (fun pc h => h.1) (fun _ pc h => h.1.1) (hkeep' (by simp) (by simp) (by simp))
      (fun pc h => ⟨h, rfl⟩) ?_ ?_
    · exact fun cmd hkey htee hecho privVal pc h =>
        ⟨hkeep' hkey htee hecho pc h.1, (keys_eff hkey).1.trans h.2⟩
    · rintro privVal pc ⟨⟨h, hpub⟩, rfl⟩
      refine ⟨⟨RootInv.eff h (by simp) ?_ (by simp), ?_⟩, (keys_eff (by simp)).1⟩
      · rintro conf hconf
        cases hconf
        exact ⟨hpub, peerPub, hA hne, rfl⟩
      · rw [(keys_eff (by simp)).2]
        exact hpub

end Root

/-! ## Both PCs -/

/-- The state in which an invocation ends, wherever it stops. -/
lemma exec_state {P : Pc → Prop} {tool : Tool} {pc : Pc} (inv : Invocation)
    (h : Triple (Wg.eff tool inv.conduct) P (setupWg inv.host inv.asRoot inv.peerPub) P fun _ => P)
    (hP : P pc) : P (inv.exec tool pc).state := by
  obtain ⟨hnext, hstop⟩ := h inv.limit pc hP
  by_cases hout : (inv.exec tool pc).outcome = .next
  · exact hnext hout
  · exact hstop hout

/-- Root runs the script, the generation of keys hides no failure, and the operator gives it a
public key that the other PC printed as its own, or none. -/
def Copied (s : Host → Pc) (inv : Invocation) : Prop :=
  inv.asRoot = true ∧ inv.conduct.Unmasked ∧
    (inv.peerPub ≠ "" → .own inv.peerPub ∈ (s inv.host.other).screen)

instance (s : Host → Pc) (inv : Invocation) : Decidable (Copied s inv) :=
  inferInstanceAs (Decidable (_ ∧ _))

/-- Another user runs the script, and the generation of keys hides no failure. -/
def ByUser (inv : Invocation) : Prop := inv.asRoot = false ∧ inv.conduct.Unmasked

instance (inv : Invocation) : Decidable (ByUser inv) := inferInstanceAs (Decidable (_ ∧ _))

/-- Another user runs the script, and a generated key is new: no public key that was given to an
earlier invocation is its own. -/
def Fresh (tool : Tool) (invs : List Invocation) : Prop :=
  (∀ inv ∈ invs, ByUser inv) ∧
    invs.Pairwise fun early late => tool.pubkey late.conduct.key ≠ early.peerPub

/-- On each PC the configurations name the public key that the other PC has now. -/
def SysInv (tool : Tool) (s : Host → Pc) : Prop :=
  ∀ X, RootInv tool X (fun pub => pub = (s X.other).pubVal ∧ pub ≠ "") (s X)

section Both

variable {tool : Tool} {s s' : Host → Pc} {inv : Invocation} {invs : List Invocation}
  {installed : Host → Bool}

/-- The invariant for fewer public keys. -/
lemma RootInv.imp {A A' : String → Prop} {host : Host} {pc : Pc} (h : RootInv tool host A pc)
    (himp : ∀ pub, A pub → A' pub) : RootInv tool host A' pc where
  keys := h.keys
  screen := h.screen
  confs := fun conf hconf =>
    have ⟨hne, pub, hpub, heq⟩ := h.confs conf hconf
    ⟨hne, pub, himp pub hpub, heq⟩

/-- **An invocation by root** keeps what holds of both PCs: on its own PC it writes the public key
that was copied, and for the other PC it keeps the public key that this one names.

**Proof sketch.** On its own PC, `triple_root` with the public key of the other one as the only key
that `tee` may write. The other PC is unchanged, and its configurations name a public key of this
one, which stays (`Stable`). -/
lemma SysInv.step (h : SysInv tool s) (hcopied : Copied s inv) (hs : step tool s inv = some s') :
    SysInv tool s' := by
  obtain ⟨host, asRoot, peerPub, conduct, limit⟩ := inv
  obtain ⟨rfl, hunmasked, hpeer⟩ := hcopied
  cases hs
  have hA (hne : peerPub ≠ "") : peerPub = (s host.other).pubVal ∧ peerPub ≠ "" :=
    ⟨((h host.other).screen peerPub (hpeer hne)).1, hne⟩
  have htriple : Triple (Wg.eff tool conduct)
      (fun pc => RootInv tool host (fun pub => pub = (s host.other).pubVal ∧ pub ≠ "") pc ∧
        Stable (s host) pc)
      (setupWg host true peerPub)
      (fun pc => RootInv tool host (fun pub => pub = (s host.other).pubVal ∧ pub ≠ "") pc ∧
        Stable (s host) pc)
      fun _ pc => RootInv tool host (fun pub => pub = (s host.other).pubVal ∧ pub ≠ "") pc ∧
        Stable (s host) pc := triple_root hunmasked hA
  obtain ⟨hroot, hstable⟩ := exec_state
    ⟨host, true, peerPub, conduct, limit⟩ htriple ⟨h host, fun _ => ⟨rfl, rfl⟩⟩
  have hother : host.other ≠ host := by cases host <;> decide
  have hback : host.other.other = host := by cases host <;> rfl
  intro X
  by_cases hX : X = host
  · subst hX
    simpa only [Function.update_self, Function.update_of_ne hother] using hroot
  · obtain rfl : X = host.other := by cases X <;> cases host <;> first | rfl | exact absurd rfl hX
    simp only [hback, Function.update_self, Function.update_of_ne hother]
    refine (h host.other).imp fun pub hpub => ?_
    rw [hback] at hpub
    obtain ⟨rfl, hne⟩ := hpub
    exact ⟨(hstable hne).1.symm, hne⟩

/-- What holds of both PCs after every invocation by root. -/
lemma sysInv (h : run (step tool) (fresh installed) invs = some s)
    (hcopied : Guarded (step tool) Copied (fresh installed) invs) : SysInv tool s := by
  refine run_guarded (SysInv tool) (fun X => ⟨?_, ?_, ?_⟩)
    (fun s inv s' hinv hQ hs => hinv.step hQ hs) h hcopied
  · exact fun hne => absurd rfl hne
  · exact fun pub hpub => absurd hpub List.not_mem_nil
  · exact fun conf hconf => absurd hconf List.not_mem_nil

/-- **Where a configuration comes from** when another user runs the script: from an invocation on
its PC, with the key that this invocation has generated and the public key that it was given.

**Proof sketch.** Induction on the invocations. A configuration on the PC of the last one was there
before, or has its key and its argument (`triple_user`); on the other PC nothing changes. -/
lemma conf_of_user (h : run (step tool) (fresh installed) invs = some s)
    (huser : ∀ inv ∈ invs, ByUser inv) (X : Host) : ∀ conf ∈ (s X).confs,
      ∃ inv ∈ invs, inv.host = X ∧ conf.privateKey = inv.conduct.key ∧
        conf.publicKey = inv.peerPub := by
  refine run_invariant (fun es (s : Host → Pc) => (∀ inv ∈ es, ByUser inv) → ∀ X,
    ∀ conf ∈ (s X).confs, ∃ inv ∈ es, inv.host = X ∧ conf.privateKey = inv.conduct.key ∧
      conf.publicKey = inv.peerPub) ?_ ?_ h huser X
  · exact fun _ X conf hconf => absurd hconf List.not_mem_nil
  · intro es s inv s' hrun ih hs huser X conf hconf
    have hbefore {Y : Host} (hold : conf ∈ (s Y).confs) : ∃ inv' ∈ es ++ [inv], inv'.host = Y ∧
        conf.privateKey = inv'.conduct.key ∧ conf.publicKey = inv'.peerPub := by
      obtain ⟨inv', hmem, hfacts⟩ :=
        ih (fun e he => huser e (List.mem_append_left _ he)) Y conf hold
      exact ⟨inv', List.mem_append_left _ hmem, hfacts⟩
    have hlast : inv ∈ es ++ [inv] := List.mem_append_right _ (List.mem_singleton_self inv)
    cases hs
    by_cases hX : X = inv.host
    · subst hX
      rw [Function.update_self] at hconf
      have htriple : Triple (Wg.eff tool inv.conduct)
          (Grown (s inv.host).confs inv.conduct.key inv.peerPub)
          (setupWg inv.host inv.asRoot inv.peerPub)
          (Grown (s inv.host).confs inv.conduct.key inv.peerPub)
          fun _ => Grown (s inv.host).confs inv.conduct.key inv.peerPub := by
        rw [(huser inv hlast).1]
        exact triple_user (huser inv hlast).2
      rcases exec_state inv htriple (fun conf hconf => Or.inl hconf) conf hconf with hold | hnew
      · exact hbefore hold
      · exact ⟨inv, hlast, rfl, hnew⟩
    · rw [Function.update_of_ne hX] at hconf
      exact hbefore hconf

end Both

end Wg

open Wg

/-- The four commands of the comment at the head of the script, with the public keys that the
first two of them print. -/
def fourCommands (asRoot : Bool) : List Invocation :=
  [⟨.b, asRoot, "", fine "6P0IpxUuGpAZkCaDHQi005bdTqfRsJMKi8o0q960CVo=" length_sampleKey, 40⟩,
   ⟨.c, asRoot, "", fine "4OHraC6Lo0f11+MeCq9usEpdjMk+yt6Xu+BTJXGFoVI=" (by decide), 40⟩,
   ⟨.b, asRoot, "NO3+IbQxgWny2FvN67UmMWVYCjbWqpc/SfQ4koFoZCU=",
     fine "IHlDpe7LMa/J6BppkvJHph1bxroRt0FUEMq2gQNc/m8=" (by decide), 40⟩,
   ⟨.c, asRoot, "JChmhoalyNZt775i695FK09OBOvrFb1utX4h6fmwjlY=",
     fine "KPdNweQKlKyHSYEmVifqEQdrQXMcvNOId3a6kvZ3AV4=" (by decide), 40⟩]

end CommBench
