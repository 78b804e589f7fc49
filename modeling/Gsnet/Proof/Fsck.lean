import Gsnet.Daemon.Fsck

/-!
# What a clean fsck promises

`Fsck` and `load` read the same files, each in its own way. What `load` needs is the
configuration, a name, two keys, and that four kinds of entries parse: `Mode`,
`InnerAddress`, `UnderlayAddress` and `Subnet`. `Fsck` asks for more of the name and
of the keys than `load` does, and of the four kinds it only knows the last. So a
clean tree loads exactly if the other three are right (`Startable`).
-/

namespace Gsnet.Daemon

open Go Config Lib Dataplane

/-- What `load` checks and `Fsck` does not. -/
structure Startable (es : Entries) : Prop where
  mode : ∀ v, es.getFirst (str "Mode") = some v →
    toLower v ∈ [str "switch", [], str "hub", str "router"]
  inner : ∀ v, es.getFirst (str "InnerAddress") = some v → (parseAddrOrPrefix v).isSome
  underlay : ∀ v, es.getFirst (str "UnderlayAddress") = some v → (parseAddrOrPrefix v).isSome

theorem loadMode_ok_iff {es : Entries} :
    (∃ m, loadMode es = .ok m) ↔ ∀ v, es.getFirst (str "Mode") = some v →
      toLower v ∈ [str "switch", [], str "hub", str "router"] := by
  unfold loadMode
  cases es.getFirst (str "Mode") with
  | none => exact iff_of_true ⟨_, rfl⟩ fun v hv => by cases hv
  | some v =>
      simp only [Option.some.injEq, forall_eq', List.mem_cons, List.not_mem_nil, or_false]
      split
      · rename_i h
        exact iff_of_true ⟨_, rfl⟩ (h.elim .inl fun h => .inr (.inl h))
      rename_i hswitch
      split
      · rename_i h
        exact iff_of_true ⟨_, rfl⟩ (.inr (.inr (.inl h)))
      rename_i hhub
      split
      · rename_i h
        exact iff_of_true ⟨_, rfl⟩ (.inr (.inr (.inr h)))
      rename_i hrouter
      refine iff_of_false (fun ⟨m, h⟩ => by cases h) ?_
      rintro (h | h | h | h)
      · exact hswitch (.inl h)
      · exact hswitch (.inr h)
      · exact hhub h
      · exact hrouter h

theorem loadAddr_ok_iff {es : Entries} {key : GoString} {err : GoString → LoadError} :
    (∃ a, loadAddr es key err = .ok a)
      ↔ ∀ v, es.getFirst key = some v → (parseAddrOrPrefix v).isSome := by
  unfold loadAddr
  cases es.getFirst key with
  | none => exact iff_of_true ⟨_, rfl⟩ fun v hv => by cases hv
  | some v =>
      simp only [Option.some.injEq, forall_eq']
      cases parseAddrOrPrefix v with
      | none => exact iff_of_false (fun ⟨a, h⟩ => by cases h) (by simp)
      | some q => exact iff_of_true ⟨_, rfl⟩ rfl

theorem loadSubnets_ok_iff {es : Entries} :
    (∃ subnets, (es.getAll (str "Subnet")).mapM loadSubnet = .ok subnets)
      ↔ ∀ s ∈ es.getAll (str "Subnet"), ∃ sub, Subnet.parse s = .ok sub := by
  have hall := @exists_mapM_iff _ _ _ loadSubnet (fun _ => True) (es.getAll (str "Subnet"))
  simpa [loadSubnet, wrap_eq_ok] using hall

/-- **`load` succeeds as soon as each of its parts does.** -/
theorem load_of_parts [PKCS8] {fs : FileSystem} {paths : Paths} {es : Entries}
    {name edBytes wgBytes : GoString} (hes : loadDirectory fs paths.confFile = .ok es)
    (hname : es.getFirst (str "Name") = some name)
    (hed : fs.readFile paths.ed25519Private = .ok edBytes)
    (hedPriv : (parseEd25519PrivatePEM edBytes).isSome = true)
    (hwg : fs.readFile paths.wgPrivate = .ok wgBytes)
    (hwgPriv : (parseKey (trimSpace wgBytes)).isSome = true) (hstart : Startable es)
    (hsubnets : ∀ s ∈ es.getAll (str "Subnet"), ∃ sub, Subnet.parse s = .ok sub) :
    ∃ l, load fs paths = .ok l := by
  obtain ⟨edPriv, hedPriv⟩ := Option.isSome_iff_exists.mp hedPriv
  obtain ⟨wgPriv, hwgPriv⟩ := Option.isSome_iff_exists.mp hwgPriv
  obtain ⟨mode, hmode⟩ := loadMode_ok_iff.mpr hstart.mode
  obtain ⟨inner, hinner⟩ := (@loadAddr_ok_iff es _ .innerAddress).mpr hstart.inner
  obtain ⟨underlay, hunderlay⟩ := (@loadAddr_ok_iff es _ .underlayAddress).mpr hstart.underlay
  obtain ⟨subnets, hsubnets⟩ := loadSubnets_ok_iff.mpr hsubnets
  simp only [load, hes, wrap, ok_bind, hname, hed, hedPriv, hwg, hwgPriv, hmode, hinner, hunderlay,
    hsubnets]
  exact ⟨_, rfl⟩

/--
**A clean tree loads exactly if its mode is known and its two addresses parse**,
where they are given.
-/
theorem clean_loads_iff [PKCS8] [Curve25519] {fs : FileSystem} {perm : GoString → UInt32}
    {p : Paths} (h : NoError (fsck fs perm p)) :
    ∃ es, loadDirectory fs p.confFile = .ok es ∧ ((∃ l, load fs p = .ok l) ↔ Startable es) := by
  obtain ⟨es, hclean⟩ := fsck_clean_iff.mp h
  refine ⟨es, hclean.conf, fun ⟨l, hload⟩ => ?_, fun hstart => ?_⟩
  · have hl := loads_of_load hload
    cases hclean.conf.symm.trans hl.conf
    exact ⟨loadMode_ok_iff.mp ⟨_, hl.mode⟩, loadAddr_ok_iff.mp ⟨_, hl.innerAddr⟩,
      loadAddr_ok_iff.mp ⟨_, hl.underlayAddr⟩⟩
  · obtain ⟨name, edBytes, edPublic, wgBytes, wgPublic, -, -, hname, -, hed, hedPublic, hwg,
      hwgPublic, -⟩ := hclean.own
    exact load_of_parts hclean.conf hname hed (isSome_edPublicText.mpr ⟨_, hedPublic⟩) hwg
      (isSome_wgPublicText.mpr ⟨_, hwgPublic⟩) hstart hclean.subnets

section Sample

attribute [local instance] clearPKCS8 clearCurve25519

/-- The tree of node `a` with these lines in its configuration besides the name. -/
def sampleTree (more : String) : FileSystem :=
  .ofFiles [
    (sampleLoc ["gsnet.conf"], str "Name = a\n" ++ str more),
    (sampleLoc ["ed25519_key.priv"], (sampleSigner 1).raw),
    (sampleLoc ["wg.priv"], (sampleWG 1).string),
    (sampleLoc ["hosts", "a"], str "Ed25519PublicKey = " ++ (sampleSigner 1).public.string
      ++ str "\nWGPublicKey = " ++ (sampleWG 1).string)]

/-- What `Fsck` says of it, with permissions `0644` everywhere. -/
def sampleFsck (more : String) : List FsckFinding :=
  fsck (sampleTree more) (fun _ => 0o644) samplePaths

/-- What is configured there. -/
def hubConf : Entries := [⟨str "Name", str "a"⟩, ⟨str "Mode", str "Hub"⟩]

theorem startable_hub : Startable hubConf where
  mode v hv := by
    have hmode : hubConf.getFirst (str "Mode") = some (str "Hub") := by decide +kernel
    cases hmode.symm.trans hv
    decide +kernel
  inner v hv := by
    have hnone : hubConf.getFirst (str "InnerAddress") = none := by decide +kernel
    cases hnone.symm.trans hv
  underlay v hv := by
    have hnone : hubConf.getFirst (str "UnderlayAddress") = none := by decide +kernel
    cases hnone.symm.trans hv

/-- A mode that both know. -/
theorem clean_loads_hub : ∃ l, load (sampleTree "Mode = Hub\n") samplePaths = .ok l := by
  have hclean : NoError (sampleFsck "Mode = Hub\n") := by decide +kernel
  obtain ⟨es, hes, hiff⟩ := clean_loads_iff hclean
  have hconf : loadDirectory (sampleTree "Mode = Hub\n") samplePaths.confFile = .ok hubConf := by
    decide +kernel
  cases hes.symm.trans hconf
  exact hiff.mpr startable_hub

/-- A mode that neither knows is no finding, and neither is an address that does not parse. -/
theorem clean_does_not_load :
    NoError (sampleFsck "Mode = bridge\n")
    ∧ load (sampleTree "Mode = bridge\n") samplePaths = .error (.unknownMode (str "bridge"))
    ∧ NoError (sampleFsck "InnerAddress = here\n")
    ∧ load (sampleTree "InnerAddress = here\n") samplePaths
      = .error (.innerAddress (str "here")) := by
  decide +kernel

end Sample

end Gsnet.Daemon
