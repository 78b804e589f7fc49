import Gsnet.Proof.DialTarget

/-!
# Whether the URL that is printed can be followed

`cmdInvite` prints a URL whatever the configuration says about the address and the
port, and `ParseURL` is stricter than that: it wants a host, and a port of a socket.
The port is also read twice in two ways. The daemon takes the whole text of `Port`
for a number or falls back to its default; `cmdInvite` takes the number at the front
of the text. So the URL leads to the daemon exactly if there is an address without a
slash, and if the two ways agree on a port there can be (`Invitable`).
-/

namespace Gsnet.Cli

open Go Config Daemon Invite Lib

/-- A configuration for which an invitation can be followed. -/
structure Invitable (conf : Entries) : Prop where
  address : ∃ addr, conf.getFirst (str "Address") = some addr ∧ 0x2F ∉ addr
  /-- A port of a socket; or a text that is no number, nor begins with another port. -/
  port : ∀ v, conf.getFirst (str "Port") = some v →
    (∃ n, parseInt v = some n ∧ 1 ≤ n ∧ n ≤ 65535)
      ∨ (parseInt v = none ∧ ∀ n, sscanInt v = some n → n = 51820)

/-- A URL that leads to this address, port, key and invitation. -/
structure Leads [Sha256] (p : Paths) (conf : Entries) (pub : Ed25519Public) (cookie url : GoString)
    (fs : FileSystem) : Prop where
  accepted : ∃ u, parseURL url = .ok u ∧ conf.getFirst (str "Address") = some u.host
    ∧ u.port = listenPort conf ∧ u.keyHash = pub.hash ∧ u.cookie = cookie
  /-- The invitation is stored under the cookie. -/
  stored : ∃ invitee selfName addr other, fs.readFile (invitationPath p cookie)
    = .ok (invitation p.netname invitee selfName addr other).render

/-! ## The two ways to read a port -/

/-- A text that is a number begins with it. -/
theorem sscanInt_of_parseInt {v : GoString} {n : Int64} (hv : Trimmed v)
    (h : parseInt v = some n) : sscanInt v = some n := by
  have hall : ∀ {t : GoString} {m : Nat}, parseDigits t = some m → t.takeWhile isDigit = t := by
    intro t m ht
    unfold parseDigits at ht
    split at ht
    · rename_i hdigits
      exact List.takeWhile_eq_self_iff.mpr (List.all_eq_true.mp hdigits.2)
    · cases ht
  rw [sscanInt, trimLeftFrom_of_not_space hv.1]
  cases v with
  | nil => cases h
  | cons c t =>
      have hparse := h
      unfold parseInt at hparse
      simp only at hparse ⊢
      by_cases hminus : c = 0x2D
      · rw [if_pos hminus] at hparse
        obtain ⟨m, hm, -⟩ := Option.bind_eq_some_iff.mp hparse
        rw [if_pos (.inr hminus), hall hm]
        exact h
      · rw [if_neg hminus] at hparse
        obtain ⟨m, hm, -⟩ := Option.bind_eq_some_iff.mp hparse
        by_cases hplus : c = 0x2B
        · rw [if_pos hplus] at hm
          rw [if_pos (.inl hplus), hall hm]
          exact h
        · rw [if_neg hplus] at hm
          rw [if_neg (not_or.mpr ⟨hplus, hminus⟩), hall hm]
          exact h

/-- **The two agree on a port of a socket exactly if the text is as it should be.** -/
theorem ports_agree_iff {conf : Entries} (hconf : conf.Parsed) :
    (invitePort conf = listenPort conf ∧ 1 ≤ invitePort conf ∧ invitePort conf ≤ 65535)
      ↔ ∀ v, conf.getFirst (str "Port") = some v →
        (∃ n, parseInt v = some n ∧ 1 ≤ n ∧ n ≤ 65535)
          ∨ (parseInt v = none ∧ ∀ n, sscanInt v = some n → n = 51820) := by
  cases hv : conf.getFirst (str "Port") with
  | none =>
      have hports : invitePort conf = 51820 ∧ listenPort conf = 51820 := by
        simp [invitePort, listenPort, atoiOf, hv]
      rw [hports.1, hports.2]
      exact iff_of_true (by decide) fun v h => by cases h
  | some v =>
      have htrimmed : Trimmed v := by
        obtain ⟨e, he, -, rfl⟩ := mem_of_getFirst hv
        exact (hconf e he).1.value_trimmed
      have hinvite : invitePort conf = (sscanInt v).getD 51820 := by simp only [invitePort, hv]
      simp only [Option.some.injEq, forall_eq']
      cases hparse : parseInt v with
      | some n =>
          have hlisten : listenPort conf = if n = 0 then 51820 else n := by
            simp [listenPort, atoiOf, hv, hparse]
          rw [hinvite, hlisten, sscanInt_of_parseInt htrimmed hparse, Option.getD_some]
          constructor
          · rintro ⟨-, hrange⟩
            exact .inl ⟨n, rfl, hrange⟩
          · rintro (⟨n', heq, hrange⟩ | ⟨hnone, -⟩)
            · cases heq
              have hne : n ≠ 0 := by
                rintro rfl
                exact absurd hrange.1 (by decide)
              rw [if_neg hne]
              exact ⟨rfl, hrange⟩
            · cases hnone
      | none =>
          have hlisten : listenPort conf = 51820 := by simp [listenPort, atoiOf, hv, hparse]
          rw [hinvite, hlisten]
          cases hscan : sscanInt v with
          | none => exact iff_of_true (by decide) (.inr ⟨rfl, fun n h => by cases h⟩)
          | some n =>
              rw [Option.getD_some]
              constructor
              · rintro ⟨heq, -⟩
                refine .inr ⟨rfl, fun m hm => ?_⟩
                cases hm
                exact heq
              · rintro (⟨n', heq, -⟩ | ⟨-, hall⟩)
                · cases heq
                · rw [hall n rfl]
                  decide

/-! ## What is printed -/

/--
**The URL leads to the address, the port and the key of the inviter, and to the
invitation, exactly if the configuration is such that one can be followed.**
-/
theorem printed_leads_iff [PKCS8] [Sha256] {p : Paths} {fs fs' : FileSystem} {seed : CookieSeed}
    {invitee url : GoString} (h : cmdInvite p fs seed [invitee] = .ok (fs', url)) :
    ∃ conf edBytes edPriv, loadDirectory fs p.confFile = .ok conf
      ∧ fs.readFile p.ed25519Private = .ok edBytes ∧ parseEd25519PrivatePEM edBytes = some edPriv
      ∧ (Leads p conf edPriv.public (newCookie seed) url fs' ↔ Invitable conf) := by
  obtain ⟨conf, selfName, edPriv, hinvites⟩ := invites_of_cmdInvite h
  obtain ⟨edBytes, hread, hkey⟩ := hinvites.key
  obtain ⟨made, -, hwrite⟩ := hinvites.stored
  refine ⟨conf, edBytes, edPriv, hinvites.loaded, hread, hkey, ?_⟩
  have hports := ports_agree_iff (loadDirectory_parsed hinvites.loaded)
  have hurl := hinvites.printed
  constructor
  · rintro ⟨⟨u, hparse, haddr, hport, -, -⟩, -⟩
    have hvalid := valid_of_parseURL hparse
    rw [haddr, Option.getD_some] at hurl
    rw [hurl] at hparse
    have heq := eq_of_parseURL_string hparse hvalid.host_slash edPriv.public.length_hash
    have hport' : u.port = invitePort conf := congrArg URL.port heq
    refine ⟨⟨u.host, haddr, hvalid.host_slash⟩, hports.mp ?_⟩
    rw [← hport']
    exact ⟨hport, hvalid.port⟩
  · rintro ⟨⟨addr, haddr, hslash⟩, hport⟩
    obtain ⟨hagree, hrange⟩ := hports.mpr hport
    have hne : addr ≠ [] := by
      obtain ⟨e, he, -, rfl⟩ := mem_of_getFirst haddr
      exact (loadDirectory_parsed hinvites.loaded e he).1.value_ne_nil
    rw [haddr, Option.getD_some] at hurl
    have hvalid : (buildURL addr (invitePort conf) edPriv.public (newCookie seed)).Valid :=
      ⟨hne, hslash, hrange, edPriv.public.length_hash, newCookie_ne_nil seed⟩
    rw [hurl]
    exact ⟨⟨_, parseURL_roundTrip.1 _ hvalid, haddr, hagree, rfl, rfl⟩,
      ⟨_, _, _, _, FileSystem.readFile_writeFile hwrite⟩⟩

section Sample

attribute [local instance] clearPKCS8 clearSha256

/-- An inviter with these lines in its configuration besides the name. -/
def invitingTree (more : String) : FileSystem :=
  .ofFiles [
    (sampleLoc ["gsnet.conf"], str "Name = a\n" ++ str more),
    (sampleLoc ["ed25519_key.priv"], (sampleSigner 1).raw)]

def samplePrinted (more : String) : Except InviteCmdError (FileSystem × GoString) :=
  cmdInvite samplePaths (invitingTree more) sampleSeed [str "b"]

theorem invitable_sample : Invitable sampleConf where
  address := ⟨str "vpn.example", by decide +kernel⟩
  port v hv := by
    have hport : sampleConf.getFirst (str "Port") = some (str "655") := by decide +kernel
    cases hport.symm.trans hv
    exact .inl ⟨655, by decide +kernel⟩

/-- An address and a port. -/
theorem printed_leads_sample : ∃ fs' url,
    samplePrinted "Address = vpn.example\nPort = 655\n" = .ok (fs', url)
      ∧ Leads samplePaths sampleConf (sampleSigner 1).public (newCookie sampleSeed) url fs' := by
  have hok : (samplePrinted "Address = vpn.example\nPort = 655\n").toOption.isSome = true := by
    decide +kernel
  obtain ⟨⟨fs', url⟩, hprinted⟩ := Option.isSome_iff_exists.mp hok
  rw [toOption_eq_some] at hprinted
  obtain ⟨conf, edBytes, edPriv, hconf, hread, hkey, hiff⟩ := printed_leads_iff hprinted
  have hsample : loadDirectory (invitingTree "Address = vpn.example\nPort = 655\n")
      samplePaths.confFile = .ok sampleConf := by decide +kernel
  have hfile : (invitingTree "Address = vpn.example\nPort = 655\n").readFile
      samplePaths.ed25519Private = .ok (sampleSigner 1).raw := by decide +kernel
  cases hconf.symm.trans hsample
  cases hread.symm.trans hfile
  cases hkey
  exact ⟨fs', url, hprinted, hiff.mpr invitable_sample⟩

/-- Without an address, and with a port of no socket, it prints what nobody can follow. -/
theorem printed_leads_nowhere :
    ((samplePrinted "").map fun r => (parseURL r.2).toOption) = .ok none
      ∧ ((samplePrinted "Address = vpn.example\nPort = 0\n").map fun r => (parseURL r.2).toOption)
        = .ok none
      ∧ ((samplePrinted "Address = vpn.example\nPort = 655 # udp\n").map fun r =>
          (parseURL r.2).toOption.map URL.port) = .ok (some 655)
      ∧ listenPort [⟨str "Port", str "655 # udp"⟩] = 51820 := by
  decide +kernel

end Sample

end Gsnet.Cli
