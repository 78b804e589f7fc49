import Gsnet.Go.StringsProof
import Gsnet.Keys

/-!
# Invitation URLs

`internal/invite/url.go`: `hostname:port/<keyhash><cookie>`. The first slash ends
the address and the last colon before it ends the host, so a host may hold colons
but no slash. The fingerprint is always as long as the hash makes it, and the rest
is the cookie.
-/

namespace Gsnet.Invite

open Go

/-- What `NewCookie` reads from the source of randomness. -/
structure CookieSeed where
  raw : GoString
  length_raw : raw.length = 24
  deriving DecidableEq

/-- `NewCookie`. -/
def newCookie (seed : CookieSeed) : GoString := base64RawURLEncode seed.raw

theorem newCookie_ne_nil (seed : CookieSeed) : newCookie seed ≠ [] := by
  refine base64RawURLEncode_ne_nil (List.ne_nil_of_length_pos ?_)
  rw [seed.length_raw]
  decide

/-- A parsed invitation URL. -/
structure URL where
  host : GoString
  port : Int64
  keyHash : GoString
  cookie : GoString
  deriving DecidableEq

def buildURL [Sha256] (host : GoString) (port : Int64) (pub : Ed25519Public) (cookie : GoString) :
    URL :=
  ⟨host, port, pub.hash, cookie⟩

/-- `%s:%d/%s%s`. -/
def URL.string (u : URL) : GoString :=
  u.host ++ 0x3A :: (formatInt u.port ++ 0x2F :: (u.keyHash ++ u.cookie))

/-- Each is followed by the URL, and the port by its text. -/
inductive UrlError where
  /-- `missing '/'`. -/
  | slash (s : GoString)
  /-- `missing port`. -/
  | noPort (s : GoString)
  /-- `empty host`. -/
  | emptyHost (s : GoString)
  /-- `invalid port %q`. -/
  | badPort (s port : GoString)
  /-- `secret too short`. -/
  | shortSecret (s : GoString)
  /-- `empty cookie`. -/
  | emptyCookie (s : GoString)
  deriving DecidableEq

/-- The length of a fingerprint. -/
def keyHashLen : Nat := 43

/-- What is before and after the last `sep`. -/
def cutLast (sep : UInt8) (s : GoString) : Option (GoString × GoString) :=
  match cut sep s.reverse with
  | (_, none) => none
  | (after, some before) => some (before.reverse, after.reverse)

def parseURL (s : GoString) : Except UrlError URL :=
  match cut 0x2F s with
  | (_, none) => .error (.slash s)
  | (hostport, some secret) =>
    match cutLast 0x3A hostport with
    | none => .error (.noPort s)
    | some (host, portStr) =>
      if host = [] then .error (.emptyHost s)
      else match (parseInt portStr).filter fun p => 0 < p ∧ p ≤ 65535 with
        | none => .error (.badPort s portStr)
        | some port =>
          if secret.length ≤ keyHashLen then .error (.shortSecret s)
          else if secret.drop keyHashLen = [] then .error (.emptyCookie s)
          else .ok ⟨host, port, secret.take keyHashLen, secret.drop keyHashLen⟩

/-! ## A URL that was printed is read back -/

theorem cutLast_append {sep : UInt8} {t : GoString} (h : sep ∉ t) (s : GoString) :
    cutLast sep (s ++ sep :: t) = some (s, t) := by
  have hrev : (s ++ sep :: t).reverse = t.reverse ++ sep :: s.reverse := by simp
  rw [cutLast, hrev, cut_append (by simpa using h)]
  simp

theorem formatInt_chars (i : Int64) : ∀ c ∈ formatInt i, c = 0x2D ∨ isDigit c = true := by
  intro c hc
  unfold formatInt at hc
  have hall : ∀ n, ∀ c ∈ formatUint n, isDigit c = true := fun n =>
    List.all_eq_true.mp (formatUint_all n)
  split at hc
  · rcases List.mem_cons.mp hc with rfl | hc
    · exact .inl rfl
    · exact .inr (hall _ c hc)
  · exact .inr (hall _ c hc)

theorem notMem_formatInt {b : UInt8} (hb : b ≠ 0x2D ∧ isDigit b = false) (i : Int64) :
    b ∉ formatInt i := fun hm => by
  rcases formatInt_chars i b hm with h | h
  · exact hb.1 h
  · rw [hb.2] at h
    cases h

/-- A printed URL falls apart where it was put together, unless the host holds a slash. -/
theorem cut_string {u : URL} (hslash : 0x2F ∉ u.host) :
    cut 0x2F u.string = (u.host ++ 0x3A :: formatInt u.port, some (u.keyHash ++ u.cookie))
      ∧ cutLast 0x3A (u.host ++ 0x3A :: formatInt u.port) = some (u.host, formatInt u.port) := by
  refine ⟨?_, cutLast_append (notMem_formatInt (by decide) u.port) u.host⟩
  have happ : u.string
      = (u.host ++ 0x3A :: formatInt u.port) ++ 0x2F :: (u.keyHash ++ u.cookie) := by
    simp [URL.string]
  rw [happ]
  refine cut_append ?_ _
  simp only [List.mem_append, List.mem_cons, not_or]
  exact ⟨hslash, by decide, notMem_formatInt (by decide) u.port⟩

/-- **What a URL says is what was put into it**, unless the host holds a slash. -/
theorem parseURL_string {u : URL} (hhost : u.host ≠ []) (hslash : 0x2F ∉ u.host)
    (hport : 0 < u.port ∧ u.port ≤ 65535) (hkey : u.keyHash.length = keyHashLen)
    (hcookie : u.cookie ≠ []) : parseURL u.string = .ok u := by
  obtain ⟨hcut, hlast⟩ := cut_string hslash
  have hdrop : (u.keyHash ++ u.cookie).drop keyHashLen = u.cookie := List.drop_left' hkey
  have htake : (u.keyHash ++ u.cookie).take keyHashLen = u.keyHash := List.take_left' hkey
  have hlen : ¬ (u.keyHash ++ u.cookie).length ≤ keyHashLen := by
    have := List.length_pos_of_ne_nil hcookie
    rw [List.length_append, hkey]
    omega
  have hfilter : (parseInt (formatInt u.port)).filter (fun p => 0 < p ∧ p ≤ 65535)
      = some u.port := by
    rw [parseInt_formatInt]
    simpa [Option.filter] using hport
  simp only [parseURL, hcut, hlast, hhost, if_false, hfilter, hlen, hdrop, hcookie, htake]

/-- And if it is accepted, then as what was put into it. -/
theorem eq_of_parseURL_string {u u' : URL} (h : parseURL u.string = .ok u') (hslash : 0x2F ∉ u.host)
    (hkey : u.keyHash.length = keyHashLen) : u' = u := by
  obtain ⟨hcut, hlast⟩ := cut_string hslash
  have hdrop : (u.keyHash ++ u.cookie).drop keyHashLen = u.cookie := List.drop_left' hkey
  have htake : (u.keyHash ++ u.cookie).take keyHashLen = u.keyHash := List.take_left' hkey
  simp only [parseURL, hcut, hlast, parseInt_formatInt, hdrop, htake] at h
  split at h
  · cases h
  split at h
  · cases h
  rename_i port hport
  obtain ⟨heq, -⟩ := Option.filter_eq_some_iff.mp hport
  cases heq
  split at h
  · cases h
  split at h
  · cases h
  · cases h
    rfl

/-- A URL that its text determines. -/
structure URL.Valid (u : URL) : Prop where
  host_ne_nil : u.host ≠ []
  /-- The first slash ends the address; a colon may stand in it. -/
  host_slash : 0x2F ∉ u.host
  port : 1 ≤ u.port ∧ u.port ≤ 65535
  keyHash : u.keyHash.length = 43
  cookie_ne_nil : u.cookie ≠ []

theorem cutLast_eq_some {sep : UInt8} {s before after : GoString}
    (h : cutLast sep s = some (before, after)) : s = before ++ sep :: after := by
  unfold cutLast at h
  split at h
  · cases h
  · rename_i r r' hcut
    cases h
    obtain ⟨hs, -⟩ := cut_eq_some hcut
    rw [← List.reverse_reverse s, hs]
    simp

/-- **What is accepted is valid**: the checks establish just what printing needs. -/
theorem valid_of_parseURL {s : GoString} {u : URL} (h : parseURL s = .ok u) : u.Valid := by
  unfold parseURL at h
  split at h
  · cases h
  rename_i hostport secret hcut
  obtain ⟨-, hslash⟩ := cut_eq_some hcut
  split at h
  · cases h
  rename_i host portStr hlast
  have hhp := cutLast_eq_some hlast
  split at h
  · cases h
  rename_i hhost
  split at h
  · cases h
  rename_i port hport
  split at h
  · cases h
  rename_i hlen
  split at h
  · cases h
  rename_i hcookie
  cases h
  have hrange : 0 < port ∧ port ≤ 65535 := by
    simpa using (Option.filter_eq_some_iff.mp hport).2
  refine ⟨hhost, fun hm => hslash ?_, ⟨?_, hrange.2⟩, ?_, hcookie⟩
  · rw [hhp]
    exact List.mem_append_left _ hm
  · have hpos : (0 : Int64).toInt < port.toInt := Int64.lt_iff_toInt_lt.mp hrange.1
    rw [Int64.le_iff_toInt_le]
    exact hpos
  · rw [List.length_take]
    unfold keyHashLen at hlen ⊢
    omega

/--
**Invitation URLs round-trip.** Every valid URL is read back from its text, and
whatever is accepted is valid, so that one more round changes nothing.
-/
theorem parseURL_roundTrip :
    (∀ u : URL, u.Valid → parseURL u.string = .ok u)
      ∧ ∀ (s : GoString) (u : URL), parseURL s = .ok u → u.Valid ∧ parseURL u.string = .ok u := by
  have hround : ∀ u : URL, u.Valid → parseURL u.string = .ok u := fun u h =>
    parseURL_string h.host_ne_nil h.host_slash ⟨Int64.lt_of_lt_of_le (by decide) h.port.1, h.port.2⟩
      h.keyHash h.cookie_ne_nil
  exact ⟨hround, fun s u h => ⟨valid_of_parseURL h, hround u (valid_of_parseURL h)⟩⟩

/-- A host with colons, and a port with a sign. -/
theorem parseURL_roundTrip_colons :
    parseURL (str "fd00::1:+655/0123456789012345678901234567890123456789012c")
        = .ok ⟨str "fd00::1", 655, str "0123456789012345678901234567890123456789012", str "c"⟩
      ∧ parseURL (URL.string
          ⟨str "fd00::1", 655, str "0123456789012345678901234567890123456789012", str "c"⟩)
        = .ok ⟨str "fd00::1", 655, str "0123456789012345678901234567890123456789012", str "c"⟩ := by
  have h : parseURL (str "fd00::1:+655/0123456789012345678901234567890123456789012c")
      = .ok ⟨str "fd00::1", 655, str "0123456789012345678901234567890123456789012", str "c"⟩ := by
    decide +kernel
  exact ⟨h, (parseURL_roundTrip.2 _ _ h).2⟩

example : parseURL (str "vpn.example:655/0123456789012345678901234567890123456789012c")
    = .ok ⟨str "vpn.example", 655, str "0123456789012345678901234567890123456789012", str "c"⟩ := by
  decide +kernel

end Gsnet.Invite
