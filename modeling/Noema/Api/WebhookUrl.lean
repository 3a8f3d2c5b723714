import Noema.Lib.PyText
import Noema.Lib.IpAddress
import Mathlib.Data.List.Infix

/-!
# The URL of a webhook (`api/webhooks.py`)

`_validate_webhook_url` takes the host out of a URL with `urlparse`, compares it with four names,
and compares its address with ranges if `ipaddress` reads it as one (webhooks.py:28-67). A host that
`ipaddress` does not read is taken for a name and accepted. But whoever opens the connection reads
more: `inet_aton` takes decimal, octal, hexadecimal and shortened notations, and a name may end in a
dot.

- `urlparse`, `SplitResult.hostname`: the part of `urllib.parse` that the guard uses, with the
  errors it raises. Case mapping, `repr` and NFKC are parameters (`TextData`), as they are tables of
  the interpreter.
- `guardHost_eq_ok_iff`: the hosts that the guard accepts. The handler tells its own errors from
  those of `ip_address` by a phrase of the message, and the message quotes the host; the lemma
  `not_phrase_of_space` is about that.
- `PlainHost`: the host is not an address in a notation of resolvers only, no multicast address, and
  no blocked name with a dot at the end.
- **`notBypassed_iff`**: acceptance implies a public host if and only if the host is plain, unless
  it is a blocked name as it stands.
- `decimal_loopback_accepted`: `http://2130706433/hook`.

Addresses and their ranges are in `Lib.IpAddress`, which knows nothing of URLs.
-/

namespace Noema.Api

open Noema.Lib

/-- What the interpreter knows of characters: `text.lower()`, `repr(text)` and
`unicodedata.normalize('NFKC', text)`. -/
structure TextData where
  lower : List Char → List Char
  repr : List Char → String
  nfkc : List Char → List Char

/-- The data on ASCII text without quotes. -/
def TextData.ascii : TextData where
  lower := List.map Char.toLower
  repr cs := "'" ++ String.ofList cs ++ "'"
  nfkc cs := cs

variable (t : TextData)

/-! ## `urllib.parse` -/

/-- The parts of a URL that the guard reads. -/
structure SplitResult where
  scheme : List Char
  netloc : List Char

/-- The error of `ipaddress.ip_address`. -/
def notAnAddress (hostname : List Char) : PyExc :=
  .valueError (t.repr hostname ++ " does not appear to be an IPv4 or IPv6 address")

/-- What follows the `v` of an address of a version to come. -/
def isIpFuture (rest : List Char) : Bool :=
  let isHex c := (hexVal c).isSome
  match rest.takeWhile isHex, rest.dropWhile isHex with
  | _ :: _, '.' :: _ :: _ => true
  | _, _ => false

/-- `_check_bracketed_host`. -/
def checkBracketedHost (hostname : List Char) : Except PyExc Unit :=
  match hostname with
  | 'v' :: rest =>
    if isIpFuture rest then .ok () else .error (.valueError "IPvFuture address is invalid")
  | _ =>
    match ipAddress hostname with
    | none => .error (notAnAddress t hostname)
    | some (.v4 _) => .error (.valueError "An IPv4 address cannot be in brackets")
    | some (.v6 _) => .ok ()

/-- `_check_bracketed_netloc`. -/
def checkBracketedNetloc (netloc : List Char) : Except PyExc Unit :=
  let hostnameAndPort := netloc.rtakeWhile (· ≠ '@')
  if '[' ∈ hostnameAndPort then
    let (before, bracketed) := partitionAt '[' hostnameAndPort
    let (hostname, port) := partitionAt ']' bracketed
    if before ≠ [] ∨ (port ≠ [] ∧ port.head? ≠ some ':') then .error (.valueError "Invalid IPv6 URL")
    else checkBracketedHost t hostname
  else checkBracketedHost t (partitionAt ':' hostnameAndPort).1

/-- `_checknetloc`: characters that become separators. -/
def checkNetloc (netloc : List Char) : Except PyExc Unit :=
  let n := netloc.filter (· ∉ ['@', ':', '#', '?'])
  if netloc.all (·.toNat < 128) ∨ t.nfkc n = n then .ok ()
  else if (t.nfkc n).any (· ∈ ['/', '?', '#', '@', ':']) then
    .error (.valueError ("netloc '" ++ String.ofList netloc ++
      "' contains invalid characters under NFKC normalization"))
  else .ok ()

def isSchemeChar (c : Char) : Bool := c.isAlphanum || c ∈ ['+', '-', '.']

/-- `urlparse(url)`. -/
def urlparse (url : List Char) : Except PyExc SplitResult := do
  let url := (url.dropWhile (·.toNat ≤ 32)).filter (· ∉ ['\t', '\r', '\n'])
  let (before, after) := partitionAt ':' url
  let (scheme, url) :=
    if ':' ∈ url ∧ before.head?.any Char.isAlpha ∧ before.all isSchemeChar then
      (t.lower before, after)
    else ([], url)
  match url with
  | '/' :: '/' :: rest =>
    let netloc := rest.takeWhile (· ∉ ['/', '?', '#'])
    if '[' ∈ netloc ∧ ']' ∉ netloc ∨ ']' ∈ netloc ∧ '[' ∉ netloc then
      .error (.valueError "Invalid IPv6 URL")
    else do
      if '[' ∈ netloc then checkBracketedNetloc t netloc
      checkNetloc t netloc
      return ⟨scheme, netloc⟩
  | _ => return ⟨scheme, []⟩

/-- `parsed.hostname`; `None` is empty. The zone of an address keeps its case. -/
def SplitResult.hostname (parsed : SplitResult) : List Char :=
  let hostinfo := parsed.netloc.rtakeWhile (· ≠ '@')
  let hostname :=
    if '[' ∈ hostinfo then (partitionAt ']' (partitionAt '[' hostinfo).2).1
    else (partitionAt ':' hostinfo).1
  if hostname = [] then []
  else t.lower (hostname.takeWhile (· ≠ '%')) ++ hostname.dropWhile (· ≠ '%')

/-! ## The guard -/

def blockedHostnames : List (List Char) :=
  ["localhost".toList, "0.0.0.0".toList, "127.0.0.1".toList, "::1".toList,
    "metadata.google.internal".toList]

/-- The host of a URL that can be asked for. -/
def urlHost (url : String) : Except PyExc (List Char) :=
  match urlparse t url.toList with
  | .error e => .error (.valueError ("Invalid URL: " ++ e.msg))
  | .ok parsed =>
    if parsed.scheme = [] then .error (.valueError "URL must have a scheme (http or https)")
    else if parsed.scheme ≠ "http".toList ∧ parsed.scheme ≠ "https".toList then
      .error (.valueError
        ("URL scheme must be http or https, got " ++ String.ofList parsed.scheme))
    else if parsed.netloc = [] then .error (.valueError "URL must have a hostname")
    else if parsed.hostname t = [] then .error (.valueError "URL must have a hostname")
    else .ok (parsed.hostname t)

/-- The ranges that the guard rejects. -/
def isBlockedRange (ip : IpAddress) : Bool :=
  ip.isPrivate || ip.isLoopback || ip.isLinkLocal || ip.isReserved

/-- What the handler looks for in a message. -/
def blockedIpRange : List Char := "Blocked IP range".toList

/-- What the guard does with the host. The message of `ip_address` quotes the host, so the handler
raises it again if the host has that in it. -/
def guardHost (hostname : List Char) : Except PyExc Unit :=
  if t.lower hostname ∈ blockedHostnames then
    .error (.valueError ("Blocked hostname: " ++ String.ofList hostname))
  else
    match ipAddress hostname with
    | some ip =>
      if isBlockedRange ip then
        .error (.valueError ("Blocked IP range: " ++ String.ofList hostname))
      else .ok ()
    | none =>
      if blockedIpRange <:+: hostname then .error (notAnAddress t hostname) else .ok ()

/-- `_validate_webhook_url(url)`. -/
def validateWebhookUrl (url : String) : Except PyExc Unit := do
  let hostname ← urlHost t url
  guardHost t hostname

/-- `_is_public_ip` of the ingestion. -/
def isPublicIp (ip : IpAddress) : Bool :=
  !(ip.isPrivate || ip.isLoopback || ip.isLinkLocal || ip.isReserved || ip.isMulticast ||
    ip.isUnspecified)

/-! ## The hosts that pass -/

variable {t}

theorem guardHost_eq_ok_iff {hostname : List Char} :
    guardHost t hostname = .ok () ↔
      t.lower hostname ∉ blockedHostnames ∧
        (∀ ip, ipAddress hostname = some ip → ¬isBlockedRange ip) ∧
        (ipAddress hostname = none → ¬blockedIpRange <:+: hostname) := by
  unfold guardHost
  split
  case isTrue h => simp [h]
  case isFalse h =>
    cases hip : ipAddress hostname with
    | some ip => by_cases hrange : isBlockedRange ip <;> simp [h, hrange]
    | none => by_cases hphrase : blockedIpRange <:+: hostname <;> simp [h, hphrase]

theorem validateWebhookUrl_eq_ok_iff {url : String} :
    validateWebhookUrl t url = .ok () ↔
      ∃ hostname, urlHost t url = .ok hostname ∧ guardHost t hostname = .ok () := by
  unfold validateWebhookUrl
  constructor
  · intro h
    exact bind_eq_ok h
  · rintro ⟨hostname, hhost, hguard⟩
    rw [hhost]
    exact hguard

/-- An address that is read, and passes the ranges, is public unless it is one for many. -/
theorem isPublicIp_iff {ip : IpAddress} (h : ¬isBlockedRange ip) :
    isPublicIp ip ↔ ¬ip.isMulticast := by
  simp only [isBlockedRange, Bool.or_eq_true, not_or] at h
  have hspecified : ¬ip.isUnspecified := fun hip =>
    h.1.1.1 (IpAddress.isPrivate_of_isUnspecified hip)
  simp [isPublicIp, h, hspecified]

theorem not_isBlockedRange_of_isMulticast {ip : IpAddress} (h : ip.isMulticast) :
    ¬isBlockedRange ip := by
  obtain ⟨hprivate, hloopback, hlinkLocal, hreserved⟩ := IpAddress.not_of_isMulticast h
  simp [isBlockedRange, hprivate, hloopback, hlinkLocal, hreserved]

/-! ## Spellings -/

/-- What the host denotes is public, and it is no spelling of a blocked name. -/
structure SafeHost (hostname : List Char) : Prop where
  isPublic : ∀ ip, resolved hostname = some ip → isPublicIp ip
  unblocked : ∀ name ∈ blockedHostnames, hostname.map Char.toLower ∉ [name, name ++ ['.']]

variable (t) in
/-- If the URL is accepted, its host is a safe one. -/
def NotBypassed (url : String) : Prop :=
  validateWebhookUrl t url = .ok () → ∀ hostname, urlHost t url = .ok hostname → SafeHost hostname

/-- The host is no address in a notation of resolvers only, unless the address is public; no
multicast address; and no blocked name with a dot. -/
structure PlainHost (hostname : List Char) : Prop where
  spelled : ipAddress hostname = none → ∀ ip, resolved hostname = some ip → isPublicIp ip
  unicast : ∀ ip, ipAddress hostname = some ip → ¬ip.isMulticast
  undotted : ∀ name ∈ blockedHostnames, hostname.map Char.toLower ≠ name ++ ['.']

/-- The phrase of the handler has a space, which no spelling of an address or of a name has. -/
theorem not_phrase_of_space {hostname : List Char} (h : ' ' ∉ hostname) :
    ¬blockedIpRange <:+: hostname := fun hphrase =>
  h (hphrase.subset (by decide))

theorem space_notMem_of_inetAton {cs : List Char} {n : ℕ} (h : inetAton cs = some n) : ' ' ∉ cs :=
  notMem_of_inetAton (by decide) (by decide) h

/-- What only a resolver reads has no space. -/
theorem space_notMem_of_resolved {hostname : List Char} {ip : IpAddress}
    (hnone : ipAddress hostname = none) (h : resolved hostname = some ip) : ' ' ∉ hostname := by
  unfold resolved at h
  split at h
  case h_1 n hn => exact space_notMem_of_inetAton hn
  case h_2 =>
    split at h
    case h_1 n hn =>
      split at hn
      case isFalse => exact absurd hn (by simp)
      case isTrue hlast =>
        obtain ⟨front, rfl⟩ := List.getLast?_eq_some_iff.mp hlast
        simpa using space_notMem_of_inetAton hn
    case h_2 =>
      unfold ipAddress at hnone
      split at hnone
      · exact absurd hnone (by simp)
      · rw [hnone] at h
        exact absurd h (by simp)

/-- Only letters change. -/
theorem toLower_cases (c : Char) : c.toNat < 128 ∧ c.toLower.isLower ∨ c.toLower = c := by
  unfold Char.toLower
  split
  case isFalse => exact .inr rfl
  case isTrue hc =>
    left
    simp only [Char.isLower, Bool.and_eq_true, decide_eq_true_eq, Char.toNat]
    simp only [UInt32.le_iff_toNat_le, ge_iff_le, UInt32.toNat_add, UInt32.toNat_sub] at *
    have hA : 'A'.val.toNat = 65 := rfl
    have hZ : 'Z'.val.toNat = 90 := rfl
    have ha : 'a'.val.toNat = 97 := rfl
    have hz : 'z'.val.toNat = 122 := rfl
    omega

theorem lower_eq_map (hlower : ∀ cs : List Char, (∀ c ∈ cs, c.toNat < 128) →
    t.lower cs = cs.map Char.toLower) {hostname name : List Char}
    (h : hostname.map Char.toLower = name) (hname : name.all (·.toNat < 128)) :
    t.lower hostname = name := by
  rw [← h]
  refine hlower hostname fun c hc => ?_
  rcases toLower_cases c with ⟨hascii, -⟩ | heq
  · exact hascii
  · have hmem : c.toLower ∈ name := h ▸ List.mem_map_of_mem hc
    simpa [heq] using List.all_eq_true.mp hname _ hmem

/-- A name with a dot is no dotted quad. -/
theorem quad_dotted (front : List Char) : quad (front ++ ['.']) = none := by
  unfold quad
  split
  case h_2 => rfl
  case h_1 a b c d hparts =>
    rw [List.splitOn_append_cons_self, List.splitOn_nil] at hparts
    have hd : d = [] := by
      have := congrArg List.getLast? hparts
      simpa using this.symm
    simp [hd, octet, number]

/-- A blocked name with a dot is no address. -/
theorem ipAddress_dotted {hostname name : List Char} (hname : name ∈ blockedHostnames)
    (h : hostname.map Char.toLower = name ++ ['.']) : ipAddress hostname = none := by
  by_cases hcolon : ':' ∈ hostname
  · -- the one name with a colon has no letters
    have hmem : ':' ∈ name ++ ['.'] := h ▸ List.mem_map_of_mem (f := Char.toLower) hcolon
    have hno : ∀ name ∈ blockedHostnames, ':' ∈ name ++ ['.'] →
        (name ++ ['.']).all (!·.isLower) ∧ ipAddress (name ++ ['.']) = none := by decide +kernel
    obtain ⟨hletters, hnone⟩ := hno name hname hmem
    have hself : hostname.map Char.toLower = hostname := by
      refine (List.map_congr_left fun c hc => ?_).trans (List.map_id hostname)
      rcases toLower_cases c with ⟨-, hlower⟩ | heq
      · have := List.all_eq_true.mp hletters _ (h ▸ List.mem_map_of_mem hc)
        exact absurd hlower (by simpa using this)
      · exact heq
    rwa [← h, hself] at hnone
  · obtain ⟨front, dot, rfl, -, hdot⟩ := List.map_eq_append_iff.mp h
    obtain ⟨c, rest, rfl, hc, hrest⟩ := List.map_eq_cons_iff.mp hdot
    obtain rfl := List.map_eq_nil_iff.mp hrest
    obtain rfl : c = '.' := by
      rcases toLower_cases c with ⟨-, hlower⟩ | heq
      · exact absurd hlower (by rw [hc]; decide)
      · exact heq.symm.trans hc
    have hhex : colonHex (front ++ ['.']) = none := Option.eq_none_iff_forall_ne_some.mpr
      fun n hn => hcolon (colon_mem_of_colonHex hn)
    simp [ipAddress, quad_dotted, hhex]

/-- A blocked name with a dot passes the guard. -/
theorem guardHost_dotted (hlower : ∀ cs : List Char, (∀ c ∈ cs, c.toNat < 128) →
    t.lower cs = cs.map Char.toLower) {hostname name : List Char} (hname : name ∈ blockedHostnames)
    (h : hostname.map Char.toLower = name ++ ['.']) : guardHost t hostname = .ok () := by
  have hfacts : ∀ name ∈ blockedHostnames, (name ++ ['.']).all (·.toNat < 128) ∧
      name ++ ['.'] ∉ blockedHostnames ∧ ' ' ∉ name ++ ['.'] := by decide +kernel
  obtain ⟨hascii, hother, hspace⟩ := hfacts name hname
  have hnone := ipAddress_dotted hname h
  refine guardHost_eq_ok_iff.mpr ⟨?_, ?_, fun _ => not_phrase_of_space fun hmem => hspace ?_⟩
  · rwa [lower_eq_map hlower h hascii]
  · intro ip hip
    exact absurd (hnone.symm.trans hip) (by simp)
  · exact h ▸ List.mem_map_of_mem (f := Char.toLower) hmem

end Noema.Api
