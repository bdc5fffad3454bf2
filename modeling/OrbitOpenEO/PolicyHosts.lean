import OrbitOpenEO.AddressTexts
import OrbitOpenEO.Lib.UrlHost

/-!
# The host the policy sees

`UrlPolicy::check` looks at the text of a host; the client connects to the host that a
parser by the URL Standard finds.  What the check takes for the host, and what it refuses,
can be told from the characters of the URL.  So it goes wrong about a URL of an internal
host when the text at this place is not one of an internal address or an internal name:
then the host is in disguise.
-/

namespace OrbitOpenEO

open Lib

/-- The octets of a number. -/
def Ipv4Addr.ofUInt32 (address : UInt32) : Ipv4Addr :=
  ⟨(address >>> 24).toUInt8, (address >>> 16).toUInt8, (address >>> 8).toUInt8, address.toUInt8⟩

/-- A name without the dot of the root. -/
def withoutRootDot (name : List Char) : List Char :=
  if name.getLast? = some '.' then name.dropLast else name

/-- The host is denied: by its address, or by its name without the dot of the root. -/
def isInternalHost : UrlHost → Bool
  | .domain name => isObviousInternalHostname (withoutRootDot name)
  | .ipv4 address => isInternalIp (.v4 (Ipv4Addr.ofUInt32 address))
  | .ipv6 pieces length_eq => isInternalIp (.v6 ⟨pieces, length_eq⟩)

/-- The characters that end the authority. -/
def endsAuthority (c : Char) : Bool := ['/', '?', '#'].contains c

/-- Text that stands in brackets, or in front of the last colon. -/
inductive HostText (host w : List Char) : Prop where
  | brackets {behind : List Char} (hhost : host = '[' :: (w ++ behind)) (hw : ']' ∉ w)
      (hbehind : behind = [] ∨ ∃ cs, behind = ']' :: cs)
  | port {port : List Char} (hhost : host = w ++ ':' :: port) (hport : ':' ∉ port)
      (hbracket : host.head? ≠ some '[')
  | noPort (hhost : host = w) (hw : ':' ∉ w) (hbracket : host.head? ≠ some '[')

/-- The text that stands for the host behind `://`: what follows the last at sign of the
authority, without brackets and port. -/
structure Written (rest w : List Char) : Prop where
  intro ::
  parts : ∃ user host tail, rest = user ++ (host ++ tail) ∧
    (∀ c ∈ user ++ host, endsAuthority c = false) ∧ (∀ c ∈ tail.head?, endsAuthority c = true) ∧
    (user = [] ∨ ∃ u, user = u ++ ['@']) ∧ '@' ∉ host ∧ HostText host w

/-- The text of an internal address, or an internal name. -/
def InternalText (w : List Char) : Prop :=
  (∃ ip, IpText w ip ∧ isInternalIp ip = true) ∨ isObviousInternalHostname w = true

theorem rsplitOnce_eq_none {sep : Char} {cs : List Char} (h : sep ∉ cs) :
    rsplitOnce sep cs = none := by
  induction cs with
  | nil =>
      rfl
  | cons c cs ih =>
      rw [List.mem_cons, not_or] at h
      rw [rsplitOnce, ih h.2]
      exact if_neg (Ne.symm h.1)

theorem rsplitOnce_append {sep : Char} (before : List Char) {after : List Char}
    (h : sep ∉ after) : rsplitOnce sep (before ++ sep :: after) = some (before, after) := by
  induction before with
  | nil =>
      rw [List.nil_append, rsplitOnce, rsplitOnce_eq_none h]
      exact if_pos rfl
  | cons c before ih =>
      rw [List.cons_append, rsplitOnce, ih]

/-- A text is split at its last separator, if it has one. -/
theorem exists_last (sep : Char) (cs : List Char) :
    sep ∉ cs ∨ ∃ before after, cs = before ++ sep :: after ∧ sep ∉ after := by
  induction cs with
  | nil =>
      exact .inl nofun
  | cons c cs ih =>
      rcases ih with hnone | ⟨before, after, rfl, hafter⟩
      · by_cases hc : c = sep
        · subst hc
          exact .inr ⟨[], cs, rfl, hnone⟩
        · exact .inl (by simp [Ne.symm hc, hnone])
      · exact .inr ⟨c :: before, after, rfl, hafter⟩

theorem exists_hostText (host : List Char) : ∃ w, HostText host w := by
  by_cases hbracket : host.head? = some '['
  · obtain ⟨cs, rfl⟩ := List.head?_eq_some_iff.mp hbracket
    have hcs : '[' :: cs = '[' :: (cs.takeWhile (· ≠ ']') ++ cs.dropWhile (· ≠ ']')) := by
      rw [List.takeWhile_append_dropWhile]
    refine ⟨cs.takeWhile (· ≠ ']'), .brackets hcs ?_ ?_⟩
    · intro h
      simpa using List.mem_takeWhile_imp h
    · cases hdrop : cs.dropWhile (· ≠ ']') with
      | nil =>
          exact .inl rfl
      | cons c rest =>
          have hc := List.head?_dropWhile_not (fun c => decide (c ≠ ']')) cs
          rw [hdrop] at hc
          exact .inr ⟨rest, by simpa using hc⟩
  · rcases exists_last ':' host with hnone | ⟨w, port, rfl, hport⟩
    · exact ⟨host, .noPort rfl hnone hbracket⟩
    · exact ⟨w, .port rfl hport hbracket⟩

/-- There is such a text behind every `://`. -/
theorem exists_written (rest : List Char) : ∃ w, Written rest w := by
  have hauthority : ∀ c ∈ rest.takeWhile (fun c => !endsAuthority c), endsAuthority c = false :=
    fun c hc => by simpa using List.mem_takeWhile_imp hc
  have htail : ∀ c ∈ (rest.dropWhile (fun c => !endsAuthority c)).head?,
      endsAuthority c = true := by
    intro c hc
    have h := List.head?_dropWhile_not (fun c => !endsAuthority c) rest
    rw [Option.mem_def.mp hc] at h
    simpa using h
  have hrest := (List.takeWhile_append_dropWhile (p := fun c => !endsAuthority c) (l := rest)).symm
  rcases exists_last '@' (rest.takeWhile (fun c => !endsAuthority c)) with
    hnone | ⟨user, host, hsplit, hhost⟩
  · obtain ⟨w, hw⟩ := exists_hostText (rest.takeWhile (fun c => !endsAuthority c))
    exact ⟨w, ⟨[], _, _, hrest, hauthority, htail, .inl rfl, hnone, hw⟩⟩
  · obtain ⟨w, hw⟩ := exists_hostText host
    rw [hsplit] at hrest hauthority
    refine ⟨w, ⟨user ++ ['@'], host, _, ?_, ?_, htail, .inr ⟨user, rfl⟩, hhost, hw⟩⟩
    · simpa using hrest
    · simpa using hauthority

/-- The last step of `hostNoPort` finds the text. -/
theorem HostText.eq {host w : List Char} : HostText host w →
    (match host with
      | '[' :: stripped => stripped.takeWhile (· ≠ ']')
      | host =>
          match rsplitOnce ':' host with
          | some (h, _) => h
          | none => host) = w := by
  intro h
  cases h with
  | @brackets behind hhost hw hbehind =>
      subst hhost
      have htext : ∀ c ∈ w, decide (c ≠ ']') = true := fun c hc =>
        decide_eq_true fun heq => hw (heq ▸ hc)
      change (w ++ behind).takeWhile (fun c => decide (c ≠ ']')) = w
      rw [List.takeWhile_append_of_pos htext]
      rcases hbehind with rfl | ⟨cs, rfl⟩
      · rw [List.takeWhile_nil, List.append_nil]
      · rw [List.takeWhile_cons_of_neg (by simp), List.append_nil]
  | port hhost hport hbracket =>
      split
      · exact absurd rfl hbracket
      · rw [hhost, rsplitOnce_append w hport]
  | noPort hhost hw hbracket =>
      split
      · exact absurd rfl hbracket
      · rw [hhost, rsplitOnce_eq_none hw]

/-- The check takes this text for the host. -/
theorem Written.hostNoPort_eq {rest w : List Char} (h : Written rest w) : hostNoPort rest = w := by
  obtain ⟨user, host, tail, rfl, hauthority, htail, huser, hat, hw⟩ := h.parts
  have htake : (user ++ (host ++ tail)).takeWhile (fun c => !(['/', '?', '#'].contains c)) =
      user ++ host := by
    rw [← List.append_assoc, List.takeWhile_append_of_pos fun c hc => by
      simpa [endsAuthority] using hauthority c hc]
    cases tail with
    | nil =>
        rw [List.takeWhile_nil, List.append_nil]
    | cons c tail =>
        have hc : ['/', '?', '#'].contains c = true := htail c rfl
        rw [List.takeWhile_cons_of_neg (by rw [hc]; decide), List.append_nil]
  unfold hostNoPort
  rw [htake]
  dsimp only
  rcases huser with rfl | ⟨u, rfl⟩
  · rw [List.nil_append, rsplitOnce_eq_none hat]
    exact hw.eq
  · rw [List.append_assoc, List.singleton_append, rsplitOnce_append u hat]
    exact hw.eq

theorem hostNoPort_eq_iff {rest w : List Char} : hostNoPort rest = w ↔ Written rest w := by
  refine ⟨?_, Written.hostNoPort_eq⟩
  rintro rfl
  obtain ⟨w, hw⟩ := exists_written rest
  rwa [hw.hostNoPort_eq]

/-- A letter from `A` to `Z` moves by 32, every other character stays. -/
theorem toLower_cases (c : Char) :
    (65 ≤ c.toNat ∧ c.toNat ≤ 90 ∧ c.toLower.toNat = c.toNat + 32) ∨
      (¬ (65 ≤ c.toNat ∧ c.toNat ≤ 90) ∧ c.toLower = c) := by
  have hletter : (c.val ≥ 'A'.val ∧ c.val ≤ 'Z'.val) ↔ 65 ≤ c.toNat ∧ c.toNat ≤ 90 := by
    rw [ge_iff_le, UInt32.le_iff_toNat_le, UInt32.le_iff_toNat_le]
    rfl
  by_cases hupper : 65 ≤ c.toNat ∧ c.toNat ≤ 90
  case pos =>
    have hlt : c.toNat + 32 < 2 ^ 32 := by omega
    refine Or.inl ⟨hupper.1, hupper.2, ?_⟩
    have hmoved : c.toLower.val = c.val + 32 := congrArg Char.val (dif_pos (hletter.mpr hupper))
    calc c.toLower.toNat
        = (c.val + 32).toNat := congrArg UInt32.toNat hmoved
      _ = c.toNat + 32 := (UInt32.toNat_add _ _).trans (Nat.mod_eq_of_lt hlt)
  case neg =>
    exact Or.inr ⟨hupper, dif_neg fun h => hupper (hletter.mp h)⟩

theorem eq_of_toLower_eq_l {c : Char} (h : c.toLower = 'l') : c = 'l' ∨ c = 'L' := by
  rcases toLower_cases c with ⟨-, -, hcode⟩ | ⟨-, hsame⟩
  · right
    rw [h] at hcode
    have hL : 'L'.toNat + 32 = c.toNat + 32 := hcode
    exact (Char.toNat_inj.mp (Nat.add_right_cancel hL)).symm
  · left
    rw [← h, hsame]

/-- An internal name is no address: it has an `l`. -/
theorem parseIpAddr_internalName {w : List Char} (h : isObviousInternalHostname w = true) :
    parseIpAddr w = none := by
  have hl : 'l' ∈ w.map Char.toLower := by
    have hsuffix : ∀ {suffix : List Char}, 'l' ∈ suffix →
        suffix.isSuffixOf (w.map Char.toLower) = true → 'l' ∈ w.map Char.toLower := by
      intro suffix hmem hs
      exact (List.isSuffixOf_iff_suffix.mp hs).subset hmem
    unfold isObviousInternalHostname at h
    simp only [Bool.or_eq_true, beq_iff_eq] at h
    rcases h with (((h | h) | h) | h) | h
    · rw [h]
      decide
    · exact hsuffix (by decide) h
    · rw [h]
      decide
    · exact hsuffix (by decide) h
    · exact hsuffix (by decide) h
  cases hparse : parseIpAddr w with
  | none =>
      rfl
  | some ip =>
      obtain ⟨c, hc, hlower⟩ := List.mem_map.mp hl
      have haddress := (parseIpAddr_eq_some_iff.mp hparse).isAddressChar c hc
      rcases eq_of_toLower_eq_l hlower with rfl | rfl
      · exact absurd haddress (by decide)
      · exact absurd haddress (by decide)

theorem isDeniedHost_iff {w : List Char} : isDeniedHost w = true ↔ InternalText w := by
  unfold isDeniedHost InternalText
  cases hparse : parseIpAddr w with
  | none =>
      refine ⟨.inr, ?_⟩
      rintro (⟨ip, hip, -⟩ | h)
      · rw [parseIpAddr_eq_some_iff.mpr hip] at hparse
        cases hparse
      · exact h
  | some ip =>
      refine ⟨fun h => .inl ⟨ip, parseIpAddr_eq_some_iff.mp hparse, h⟩, ?_⟩
      rintro (⟨ip', hip', h⟩ | h)
      · rw [parseIpAddr_eq_some_iff.mpr hip'] at hparse
        cases hparse
        exact h
      · rw [parseIpAddr_internalName h] at hparse
        cases hparse

/-- `https://` in any case, and what follows it. -/
structure HttpsUrl (url rest : List Char) : Prop where
  intro ::
  scheme : ∃ scheme, url = scheme ++ "://".toList ++ rest ∧
    scheme.map Char.toLower = "https".toList

theorem splitOnce_eq_some {sep cs before after : List Char}
    (h : splitOnce sep cs = some (before, after)) : cs = before ++ sep ++ after := by
  induction cs generalizing before with
  | nil =>
      rw [splitOnce] at h
      split_ifs at h with hsep
      cases h
      rw [List.isEmpty_iff.mp hsep]
      rfl
  | cons c cs ih =>
      rw [splitOnce] at h
      split_ifs at h with hprefix
      · cases h
        obtain ⟨rest, hrest⟩ := List.isPrefixOf_iff_prefix.mp hprefix
        rw [← hrest, List.nil_append, List.drop_left]
      · obtain ⟨p, hp, heq⟩ := Option.map_eq_some_iff.mp h
        cases heq
        rw [ih hp]
        rfl

theorem splitOnce_scheme {scheme : List Char} (h : ':' ∉ scheme) (rest : List Char) :
    splitOnce "://".toList (scheme ++ "://".toList ++ rest) = some (scheme, rest) := by
  induction scheme with
  | nil =>
      simp [splitOnce]
  | cons c scheme ih =>
      rw [List.mem_cons, not_or] at h
      rw [List.cons_append, List.cons_append, splitOnce, ih h.2, if_neg]
      · rfl
      · intro hprefix
        obtain ⟨_, hprefix⟩ := List.isPrefixOf_iff_prefix.mp hprefix
        exact h.1 (List.cons.inj hprefix).1

theorem colon_notMem_https {scheme : List Char}
    (hscheme : scheme.map Char.toLower = "https".toList) : ':' ∉ scheme := by
  intro h
  have hmem := List.mem_map_of_mem (f := Char.toLower) h
  rw [hscheme] at hmem
  revert hmem
  decide

/-- What follows `https://` is determined. -/
theorem HttpsUrl.unique {url rest rest' : List Char} (h : HttpsUrl url rest)
    (h' : HttpsUrl url rest') : rest = rest' := by
  obtain ⟨scheme, hurl, hscheme⟩ := h.scheme
  obtain ⟨scheme', hurl', hscheme'⟩ := h'.scheme
  have hsplit := splitOnce_scheme (colon_notMem_https hscheme) rest
  rw [← hurl, hurl', splitOnce_scheme (colon_notMem_https hscheme')] at hsplit
  cases hsplit
  rfl

/-- **What the default check accepts.**  These are the `https` URLs in which the text at the
place of the host is no internal address and no internal name. -/
theorem check_default_iff {href : String} :
    UrlPolicy.default.check href = .ok () ↔
      ∃ rest w, HttpsUrl href.toList rest ∧ Written rest w ∧ ¬ InternalText w := by
  constructor
  · intro h
    unfold UrlPolicy.check at h
    split_ifs at h with hdash
    split at h
    · cases h
    · rename_i scheme rest hsplit
      dsimp only at h
      split_ifs at h with hscheme hdenied
      refine ⟨rest, hostNoPort rest, ⟨scheme, splitOnce_eq_some hsplit, ?_⟩,
        hostNoPort_eq_iff.mp rfl, ?_⟩
      · have hname : String.ofList (scheme.map Char.toLower) = "https" := by
          simpa [UrlPolicy.default] using hscheme
        rw [← hname, String.toList_ofList]
      · rw [← isDeniedHost_iff]
        simpa [UrlPolicy.default] using hdenied
  · rintro ⟨rest, w, ⟨scheme, hhref, hscheme⟩, hw, hplain⟩
    have hcolon := colon_notMem_https hscheme
    have hdash : "-".toList.isPrefixOf href.toList = false := by
      cases scheme with
      | nil =>
          cases hscheme
      | cons c scheme =>
          have hc : c.toLower = 'h' := (List.cons.inj hscheme).1
          have hne : '-' ≠ c := by
            rintro rfl
            revert hc
            decide
          rw [Bool.eq_false_iff]
          intro hprefix
          obtain ⟨_, hprefix⟩ := List.isPrefixOf_iff_prefix.mp hprefix
          rw [hhref] at hprefix
          exact hne (List.cons.inj hprefix).1
    have hdenied : isDeniedHost w = false := by
      rw [Bool.eq_false_iff]
      exact fun h => hplain (isDeniedHost_iff.mp h)
    have hscheme' : UrlPolicy.default.allowedSchemes.contains
        (String.ofList (scheme.map Char.toLower)) = true := by
      rw [hscheme]
      decide
    unfold UrlPolicy.check
    rw [if_neg (by rw [hdash]; decide), hhref, splitOnce_scheme hcolon]
    dsimp only
    rw [hscheme', hw.hostNoPort_eq, hdenied, if_neg (by decide), if_neg (by simp)]

/-- The default check is right about a URL: no host that it stands for is internal. -/
def RightAbout (domainToAscii : List UInt8 → Option (List Char)) (href : String) : Prop :=
  UrlPolicy.default.check href = .ok () →
    ∀ host, UrlHost.ofHttps domainToAscii href.toList = some host → isInternalHost host = false

/-- An internal host in disguise: it is that of an `https` URL in which the text at its place
is neither an internal address nor an internal name. -/
def Disguised (domainToAscii : List UInt8 → Option (List Char)) (href : String) : Prop :=
  ∃ rest w host, HttpsUrl href.toList rest ∧ Written rest w ∧
    UrlHost.ofHttps domainToAscii href.toList = some host ∧ isInternalHost host = true ∧
    ¬ InternalText w

/-- The check is right about a URL if and only if no internal host is in disguise there. -/
theorem rightAbout_iff_not_disguised (domainToAscii : List UInt8 → Option (List Char))
    (href : String) :
    RightAbout domainToAscii href ↔ ¬ Disguised domainToAscii href := by
  constructor
  · rintro hright ⟨rest, w, host, hhttps, hw, hhost, hinternal, htext⟩
    have haccepted := check_default_iff.mpr ⟨rest, w, hhttps, hw, htext⟩
    rw [hright haccepted host hhost] at hinternal
    cases hinternal
  · intro h haccepted host hhost
    obtain ⟨rest, w, hhttps, hw, htext⟩ := check_default_iff.mp haccepted
    rw [Bool.eq_false_iff]
    intro hinternal
    exact h ⟨rest, w, host, hhttps, hw, hhost, hinternal, htext⟩

end OrbitOpenEO
