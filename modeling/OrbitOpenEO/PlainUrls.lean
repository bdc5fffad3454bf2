import OrbitOpenEO.PolicyHosts
import OrbitOpenEO.Lib.Utf8

/-!
# Plain URLs

In a plain spelling the check and the URL Standard see the same host: an address in
brackets however it is abbreviated, four decimals, or a name in ASCII that does not look
like a number and has no dot at its end, with credentials, a port and a path as usual.
-/

namespace OrbitOpenEO

open Lib

section Ipv6

/-- The digits of a number at the end of an IPv6 address. -/
theorem parseOctet_eq_some {cs rest : List Char} {n : Nat}
    (h : UrlHost.parseOctet cs = some (n, rest)) :
    n < 256 ∧ cs = Nat.toDigits 10 n ++ rest := by
  unfold UrlHost.parseOctet at h
  dsimp only at h
  split_ifs at h with hbad hmax
  cases h
  simp only [Bool.or_eq_true, List.isEmpty_iff, Bool.and_eq_true, beq_iff_eq, decide_eq_true_eq,
    not_or, not_and, Nat.not_lt] at hbad
  obtain ⟨hne, hzero⟩ := hbad
  refine ⟨Nat.lt_succ_of_le (Nat.le_of_not_lt hmax), ?_⟩
  rw [toDigits_numeral _ hne fun c hc => List.mem_takeWhile_imp hc]
  · exact List.takeWhile_append_dropWhile.symm
  · intro hhead
    have hpos := List.length_pos_iff.mpr hne
    have hle := hzero hhead
    omega

theorem parseNextOctet_eq_some {cs rest : List Char} {n : Nat}
    (h : UrlHost.parseNextOctet cs = some (n, rest)) :
    n < 256 ∧ cs = '.' :: (Nat.toDigits 10 n ++ rest) := by
  unfold UrlHost.parseNextOctet at h
  split at h
  · obtain ⟨hn, hcs⟩ := parseOctet_eq_some h
    exact ⟨hn, by rw [hcs]⟩
  · cases h

theorem parseIpv4Tail_eq_some {cs : List Char} {groups : UInt16 × UInt16}
    (h : UrlHost.parseIpv4Tail cs = some groups) :
    ∃ ip : Ipv4Addr, cs = ip.text ∧ [groups.1, groups.2] = ip.groups := by
  unfold UrlHost.parseIpv4Tail at h
  simp only [bind, Option.bind_eq_some_iff] at h
  obtain ⟨⟨a, cs₁⟩, ha, ⟨b, cs₂⟩, hb, ⟨c, cs₃⟩, hc, ⟨d, cs₄⟩, hd, hsome⟩ := h
  dsimp only at hb hc hd hsome
  split_ifs at hsome with hrest
  cases hsome
  rw [List.isEmpty_iff] at hrest
  subst hrest
  obtain ⟨ha', rfl⟩ := parseOctet_eq_some ha
  obtain ⟨hb', rfl⟩ := parseNextOctet_eq_some hb
  obtain ⟨hc', rfl⟩ := parseNextOctet_eq_some hc
  obtain ⟨hd', rfl⟩ := parseNextOctet_eq_some hd
  refine ⟨⟨UInt8.ofNat a, UInt8.ofNat b, UInt8.ofNat c, UInt8.ofNat d⟩, ?_, ?_⟩
  · simp [Ipv4Addr.text, Nat.mod_eq_of_lt ha', Nat.mod_eq_of_lt hb', Nat.mod_eq_of_lt hc',
      Nat.mod_eq_of_lt hd']
  · simp [Ipv4Addr.groups, fromBeBytes, Nat.mod_eq_of_lt ha', Nat.mod_eq_of_lt hb',
      Nat.mod_eq_of_lt hc', Nat.mod_eq_of_lt hd']

/-- What the loop of the standard's parser has read: groups, with a double colon among them
if there was none before. -/
inductive Pieces (pieces : List UInt16) :
    Option Nat → List Char → List UInt16 → Option Nat → Prop where
  | plain {compress : Option Nat} {cs : List Char} {groups : List UInt16} {ipv4 : Bool}
      (h : MaybeGroupsText cs groups ipv4) : Pieces pieces compress cs (pieces ++ groups) compress
  | colons {cs back : List Char} {head tail : List UInt16} {ipv4 : Bool}
      (hback : MaybeGroupsText back tail ipv4)
      (hfront : cs = ':' :: back ∧ head = [] ∨
        ∃ front, cs = front ++ ':' :: ':' :: back ∧ GroupsText front head false) :
      Pieces pieces none cs (pieces ++ head ++ [0] ++ tail)
        (some (pieces.length + head.length + 1))

/-- One group more in front, with the colon behind it. -/
theorem Pieces.cons {pieces : List UInt16} {compress at_ : Option Nat} {digits rest : List Char}
    {group : UInt16} {result : List UInt16} (hgroup : GroupText digits group) (hrest : rest ≠ [])
    (h : Pieces (pieces ++ [group]) compress rest result at_) :
    Pieces pieces compress (digits ++ ':' :: rest) result at_ := by
  cases h with
  | plain h =>
      rw [List.append_assoc, List.singleton_append]
      exact .plain (.inr (.cons hgroup (h.resolve_left fun h => hrest h.1)))
  | @colons _ back head tail ipv4 hback hfront =>
      have hcolons : ∃ front, digits ++ ':' :: rest = front ++ ':' :: ':' :: back ∧
          GroupsText front (group :: head) false := by
        rcases hfront with ⟨rfl, rfl⟩ | ⟨front, rfl, hfront⟩
        · exact ⟨digits, rfl, .last hgroup⟩
        · exact ⟨digits ++ ':' :: front, by simp, .cons hgroup hfront⟩
      have hpieces : Pieces pieces none (digits ++ ':' :: rest)
          (pieces ++ (group :: head) ++ [0] ++ tail)
          (some (pieces.length + (group :: head).length + 1)) := .colons hback (.inr hcolons)
      simpa [Nat.add_assoc, Nat.add_comm 1] using hpieces

theorem parsePieces_spec (left : Nat) (pieces : List UInt16) (compress : Option Nat)
    (cs : List Char) {result : List UInt16} {at_ : Option Nat}
    (h : UrlHost.parsePieces left pieces compress cs = some (result, at_)) :
    Pieces pieces compress cs result at_ := by
  have hnil : ∀ {left pieces compress},
      UrlHost.parsePieces left pieces compress [] = some (result, at_) →
        Pieces pieces compress [] result at_ := by
    intro left pieces compress h
    have hnil : UrlHost.parsePieces left pieces compress [] = some (pieces, compress) := by
      cases left <;> rfl
    rw [hnil] at h
    cases h
    have hplain : Pieces result at_ [] (result ++ []) at_ := .plain (.inl ⟨rfl, rfl, rfl⟩)
    rwa [List.append_nil] at hplain
  induction left generalizing pieces compress cs with
  | zero =>
      cases cs with
      | nil =>
          exact hnil h
      | cons c cs =>
          cases h
  | succ left ih =>
      cases cs with
      | nil =>
          exact hnil h
      | cons c input =>
          rw [UrlHost.parsePieces] at h
          split_ifs at h with hcolon hcompress
          · -- A colon at the start of a group: the double colon.
            subst hcolon
            obtain rfl : compress = none := by simpa using hcompress
            cases ih _ _ _ h with
            | plain hback =>
                rename_i groups _
                have hpieces : Pieces pieces none (':' :: input) (pieces ++ [] ++ [0] ++ groups)
                    (some (pieces.length + ([] : List UInt16).length + 1)) :=
                  .colons hback (.inl ⟨rfl, rfl⟩)
                simpa using hpieces
          · -- Digits, and what follows them.
            dsimp only at h
            generalize hdigits : ((c :: input).takeWhile (isRadixDigit 16)).take 4 = digits at h
            have hprefix : digits <+: c :: input :=
              hdigits ▸ (List.take_prefix _ _).trans (List.takeWhile_prefix _)
            have hcs := (List.prefix_iff_eq_append.mp hprefix).symm
            have hgroup : digits ≠ [] → GroupText digits (UInt16.ofNat (numeral 16 digits)) := by
              intro hne
              refine ⟨hne, ?_, ?_, rfl⟩
              · rw [← hdigits]
                exact List.length_take_le 4 _
              · intro d hd
                rw [← hdigits] at hd
                exact List.mem_takeWhile_imp (List.mem_of_mem_take hd)
            split at h
            · rename_i hdrop
              rw [hdrop, List.append_nil] at hcs
              cases h
              rw [hcs]
              exact .plain (.inr (.last (hgroup (hcs ▸ List.cons_ne_nil _ _))))
            · split_ifs at h
              obtain ⟨p, hp, heq⟩ := Option.map_eq_some_iff.mp h
              cases heq
              obtain ⟨ip, hip, hgroups⟩ := parseIpv4Tail_eq_some hp
              rw [hip, hgroups]
              exact .plain (.inr (.ipv4 ip))
            · rename_i rest hdrop
              split_ifs at h with hrest
              rw [List.isEmpty_iff] at hrest
              rw [hdrop] at hcs
              have hne : digits ≠ [] := by
                rintro rfl
                exact hcolon (List.cons.inj hcs).1
              rw [hcs]
              exact (ih _ _ _ h).cons (hgroup hne) hrest
            · cases h

/-- A double colon stands for the zeros that are missing. -/
theorem expand_colons (head tail : List UInt16)
    (hlength : (UrlHost.expand (head ++ [0] ++ tail, some (head.length + 1))).length = 8) :
    head.length + tail.length ≤ 7 ∧
      UrlHost.expand (head ++ [0] ++ tail, some (head.length + 1)) =
        head ++ List.replicate (8 - head.length - tail.length) 0 ++ tail := by
  have hexpand : UrlHost.expand (head ++ [0] ++ tail, some (head.length + 1)) =
      head ++ [0] ++ List.replicate (8 - (head ++ [0] ++ tail).length) 0 ++ tail := by
    have hsplit : (head ++ [0]).length = head.length + 1 := by simp
    rw [UrlHost.expand, ← hsplit, List.take_left, List.drop_left]
  rw [hexpand] at hlength ⊢
  simp only [List.length_append, List.length_replicate, List.length_singleton] at hlength ⊢
  have hle : head.length + tail.length ≤ 7 := by omega
  refine ⟨hle, ?_⟩
  have hzeros : 8 - head.length - tail.length = 8 - (head.length + 1 + tail.length) + 1 := by omega
  rw [hzeros, List.replicate_succ]
  simp

/-- The standard's parser of IPv6 addresses takes texts of the grammar only. -/
theorem parseIpv6_eq_some {w : List Char} {host : UrlHost}
    (h : UrlHost.parseIpv6 w = some host) : ∃ ip : Ipv6Addr, Ipv6Text w ip ∧
      host = .ipv6 ip.segments ip.length_eq := by
  unfold UrlHost.parseIpv6 at h
  dsimp only at h
  split at h
  · cases h
  · rename_i pieces hpieces
    obtain ⟨result, at_⟩ := pieces
    split_ifs at h with hlength
    cases h
    refine ⟨⟨_, hlength⟩, ?_, rfl⟩
    split at hpieces
    · rename_i rest
      cases parsePieces_spec _ _ _ _ hpieces with
      | @plain _ _ groups ipv4 hback =>
          obtain ⟨hle, hexpand⟩ := expand_colons [] groups hlength
          exact .short (.inl ⟨rfl, rfl, rfl⟩) hback hle rfl hexpand
    · cases hpieces
    · rename_i hcolons hcolon
      cases parsePieces_spec _ _ _ _ hpieces with
      | plain h =>
          rcases h with ⟨-, rfl, -⟩ | h
          · cases hlength
          · exact .full h
      | @colons _ back head tail ipv4 hback hfront =>
          have hat : ([] : List UInt16).length + head.length + 1 = head.length + 1 := by
            rw [List.length_nil, Nat.zero_add]
          obtain ⟨hle, hexpand⟩ := expand_colons head tail (by
            rwa [hat, List.nil_append] at hlength)
          rcases hfront with ⟨rfl, -⟩ | ⟨front, rfl, hfront⟩
          · exact absurd rfl (hcolon back)
          · refine .short (.inr hfront) hback hle rfl ?_
            rw [← hexpand, ← hat]
            rfl

end Ipv6

section Ipv4

theorem parseNumber_toDigits : ∀ n < 256, UrlHost.parseNumber (Nat.toDigits 10 n) = some n := by
  decide +kernel

theorem parts_text (ip : Ipv4Addr) : UrlHost.parts ip.text =
    [Nat.toDigits 10 ip.octet0.toNat, Nat.toDigits 10 ip.octet1.toNat,
      Nat.toDigits 10 ip.octet2.toNat, Nat.toDigits 10 ip.octet3.toNat] := by
  have hdot : ∀ n, '.' ∉ Nat.toDigits 10 n := fun n h =>
    absurd (Nat.isDigit_of_mem_toDigits (by decide) (by decide) h) (by decide)
  have hsplit : ip.text.splitOn '.' =
      [Nat.toDigits 10 ip.octet0.toNat, Nat.toDigits 10 ip.octet1.toNat,
        Nat.toDigits 10 ip.octet2.toNat, Nat.toDigits 10 ip.octet3.toNat] := by
    rw [Ipv4Addr.text, List.splitOn_append_cons_self, List.splitOn_append_cons_self,
      List.splitOn_append_cons_self, List.splitOn_eq_singleton (hdot _),
      List.splitOn_eq_singleton (hdot _), List.splitOn_eq_singleton (hdot _),
      List.splitOn_eq_singleton (hdot _)]
    rfl
  unfold UrlHost.parts
  rw [hsplit]
  simp

theorem endsInNumber_text (ip : Ipv4Addr) : UrlHost.endsInNumber ip.text = true := by
  unfold UrlHost.endsInNumber
  rw [parts_text]
  have hlast := parseNumber_toDigits _ ip.octet3.toNat_lt
  simp [hlast]

theorem ofUInt32_ofNat (ip : Ipv4Addr) :
    Ipv4Addr.ofUInt32 (UInt32.ofNat (ip.octet0.toNat * 16777216 + ip.octet1.toNat * 65536 +
      ip.octet2.toNat * 256 + ip.octet3.toNat)) = ip := by
  obtain ⟨a, b, c, d⟩ := ip
  have ha := a.toNat_lt
  have hb := b.toNat_lt
  have hc := c.toNat_lt
  have hd := d.toNat_lt
  have hvalue : (UInt32.ofNat (a.toNat * 16777216 + b.toNat * 65536 + c.toNat * 256 +
      d.toNat)).toNat = a.toNat * 16777216 + b.toNat * 65536 + c.toNat * 256 + d.toNat := by
    rw [UInt32.toNat_ofNat', Nat.mod_eq_of_lt (by omega)]
  unfold Ipv4Addr.ofUInt32
  simp only [Ipv4Addr.mk.injEq, ← UInt8.toNat_inj, UInt32.toNat_toUInt8,
    UInt32.toNat_shiftRight, hvalue, Nat.shiftRight_eq_div_pow]
  refine ⟨?_, ?_, ?_, ?_⟩
  · change _ / 2 ^ 24 % 2 ^ 8 = _
    omega
  · change _ / 2 ^ 16 % 2 ^ 8 = _
    omega
  · change _ / 2 ^ 8 % 2 ^ 8 = _
    omega
  · omega

/-- Four decimals are the address that they say. -/
theorem parseIpv4_text (ip : Ipv4Addr) : ∃ address, UrlHost.parseIpv4 ip.text = some address ∧
    Ipv4Addr.ofUInt32 address = ip := by
  have h0 : ip.octet0.toNat < 256 := ip.octet0.toNat_lt
  have h1 : ip.octet1.toNat < 256 := ip.octet1.toNat_lt
  have h2 : ip.octet2.toNat < 256 := ip.octet2.toNat_lt
  have h3 : ip.octet3.toNat < 256 := ip.octet3.toNat_lt
  have hnumbers : [Nat.toDigits 10 ip.octet0.toNat, Nat.toDigits 10 ip.octet1.toNat,
      Nat.toDigits 10 ip.octet2.toNat, Nat.toDigits 10 ip.octet3.toNat].mapM
        UrlHost.parseNumber =
      some [ip.octet0.toNat, ip.octet1.toNat, ip.octet2.toNat, ip.octet3.toNat] := by
    simp [parseNumber_toDigits _ h0, parseNumber_toDigits _ h1, parseNumber_toDigits _ h2,
      parseNumber_toDigits _ h3]
  refine ⟨_, ?_, ofUInt32_ofNat ip⟩
  unfold UrlHost.parseIpv4
  rw [parts_text, hnumbers]
  dsimp only
  split_ifs with hparts hany hlast
  · exact absurd hparts (Nat.lt_irrefl 4)
  · simp only [List.dropLast, List.any_cons, List.any_nil, Bool.or_false, Bool.or_eq_true,
      decide_eq_true_eq] at hany
    omega
  · have hlast' : 256 ≤ ip.octet3.toNat := by simpa using hlast
    omega
  · simp [List.zipIdx, Nat.add_assoc]

end Ipv4

section PlainUrls

/-- A character of a plain name. -/
def isNameChar (c : Char) : Bool := c.isAlphanum || ['-', '_', '.'].contains c

/-- A host in a plain spelling. -/
inductive PlainHost : List Char → Prop where
  | ipv6 {w : List Char} (h : ∀ c ∈ w, isAddressChar c = true) : PlainHost ('[' :: (w ++ [']']))
  | ipv4 (ip : Ipv4Addr) : PlainHost ip.text
  | name {w : List Char} (hne : w ≠ []) (hchars : ∀ c ∈ w, isNameChar c = true)
      (hroot : w.getLast? ≠ some '.')
      (hnumber : UrlHost.endsInNumber (w.map Char.toLower) = false) : PlainHost w

/-- A port, if there is one. -/
def IsPortText (port : List Char) : Prop :=
  port = [] ∨ ∃ digits, port = ':' :: digits ∧ ∀ c ∈ digits, c.isDigit = true

/-- A URL in a plain spelling: no space or control character in it, no backslash in the
authority, and one of the plain hosts. -/
inductive PlainUrl : List Char → Prop where
  | intro {scheme user host port tail : List Char}
      (hscheme : scheme.map Char.toLower = "https".toList)
      (hprintable : ∀ c ∈ scheme ++ "://".toList ++ (user ++ (host ++ port ++ tail)),
        0x20 < c.toNat)
      (hchars : ∀ c ∈ user, endsAuthority c = false ∧ c ≠ '\\')
      (huser : user = [] ∨ ∃ u, user = u ++ ['@']) (hhost : PlainHost host)
      (hport : IsPortText port)
      (htail : ∀ c ∈ tail.head?, endsAuthority c = true) :
      PlainUrl (scheme ++ "://".toList ++ (user ++ (host ++ port ++ tail)))

/-- What a conversion to ASCII does to a plain name, if it takes it: it puts it in lower case. -/
def KeepsPlainNames (domainToAscii : List UInt8 → Option (List Char)) : Prop :=
  ∀ name : List Char, (∀ c ∈ name, isNameChar c = true) → ∀ ascii,
    domainToAscii (name.flatMap String.utf8EncodeChar) = some ascii → ascii = name.map Char.toLower

section Names

/-- A name has none of the characters with a meaning in a URL. -/
theorem isNameChar_ne {c d : Char} (h : isNameChar c = true) (hd : isNameChar d = false) :
    c ≠ d := by
  rintro rfl
  rw [h] at hd
  cases hd

theorem percentDecode_eq_self {bytes : List UInt8} (h : 0x25 ∉ bytes) :
    UrlHost.percentDecode bytes = bytes := by
  fun_induction UrlHost.percentDecode bytes with
  | case1 =>
      rfl
  | case2 | case3 =>
      exact absurd List.mem_cons_self h
  | case4 byte bytes _ ih =>
      rw [ih fun hmem => h (List.mem_cons_of_mem _ hmem)]

/-- The bytes of a plain name decode to themselves. -/
theorem percentDecode_name {name : List Char} (h : ∀ c ∈ name, isNameChar c = true) :
    UrlHost.percentDecode (name.flatMap String.utf8EncodeChar) =
      name.flatMap String.utf8EncodeChar := by
  refine percentDecode_eq_self fun hmem => ?_
  obtain ⟨c, hc, hbyte⟩ := List.mem_flatMap.mp hmem
  have hpercent : c = '%' := eq_of_ascii_mem_utf8EncodeChar (a := '%') (by decide) hbyte
  exact isNameChar_ne (h c hc) (by decide) hpercent

theorem toLower_eq_dot {c : Char} (h : c.toLower = '.') : c = '.' := by
  rcases toLower_cases c with ⟨hA, -, hcode⟩ | ⟨-, hsame⟩
  · rw [h] at hcode
    have hdot : '.'.toNat = 46 := rfl
    omega
  · rw [← h, hsame]

theorem toLower_toLower (c : Char) : c.toLower.toLower = c.toLower := by
  rcases toLower_cases c with ⟨hA, -, hcode⟩ | ⟨-, hsame⟩
  · rcases toLower_cases c.toLower with ⟨-, hZ, -⟩ | ⟨-, hstays⟩
    · omega
    · exact hstays
  · rw [hsame, hsame]

theorem isObviousInternalHostname_toLower (w : List Char) :
    isObviousInternalHostname (w.map Char.toLower) = isObviousInternalHostname w := by
  have hlower : (w.map Char.toLower).map Char.toLower = w.map Char.toLower := by
    rw [List.map_map]
    exact List.map_congr_left fun c _ => toLower_toLower c
  unfold isObviousInternalHostname
  rw [hlower]

/-- A plain name is the name that the standard sees. -/
theorem withoutRootDot_toLower {w : List Char} (h : w.getLast? ≠ some '.') :
    withoutRootDot (w.map Char.toLower) = w.map Char.toLower := by
  refine if_neg fun hlast => h ?_
  rw [List.getLast?_map] at hlast
  obtain ⟨c, hc, hdot⟩ := Option.map_eq_some_iff.mp hlast
  rw [hc, toLower_eq_dot hdot]

end Names

section Hosts

variable {domainToAscii : List UInt8 → Option (List Char)} {host : UrlHost} {w : List Char}

theorem isNameChar_text (ip : Ipv4Addr) : ∀ c ∈ ip.text, isNameChar c = true ∧ c.toLower = c := by
  have hdigits : ∀ n c, c ∈ Nat.toDigits 10 n → isNameChar c = true ∧ c.toLower = c := by
    intro n c hc
    have hdigit : c.isDigit = true := Nat.isDigit_of_mem_toDigits (by decide) (by decide) hc
    have hlower : c.toLower = c := by
      rcases toLower_cases c with ⟨hA, -, -⟩ | ⟨-, hsame⟩
      · have hnine : c.toNat ≤ 57 := by
          simp only [Char.isDigit, Bool.and_eq_true, decide_eq_true_eq,
            UInt32.le_iff_toNat_le] at hdigit
          exact hdigit.2
        omega
      · exact hsame
    refine ⟨?_, hlower⟩
    rw [isNameChar, Char.isAlphanum, hdigit, Bool.or_true, Bool.true_or]
  intro c hc
  simp only [Ipv4Addr.text, List.mem_append, List.mem_cons] at hc
  rcases hc with hc | rfl | hc | rfl | hc | rfl | hc
  · exact hdigits _ c hc
  · decide
  · exact hdigits _ c hc
  · decide
  · exact hdigits _ c hc
  · decide
  · exact hdigits _ c hc

/-- In brackets both see the same address. -/
theorem internalText_brackets
    (h : UrlHost.parseHost domainToAscii ('[' :: (w ++ [']'])) = some host)
    (hinternal : isInternalHost host = true) : InternalText w := by
  have hparse : UrlHost.parseIpv6 w = some host := by
    unfold UrlHost.parseHost at h
    simpa using h
  obtain ⟨ip, htext, rfl⟩ := parseIpv6_eq_some hparse
  exact .inl ⟨.v6 ip, htext, hinternal⟩

/-- What the standard makes of a name that is kept. -/
theorem parseHost_name (hkeeps : KeepsPlainNames domainToAscii)
    (hchars : ∀ c ∈ w, isNameChar c = true)
    (h : UrlHost.parseHost domainToAscii w = some host) :
    (UrlHost.endsInNumber (w.map Char.toLower) = true ∧
      (UrlHost.parseIpv4 (w.map Char.toLower)).map .ipv4 = some host) ∨
    (UrlHost.endsInNumber (w.map Char.toLower) = false ∧ host = .domain (w.map Char.toLower)) := by
  unfold UrlHost.parseHost at h
  split at h
  · exact absurd (hchars '[' List.mem_cons_self) (by decide)
  · rw [percentDecode_name hchars] at h
    split at h
    · cases h
    · rename_i name hname
      rw [hkeeps w hchars name hname] at h
      split_ifs at h with hbad hnumber
      · exact .inl ⟨hnumber, h⟩
      · cases h
        exact .inr ⟨Bool.not_eq_true _ ▸ hnumber, rfl⟩

theorem internalText_ipv4 (hkeeps : KeepsPlainNames domainToAscii) (ip : Ipv4Addr)
    (h : UrlHost.parseHost domainToAscii ip.text = some host)
    (hinternal : isInternalHost host = true) : InternalText ip.text := by
  have hlower : ip.text.map Char.toLower = ip.text := by
    conv_rhs => rw [← List.map_id ip.text]
    exact List.map_congr_left fun c hc => (isNameChar_text ip c hc).2
  have hname := parseHost_name hkeeps (fun c hc => (isNameChar_text ip c hc).1) h
  rw [hlower, endsInNumber_text] at hname
  obtain ⟨address, haddress, hip⟩ := parseIpv4_text ip
  rcases hname with ⟨-, hhost⟩ | ⟨hfalse, -⟩
  · rw [haddress, Option.map_some] at hhost
    cases hhost
    refine .inl ⟨.v4 ip, rfl, ?_⟩
    rwa [isInternalHost, hip] at hinternal
  · cases hfalse

theorem internalText_name (hkeeps : KeepsPlainNames domainToAscii)
    (hchars : ∀ c ∈ w, isNameChar c = true) (hroot : w.getLast? ≠ some '.')
    (hnumber : UrlHost.endsInNumber (w.map Char.toLower) = false)
    (h : UrlHost.parseHost domainToAscii w = some host)
    (hinternal : isInternalHost host = true) : InternalText w := by
  rcases parseHost_name hkeeps hchars h with ⟨hnumber', -⟩ | ⟨-, rfl⟩
  · rw [hnumber] at hnumber'
    cases hnumber'
  · rw [isInternalHost, withoutRootDot_toLower hroot,
      isObviousInternalHostname_toLower] at hinternal
    exact .inr hinternal

end Hosts

section Splitting

/-- Text without a colon and brackets stays on its side of the port. -/
theorem splitPort_append {inside : Bool} {cs : List Char}
    (h : ∀ c ∈ cs, c ≠ '[' ∧ c ≠ ']' ∧ (inside = true ∨ c ≠ ':')) (rest : List Char) :
    UrlHost.splitPort inside (cs ++ rest) =
      (cs ++ (UrlHost.splitPort inside rest).1, (UrlHost.splitPort inside rest).2) := by
  induction cs with
  | nil =>
      rfl
  | cons c cs ih =>
      obtain ⟨hc, hcs⟩ := List.forall_mem_cons.mp h
      obtain ⟨hopen, hclose, hcolon⟩ := hc
      have hstay : ¬ (decide (c = ':') && !inside) = true := by
        rcases hcolon with rfl | hcolon
        · simp
        · simp [hcolon]
      rw [List.cons_append, UrlHost.splitPort, if_neg hstay, if_neg hopen, if_neg hclose, ih hcs]
      rfl

theorem splitPort_port {port : List Char} (h : IsPortText port) :
    (UrlHost.splitPort false port).1 = [] := by
  rcases h with rfl | ⟨digits, rfl, -⟩
  · rfl
  · rfl

theorem splitPort_brackets {w port : List Char} (hw : ∀ c ∈ w, isAddressChar c = true)
    (hport : IsPortText port) :
    (UrlHost.splitPort false ('[' :: (w ++ [']']) ++ port)).1 = '[' :: (w ++ [']']) := by
  have hinside : UrlHost.splitPort true (w ++ ']' :: port) =
      (w ++ (UrlHost.splitPort true (']' :: port)).1,
        (UrlHost.splitPort true (']' :: port)).2) :=
    splitPort_append (fun c hc => ⟨fun h => absurd (h ▸ hw c hc) (by decide),
      fun h => absurd (h ▸ hw c hc) (by decide), .inl rfl⟩) _
  have hclose : (UrlHost.splitPort true (']' :: port)).1 =
      ']' :: (UrlHost.splitPort false port).1 := rfl
  have hopen : UrlHost.splitPort false ('[' :: (w ++ [']']) ++ port) =
      ('[' :: (UrlHost.splitPort true (w ++ ']' :: port)).1,
        (UrlHost.splitPort true (w ++ ']' :: port)).2) := by
    rw [List.cons_append, List.append_assoc]
    rfl
  rw [hopen, hinside, hclose, splitPort_port hport]

theorem hostText_brackets {w port : List Char} (hw : ∀ c ∈ w, isAddressChar c = true) :
    HostText ('[' :: (w ++ [']']) ++ port) w := by
  have hhost : '[' :: (w ++ [']']) ++ port = '[' :: (w ++ ']' :: port) := by simp
  exact .brackets hhost (fun h => absurd (hw _ h) (by decide)) (.inr ⟨port, rfl⟩)

/-- A name and its port. -/
theorem hostText_name {w port : List Char} (hne : w ≠ []) (hw : ∀ c ∈ w, isNameChar c = true)
    (hport : IsPortText port) :
    HostText (w ++ port) w ∧ (UrlHost.splitPort false (w ++ port)).1 = w := by
  have hmark : ∀ d : Char, isNameChar d = false → d ∉ w := fun d hd hmem =>
    isNameChar_ne (hw d hmem) hd rfl
  have hhead : (w ++ port).head? ≠ some '[' := by
    obtain ⟨c, cs, rfl⟩ := List.exists_cons_of_ne_nil hne
    intro h
    exact isNameChar_ne (hw c List.mem_cons_self) (by decide) (Option.some.inj h)
  refine ⟨?_, ?_⟩
  · rcases hport with rfl | ⟨digits, rfl, hdigits⟩
    · rw [List.append_nil] at hhead ⊢
      exact .noPort rfl (hmark ':' (by decide)) hhead
    · refine .port rfl (fun h => ?_) hhead
      exact absurd (hdigits _ h) (by decide)
  · rw [splitPort_append fun c hc => ⟨isNameChar_ne (hw c hc) (by decide),
      isNameChar_ne (hw c hc) (by decide), .inr (isNameChar_ne (hw c hc) (by decide))⟩,
      splitPort_port hport, List.append_nil]

/-- A character that only ends or divides an authority. -/
def IsInner (c : Char) : Prop := endsAuthority c = false ∧ c ≠ '\\' ∧ c ≠ '@'

theorem IsInner.of_isAddressChar {c : Char} (h : isAddressChar c = true) : IsInner c := by
  have hne : ∀ d, isAddressChar d = false → c ≠ d := by
    rintro d hd rfl
    rw [h] at hd
    cases hd
  refine ⟨?_, hne _ (by decide), hne _ (by decide)⟩
  simp [endsAuthority, hne '/' (by decide), hne '?' (by decide), hne '#' (by decide)]

theorem IsInner.of_isNameChar {c : Char} (h : isNameChar c = true) : IsInner c := by
  refine ⟨?_, isNameChar_ne h (by decide), isNameChar_ne h (by decide)⟩
  simp [endsAuthority, isNameChar_ne (d := '/') h (by decide),
    isNameChar_ne (d := '?') h (by decide), isNameChar_ne (d := '#') h (by decide)]

theorem isInner_port {port : List Char} (h : IsPortText port) : ∀ c ∈ port, IsInner c := by
  rcases h with rfl | ⟨digits, rfl, hdigits⟩
  · exact nofun
  · intro c hc
    rcases List.mem_cons.mp hc with rfl | hc
    · exact .of_isAddressChar rfl
    · exact .of_isAddressChar (isAddressChar_of_digit (isRadixDigit_sixteen (hdigits c hc)))

/-- What a plain host with its port has to be for either side. -/
structure SeenAlike (host port w : List Char) : Prop where
  ne_nil : host ≠ []
  text : HostText (host ++ port) w
  split : (UrlHost.splitPort false (host ++ port)).1 = host
  inner : ∀ c ∈ host ++ port, IsInner c
  internal : ∀ {domainToAscii : List UInt8 → Option (List Char)} {h : UrlHost},
    KeepsPlainNames domainToAscii → UrlHost.parseHost domainToAscii host = some h →
      isInternalHost h = true → InternalText w

theorem PlainHost.seenAlike {host port : List Char} (hhost : PlainHost host)
    (hport : IsPortText port) : ∃ w, SeenAlike host port w := by
  have hchars : ∀ {host : List Char}, (∀ c ∈ host, IsInner c) → ∀ c ∈ host ++ port, IsInner c :=
    fun h c hc => (List.mem_append.mp hc).elim (h c) (isInner_port hport c)
  cases hhost with
  | @ipv6 w h =>
      refine ⟨w, List.cons_ne_nil _ _, hostText_brackets h, splitPort_brackets h hport,
        hchars fun c hc => ?_, fun _ => internalText_brackets⟩
      simp only [List.mem_cons, List.mem_append, List.not_mem_nil, or_false] at hc
      rcases hc with rfl | hc | rfl
      · exact ⟨rfl, by decide, by decide⟩
      · exact .of_isAddressChar (h c hc)
      · exact ⟨rfl, by decide, by decide⟩
  | ipv4 ip =>
      have hname : ∀ c ∈ ip.text, isNameChar c = true := fun c hc => (isNameChar_text ip c hc).1
      have hne : ip.text ≠ [] := by
        rw [Ipv4Addr.text]
        exact List.append_ne_nil_of_left_ne_nil Nat.toDigits_ne_nil _
      obtain ⟨htext, hsplit⟩ := hostText_name hne hname hport
      exact ⟨ip.text, hne, htext, hsplit, hchars fun c hc => .of_isNameChar (hname c hc),
        fun hkeeps => internalText_ipv4 hkeeps ip⟩
  | name hne hname hroot hnumber =>
      obtain ⟨htext, hsplit⟩ := hostText_name hne hname hport
      exact ⟨host, hne, htext, hsplit, hchars fun c hc => .of_isNameChar (hname c hc),
        fun hkeeps => internalText_name hkeeps hname hroot hnumber⟩

theorem strip_eq_self {url : List Char} (h : ∀ c ∈ url, 0x20 < c.toNat) :
    UrlHost.strip url = url := by
  have hdrop : ∀ {cs : List Char}, (∀ c ∈ cs, 0x20 < c.toNat) →
      cs.dropWhile (fun c => decide (c.toNat ≤ 0x20)) = cs := by
    intro cs hcs
    cases cs with
    | nil =>
        rfl
    | cons c cs =>
        have hc := hcs c List.mem_cons_self
        exact List.dropWhile_cons_of_neg (by simpa using hc)
  have hreverse : ∀ c ∈ url.reverse, 0x20 < c.toNat := fun c hc => h c (List.mem_reverse.mp hc)
  unfold UrlHost.strip
  dsimp only
  rw [hdrop h, hdrop hreverse, List.reverse_reverse, List.filter_eq_self]
  intro c hc
  have hlt := h c hc
  have hne : ∀ d : Char, d.toNat ≤ 0x20 → c ≠ d := by
    rintro d hd rfl
    omega
  simp [hne '\t' (by decide), hne '\n' (by decide), hne '\r' (by decide)]

theorem behindAt_eq {user host : List Char} (huser : user = [] ∨ ∃ u, user = u ++ ['@'])
    (hat : '@' ∉ host) : UrlHost.behindAt (user ++ host) = host := by
  have htake : ∀ c ∈ host.reverse, decide (c ≠ '@') = true := fun c hc =>
    decide_eq_true fun heq => hat (heq ▸ List.mem_reverse.mp hc)
  unfold UrlHost.behindAt
  rw [List.reverse_append, List.takeWhile_append_of_pos htake]
  rcases huser with rfl | ⟨u, rfl⟩
  · rw [List.reverse_nil, List.takeWhile_nil, List.append_nil, List.reverse_reverse]
  · have hreverse : (u ++ ['@']).reverse = '@' :: u.reverse := by simp
    rw [hreverse, List.takeWhile_cons_of_neg (by simp), List.append_nil, List.reverse_reverse]

/-- The standard finds the host of a plain URL at its place. -/
theorem parseHost_of_ofHttps {domainToAscii : List UInt8 → Option (List Char)} {h : UrlHost}
    {scheme user host port tail w : List Char}
    (hscheme : scheme.map Char.toLower = "https".toList)
    (hprintable : ∀ c ∈ scheme ++ "://".toList ++ (user ++ (host ++ port ++ tail)), 0x20 < c.toNat)
    (hchars : ∀ c ∈ user, endsAuthority c = false ∧ c ≠ '\\')
    (huser : user = [] ∨ ∃ u, user = u ++ ['@']) (hseen : SeenAlike host port w)
    (htail : ∀ c ∈ tail.head?, endsAuthority c = true)
    (hhost : UrlHost.ofHttps domainToAscii
      (scheme ++ "://".toList ++ (user ++ (host ++ port ++ tail))) = some h) :
    UrlHost.parseHost domainToAscii host = some h := by
  have hlength : scheme.length = 5 := by
    have := congrArg List.length hscheme
    simpa using this
  have hauthority : ∀ c ∈ user ++ (host ++ port), endsAuthority c = false ∧ c ≠ '\\' := by
    intro c hc
    rcases List.mem_append.mp hc with hc | hc
    · exact hchars c hc
    · exact ⟨(hseen.inner c hc).1, (hseen.inner c hc).2.1⟩
  have hdrop : (scheme ++ "://".toList ++ (user ++ (host ++ port ++ tail))).drop 6 =
      '/' :: '/' :: (user ++ (host ++ port) ++ tail) := by
    have hsplit : scheme ++ "://".toList ++ (user ++ (host ++ port ++ tail)) =
        (scheme ++ [':']) ++ '/' :: '/' :: (user ++ (host ++ port) ++ tail) := by simp
    rw [hsplit]
    exact List.drop_left' (by simp [hlength])
  have hslashes : ('/' :: '/' :: (user ++ (host ++ port) ++ tail)).dropWhile
      (fun c => c = '/' || c = '\\') = user ++ (host ++ port) ++ tail := by
    obtain ⟨c, cs, hcs⟩ : ∃ c cs, user ++ (host ++ port) = c :: cs := by
      refine List.exists_cons_of_ne_nil ?_
      simp [hseen.ne_nil]
    obtain ⟨hends, hbackslash⟩ := hauthority c (hcs ▸ List.mem_cons_self)
    have hslash : c ≠ '/' := by
      rintro rfl
      cases hends
    rw [List.dropWhile_cons_of_pos (by simp), List.dropWhile_cons_of_pos (by simp), hcs,
      List.cons_append]
    exact List.dropWhile_cons_of_neg (by simp [hslash, hbackslash])
  have htake : (user ++ (host ++ port) ++ tail).takeWhile
      (fun c => !(['/', '\\', '?', '#'].contains c)) = user ++ (host ++ port) := by
    rw [List.takeWhile_append_of_pos]
    · cases tail with
      | nil =>
          rw [List.takeWhile_nil, List.append_nil]
      | cons c tail =>
          have hends := htail c rfl
          simp only [endsAuthority, List.contains_cons, List.contains_nil, Bool.or_false,
            Bool.or_eq_true, beq_iff_eq] at hends
          rw [List.takeWhile_cons_of_neg, List.append_nil]
          rcases hends with rfl | rfl | rfl <;> decide
    · intro c hc
      obtain ⟨hends, hbackslash⟩ := hauthority c hc
      simp only [endsAuthority, List.contains_cons, List.contains_nil, Bool.or_false,
        Bool.or_eq_false_iff, beq_eq_false_iff_ne] at hends
      simp [hends, hbackslash]
  have hat : '@' ∉ host ++ port := fun hmem => (hseen.inner _ hmem).2.2 rfl
  unfold UrlHost.ofHttps at hhost
  rw [strip_eq_self hprintable] at hhost
  dsimp only at hhost
  split_ifs at hhost with hhttps hport
  rw [hdrop, hslashes, htake, behindAt_eq huser hat, hseen.split] at hhost
  exact hhost

/-- **Plain URLs.**  In a URL in a plain spelling no internal host is in disguise. -/
theorem PlainUrl.not_disguised {domainToAscii : List UInt8 → Option (List Char)} {href : String}
    (hkeeps : KeepsPlainNames domainToAscii) (hplain : PlainUrl href.toList) :
    ¬ Disguised domainToAscii href := by
  rintro ⟨rest, w, h, hhttps, hw, hhost, hinternal, htext⟩
  generalize href.toList = url at hplain hhttps hhost
  cases hplain with
  | @intro scheme user host port tail hscheme hprintable hchars huser hhostText hport htail =>
      obtain ⟨w', hseen⟩ := hhostText.seenAlike hport
      have hparse := parseHost_of_ofHttps hscheme hprintable hchars huser hseen htail hhost
      have hrest : rest = user ++ (host ++ port ++ tail) :=
        hhttps.unique ⟨scheme, rfl, hscheme⟩
      have hw' : Written rest w' := by
        refine ⟨user, host ++ port, tail, hrest, fun c hc => ?_, htail, huser, ?_, hseen.text⟩
        · rcases List.mem_append.mp hc with hc | hc
          · exact (hchars c hc).1
          · exact (hseen.inner c hc).1
        · exact fun hmem => (hseen.inner _ hmem).2.2 rfl
      have hsame : w = w' := hw.hostNoPort_eq.symm.trans hw'.hostNoPort_eq
      exact htext (hsame ▸ hseen.internal hkeeps hparse hinternal)

/-- **Accepted URLs.**  The default check is right about a URL if and only if no internal host
is in disguise there; so it is about every URL in a plain spelling. -/
theorem rightAbout_iff (domainToAscii : List UInt8 → Option (List Char)) (href : String) :
    (RightAbout domainToAscii href ↔ ¬ Disguised domainToAscii href) ∧
      (KeepsPlainNames domainToAscii → PlainUrl href.toList → RightAbout domainToAscii href) := by
  refine ⟨rightAbout_iff_not_disguised domainToAscii href, fun hkeeps hplain => ?_⟩
  exact (rightAbout_iff_not_disguised domainToAscii href).mpr (hplain.not_disguised hkeeps)

end Splitting

end PlainUrls

/-- Names of ASCII letters, without punycode. -/
def asciiNames (bytes : List UInt8) : Option (List Char) :=
  if bytes.all (· < 128) then some (bytes.map (fun b => (Char.ofNat b.toNat).toLower)) else none

theorem lt_of_isNameChar {c : Char} (h : isNameChar c = true) : c.toNat < 128 := by
  have hlt : ∀ d : Char, d.val.toNat < 128 → c.val ≤ d.val → c.toNat < 128 :=
    fun d hd hle => Nat.lt_of_le_of_lt (UInt32.le_iff_toNat_le.mp hle) hd
  rcases (Bool.or_eq_true _ _).mp h with hletter | hsign
  · rcases (Bool.or_eq_true _ _).mp hletter with halpha | hdigit
    · rcases (Bool.or_eq_true _ _).mp halpha with hupper | hlower
      · exact hlt 'Z' (by decide) (of_decide_eq_true hupper).2
      · exact hlt 'z' (by decide) (of_decide_eq_true ((Bool.and_eq_true _ _).mp hlower).2)
    · exact hlt '9' (by decide) (of_decide_eq_true ((Bool.and_eq_true _ _).mp hdigit).2)
  · have hmem : c ∈ ['-', '_', '.'] := List.contains_iff_mem.mp hsign
    simp only [List.mem_cons, List.not_mem_nil, or_false] at hmem
    rcases hmem with rfl | rfl | rfl <;> decide

theorem keepsPlainNames_asciiNames : KeepsPlainNames asciiNames := by
  intro name hchars ascii h
  have hbytes : name.flatMap String.utf8EncodeChar = name.map fun c => UInt8.ofNat c.toNat := by
    rw [← List.flatMap_singleton' (name.map _), List.flatMap_map]
    exact List.flatMap_congr fun c hc => utf8EncodeChar_ascii (lt_of_isNameChar (hchars c hc))
  unfold asciiNames at h
  split_ifs at h
  cases h
  rw [hbytes, List.map_map]
  refine List.map_congr_left fun c hc => ?_
  have hlt := lt_of_isNameChar (hchars c hc)
  simp only [Function.comp_apply, UInt8.toNat_ofNat']
  rw [Nat.mod_eq_of_lt (by omega), Char.ofNat_toNat]

/-- URLs of the loopback address and of `localhost` that the default check accepts. -/
def loopbackUrls : List String :=
  ["https://2130706433/", "https://0x7f.1/", "https://0177.0.0.1/", "https://127.0.0.1./",
    "https://127.0.0.1\\@example.com/", "https://%6cocalhost/", "https://localhost./",
    "https:///127.0.0.1/"]

theorem loopbackUrls_accepted : ∀ href ∈ loopbackUrls,
    UrlPolicy.default.check href = .ok () ∧
      (UrlHost.ofHttps asciiNames href.toList).map isInternalHost = some true := by
  decide +kernel

theorem loopbackUrls_not_rightAbout : ¬ ∃ href ∈ loopbackUrls, RightAbout asciiNames href := by
  rintro ⟨href, hmem, hright⟩
  obtain ⟨haccepted, hinternal⟩ := loopbackUrls_accepted href hmem
  obtain ⟨host, hhost, htrue⟩ := Option.map_eq_some_iff.mp hinternal
  rw [hright haccepted host hhost] at htrue
  cases htrue

end OrbitOpenEO
