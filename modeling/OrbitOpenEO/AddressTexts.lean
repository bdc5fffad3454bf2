import OrbitOpenEO.UrlPolicy
import Mathlib.Data.List.TakeWhile

/-!
# The texts of addresses

The parser of `IpAddr` takes its numbers from the front of the text, one after the other.
Here is the grammar of what it accepts, by characters: four decimals for an IPv4 address,
and for an IPv6 address eight groups of hexadecimal digits, of which the last two may be
decimals and a row of zeros may be a double colon.
-/

namespace OrbitOpenEO

open Lib

/-- Four decimal numbers. -/
def Ipv4Addr.text (ip : Ipv4Addr) : List Char :=
  Nat.toDigits 10 ip.octet0.toNat ++ '.' :: (Nat.toDigits 10 ip.octet1.toNat ++
    '.' :: (Nat.toDigits 10 ip.octet2.toNat ++ '.' :: Nat.toDigits 10 ip.octet3.toNat))

/-- The last two groups of an address that ends in an IPv4 address. -/
def Ipv4Addr.groups (ip : Ipv4Addr) : List UInt16 :=
  [fromBeBytes ip.octet0 ip.octet1, fromBeBytes ip.octet2 ip.octet3]

/-- One to four hexadecimal digits. -/
structure GroupText (cs : List Char) (group : UInt16) : Prop where
  ne_nil : cs ≠ []
  length_le : cs.length ≤ 4
  digits : ∀ c ∈ cs, isRadixDigit 16 c = true
  value : UInt16.ofNat (numeral 16 cs) = group

/-- Groups with colons between them, and whether the last two are an IPv4 address. -/
inductive GroupsText : List Char → List UInt16 → Bool → Prop where
  | last {cs : List Char} {group : UInt16} (h : GroupText cs group) : GroupsText cs [group] false
  | ipv4 (ip : Ipv4Addr) : GroupsText ip.text ip.groups true
  | cons {cs rest : List Char} {group : UInt16} {groups : List UInt16} {ipv4 : Bool}
      (h : GroupText cs group) (hrest : GroupsText rest groups ipv4) :
      GroupsText (cs ++ ':' :: rest) (group :: groups) ipv4

/-- Groups, or nothing. -/
def MaybeGroupsText (cs : List Char) (groups : List UInt16) (ipv4 : Bool) : Prop :=
  (cs = [] ∧ groups = [] ∧ ipv4 = false) ∨ GroupsText cs groups ipv4

/-- An IPv6 address: eight groups, or groups before and behind a double colon. -/
inductive Ipv6Text (cs : List Char) (ip : Ipv6Addr) : Prop where
  | full {ipv4 : Bool} (h : GroupsText cs ip.segments ipv4)
  | short {front back : List Char} {head tail : List UInt16} {ipv4 : Bool}
      (hfront : MaybeGroupsText front head false) (hback : MaybeGroupsText back tail ipv4)
      (hlength : head.length + tail.length ≤ 7) (htext : cs = front ++ ':' :: ':' :: back)
      (hsegments :
        ip.segments = head ++ List.replicate (8 - head.length - tail.length) 0 ++ tail)

/-- The text of an address. -/
def IpText (cs : List Char) : IpAddr → Prop
  | .v4 ip => cs = ip.text
  | .v6 ip => Ipv6Text cs ip

section Numbers

variable {radix maxDigits max : Nat} {allowZeroPrefix : Bool}

/-- A number is digits in front of the rest. -/
theorem readNumber_eq_some {cs rest : List Char} {n : Nat}
    (h : readNumber radix maxDigits allowZeroPrefix max cs = some (n, rest)) :
    ∃ digits, digits ≠ [] ∧ (∀ c ∈ digits, isRadixDigit radix c = true) ∧
      digits.length ≤ maxDigits ∧ numeral radix digits = n ∧ n ≤ max ∧
      (allowZeroPrefix = false → digits.head? = some '0' → digits.length = 1) ∧
      cs = digits ++ rest := by
  unfold readNumber at h
  dsimp only at h
  split_ifs at h with hlong hempty hzero hmax
  cases h
  rw [List.isEmpty_iff] at hempty
  refine ⟨cs.takeWhile (isRadixDigit radix), hempty, fun c hc => List.mem_takeWhile_imp hc,
    Nat.le_of_not_lt hlong, rfl, hmax, ?_, List.takeWhile_append_dropWhile.symm⟩
  intro hallow hhead
  have hpos := List.length_pos_iff.mpr hempty
  rw [hallow, hhead] at hzero
  simp only [Bool.not_false, Bool.true_and, beq_self_eq_true, decide_eq_true_eq] at hzero
  omega

/-- Digits end where a character comes that is none. -/
theorem takeWhile_digits {digits rest : List Char}
    (hdigits : ∀ c ∈ digits, isRadixDigit radix c = true)
    (hrest : ∀ c ∈ rest.head?, isRadixDigit radix c = false) :
    (digits ++ rest).takeWhile (isRadixDigit radix) = digits ∧
      (digits ++ rest).dropWhile (isRadixDigit radix) = rest := by
  rw [List.takeWhile_append_of_pos hdigits, List.dropWhile_append_of_pos hdigits]
  cases rest with
  | nil =>
      exact ⟨List.append_nil _, rfl⟩
  | cons c rest =>
      have hc : ¬ isRadixDigit radix c = true := by simpa using hrest c rfl
      rw [List.takeWhile_cons_of_neg hc, List.dropWhile_cons_of_neg hc, List.append_nil]
      exact ⟨rfl, rfl⟩

/-- Digits that are allowed are read. -/
theorem readNumber_append {digits rest : List Char}
    (hdigits : ∀ c ∈ digits, isRadixDigit radix c = true)
    (hrest : ∀ c ∈ rest.head?, isRadixDigit radix c = false) (hlong : digits.length ≤ maxDigits)
    (hne : digits ≠ [])
    (hzero : (!allowZeroPrefix && digits.head? == some '0' && 1 < digits.length) = false)
    (hmax : numeral radix digits ≤ max) :
    readNumber radix maxDigits allowZeroPrefix max (digits ++ rest) =
      some (numeral radix digits, rest) := by
  obtain ⟨htake, hdrop⟩ := takeWhile_digits hdigits hrest
  unfold readNumber
  simp only [htake, hdrop, List.isEmpty_iff]
  rw [if_neg (Nat.not_lt.mpr hlong), if_neg hne, if_neg (by simpa using hzero), if_pos hmax]

/-- Where no digit stands there is no number. -/
theorem readNumber_eq_none {cs : List Char} (h : ∀ c ∈ cs.head?, isRadixDigit radix c = false) :
    readNumber radix maxDigits allowZeroPrefix max cs = none := by
  cases hread : readNumber radix maxDigits allowZeroPrefix max cs with
  | none =>
      rfl
  | some p =>
      obtain ⟨digits, hne, hall, -, -, -, -, rfl⟩ := readNumber_eq_some hread
      obtain ⟨c, digits, rfl⟩ := List.exists_cons_of_ne_nil hne
      have hdigit := hall c List.mem_cons_self
      rw [h c rfl] at hdigit
      cases hdigit

theorem readGivenChar_eq_some {c : Char} {cs rest : List Char}
    (h : readGivenChar c cs = some rest) : cs = c :: rest := by
  cases cs with
  | nil =>
      cases h
  | cons c' cs =>
      rw [readGivenChar] at h
      split_ifs at h with hc
      cases h
      rw [hc]

/-- The separator in front of every item but the first. -/
def separatorBefore (sep : Char) (index : Nat) : List Char := if 0 < index then [sep] else []

theorem readSeparator_append {α : Type} (sep : Char) (index : Nat)
    (inner : List Char → Option (α × List Char)) (cs : List Char) :
    readSeparator sep index inner (separatorBefore sep index ++ cs) = inner cs := by
  unfold readSeparator separatorBefore
  split_ifs
  · rw [List.singleton_append, readGivenChar, if_pos rfl, Option.bind_some]
  · rfl

theorem readSeparator_eq_some {α : Type} {sep : Char} {index : Nat}
    {inner : List Char → Option (α × List Char)} {cs : List Char} {r : α × List Char}
    (h : readSeparator sep index inner cs = some r) :
    ∃ cs', cs = separatorBefore sep index ++ cs' ∧ inner cs' = some r := by
  unfold readSeparator at h
  unfold separatorBefore
  split_ifs at h ⊢ with hindex
  · obtain ⟨cs', hsep, hinner⟩ := Option.bind_eq_some_iff.mp h
    exact ⟨cs', readGivenChar_eq_some hsep, hinner⟩
  · exact ⟨cs, rfl, h⟩

end Numbers

section Ipv4

theorem leadingZero_toDigits : ∀ n < 256,
    ((Nat.toDigits 10 n).head? == some '0' && decide (1 < (Nat.toDigits 10 n).length)) = false := by
  decide +kernel

/-- A number of an IPv4 address is read as far as the next character that is no digit. -/
theorem readNumber_octet (octet : UInt8) {rest : List Char}
    (hrest : ∀ c ∈ rest.head?, isRadixDigit 10 c = false) :
    readNumber 10 3 false 255 (Nat.toDigits 10 octet.toNat ++ rest) = some (octet.toNat, rest) := by
  have hlt : octet.toNat < 256 := octet.toNat_lt
  rw [readNumber_append]
  · rw [numeral_toDigits]
  · intro c hc
    exact isRadixDigit_ten_iff.mpr (Nat.isDigit_of_mem_toDigits (by decide) (by decide) hc)
  · exact hrest
  · exact (Nat.length_toDigits_le_iff (by decide) (by decide)).mpr (by omega)
  · exact Nat.toDigits_ne_nil
  · simpa using leadingZero_toDigits _ hlt
  · rw [numeral_toDigits]
    omega

theorem readIpv4Addr_append (ip : Ipv4Addr) {rest : List Char}
    (hrest : ∀ c ∈ rest.head?, isRadixDigit 10 c = false) :
    readIpv4Addr (ip.text ++ rest) = some (ip, rest) := by
  have hdot : ∀ rest : List Char, ∀ c ∈ ('.' :: rest).head?, isRadixDigit 10 c = false := by
    rintro rest _ ⟨⟩
    rfl
  unfold readIpv4Addr readOctet readSeparator Ipv4Addr.text
  simp only [List.append_assoc, List.cons_append, Nat.lt_irrefl, Nat.zero_lt_succ, if_false,
    if_true, readNumber_octet _ (hdot _), readNumber_octet _ hrest, readGivenChar,
    Option.bind_some, Option.map_some, UInt8.ofNat_toNat, bind]

theorem readIpv4Addr_text (ip : Ipv4Addr) : readIpv4Addr ip.text = some (ip, []) := by
  have hnil : ∀ c ∈ ([] : List Char).head?, isRadixDigit 10 c = false := nofun
  have hread := readIpv4Addr_append ip hnil
  rwa [List.append_nil] at hread

/-- The digits of a number of an IPv4 address. -/
theorem readOctet_eq_some {index : Nat} {cs rest : List Char} {octet : UInt8}
    (h : readOctet index cs = some (octet, rest)) :
    cs = separatorBefore '.' index ++ (Nat.toDigits 10 octet.toNat ++ rest) := by
  obtain ⟨⟨n, rest'⟩, hread, heq⟩ := Option.map_eq_some_iff.mp h
  cases heq
  obtain ⟨cs', rfl, hnumber⟩ := readSeparator_eq_some hread
  obtain ⟨digits, hne, hall, -, rfl, hmax, hzero, rfl⟩ := readNumber_eq_some hnumber
  have hn : (UInt8.ofNat (numeral 10 digits)).toNat = numeral 10 digits := by
    rw [UInt8.toNat_ofNat', Nat.mod_eq_of_lt (by omega)]
  rw [hn, toDigits_numeral digits hne (fun c hc => isRadixDigit_ten_iff.mp (hall c hc))
    (hzero rfl)]

/-- What is read as an IPv4 address is its text. -/
theorem readIpv4Addr_eq_some {cs : List Char} {ip : Ipv4Addr} {rest : List Char}
    (h : readIpv4Addr cs = some (ip, rest)) : cs = ip.text ++ rest := by
  unfold readIpv4Addr at h
  simp only [bind, Option.bind_eq_some_iff] at h
  obtain ⟨⟨o₀, cs₀⟩, h₀, ⟨o₁, cs₁⟩, h₁, ⟨o₂, cs₂⟩, h₂, ⟨o₃, cs₃⟩, h₃, heq⟩ := h
  cases heq
  dsimp only at h₁ h₂ h₃ ⊢
  rw [readOctet_eq_some h₀, readOctet_eq_some h₁, readOctet_eq_some h₂, readOctet_eq_some h₃]
  simp [Ipv4Addr.text, separatorBefore]

end Ipv4

section Ipv6

/-- A character that can stand behind a group. -/
def EndsGroup (rest : List Char) : Prop :=
  ∀ c ∈ rest.head?, isRadixDigit 16 c = false ∧ c ≠ '.'

theorem isRadixDigit_sixteen {c : Char} (h : c.isDigit = true) :
    isRadixDigit 16 c = true := by
  have hten := toDigit_ten_of_isDigit h
  unfold isRadixDigit toDigit at *
  rw [if_pos h, Option.filter_some] at hten ⊢
  split_ifs at hten with hlt
  rw [decide_eq_true_eq] at hlt
  rw [if_pos (decide_eq_true (by omega))]
  rfl

/-- A group is no beginning of an IPv4 address. -/
theorem readIpv4Addr_group {cs rest : List Char} (hcs : ∀ c ∈ cs, isRadixDigit 16 c = true)
    (hrest : EndsGroup rest) : readIpv4Addr (cs ++ rest) = none := by
  cases hread : readIpv4Addr (cs ++ rest) with
  | none =>
      rfl
  | some p =>
      obtain ⟨ip, rest'⟩ := p
      have htext := readIpv4Addr_eq_some hread
      rw [Ipv4Addr.text, List.append_assoc, List.cons_append] at htext
      have hdrop := congrArg (List.dropWhile (isRadixDigit 16)) htext
      rw [(takeWhile_digits hcs fun c hc => (hrest c hc).1).2, (takeWhile_digits _ _).2] at hdrop
      · exact absurd rfl (hrest '.' (by rw [hdrop]; rfl)).2
      · intro c hc
        exact isRadixDigit_sixteen (Nat.isDigit_of_mem_toDigits (by decide) (by decide) hc)
      · rintro _ ⟨⟩
        rfl

theorem readIpv4Addr_eq_none {rest : List Char} (hrest : EndsGroup rest) :
    readIpv4Addr rest = none :=
  readIpv4Addr_group (List.forall_mem_nil _) hrest

theorem readNumber_group {cs rest : List Char} {group : UInt16} (h : GroupText cs group)
    (hrest : EndsGroup rest) :
    readNumber 16 4 true 65535 (cs ++ rest) = some (numeral 16 cs, rest) := by
  refine readNumber_append h.digits (fun c hc => (hrest c hc).1) h.length_le h.ne_nil rfl ?_
  have hlt : numeral 16 cs < 16 ^ cs.length := numeral_lt h.digits
  have hpow : 16 ^ cs.length ≤ 16 ^ 4 := Nat.pow_le_pow_right (by decide) h.length_le
  omega

/-- Where the groups end: at the end, or at a double colon. -/
def StopsGroups (rest : List Char) : Prop := rest = [] ∨ ∃ back, rest = ':' :: ':' :: back

theorem StopsGroups.endsGroup {rest : List Char} (h : StopsGroups rest) : EndsGroup rest := by
  rcases h with rfl | ⟨back, rfl⟩
  · rintro _ ⟨⟩
  · rintro _ ⟨⟩
    exact ⟨rfl, by decide⟩

theorem endsGroup_colon (rest : List Char) : EndsGroup (':' :: rest) := by
  rintro _ ⟨⟩
  exact ⟨rfl, by decide⟩

/-- What is read are groups in front of the rest. -/
theorem readGroups_spec (left index : Nat) (cs : List Char) :
    readGroups left index cs = ([], false, cs) ∨
      ∃ text, cs = separatorBefore ':' index ++ (text ++ (readGroups left index cs).2.2) ∧
        GroupsText text (readGroups left index cs).1 (readGroups left index cs).2.1 := by
  induction left generalizing index cs with
  | zero =>
      exact .inl rfl
  | succ left ih =>
      rw [readGroups]
      split
      · rename_i ip rest hread
        split_ifs at hread with hleft
        obtain ⟨cs', rfl, hip⟩ := readSeparator_eq_some hread
        exact .inr ⟨ip.text, by rw [readIpv4Addr_eq_some hip], .ipv4 ip⟩
      · split
        · rename_i group rest hread
          obtain ⟨cs', rfl, hnumber⟩ := readSeparator_eq_some hread
          obtain ⟨digits, hne, hall, hlength, rfl, -, -, rfl⟩ := readNumber_eq_some hnumber
          have hgroup : GroupText digits (UInt16.ofNat (numeral 16 digits)) :=
            ⟨hne, hlength, hall, rfl⟩
          right
          rcases ih (index + 1) rest with hstop | ⟨text, hrest, htext⟩
          · rw [hstop]
            exact ⟨digits, rfl, .last hgroup⟩
          · refine ⟨digits ++ ':' :: text, ?_, .cons hgroup htext⟩
            conv_lhs => rw [hrest]
            simp [separatorBefore]
        · exact .inl rfl

/-- Where groups end there is no further one. -/
theorem readGroups_stop (left index : Nat) {rest : List Char} (h : StopsGroups rest) :
    readGroups left (index + 1) rest = ([], false, rest) := by
  cases left with
  | zero =>
      rfl
  | succ left =>
      have hipv4 : readIpv4Addr (':' :: rest.tail.tail) = none :=
        readIpv4Addr_eq_none (endsGroup_colon _)
      have hnumber : readNumber 16 4 true 65535 (':' :: rest.tail.tail) = none :=
        readNumber_eq_none fun c hc => (endsGroup_colon _ c hc).1
      rw [readGroups]
      rcases h with rfl | ⟨back, rfl⟩
      · simp [readSeparator, readGivenChar]
      · rw [List.tail_cons, List.tail_cons] at hipv4 hnumber
        simp [readSeparator, readGivenChar, hipv4, hnumber]

/-- Groups are read as far as they go. -/
theorem readGroups_append {text : List Char} {groups : List UInt16} {ipv4 : Bool}
    (h : GroupsText text groups ipv4) {left : Nat} (index : Nat) {rest : List Char}
    (hleft : groups.length ≤ left) (hrest : StopsGroups rest) :
    readGroups left index (separatorBefore ':' index ++ (text ++ rest)) = (groups, ipv4, rest) := by
  induction h generalizing left index with
  | @last cs group hgroup =>
      obtain ⟨left, rfl⟩ := Nat.exists_eq_add_of_le' hleft
      rw [List.length_singleton, readGroups]
      simp only [readSeparator_append, readIpv4Addr_group hgroup.digits hrest.endsGroup, ite_self,
        readNumber_group hgroup hrest.endsGroup, readGroups_stop _ _ hrest, hgroup.value]
  | ipv4 ip =>
      obtain ⟨left, rfl⟩ := Nat.exists_eq_add_of_le' hleft
      have hip : readIpv4Addr (ip.text ++ rest) = some (ip, rest) := by
        refine readIpv4Addr_append ip fun c hc => ?_
        rw [Bool.eq_false_iff]
        intro hdigit
        have hhex := isRadixDigit_sixteen (isRadixDigit_ten_iff.mp hdigit)
        rw [(hrest.endsGroup c hc).1] at hhex
        cases hhex
      have hlength : ip.groups.length = 1 + 1 := rfl
      rw [hlength, ← Nat.add_assoc, readGroups]
      simp only [readSeparator_append, hip, Nat.succ_pos, if_true]
      rfl
  | @cons cs rest' group groups ipv4 hgroup _ ih =>
      rw [List.length_cons] at hleft
      obtain ⟨left, rfl⟩ : ∃ n, left = n + 1 := ⟨left - 1, by omega⟩
      have hends := endsGroup_colon (rest' ++ rest)
      have hih := ih (index + 1) (Nat.le_of_succ_le_succ hleft)
      rw [List.append_assoc, List.cons_append, readGroups]
      simp only [readSeparator_append, readIpv4Addr_group hgroup.digits hends, ite_self,
        readNumber_group hgroup hends]
      simp only [separatorBefore, Nat.succ_pos, if_true, List.singleton_append] at hih
      simp only [hih, hgroup.value]

theorem readGroups_maybe {text : List Char} {groups : List UInt16} {ipv4 : Bool}
    (h : MaybeGroupsText text groups ipv4) {left : Nat} {rest : List Char}
    (hleft : groups.length ≤ left) (hrest : StopsGroups rest) :
    readGroups left 0 (text ++ rest) = (groups, ipv4, rest) := by
  rcases h with ⟨rfl, rfl, rfl⟩ | h
  · cases left with
    | zero =>
        rfl
    | succ left =>
        have hipv4 : readIpv4Addr rest = none :=
          readIpv4Addr_eq_none hrest.endsGroup
        have hnumber : readNumber 16 4 true 65535 rest = none :=
          readNumber_eq_none fun c hc => (hrest.endsGroup c hc).1
        rw [List.nil_append, readGroups]
        simp [readSeparator, hipv4, hnumber]
  · exact readGroups_append h 0 hleft hrest

theorem maybeGroupsText_readGroups (left : Nat) (cs : List Char) :
    ∃ text, cs = text ++ (readGroups left 0 cs).2.2 ∧
      MaybeGroupsText text (readGroups left 0 cs).1 (readGroups left 0 cs).2.1 := by
  rcases readGroups_spec left 0 cs with h | ⟨text, hcs, htext⟩
  · rw [h]
    exact ⟨[], rfl, .inl ⟨rfl, rfl, rfl⟩⟩
  · exact ⟨text, hcs, .inr htext⟩

/-- The reader of IPv6 addresses takes the texts of the grammar. -/
theorem readIpv6Addr_eq_some_iff {cs : List Char} {ip : Ipv6Addr} :
    readIpv6Addr cs = some (ip, []) ↔ Ipv6Text cs ip := by
  constructor
  · intro h
    obtain ⟨front, hcs, hfront⟩ := maybeGroupsText_readGroups 8 cs
    unfold readIpv6Addr at h
    dsimp only at h
    split_ifs at h with height hipv4
    · obtain ⟨rfl, hrest⟩ := Prod.mk.inj (Option.some.inj h)
      rw [hrest, List.append_nil] at hcs
      subst hcs
      rcases hfront with ⟨-, hnil, -⟩ | hfront
      · rw [hnil] at height
        cases height
      · exact .full hfront
    · simp only [bind, Option.bind_eq_some_iff] at h
      obtain ⟨rest₁, hfirst, rest₂, hsecond, hsome⟩ := h
      obtain ⟨rfl, hrest⟩ := Prod.mk.inj (Option.some.inj hsome)
      obtain ⟨back, hback, htail⟩ :=
        maybeGroupsText_readGroups (8 - ((readGroups 8 0 cs).1.length + 1)) rest₂
      rw [hrest, List.append_nil] at hback
      subst hback
      rw [readGivenChar_eq_some hfirst, readGivenChar_eq_some hsecond] at hcs
      rw [Bool.not_eq_true] at hipv4
      rw [hipv4] at hfront
      have hle := length_readGroups_le (8 - ((readGroups 8 0 cs).1.length + 1)) 0 rest₂
      have hle8 := length_readGroups_le 8 0 cs
      exact .short hfront htail (by omega) hcs rfl
  · intro h
    unfold readIpv6Addr
    cases h with
    | full h =>
        have hread := readGroups_append h 0 ip.length_eq.le (.inl rfl)
        rw [separatorBefore, if_neg (Nat.lt_irrefl 0), List.nil_append, List.append_nil] at hread
        simp only [hread, ip.length_eq, dite_true]
    | @short front back head tail ipv4 hfront hback hlength htext hsegments =>
        have hhead : readGroups 8 0 (front ++ ':' :: ':' :: back) =
            (head, false, ':' :: ':' :: back) :=
          readGroups_maybe hfront (by omega) (.inr ⟨back, rfl⟩)
        have htail : readGroups (8 - (head.length + 1)) 0 (back ++ []) = (tail, ipv4, []) :=
          readGroups_maybe hback (by omega) (.inl rfl)
        rw [List.append_nil] at htail
        rw [← htext] at hhead
        have hne : head.length ≠ 8 := by omega
        simp only [hhead, hne, dite_false, Bool.false_eq_true, if_false, readGivenChar, if_true,
          Option.bind_some, bind, htail, ← hsegments]

/-- What begins with an IPv4 address is no IPv6 address. -/
theorem readIpv6Addr_of_ipv4 {cs : List Char} {r : Ipv4Addr × List Char}
    (h : readIpv4Addr cs = some r) : readIpv6Addr cs = none := by
  have hread : readGroups 8 0 cs = (r.1.groups, true, r.2) := by
    rw [readGroups]
    simp only [readSeparator, Nat.lt_irrefl, if_false, h]
    rfl
  have hlength : r.1.groups.length ≠ 8 := by
    change 2 ≠ 8
    decide
  unfold readIpv6Addr
  simp only [hread, hlength, dite_false, if_true]

/-- **The grammar of addresses.**  The parser takes a text as an address if and only if it
is a text of that address. -/
theorem parseIpAddr_eq_some_iff {cs : List Char} {ip : IpAddr} :
    parseIpAddr cs = some ip ↔ IpText cs ip := by
  unfold parseIpAddr
  cases hipv4 : readIpv4Addr cs with
  | some r =>
      obtain ⟨ip₄, rest⟩ := r
      have hcs := readIpv4Addr_eq_some hipv4
      cases ip with
      | v4 ip =>
          simp only [IpText, List.isEmpty_iff]
          constructor
          · intro h
            split_ifs at h with hrest
            cases h
            rw [hcs, hrest, List.append_nil]
          · intro h
            have hread := readIpv4Addr_text ip
            rw [← h, hipv4] at hread
            cases hread
            rfl
      | v6 ip =>
          have hnone := readIpv6Addr_of_ipv4 hipv4
          simp only [IpText, ← readIpv6Addr_eq_some_iff, hnone]
          split_ifs <;> simp
  | none =>
      cases ip with
      | v4 ip =>
          have hne : cs ≠ ip.text := by
            rintro rfl
            have hread := readIpv4Addr_text ip
            rw [hipv4] at hread
            cases hread
          simp only [IpText, hne, iff_false]
          split
          · split_ifs <;> simp
          · simp
      | v6 ip =>
          simp only [IpText, ← readIpv6Addr_eq_some_iff]
          cases readIpv6Addr cs with
          | none =>
              simp
          | some r =>
              obtain ⟨ip₆, rest⟩ := r
              simp only [List.isEmpty_iff]
              constructor
              · intro h
                split_ifs at h with hrest
                cases h
                rw [hrest]
              · intro h
                cases h
                rfl

end Ipv6

section Characters

/-- A character of an address. -/
def isAddressChar (c : Char) : Bool := isRadixDigit 16 c || c == ':' || c == '.'

theorem isAddressChar_of_digit {c : Char} (h : isRadixDigit 16 c = true) :
    isAddressChar c = true := by
  rw [isAddressChar, h]
  rfl

theorem Ipv4Addr.isAddressChar_text (ip : Ipv4Addr) : ∀ c ∈ ip.text, isAddressChar c = true := by
  have hdigits : ∀ n c, c ∈ Nat.toDigits 10 n → isAddressChar c = true := fun n c hc =>
    isAddressChar_of_digit
      (isRadixDigit_sixteen (Nat.isDigit_of_mem_toDigits (by decide) (by decide) hc))
  intro c hc
  simp only [Ipv4Addr.text, List.mem_append, List.mem_cons] at hc
  rcases hc with hc | rfl | hc | rfl | hc | rfl | hc
  · exact hdigits _ c hc
  · rfl
  · exact hdigits _ c hc
  · rfl
  · exact hdigits _ c hc
  · rfl
  · exact hdigits _ c hc

theorem GroupsText.isAddressChar {cs : List Char} {groups : List UInt16} {ipv4 : Bool}
    (h : GroupsText cs groups ipv4) : ∀ c ∈ cs, isAddressChar c = true := by
  induction h with
  | last h =>
      exact fun c hc => isAddressChar_of_digit (h.digits c hc)
  | ipv4 ip =>
      exact ip.isAddressChar_text
  | cons h _ ih =>
      intro c hc
      rcases List.mem_append.mp hc with hc | hc
      · exact isAddressChar_of_digit (h.digits c hc)
      · rcases List.mem_cons.mp hc with rfl | hc
        · rfl
        · exact ih c hc

theorem MaybeGroupsText.isAddressChar {cs : List Char} {groups : List UInt16} {ipv4 : Bool}
    (h : MaybeGroupsText cs groups ipv4) : ∀ c ∈ cs, isAddressChar c = true := by
  rcases h with ⟨rfl, -, -⟩ | h
  · exact nofun
  · exact h.isAddressChar

/-- An address has no other characters. -/
theorem IpText.isAddressChar {cs : List Char} {ip : IpAddr} (h : IpText cs ip) :
    ∀ c ∈ cs, isAddressChar c = true := by
  cases ip with
  | v4 ip =>
      cases h
      exact ip.isAddressChar_text
  | v6 ip =>
      cases h with
      | full h =>
          exact h.isAddressChar
      | short hfront hback _ htext _ =>
          intro c hc
          rw [htext] at hc
          rcases List.mem_append.mp hc with hc | hc
          · exact hfront.isAddressChar c hc
          · rcases List.mem_cons.mp hc with rfl | hc
            · rfl
            · rcases List.mem_cons.mp hc with rfl | hc
              · rfl
              · exact hback.isAddressChar c hc

end Characters

end OrbitOpenEO
