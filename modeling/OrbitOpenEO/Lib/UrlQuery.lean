import OrbitOpenEO.Lib.UrlHost
import OrbitOpenEO.Lib.Utf8
import Mathlib.Data.List.TakeWhile

/-!
# The query of a URL

The parameters that a server reads out of a URL: what stands between the first question mark
and the fragment, cut at `&` and `=`, a plus sign for a space, percent-decoded.

Percent-encoded bytes are read back (`decode_percentEncode`), and what is put behind a URL is
read after the parameters of the URL itself, unless it has fallen into the fragment
(`params_addQuery`).  The host stays (`ofHttps_addQuery`).
-/

namespace OrbitOpenEO
namespace Lib
namespace UrlQuery

/-- A hexadecimal digit. -/
def upperHex (n : Nat) : Char := (Nat.digitChar n).toUpper

/-- A byte that stands for itself, or its number. -/
def percentEncodeByte (keep : UInt8 → Bool) (b : UInt8) : List Char :=
  if keep b then [Char.ofNat b.toNat]
  else ['%', upperHex (b.toNat / 16), upperHex (b.toNat % 16)]

def percentEncode (keep : UInt8 → Bool) (bytes : List UInt8) : List Char :=
  bytes.flatMap (percentEncodeByte keep)

/-- The bytes that a name or a value stands for. -/
def decode (text : List Char) : List UInt8 :=
  UrlHost.percentDecode ((utf8 text).map fun b => if b = 0x2B then 0x20 else b)

section Encoding

/-- The bytes kept are ASCII, and none means anything else. -/
def KeepsPlain (keep : UInt8 → Bool) : Prop :=
  ∀ b, keep b = true → b.toNat < 128 ∧ b ≠ 0x25 ∧ b ≠ 0x2B

theorem percentDecode_cons {b : UInt8} (hb : b ≠ 0x25) (bytes : List UInt8) :
    UrlHost.percentDecode (b :: bytes) = b :: UrlHost.percentDecode bytes := by
  rw [UrlHost.percentDecode]
  rintro high low rest rfl
  exact absurd rfl hb

theorem upperHex_ascii : ∀ d < 16, (upperHex d).toNat < 128 ∧
    UInt8.ofNat (upperHex d).toNat ≠ 0x2B ∧
    toDigit 16 (Char.ofNat (UInt8.ofNat (upperHex d).toNat).toNat) = some d := by
  decide

theorem utf8_upperHex_cons {d : Nat} (hd : d < 16) (cs : List Char) :
    utf8 (upperHex d :: cs) = UInt8.ofNat (upperHex d).toNat :: utf8 cs := by
  rw [utf8_cons, utf8EncodeChar_ascii (upperHex_ascii d hd).1]
  rfl

/-- A byte in front of other text. -/
theorem decode_percentEncodeByte {keep : UInt8 → Bool} (hkeep : KeepsPlain keep) (b : UInt8)
    (text : List Char) : decode (percentEncodeByte keep b ++ text) = b :: decode text := by
  unfold decode percentEncodeByte
  split
  · rename_i hb
    obtain ⟨hlt, hpercent, hplus⟩ := hkeep b hb
    have hcode : (Char.ofNat b.toNat).toNat = b.toNat := by
      rw [Char.ofNat, dif_pos (.inl (hlt.trans (by decide)))]
      rfl
    have hbyte : String.utf8EncodeChar (Char.ofNat b.toNat) = [b] := by
      rw [utf8EncodeChar_ascii (by rw [hcode]; exact hlt), hcode, UInt8.ofNat_toNat]
    rw [List.singleton_append, utf8_cons, hbyte, List.singleton_append, List.map_cons,
      if_neg hplus, percentDecode_cons hpercent]
  · have hhigh : b.toNat / 16 < 16 := by
      have := b.toNat_lt
      omega
    have hlow : b.toNat % 16 < 16 := Nat.mod_lt _ (by decide)
    obtain ⟨-, hhigh', hhigh''⟩ := upperHex_ascii _ hhigh
    obtain ⟨-, hlow', hlow''⟩ := upperHex_ascii _ hlow
    have hbytes : utf8 ('%' :: upperHex (b.toNat / 16) :: upperHex (b.toNat % 16) :: text) =
        0x25 :: UInt8.ofNat (upperHex (b.toNat / 16)).toNat ::
          UInt8.ofNat (upperHex (b.toNat % 16)).toNat :: utf8 text := by
      rw [utf8_cons, utf8_upperHex_cons hhigh, utf8_upperHex_cons hlow]
      rfl
    rw [List.cons_append, List.cons_append, List.singleton_append, hbytes, List.map_cons,
      List.map_cons, List.map_cons, if_neg (by decide), if_neg hhigh', if_neg hlow',
      UrlHost.percentDecode, hhigh'', hlow'']
    simp only [Nat.div_add_mod, UInt8.ofNat_toNat]

/-- Percent-encoded bytes are read back. -/
theorem decode_percentEncode {keep : UInt8 → Bool} (hkeep : KeepsPlain keep) (bytes : List UInt8) :
    decode (percentEncode keep bytes) = bytes := by
  induction bytes with
  | nil => rfl
  | cons b bytes ih =>
      unfold percentEncode at ih ⊢
      rw [List.flatMap_cons, decode_percentEncodeByte hkeep, ih]

/-- What an encoded text consists of. -/
theorem of_mem_percentEncode {keep : UInt8 → Bool} {bytes : List UInt8} {c : Char}
    (h : c ∈ percentEncode keep bytes) :
    c = '%' ∨ (∃ d < 16, c = upperHex d) ∨ ∃ b, keep b = true ∧ c = Char.ofNat b.toNat := by
  obtain ⟨b, -, hc⟩ := List.mem_flatMap.mp h
  unfold percentEncodeByte at hc
  split at hc
  · rename_i hb
    exact .inr (.inr ⟨b, hb, List.mem_singleton.mp hc⟩)
  · have := b.toNat_lt
    rcases List.mem_cons.mp hc with rfl | hc
    · exact .inl rfl
    · rcases List.mem_cons.mp hc with rfl | hc
      · exact .inr (.inl ⟨_, by omega, rfl⟩)
      · exact .inr (.inl ⟨_, by omega, List.mem_singleton.mp hc⟩)

end Encoding

/-- A URL in front of its fragment. -/
def resource (url : List Char) : List Char := url.takeWhile (· ≠ '#')

/-- What stands behind the first question mark. -/
def query (url : List Char) : List Char := ((resource url).dropWhile (· ≠ '?')).drop 1

/-- A name and its value. -/
def readPair (text : List Char) : List UInt8 × List UInt8 :=
  (decode (text.takeWhile (· ≠ '=')), decode ((text.dropWhile (· ≠ '=')).drop 1))

def readPairs (text : List Char) : List (List UInt8 × List UInt8) :=
  ((text.splitOn '&').filter (· ≠ [])).map readPair

/-- The parameters of a URL. -/
def params (url : List Char) : List (List UInt8 × List UInt8) := readPairs (query url)

/-- A text is put behind a URL, as more of its query. -/
def addQuery (url text : List Char) : List Char :=
  url ++ (if '?' ∈ url then '&' else '?') :: text

section Params

variable {url text : List Char}

@[simp] theorem readPairs_nil : readPairs [] = [] := rfl

theorem readPairs_append (left right : List Char) :
    readPairs (left ++ '&' :: right) = readPairs left ++ readPairs right := by
  unfold readPairs
  rw [List.splitOn_append_cons_self, List.filter_append, List.map_append]

/-- One name with its value. -/
theorem readPairs_pair {name value : List Char} (hname : '&' ∉ name) (heq : '=' ∉ name)
    (hvalue : '&' ∉ value) : readPairs (name ++ '=' :: value) = [(decode name, decode value)] := by
  have hsplit : (name ++ '=' :: value).splitOn '&' = [name ++ '=' :: value] := by
    refine List.splitOn_eq_singleton fun hmem => ?_
    rcases List.mem_append.mp hmem with hmem | hmem
    · exact hname hmem
    · rcases List.mem_cons.mp hmem with hmem | hmem
      · exact absurd hmem (by decide)
      · exact hvalue hmem
  have hall : ∀ c ∈ name, decide (c ≠ '=') = true := by
    intro c hc
    rw [decide_eq_true_eq]
    rintro rfl
    exact heq hc
  have htake : (name ++ '=' :: value).takeWhile (· ≠ '=') = name := by
    rw [List.takeWhile_append_of_pos hall, List.takeWhile_cons_of_neg (by decide), List.append_nil]
  have hdrop : (name ++ '=' :: value).dropWhile (· ≠ '=') = '=' :: value := by
    rw [List.dropWhile_append_of_pos hall, List.dropWhile_cons_of_neg (by decide)]
  unfold readPairs
  rw [hsplit, List.filter_cons_of_pos (by simp), List.filter_nil, List.map_singleton, readPair,
    htake, hdrop, List.drop_succ_cons, List.drop_zero]

theorem takeWhile_append_of_mem {c : Char} {cs : List Char} (h : c ∈ cs) (more : List Char) :
    (cs ++ more).takeWhile (· ≠ c) = cs.takeWhile (· ≠ c) := by
  rw [List.takeWhile_append, if_neg]
  intro hlength
  have hall := List.takeWhile_eq_self_iff.mp
    ((List.takeWhile_prefix _).eq_of_length hlength) c h
  simp at hall

theorem takeWhile_append_of_notMem {c : Char} {cs : List Char} (h : c ∉ cs) (more : List Char) :
    (cs ++ more).takeWhile (· ≠ c) = cs ++ more.takeWhile (· ≠ c) := by
  refine List.takeWhile_append_of_pos fun d hd => ?_
  rw [decide_eq_true_eq]
  rintro rfl
  exact h hd

theorem dropWhile_eq_cons {c : Char} {cs : List Char} (h : c ∈ cs) :
    ∃ rest, cs.dropWhile (· ≠ c) = c :: rest := by
  induction cs with
  | nil => cases h
  | cons d cs ih =>
      by_cases hd : d = c
      · subst hd
        exact ⟨cs, List.dropWhile_cons_of_neg (by simp)⟩
      · rw [List.dropWhile_cons_of_pos (by simpa using hd)]
        exact ih ((List.mem_cons.mp h).resolve_left (Ne.symm hd))

theorem dropWhile_eq_nil {c : Char} {cs : List Char} (h : c ∉ cs) :
    cs.dropWhile (· ≠ c) = [] := by
  refine List.dropWhile_eq_nil_iff.mpr fun d hd => ?_
  rw [decide_eq_true_eq]
  rintro rfl
  exact h hd

/-- The parameters of the URL come first, then those of the text, unless a fragment has
swallowed it. -/
theorem params_addQuery (url text : List Char) :
    params (addQuery url text) =
      if '#' ∈ url then params url else params url ++ readPairs (text.takeWhile (· ≠ '#')) := by
  unfold params addQuery query resource
  by_cases hfragment : '#' ∈ url
  · rw [if_pos hfragment, takeWhile_append_of_mem hfragment]
  · rw [if_neg hfragment]
    have hself : url.takeWhile (· ≠ '#') = url := by
      simpa using takeWhile_append_of_notMem hfragment []
    rw [takeWhile_append_of_notMem hfragment, hself]
    by_cases hquery : '?' ∈ url
    · obtain ⟨rest, hrest⟩ := dropWhile_eq_cons hquery
      rw [if_pos hquery, List.takeWhile_cons_of_pos (by decide), List.dropWhile_append, hrest]
      simp only [List.isEmpty_cons, Bool.false_eq_true, if_false, List.cons_append,
        List.drop_succ_cons, List.drop_zero]
      exact readPairs_append _ _
    · rw [if_neg hquery, List.takeWhile_cons_of_pos (by decide), List.dropWhile_append,
        dropWhile_eq_nil hquery, List.dropWhile_cons_of_neg (by decide)]
      rfl

end Params

section Host

variable {url text : List Char}

/-- A text behind the host: it begins with a question mark, or the host has ended before. -/
def Behind (url : List Char) (c : Char) : Prop := c = '?' ∨ c = '&' ∧ '?' ∈ url

theorem behind_addQuery (url : List Char) : Behind url (if '?' ∈ url then '&' else '?') := by
  split
  · exact .inr ⟨rfl, ‹_›⟩
  · exact .inl rfl

theorem Behind.eq_or {c : Char} (h : Behind url c) : c = '?' ∨ c = '&' := h.imp_right And.left

/-- The blanks at the end of a text, when there is one more character behind it. -/
theorem dropWhile_reverse_append {control : Char → Bool} {c : Char} (hc : control c = false)
    (front text : List Char) : ((front ++ c :: text).reverse.dropWhile control).reverse =
      front ++ c :: (text.reverse.dropWhile control).reverse := by
  have hsplit : (front ++ c :: text).reverse = text.reverse ++ c :: front.reverse := by
    rw [List.reverse_append, List.reverse_cons, List.append_assoc, List.singleton_append]
  rw [hsplit, List.dropWhile_append]
  split
  · rename_i hempty
    rw [List.isEmpty_iff.mp hempty, List.dropWhile_cons_of_neg (by simp [hc])]
    simp
  · simp

/-- A text behind a URL is behind it when the blanks are dropped. -/
theorem strip_append {c : Char} (hc : Behind url c)
    (hlast : ∀ d ∈ url.getLast?, 0x20 < d.toNat) (text : List Char) :
    ∃ text', UrlHost.strip (url ++ c :: text) = UrlHost.strip url ++ c :: text' ∧
      Behind (UrlHost.strip url) c := by
  let control : Char → Bool := fun c => decide (c.toNat ≤ 0x20)
  let keep : Char → Bool := fun c => !(['\t', '\n', '\r'].contains c)
  have hplain : control c = false ∧ keep c = true := by
    rcases hc.eq_or with rfl | rfl <;> exact ⟨rfl, rfl⟩
  have hfront : (url ++ c :: text).dropWhile control = url.dropWhile control ++ c :: text := by
    rw [List.dropWhile_append, List.dropWhile_cons_of_neg (by simp [hplain.1])]
    split
    · rename_i hempty
      rw [List.isEmpty_iff.mp hempty, List.nil_append]
    · rfl
  have hback : ((url.dropWhile control).reverse.dropWhile control).reverse =
      url.dropWhile control := by
    rcases List.eq_nil_or_concat (url.dropWhile control) with hnil | ⟨front, d, hd⟩
    · rw [hnil]
      rfl
    · have hmem : d ∈ url.getLast? := by
        rw [← List.takeWhile_append_dropWhile (p := control) (l := url), hd]
        simp
      have hd' : ¬ control d = true := by simpa [control] using hlast d hmem
      rw [hd, List.concat_eq_append, List.reverse_append, List.reverse_singleton,
        List.singleton_append, List.dropWhile_cons_of_neg hd', List.reverse_cons,
        List.reverse_reverse]
  have hstrip : UrlHost.strip url = (url.dropWhile control).filter keep := by
    conv_rhs => rw [← hback]
    rfl
  refine ⟨((text.reverse.dropWhile control).reverse).filter keep, ?_, hc.imp_right fun h => ?_⟩
  · have hall : UrlHost.strip (url ++ c :: text) =
        (((url ++ c :: text).dropWhile control).reverse.dropWhile control).reverse.filter keep := rfl
    rw [hall, hfront, dropWhile_reverse_append hplain.1, List.filter_append,
      List.filter_cons_of_pos hplain.2, hstrip]
  · refine ⟨h.1, ?_⟩
    rw [hstrip, List.mem_filter]
    have hmem := h.2
    rw [← List.takeWhile_append_dropWhile (p := control) (l := url), List.mem_append] at hmem
    exact ⟨hmem.resolve_left fun hin => absurd (List.mem_takeWhile_imp hin) (by decide), rfl⟩

/-- The host ends in front of the text. -/
theorem authority_append {c : Char} (hc : Behind url c) (text : List Char) :
    ((url ++ c :: text).dropWhile fun c => c = '/' || c = '\\').takeWhile
        (fun c => !(['/', '\\', '?', '#'].contains c)) =
      (url.dropWhile fun c => c = '/' || c = '\\').takeWhile (fun c => !(['/', '\\', '?', '#'].contains c)) := by
  have hslash : (c :: text).dropWhile (fun c => c = '/' || c = '\\') = c :: text := by
    rcases hc.eq_or with rfl | rfl <;> rfl
  rw [List.dropWhile_append, hslash]
  split
  · rename_i hempty
    rw [List.isEmpty_iff.mp hempty]
    rcases hc with rfl | ⟨-, hmem⟩
    · rfl
    · have := List.dropWhile_eq_nil_iff.mp (List.isEmpty_iff.mp hempty) '?' hmem
      exact absurd this (by decide)
  · rw [List.takeWhile_append]
    split
    · rename_i hlength
      have hself := (List.takeWhile_prefix _).eq_of_length hlength
      rcases hc with rfl | ⟨-, hmem⟩
      · rw [hself, List.takeWhile_cons_of_neg (by decide), List.append_nil]
      · rw [← List.takeWhile_append_dropWhile (p := fun c => c = '/' || c = '\\') (l := url),
          List.mem_append] at hmem
        have hin := hmem.resolve_left fun hin => absurd (List.mem_takeWhile_imp hin) (by decide)
        exact absurd (List.takeWhile_eq_self_iff.mp hself '?' hin) (by decide)
    · rfl

/-- The text behind a URL does not change its host. -/
theorem ofHttps_append (domainToAscii : List UInt8 → Option (List Char)) {c : Char}
    (hc : Behind url c) (hlast : ∀ d ∈ url.getLast?, 0x20 < d.toNat) (text : List Char) :
    UrlHost.ofHttps domainToAscii (url ++ c :: text) = UrlHost.ofHttps domainToAscii url := by
  obtain ⟨text', hstrip, hc'⟩ := strip_append hc hlast text
  unfold UrlHost.ofHttps
  rw [hstrip]
  generalize UrlHost.strip url = u at hc'
  dsimp only
  by_cases hshort : u.length < 6
  · -- the scheme would have to go on with the sign of the query
    have hmark : c.toLower ∉ "https:".toList := by
      rcases hc.eq_or with rfl | rfl <;> decide
    have hlong : ((u ++ c :: text').take 6).map Char.toLower ≠ "https:".toList := by
      intro heq
      refine hmark (heq ▸ List.mem_map_of_mem ?_)
      rw [List.take_append, List.mem_append]
      refine .inr ?_
      obtain ⟨n, hn⟩ : ∃ n, 6 - u.length = n + 1 := ⟨5 - u.length, by omega⟩
      rw [hn, List.take_succ_cons]
      exact List.mem_cons_self
    have hself : (u.take 6).map Char.toLower ≠ "https:".toList := by
      intro heq
      have := congrArg List.length heq
      rw [List.length_map, List.length_take] at this
      have hsix : "https:".toList.length = 6 := rfl
      omega
    rw [if_pos hlong, if_pos hself]
  · have hsix : 6 ≤ u.length := Nat.le_of_not_lt hshort
    rw [List.take_append_of_le_length hsix, List.drop_append_of_le_length hsix]
    split
    · rfl
    · rename_i hscheme
      have hbehind : Behind (u.drop 6) c := by
        refine hc'.imp_right fun h => ⟨h.1, ?_⟩
        have hmem := h.2
        rw [← List.take_append_drop 6 u, List.mem_append] at hmem
        refine hmem.resolve_left fun hin => ?_
        have hlower : Char.toLower '?' ∈ (u.take 6).map Char.toLower := List.mem_map_of_mem hin
        rw [not_not.mp hscheme] at hlower
        exact absurd hlower (by decide)
      rw [authority_append hbehind]

theorem ofHttps_addQuery (domainToAscii : List UInt8 → Option (List Char))
    (hlast : ∀ d ∈ url.getLast?, 0x20 < d.toNat) (text : List Char) :
    UrlHost.ofHttps domainToAscii (addQuery url text) = UrlHost.ofHttps domainToAscii url :=
  ofHttps_append domainToAscii (behind_addQuery url) hlast text

end Host

end UrlQuery
end Lib
end OrbitOpenEO
