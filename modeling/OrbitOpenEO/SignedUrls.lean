import OrbitOpenEO.SourceUrls
import OrbitOpenEO.UrlPolicy
import OrbitOpenEO.Lib.UrlQuery

/-!
# What a download asks for

An href that the URL policy accepts is signed, rewritten to a path of GDAL's virtual file
system and handed to `gdal_translate`.  The signed URL is accepted as well and has the same
host; a server reads its token behind the parameters of the href, unless the href has a
fragment; and no file of the command can be taken for an option (`fetch_of_accepted`).
-/

namespace OrbitOpenEO

open Lib Lib.UrlQuery

/-- The bytes that `url_encode` keeps: letters, digits and `-_.~`. -/
def isUnreserved (b : UInt8) : Bool :=
  (0x41 ≤ b && b ≤ 0x5A) || (0x61 ≤ b && b ≤ 0x7A) || (0x30 ≤ b && b ≤ 0x39) ||
    [0x2D, 0x5F, 0x2E, 0x7E].contains b

/-- `url_encode`. -/
def urlEncode (s : String) : String :=
  String.ofList (UrlQuery.percentEncode isUnreserved (utf8 s.toList))

/-- What the signers put between an href and their text. -/
def separator (href : String) : String := if '?' ∈ href.toList then "&" else "?"

/-- `AssetSigner` of the executor. -/
inductive AssetSigner where
  | noop
  | planetaryComputer (sasToken : String)
  | bearer (token : String)

/-- `AssetSigner::sign`. -/
def AssetSigner.sign : AssetSigner → String → Except ExecError String
  | .noop, href => .ok href
  | .planetaryComputer sasToken, href =>
      if sasToken = "" then .ok href else .ok (href ++ separator href ++ sasToken)
  | .bearer token, href =>
      if token = "" then .ok href
      else
        .ok (href ++ separator href ++
          ("header.Authorization=" ++ urlEncode ("Bearer " ++ token)))

/-- `vsi_rewrite`. -/
def vsiRewrite (url : String) : String :=
  if "/vsi".toList.isPrefixOf url.toList then url
  else
    match stripPrefix "s3://" url.toList with
    | some rest => "/vsis3/" ++ String.ofList rest
    | none =>
        match stripPrefix "gs://" url.toList with
        | some rest => "/vsigs/" ++ String.ofList rest
        | none =>
            match stripPrefix "az://" url.toList with
            | some rest => "/vsiaz/" ++ String.ofList rest
            | none =>
                if "http://".toList.isPrefixOf url.toList ||
                    "https://".toList.isPrefixOf url.toList then "/vsicurl/" ++ url
                else url

/-- The CRS that is handed on: one that fails its check is dropped. -/
def projwinSrs (cropCrs : Option String) : Option String :=
  cropCrs.filter fun crs => (validateCrsSpec crs).isOk

/-- `build_gdal_translate_argv`; `display` is the text of a float. -/
def buildGdalTranslateArgv (display : ℚ → String) (src : String) (dst : PathBuf)
    (crop : Option CropWindow) (cropCrs : Option String) : List String :=
  ["gdal_translate", "-q"] ++
    (match crop with
    | some w =>
        ["-projwin", display w.minX, display w.maxY, display w.maxX, display w.minY] ++
          (match projwinSrs cropCrs with
          | some crs => ["-projwin_srs", crs]
          | none => [])
    | none => []) ++
    [src, dst]

/-- The texts of a window in the order of `-projwin`. -/
def windowTexts (display : ℚ → String) (w : CropWindow) : List String :=
  [display w.minX, display w.maxY, display w.maxX, display w.minY]

/-- Where an argument may begin with a dash: the options at their places, and what they take. -/
inductive MayDash (display : ℚ → String) (crop : Option CropWindow) (cropCrs : Option String) :
    Nat → String → Prop where
  | quiet : MayDash display crop cropCrs 1 "-q"
  | projwin {w : CropWindow} (hcrop : crop = some w) : MayDash display crop cropCrs 2 "-projwin"
  | window {w : CropWindow} {k : Nat} {text : String} (hcrop : crop = some w)
      (htext : (windowTexts display w)[k]? = some text) :
      MayDash display crop cropCrs (3 + k) text
  | projwinSrs {w : CropWindow} {crs : String} (hcrop : crop = some w)
      (hcrs : projwinSrs cropCrs = some crs) : MayDash display crop cropCrs 7 "-projwin_srs"
  | crs {w : CropWindow} {crs : String} (hcrop : crop = some w)
      (hcrs : OrbitOpenEO.projwinSrs cropCrs = some crs) : MayDash display crop cropCrs 8 crs

section Signing

/-- The text that a signer adds. -/
def AssetSigner.query : AssetSigner → Option String
  | .noop => none
  | .planetaryComputer sasToken => if sasToken = "" then none else some sasToken
  | .bearer token =>
      if token = "" then none else some ("header.Authorization=" ++ urlEncode ("Bearer " ++ token))

/-- The parameters that a server is to read for it. -/
def AssetSigner.sent : AssetSigner → List (List UInt8 × List UInt8)
  | .noop => []
  | .planetaryComputer sasToken => readPairs (sasToken.toList.takeWhile (· ≠ '#'))
  | .bearer token =>
      if token = "" then []
      else [(utf8 "header.Authorization".toList, utf8 ("Bearer " ++ token).toList)]

variable {signer : AssetSigner} {href signed : String}

/-- The bytes are the numbers below 256. -/
theorem forall_byte {p : UInt8 → Bool} (h : (List.range 256).all (fun n => p (UInt8.ofNat n)) = true)
    (b : UInt8) : p b = true := by
  have := List.all_eq_true.mp h b.toNat (List.mem_range.mpr b.toNat_lt)
  rwa [UInt8.ofNat_toNat] at this

theorem keepsPlain_isUnreserved : KeepsPlain isUnreserved := by
  intro b hb
  have hall := @forall_byte
    (fun b => !isUnreserved b || (decide (b.toNat < 128) && b != 0x25 && b != 0x2B))
    (by decide +kernel) b
  simpa [hb, and_assoc] using hall

theorem unreserved_not_mark {b : UInt8} (hb : isUnreserved b = true) :
    Char.ofNat b.toNat ∉ ['&', '=', '#', '?'] := by
  have hall := @forall_byte
    (fun b => !isUnreserved b || !(['&', '=', '#', '?'].contains (Char.ofNat b.toNat)))
    (by decide +kernel) b
  simpa [hb] using hall

/-- An encoded text has none of the signs of a query. -/
theorem notMem_urlEncode (s : String) {m : Char} (hm : m ∈ ['&', '=', '#', '?']) :
    m ∉ (urlEncode s).toList := by
  intro hmem
  rw [urlEncode, String.toList_ofList] at hmem
  have hhex : ∀ d < 16, upperHex d ∉ ['&', '=', '#', '?'] := by decide
  rcases of_mem_percentEncode hmem with rfl | ⟨d, hd, rfl⟩ | ⟨b, hb, rfl⟩
  · exact absurd hm (by decide)
  · exact hhex d hd hm
  · exact unreserved_not_mark hb hm

theorem decode_urlEncode (s : String) : decode (urlEncode s).toList = utf8 s.toList := by
  rw [urlEncode, String.toList_ofList]
  exact decode_percentEncode keepsPlain_isUnreserved _

/-- A name with an encoded value is read back. -/
theorem readPairs_urlEncode {name : String} (hname : '&' ∉ name.toList) (heq : '=' ∉ name.toList)
    (hfragment : '#' ∉ name.toList) (s : String) :
    readPairs ((name ++ "=" ++ urlEncode s).toList.takeWhile (· ≠ '#')) =
      [(decode name.toList, utf8 s.toList)] := by
  have htext : (name ++ "=" ++ urlEncode s).toList =
      name.toList ++ '=' :: (urlEncode s).toList := by
    rw [String.toList_append, String.toList_append, List.append_assoc]
    rfl
  have hnone : '#' ∉ name.toList ++ '=' :: (urlEncode s).toList := by
    rw [List.mem_append, List.mem_cons]
    rintro (h | h | h)
    · exact hfragment h
    · exact absurd h (by decide)
    · exact notMem_urlEncode s (by decide) h
  have hself := takeWhile_append_of_notMem hnone []
  rw [List.append_nil, List.takeWhile_nil, List.append_nil] at hself
  rw [htext, hself, readPairs_pair hname heq (notMem_urlEncode s (by decide)), decode_urlEncode]

theorem toList_separator (href text : String) :
    (href ++ separator href ++ text).toList = addQuery href.toList text.toList := by
  unfold separator addQuery
  rw [String.toList_append, String.toList_append, List.append_assoc]
  split <;> rfl

theorem AssetSigner.sign_eq (signer : AssetSigner) (href : String) :
    signer.sign href = .ok (match signer.query with
      | none => href
      | some text => href ++ separator href ++ text) := by
  cases signer with
  | noop => rfl
  | planetaryComputer sasToken =>
      simp only [sign, query]
      split <;> rfl
  | bearer token =>
      simp only [sign, query]
      split <;> rfl

/-- A signed URL is the href, or the href with the text behind it. -/
theorem toList_signed (h : signer.sign href = .ok signed) :
    (signed = href ∧ signer.query = none) ∨
      ∃ text, signer.query = some text ∧ signed.toList = addQuery href.toList text.toList := by
  rw [signer.sign_eq href] at h
  cases hquery : signer.query with
  | none =>
      rw [hquery] at h
      cases h
      exact .inl ⟨rfl, rfl⟩
  | some text =>
      rw [hquery] at h
      cases h
      exact .inr ⟨text, rfl, toList_separator href text⟩

theorem sent_of_query_none (h : signer.query = none) : signer.sent = [] := by
  cases signer with
  | noop => rfl
  | planetaryComputer sasToken =>
      simp only [AssetSigner.query] at h
      split at h
      · rename_i hempty
        rw [hempty]
        rfl
      · cases h
  | bearer token =>
      simp only [AssetSigner.query] at h
      split at h
      · rename_i hempty
        exact if_pos hempty
      · cases h

theorem sent_of_query_some {text : String} (h : signer.query = some text) :
    readPairs (text.toList.takeWhile (· ≠ '#')) = signer.sent := by
  cases signer with
  | noop => cases h
  | planetaryComputer sasToken =>
      simp only [AssetSigner.query] at h
      split at h
      · cases h
      · cases h
        rfl
  | bearer token =>
      simp only [AssetSigner.query] at h
      split at h
      · cases h
      · rename_i hempty
        cases h
        rw [AssetSigner.sent, if_neg hempty]
        exact @readPairs_urlEncode "header.Authorization" (by decide) (by decide) (by decide) _

/-- The parameters of a signed URL. -/
theorem params_signed (h : signer.sign href = .ok signed) :
    params signed.toList =
      if '#' ∈ href.toList then params href.toList else params href.toList ++ signer.sent := by
  rcases toList_signed h with ⟨rfl, hquery⟩ | ⟨text, hquery, htext⟩
  · rw [sent_of_query_none hquery, List.append_nil, ite_self]
  · rw [htext, params_addQuery, sent_of_query_some hquery]

/-- The host ends in front of the text that is added. -/
theorem hostNoPort_append {rest : List Char} {c : Char} (hc : Behind rest c) (text : List Char) :
    hostNoPort (rest ++ c :: text) = hostNoPort rest := by
  have htake : (rest ++ c :: text).takeWhile (fun c => !(['/', '?', '#'].contains c)) =
      rest.takeWhile (fun c => !(['/', '?', '#'].contains c)) := by
    rw [List.takeWhile_append]
    split
    · rename_i hlength
      have hself := (List.takeWhile_prefix _).eq_of_length hlength
      rcases hc with rfl | ⟨-, hmem⟩
      · rw [hself, List.takeWhile_cons_of_neg (by decide), List.append_nil]
      · exact absurd (List.takeWhile_eq_self_iff.mp hself '?' hmem) (by decide)
    · rfl
  unfold hostNoPort
  rw [htake]

/-- The policy accepts the href with a text behind it as well. -/
theorem check_addQuery {policy : UrlPolicy}
    (hschemes : ∀ s ∈ policy.allowedSchemes, '?' ∉ s.toList) (h : policy.check href = .ok ())
    {text : List Char} (hsigned : signed.toList = addQuery href.toList text) :
    policy.check signed = .ok () := by
  unfold UrlPolicy.check at h ⊢
  split_ifs at h with hdash
  cases hsplit : splitOnce "://".toList href.toList with
  | none =>
      rw [hsplit] at h
      cases h
  | some parts =>
      obtain ⟨scheme, rest⟩ := parts
      rw [hsplit] at h
      dsimp only at h
      split_ifs at h with hscheme hdeny
      have hhref : href.toList = scheme ++ ("://".toList ++ rest) := eq_append_of_splitOnce hsplit
      have hallowed : String.ofList (scheme.map Char.toLower) ∈ policy.allowedSchemes := by
        simpa using hscheme
      obtain ⟨c, hc, hadd⟩ : ∃ c, Behind rest c ∧ addQuery href.toList text =
          scheme ++ ("://".toList ++ (rest ++ c :: text)) := by
        have hassoc : ∀ more, href.toList ++ more = scheme ++ ("://".toList ++ (rest ++ more)) :=
          fun more => by rw [hhref, List.append_assoc, List.append_assoc]
        refine ⟨_, ?_, hassoc _⟩
        refine (behind_addQuery href.toList).imp_right fun hmem => ⟨hmem.1, ?_⟩
        have hin := hmem.2
        rw [hhref, List.mem_append, List.mem_append] at hin
        refine (hin.resolve_left fun hin => ?_).resolve_left (by decide)
        refine hschemes _ hallowed ?_
        rw [String.toList_ofList]
        exact List.mem_map_of_mem (f := Char.toLower) hin
      have hsplit' : splitOnce "://".toList signed.toList = some (scheme, rest ++ c :: text) := by
        rw [hsigned, hadd, splitOnce_append_iff (by decide)]
        rw [hhref, splitOnce_append_iff (by decide)] at hsplit
        exact hsplit
      have hdash' : ¬ "-".toList.isPrefixOf signed.toList = true := by
        intro hprefix
        refine hdash ?_
        rw [hsigned] at hprefix
        cases hcs : href.toList with
        | nil =>
            rw [hcs] at hsplit
            cases hsplit
        | cons d cs =>
            rw [hcs, addQuery, List.cons_append] at hprefix
            simpa using hprefix
      rw [if_neg hdash', hsplit']
      dsimp only
      rw [if_neg hscheme, hostNoPort_append hc, if_neg hdeny]

theorem check_signed {policy : UrlPolicy}
    (hschemes : ∀ s ∈ policy.allowedSchemes, '?' ∉ s.toList) (h : policy.check href = .ok ())
    (hsign : signer.sign href = .ok signed) : policy.check signed = .ok () := by
  rcases toList_signed hsign with ⟨rfl, -⟩ | ⟨text, -, htext⟩
  · exact h
  · exact check_addQuery hschemes h htext

/-- The host of a signed URL. -/
theorem ofHttps_signed (domainToAscii : List UInt8 → Option (List Char))
    (hlast : ∀ c ∈ href.toList.getLast?, 0x20 < c.toNat) (hsign : signer.sign href = .ok signed) :
    UrlHost.ofHttps domainToAscii signed.toList = UrlHost.ofHttps domainToAscii href.toList := by
  rcases toList_signed hsign with ⟨rfl, -⟩ | ⟨text, -, htext⟩
  · rfl
  · rw [htext, ofHttps_addQuery domainToAscii hlast]

end Signing

section Command

variable {display : ℚ → String} {src dst : String}

/-- The two files are the last arguments. -/
theorem files_suffix (crop : Option CropWindow) (cropCrs : Option String) :
    [src, dst] <:+ buildGdalTranslateArgv display src dst crop cropCrs :=
  List.suffix_append _ _

/-- If no file begins with a dash, only an option or what it takes does. -/
theorem mayDash_of_getElem? (hsrc : "-".toList.isPrefixOf src.toList = false)
    (hdst : "-".toList.isPrefixOf dst.toList = false) {crop : Option CropWindow}
    {cropCrs : Option String} {i : Nat} {arg : String}
    (h : (buildGdalTranslateArgv display src dst crop cropCrs)[i]? = some arg)
    (hdash : "-".toList.isPrefixOf arg.toList = true) : MayDash display crop cropCrs i arg := by
  have hfiles : ∀ k : Nat, [src, dst][k]? ≠ some arg := by
    intro k hk
    have hmem := List.mem_of_getElem? hk
    rw [List.mem_cons, List.mem_singleton] at hmem
    rcases hmem with rfl | rfl
    · rw [hsrc] at hdash
      cases hdash
    · rw [hdst] at hdash
      cases hdash
  unfold buildGdalTranslateArgv at h
  rw [List.append_assoc, List.cons_append, List.cons_append, List.nil_append] at h
  match i with
  | 0 =>
      cases h
      cases hdash
  | 1 =>
      cases h
      exact .quiet
  | i + 2 =>
      rw [List.getElem?_cons_succ, List.getElem?_cons_succ] at h
      cases crop with
      | none => exact absurd h (hfiles i)
      | some w =>
          dsimp only at h
          match i with
          | 0 =>
              cases h
              exact .projwin rfl
          | 1 => exact .window (k := 0) rfl h
          | 2 => exact .window (k := 1) rfl h
          | 3 => exact .window (k := 2) rfl h
          | 4 => exact .window (k := 3) rfl h
          | i + 5 =>
              cases hcrs : projwinSrs cropCrs with
              | none =>
                  rw [hcrs] at h
                  exact absurd h (hfiles i)
              | some crs =>
                  rw [hcrs] at h
                  match i with
                  | 0 =>
                      cases h
                      exact .projwinSrs rfl hcrs
                  | 1 =>
                      cases h
                      exact .crs rfl hcrs
                  | i + 2 => exact absurd h (hfiles i)

/-- What is no option stays none. -/
theorem vsiRewrite_no_option {url : String} (h : "-".toList.isPrefixOf url.toList = false) :
    "-".toList.isPrefixOf (vsiRewrite url).toList = false := by
  unfold vsiRewrite
  repeat' split
  all_goals first
    | exact h
    | rw [String.toList_append]; rfl

theorem stripPrefix_eq_none {pre : String} {cs : List Char} (h : ¬ pre.toList <+: cs) :
    stripPrefix pre cs = none := by
  rw [stripPrefix, if_neg]
  rwa [List.isPrefixOf_iff_prefix]

/-- A text with one beginning has no other one. -/
theorem not_prefix_of_https {pre cs : List Char} (h : "https://".toList <+: cs)
    (hlength : pre.length ≤ 8) (hpre : ¬ pre <+: "https://".toList) : ¬ pre <+: cs := by
  intro hprefix
  exact hpre (List.prefix_of_prefix_length_le hprefix h hlength)

theorem vsiRewrite_https {url : String} (h : "https://".toList <+: url.toList) :
    vsiRewrite url = "/vsicurl/" ++ url := by
  have hvsi : ¬ "/vsi".toList.isPrefixOf url.toList = true := by
    rw [List.isPrefixOf_iff_prefix]
    exact not_prefix_of_https h (by decide) (by decide)
  have hs3 : stripPrefix "s3://" url.toList = none :=
    stripPrefix_eq_none (not_prefix_of_https h (by decide) (by decide))
  have hgs : stripPrefix "gs://" url.toList = none :=
    stripPrefix_eq_none (not_prefix_of_https h (by decide) (by decide))
  have haz : stripPrefix "az://" url.toList = none :=
    stripPrefix_eq_none (not_prefix_of_https h (by decide) (by decide))
  unfold vsiRewrite
  rw [if_neg hvsi, hs3, hgs, haz]
  dsimp only
  rw [List.isPrefixOf_iff_prefix.mpr h, Bool.or_true, if_pos rfl]

end Command

section Fetch

variable {policy : UrlPolicy} {signer : AssetSigner} {href signed : String} {dst : PathBuf}

/-- **A download asks for what was accepted.**  The policy accepts the signed URL as well, and
its host is that of the href; a server reads the parameters of the href and behind them those
of the token, unless the href has a fragment; and in the command for what GDAL makes of the
signed URL the files come last, and what begins with a dash is an option of the server's own or
stands where one takes an argument. -/
theorem fetch_of_accepted (hschemes : ∀ s ∈ policy.allowedSchemes, '?' ∉ s.toList)
    (haccepted : policy.check href = .ok ()) (hsign : signer.sign href = .ok signed)
    (hdst : "-".toList.isPrefixOf dst.toList = false) (display : ℚ → String)
    (crop : Option CropWindow) (cropCrs : Option String) :
    policy.check signed = .ok () ∧
    ((∀ c ∈ href.toList.getLast?, 0x20 < c.toNat) → ∀ domainToAscii,
      UrlHost.ofHttps domainToAscii signed.toList = UrlHost.ofHttps domainToAscii href.toList) ∧
    params signed.toList = (if '#' ∈ href.toList then params href.toList
      else params href.toList ++ signer.sent) ∧
    ("https://".toList <+: href.toList → vsiRewrite signed = "/vsicurl/" ++ signed) ∧
    [vsiRewrite signed, dst] <:+
      buildGdalTranslateArgv display (vsiRewrite signed) dst crop cropCrs ∧
    "-".toList.isPrefixOf (vsiRewrite signed).toList = false ∧
    ∀ i arg, (buildGdalTranslateArgv display (vsiRewrite signed) dst crop cropCrs)[i]? = some arg →
      "-".toList.isPrefixOf arg.toList = true → MayDash display crop cropCrs i arg := by
  have hchecked := check_signed hschemes haccepted hsign
  have hprefix : href.toList <+: signed.toList := by
    rcases toList_signed hsign with ⟨rfl, -⟩ | ⟨text, -, htext⟩
    · exact List.prefix_rfl
    · rw [htext]
      exact List.prefix_append _ _
  have hdash : "-".toList.isPrefixOf signed.toList = false := by
    unfold UrlPolicy.check at hchecked
    split_ifs at hchecked with hdash
    exact Bool.eq_false_iff.mpr hdash
  have hsrc := vsiRewrite_no_option hdash
  exact ⟨hchecked, fun hlast domainToAscii => ofHttps_signed domainToAscii hlast hsign,
    params_signed hsign, fun h => vsiRewrite_https (h.trans hprefix), files_suffix crop cropCrs,
    hsrc, fun _ _ h hoption => mayDash_of_getElem? hsrc hdst h hoption⟩

theorem fetch_of_accepted_sample :
    (UrlPolicy.default.check "https://host/a.tif?x=1&header.Authorization=Bearer%20t") = .ok () ∧
    params "https://host/a.tif?x=1&header.Authorization=Bearer%20t".toList =
      [(utf8 ['x'], utf8 ['1']),
        (utf8 "header.Authorization".toList, utf8 "Bearer t".toList)] := by
  have h := @fetch_of_accepted UrlPolicy.default (.bearer "t") "https://host/a.tif?x=1"
    "https://host/a.tif?x=1&header.Authorization=Bearer%20t" "/tmp/b_0.tif"
    (by decide) (by decide) (by decide) (by decide) (fun _ => "0") none none
  exact ⟨h.1, h.2.2.1⟩

end Fetch

end OrbitOpenEO
