import OrbitOpenEO.Downloads
import Mathlib.Data.Bool.AllAny
import Mathlib.Data.List.TakeWhile

/-!
# Addresses of S3 objects

An object of S3 has several addresses, and `parse_source` takes the bucket, the key and the
region out of them.  It looks for `.s3.` and `.s3-` in the host and for `s3.` and `s3-` at its
start, and the name of a bucket may hold these as well.

An address is read back unless the name of its bucket gets in the way
(`parseSource_url_iff`).
-/

namespace OrbitOpenEO

section Splitting

/-- A text that ends with a character lies before what is free of the character. -/
theorem infix_append_iff_of_notMem {c : Char} {sep left right : List Char} (h : c ∉ right) :
    sep ++ [c] <:+: left ++ right ↔ sep ++ [c] <:+: left := by
  constructor
  · rintro ⟨before, after, heq⟩
    rcases List.append_eq_append_iff.mp heq with ⟨rest, hleft, -⟩ | ⟨rest, hfront, hright⟩
    · exact ⟨before, rest, hleft.symm⟩
    · -- The occurrence would end in the part on the right.
      cases hlast : rest.getLast? with
      | none =>
          rw [List.getLast?_eq_none_iff.mp hlast, List.append_nil] at hfront
          exact ⟨before, [], by rw [List.append_nil, hfront]⟩
      | some d =>
          have hd : c = d := by
            have := congrArg List.getLast? hfront
            simpa [hlast] using this
          rw [hd] at h
          exact absurd (hright ▸ List.mem_append_left _ (List.mem_of_getLast? hlast)) h
  · intro hinfix
    exact hinfix.trans (List.infix_append' [] left right)

theorem eq_append_of_splitOnce {sep cs before after : List Char}
    (h : splitOnce sep cs = some (before, after)) : cs = before ++ (sep ++ after) := by
  induction cs generalizing before with
  | nil =>
      rw [splitOnce] at h
      split_ifs at h with hsep
      cases h
      rw [List.isEmpty_iff.mp hsep]
      rfl
  | cons c cs ih =>
      rw [splitOnce] at h
      split_ifs at h with hprefix
      · cases h
        obtain ⟨rest, hrest⟩ := List.isPrefixOf_iff_prefix.mp hprefix
        rw [← hrest, List.drop_left]
        rfl
      · obtain ⟨⟨b, a⟩, hsplit, heq⟩ := Option.map_eq_some_iff.mp h
        cases heq
        rw [ih hsplit]
        rfl

/-- A text is split at a separator unless one begins before. -/
theorem splitOnce_append_iff {sep : List Char} (hsep : sep ≠ []) (before after : List Char) :
    splitOnce sep (before ++ (sep ++ after)) = some (before, after) ↔
      ¬ sep <:+: before ++ sep.dropLast := by
  have hpos : 0 < sep.length := List.length_pos_iff.mpr hsep
  induction before with
  | nil =>
      have hsplit : splitOnce sep (sep ++ after) = some ([], after) := by
        cases sep with
        | nil =>
            exact absurd rfl hsep
        | cons c sep =>
            have hprefix : (c :: sep).isPrefixOf (c :: (sep ++ after)) = true :=
              List.isPrefixOf_iff_prefix.mpr (List.prefix_append (c :: sep) after)
            rw [List.cons_append, splitOnce, if_pos hprefix]
            exact congrArg (fun l => some ([], l)) (@List.drop_left _ (c :: sep) _)
      refine iff_of_true hsplit fun hinfix => ?_
      have hle := hinfix.length_le
      rw [List.nil_append, List.length_dropLast] at hle
      omega
  | cons c before ih =>
      have hshort : c :: (before ++ sep.dropLast) <+: c :: (before ++ (sep ++ after)) := by
        refine List.cons_prefix_cons.mpr ⟨rfl, (List.prefix_append_right_inj _).mpr ?_⟩
        exact (List.dropLast_prefix sep).trans (List.prefix_append sep after)
      rw [List.cons_append, splitOnce, List.cons_append, List.infix_cons_iff]
      by_cases hprefix : sep <+: c :: (before ++ (sep ++ after))
      case pos =>
        rw [if_pos (List.isPrefixOf_iff_prefix.mpr hprefix)]
        refine iff_of_false (by simp) (not_not.mpr (.inl ?_))
        refine List.prefix_of_prefix_length_le hprefix hshort ?_
        rw [List.length_cons, List.length_append, List.length_dropLast]
        omega
      case neg =>
        have hnot : ¬ sep <+: c :: (before ++ sep.dropLast) := fun h => hprefix (h.trans hshort)
        rw [if_neg (fun h => hprefix (List.isPrefixOf_iff_prefix.mp h)), not_or,
          and_iff_right hnot]
        refine Iff.trans ?_ ih
        cases splitOnce sep (before ++ (sep ++ after)) with
        | none =>
            simp
        | some p =>
            simp [Prod.ext_iff]

theorem splitOnce_char {c : Char} {before after : List Char} (h : c ∉ before) :
    splitOnce [c] (before ++ c :: after) = some (before, after) :=
  (splitOnce_append_iff (List.cons_ne_nil c []) before after).mpr fun hinfix => by
    rw [List.dropLast_singleton, List.append_nil, List.singleton_infix_iff] at hinfix
    exact h hinfix

theorem splitOnce_char_isSome {c : Char} {cs : List Char} :
    (splitOnce [c] cs).isSome ↔ c ∈ cs := by
  rw [← not_iff_not, Option.not_isSome_iff_eq_none,
    splitOnce_eq_none_iff (List.cons_ne_nil c []), List.singleton_infix_iff]

end Splitting

/-- The addresses that `parse_source` documents. -/
inductive Spelling where
  | s3Scheme
  | virtualHost
  | legacyHost
  | pathStyle

/-- An object of S3. -/
structure S3Object where
  bucket : String
  key : String
  region : String

/-- The address in a spelling. -/
def S3Object.url (o : S3Object) : Spelling → String
  | .s3Scheme => "s3://" ++ o.bucket ++ "/" ++ o.key
  | .virtualHost => "https://" ++ o.bucket ++ ".s3." ++ o.region ++ ".amazonaws.com/" ++ o.key
  | .legacyHost => "https://" ++ o.bucket ++ ".s3-" ++ o.region ++ ".amazonaws.com/" ++ o.key
  | .pathStyle => "https://s3." ++ o.region ++ ".amazonaws.com/" ++ o.bucket ++ "/" ++ o.key

/-- The region that an address names. -/
def S3Object.regionOf (o : S3Object) : Spelling → String
  | .s3Scheme => "us-west-2"
  | _ => o.region

/-- Lower-case letters and digits. -/
def isAlnum (c : Char) : Bool := c.isLower || c.isDigit

/-- The rules of S3 for the name of a bucket. -/
structure LegalBucket (b : List Char) : Prop where
  length_ge : 3 ≤ b.length
  length_le : b.length ≤ 63
  chars : ∀ c ∈ b, isAlnum c = true ∨ c = '.' ∨ c = '-'
  first : ∀ c ∈ b.head?, isAlnum c = true
  last : ∀ c ∈ b.getLast?, isAlnum c = true
  dots : ¬ ['.', '.'] <:+: b

/-- The shape of the names of regions. -/
structure LegalRegion (r : List Char) : Prop where
  nonempty : r ≠ []
  chars : ∀ c ∈ r, isAlnum c = true ∨ c = '-'

/-- The object can have the address. -/
structure S3Object.Legal (o : S3Object) : Prop where
  bucket : LegalBucket o.bucket.toList
  region : LegalRegion o.region.toList
  key_ne : o.key ≠ ""
  key_plain : '?' ∉ o.key.toList

/-- The host begins like that of the path style. -/
def StartsLikePath (cs : List Char) : Prop := "s3.".toList <+: cs ∨ "s3-".toList <+: cs

/-- The name of the bucket does not get in the way of the address. -/
def S3Object.ReadBack (o : S3Object) : Spelling → Prop
  | .s3Scheme => True
  | .virtualHost =>
      ¬ (StartsLikePath o.bucket.toList ∧ '/' ∈ o.key.toList) ∧
        ¬ ".s3.".toList <:+: o.bucket.toList ∧ ¬ ".s3".toList <:+ o.bucket.toList
  | .legacyHost =>
      ¬ (StartsLikePath o.bucket.toList ∧ '/' ∈ o.key.toList) ∧
        ¬ ".s3.".toList <:+: o.bucket.toList ∧ ¬ ".s3".toList <:+ o.bucket.toList ∧
          ¬ ".s3-".toList <:+: o.bucket.toList
  | .pathStyle => True

section Parsing

theorem stripPrefix_append {pre : String} (cs : List Char) :
    stripPrefix pre (pre.toList ++ cs) = some cs := by
  rw [stripPrefix, if_pos (List.isPrefixOf_iff_prefix.mpr (List.prefix_append _ _)),
    List.drop_left]

theorem stripPrefix_isSome {pre : String} {cs : List Char} :
    (stripPrefix pre cs).isSome ↔ pre.toList <+: cs := by
  rw [stripPrefix, ← List.isPrefixOf_iff_prefix]
  split <;> simp_all

theorem stripSuffix_append {suf : String} (cs : List Char) :
    stripSuffix suf (cs ++ suf.toList) = some cs := by
  rw [stripSuffix, if_pos (List.isSuffixOf_iff_suffix.mpr (List.suffix_append _ _)),
    List.length_append, Nat.add_sub_cancel, List.take_left]

variable {stripped key : List Char}

/-- With a `/` in the key the path style wins. -/
theorem parseS3Host_of_path (hpath : StartsLikePath stripped) (hkey : '/' ∈ key) :
    ∃ region p, splitOnce ['/'] key = some p ∧
      parseS3Host (stripped ++ ".amazonaws.com".toList) key =
        some (.s3 (String.ofList p.1) (String.ofList p.2) (String.ofList region)) := by
  obtain ⟨p, hp⟩ := Option.isSome_iff_exists.mp (splitOnce_char_isSome.mpr hkey)
  have hregion : ((stripPrefix "s3." stripped).or (stripPrefix "s3-" stripped)).isSome := by
    rw [Option.isSome_or, Bool.or_eq_true, stripPrefix_isSome, stripPrefix_isSome]
    exact hpath
  obtain ⟨region, hregion⟩ := Option.isSome_iff_exists.mp hregion
  refine ⟨region, p, hp, ?_⟩
  rw [parseS3Host, stripSuffix_append, Option.bind_some]
  simp only [hregion, hp, Option.bind_some, Option.map_some, Option.some_or]

/-- Otherwise the host is split at `.s3.` or `.s3-`. -/
theorem parseS3Host_of_host (h : ¬ (StartsLikePath stripped ∧ '/' ∈ key)) :
    parseS3Host (stripped ++ ".amazonaws.com".toList) key =
      ((splitOnce ".s3.".toList stripped).or (splitOnce ".s3-".toList stripped)).map fun p =>
        .s3 (String.ofList p.1) (String.ofList key) (String.ofList p.2) := by
  have hnone : ((stripPrefix "s3." stripped).or (stripPrefix "s3-" stripped)).bind
      (fun region => (splitOnce ['/'] key).map fun p =>
        ParsedSource.s3 (String.ofList p.1) (String.ofList p.2) (String.ofList region)) = none := by
    rw [Option.bind_eq_none_iff]
    intro region hregion
    have hpath : StartsLikePath stripped := by
      have := Option.isSome_of_eq_some hregion
      rwa [Option.isSome_or, Bool.or_eq_true, stripPrefix_isSome, stripPrefix_isSome] at this
    rw [Option.map_eq_none_iff, ← Option.not_isSome_iff_eq_none, splitOnce_char_isSome]
    exact fun hkey => h ⟨hpath, hkey⟩
  rw [parseS3Host, stripSuffix_append, Option.bind_some]
  simp only [hnone, Option.none_or]
  cases splitOnce ".s3.".toList stripped <;> simp

variable {bucket region : List Char}

theorem startsLikePath_append_iff (hlen : 3 ≤ bucket.length) (rest : List Char) :
    StartsLikePath (bucket ++ rest) ↔ StartsLikePath bucket := by
  have hiff : ∀ pre : List Char, pre.length = 3 → (pre <+: bucket ++ rest ↔ pre <+: bucket) := by
    intro pre hpre
    refine ⟨fun h => ?_, fun h => h.trans (List.prefix_append bucket rest)⟩
    exact List.prefix_of_prefix_length_le h (List.prefix_append bucket rest) (by omega)
  exact or_congr (hiff _ rfl) (hiff _ rfl)

/-- Before the last dot of the host, `.s3.` begins in the name of the bucket. -/
theorem dotSeparator_infix_iff {rest : List Char} (hrest : '.' ∉ rest) :
    ".s3.".toList <:+: bucket ++ ('.' :: rest) ↔
      ".s3.".toList <:+: bucket ∨ ".s3".toList <:+ bucket := by
  have hassoc : bucket ++ ('.' :: rest) = (bucket ++ ['.']) ++ rest := by
    rw [List.append_assoc, List.singleton_append]
  have hsep : ".s3.".toList = ".s3".toList ++ ['.'] := rfl
  rw [hassoc, hsep, infix_append_iff_of_notMem hrest, List.infix_concat_iff, or_comm,
    List.suffix_append_self_iff]

/-- A hyphen is not in what follows the name. -/
theorem hyphenSeparator_infix_iff :
    ".s3-".toList <:+: bucket ++ ".s3".toList ↔ ".s3-".toList <:+: bucket :=
  show ".s3".toList ++ ['-'] <:+: bucket ++ ".s3".toList ↔ ".s3".toList ++ ['-'] <:+: bucket from
    infix_append_iff_of_notMem (by decide)

/-- The object that was read is another one if its key is a part of the key. -/
theorem read_ne_of_path {p : List Char × List Char} (hp : splitOnce ['/'] key = some p)
    (bucket region region' : List Char) :
    ParsedSource.s3 (String.ofList p.1) (String.ofList p.2) (String.ofList region') ≠
      .s3 (String.ofList bucket) (String.ofList key) (String.ofList region) := by
  intro heq
  injection heq with _ hkey _
  have hlen := congrArg List.length (eq_append_of_splitOnce hp)
  rw [String.ofList_injective hkey] at hlen
  simp only [List.length_append, List.length_cons] at hlen
  omega

theorem map_read_eq_iff {split : Option (List Char × List Char)} :
    (split.map fun p => ParsedSource.s3 (String.ofList p.1) (String.ofList key)
        (String.ofList p.2)) =
        some (.s3 (String.ofList bucket) (String.ofList key) (String.ofList region)) ↔
      split = some (bucket, region) := by
  cases split with
  | none =>
      simp
  | some p =>
      simp [String.ofList_inj, Prod.ext_iff]

/-- A host whose bucket looks like the path style is read wrong if the key has a `/`. -/
theorem parseS3Host_iff {rest : List Char} (hlen : 3 ≤ bucket.length) :
    parseS3Host (bucket ++ rest ++ ".amazonaws.com".toList) key =
        some (.s3 (String.ofList bucket) (String.ofList key) (String.ofList region)) ↔
      ¬ (StartsLikePath bucket ∧ '/' ∈ key) ∧
        (splitOnce ".s3.".toList (bucket ++ rest)).or (splitOnce ".s3-".toList (bucket ++ rest)) =
          some (bucket, region) := by
  have hpath := startsLikePath_append_iff hlen rest
  by_cases h : StartsLikePath bucket ∧ '/' ∈ key
  case pos =>
    obtain ⟨region', p, hp, hparse⟩ := parseS3Host_of_path (hpath.mpr h.1) h.2
    rw [hparse]
    refine iff_of_false (fun heq => ?_) fun hread => hread.1 h
    exact read_ne_of_path hp bucket region region' (Option.some.inj heq)
  case neg =>
    rw [parseS3Host_of_host fun hn => h ⟨hpath.mp hn.1, hn.2⟩, and_iff_right h]
    exact map_read_eq_iff

theorem split_virtualHost_iff :
    (splitOnce ".s3.".toList (bucket ++ (".s3.".toList ++ region))).or
        (splitOnce ".s3-".toList (bucket ++ (".s3.".toList ++ region))) = some (bucket, region) ↔
      ¬ ".s3.".toList <:+: bucket ∧ ¬ ".s3".toList <:+ bucket := by
  have hsep : ".s3.".toList ≠ [] := by decide
  have hrest : '.' ∉ "s3".toList := by decide
  have hfirst := splitOnce_append_iff hsep bucket region
  have hsome : (splitOnce ".s3.".toList (bucket ++ (".s3.".toList ++ region))).isSome := by
    rw [Option.isSome_iff_ne_none, Ne, splitOnce_eq_none_iff (by decide), not_not]
    exact ⟨bucket, region, List.append_assoc _ _ _⟩
  obtain ⟨p, hp⟩ := Option.isSome_iff_exists.mp hsome
  rw [hp] at hfirst ⊢
  rw [Option.some_or, hfirst, ← not_or]
  exact not_congr (dotSeparator_infix_iff hrest)

theorem split_legacyHost_iff (hregion : '.' ∉ region) :
    (splitOnce ".s3.".toList (bucket ++ (".s3-".toList ++ region))).or
        (splitOnce ".s3-".toList (bucket ++ (".s3-".toList ++ region))) = some (bucket, region) ↔
      ¬ ".s3.".toList <:+: bucket ∧ ¬ ".s3".toList <:+ bucket ∧
        ¬ ".s3-".toList <:+: bucket := by
  have hsep : ".s3-".toList ≠ [] := by decide
  have hfirst := splitOnce_append_iff hsep bucket region
  have hdot : ".s3.".toList <:+: bucket ++ (".s3-".toList ++ region) ↔
      ".s3.".toList <:+: bucket ∨ ".s3".toList <:+ bucket := by
    have hrest : '.' ∉ "s3-".toList ++ region := by
      rw [List.mem_append, not_or]
      exact ⟨by decide, hregion⟩
    exact dotSeparator_infix_iff hrest
  rw [← and_assoc, ← not_or, ← hdot, ← hyphenSeparator_infix_iff]
  cases hsplit : splitOnce ".s3.".toList (bucket ++ (".s3-".toList ++ region)) with
  | none =>
      rw [Option.none_or, hfirst, and_iff_right ((splitOnce_eq_none_iff (by decide)).mp hsplit)]
      rfl
  | some p =>
      have hinfix : ".s3.".toList <:+: bucket ++ (".s3-".toList ++ region) := by
        by_contra hnot
        rw [(splitOnce_eq_none_iff (by decide)).mpr hnot] at hsplit
        cases hsplit
      rw [Option.some_or]
      refine iff_of_false (fun heq => ?_) fun h => h.1 hinfix
      -- A split at the right place would leave `.s3.` for `.s3-`.
      have heq' := eq_append_of_splitOnce (hsplit.trans heq)
      have hmid := List.append_cancel_left heq'
      exact absurd (congrArg (fun l => l[3]?) hmid) (by simp)

/-- A host and a key are cut apart at the first `/`. -/
theorem parseSource_https {lib : Libraries} {src : String} {host key : List Char}
    (hsrc : src.toList = "https://".toList ++ (host ++ '/' :: key)) (hhost : '/' ∉ host)
    (hkey : '?' ∉ key) {parsed : ParsedSource} :
    parseSource lib src = .ok parsed ↔ parseS3Host host key = some parsed := by
  have htake : key.takeWhile (· ≠ '?') = key := by
    refine List.takeWhile_eq_self_iff.mpr fun c hc => ?_
    exact decide_eq_true fun h => hkey (h ▸ hc)
  have hs3 : stripPrefix "s3://" ("https://".toList ++ (host ++ '/' :: key)) = none := rfl
  have hfile : stripPrefix "file://" ("https://".toList ++ (host ++ '/' :: key)) = none := rfl
  have hslash : ['/'].isPrefixOf ("https://".toList ++ (host ++ '/' :: key)) = false := rfl
  simp only [parseSource, hsrc, hs3, hfile, hslash, Bool.false_eq_true, if_false,
    stripPrefix_append, splitOnce_char hhost, Option.bind_some, htake]
  cases parseS3Host host key <;> simp

end Parsing

section Objects

variable {lib : Libraries} {o : S3Object}

theorem notMem_of_legalBucket {b : List Char} (h : LegalBucket b) {c : Char}
    (hc : isAlnum c = false) (hdot : c ≠ '.') (hhyphen : c ≠ '-') : c ∉ b := by
  intro hmem
  rcases h.chars c hmem with halnum | rfl | rfl
  · rw [hc] at halnum
    cases halnum
  · exact hdot rfl
  · exact hhyphen rfl

theorem notMem_of_legalRegion {r : List Char} (h : LegalRegion r) {c : Char}
    (hc : isAlnum c = false) (hhyphen : c ≠ '-') : c ∉ r := by
  intro hmem
  rcases h.chars c hmem with halnum | rfl
  · rw [hc] at halnum
    cases halnum
  · exact hhyphen rfl

/-- An address is read back exactly if the name of its bucket does not get in the way. -/
theorem parseSource_eq_iff (h : o.Legal) (sp : Spelling) :
    parseSource lib (o.url sp) = .ok (.s3 o.bucket o.key (o.regionOf sp)) ↔ o.ReadBack sp := by
  have hbucket : '/' ∉ o.bucket.toList := notMem_of_legalBucket h.bucket rfl (by decide) (by decide)
  have hquery : '?' ∉ o.bucket.toList := notMem_of_legalBucket h.bucket rfl (by decide) (by decide)
  have hregion : '/' ∉ o.region.toList := notMem_of_legalRegion h.region rfl (by decide)
  have hdot : '.' ∉ o.region.toList := notMem_of_legalRegion h.region rfl (by decide)
  have hsource : ParsedSource.s3 o.bucket o.key o.region =
      .s3 (String.ofList o.bucket.toList) (String.ofList o.key.toList)
        (String.ofList o.region.toList) := by
    simp only [String.ofList_toList]
  cases sp with
  | s3Scheme =>
      refine iff_of_true ?_ trivial
      have hsrc : (o.url .s3Scheme).toList =
          "s3://".toList ++ (o.bucket.toList ++ '/' :: o.key.toList) := by
        simp [S3Object.url]
      simp only [parseSource, hsrc, stripPrefix_append, splitOnce_char hbucket,
        String.ofList_toList]
      rfl
  | virtualHost =>
      have hsrc : (o.url .virtualHost).toList = "https://".toList ++
          ((o.bucket.toList ++ (".s3.".toList ++ o.region.toList) ++ ".amazonaws.com".toList) ++
            '/' :: o.key.toList) := by
        simp [S3Object.url]
      rw [parseSource_https hsrc (by simp [hbucket, hregion]) h.key_plain]
      show _ = some (ParsedSource.s3 o.bucket o.key o.region) ↔ _
      rw [hsource, parseS3Host_iff h.bucket.length_ge]
      exact and_congr_right' split_virtualHost_iff
  | legacyHost =>
      have hsrc : (o.url .legacyHost).toList = "https://".toList ++
          ((o.bucket.toList ++ (".s3-".toList ++ o.region.toList) ++ ".amazonaws.com".toList) ++
            '/' :: o.key.toList) := by
        simp [S3Object.url]
      rw [parseSource_https hsrc (by simp [hbucket, hregion]) h.key_plain]
      show _ = some (ParsedSource.s3 o.bucket o.key o.region) ↔ _
      rw [hsource, parseS3Host_iff h.bucket.length_ge]
      exact and_congr_right' (split_legacyHost_iff hdot)
  | pathStyle =>
      refine iff_of_true ?_ trivial
      have hsrc : (o.url .pathStyle).toList = "https://".toList ++
          ((("s3.".toList ++ o.region.toList) ++ ".amazonaws.com".toList) ++
            '/' :: (o.bucket.toList ++ '/' :: o.key.toList)) := by
        simp [S3Object.url]
      rw [parseSource_https hsrc (by simp [hregion]) (by simp [hquery, h.key_plain])]
      show _ = some (ParsedSource.s3 o.bucket o.key o.region)
      rw [hsource, parseS3Host, stripSuffix_append, Option.bind_some]
      simp only [stripPrefix_append, Option.some_or, Option.bind_some, splitOnce_char hbucket,
        Option.map_some]

end Objects

/-- Addresses are read back exactly where the name of the bucket allows it, and where they are,
different objects stay different. -/
theorem parseSource_url_iff (lib : Libraries) (o o' : S3Object) (h : o.Legal) (h' : o'.Legal)
    (sp sp' : Spelling) :
    (parseSource lib (o.url sp) = .ok (.s3 o.bucket o.key (o.regionOf sp)) ↔ o.ReadBack sp) ∧
      (o.ReadBack sp → o'.ReadBack sp' →
        parseSource lib (o.url sp) = parseSource lib (o'.url sp') →
          o.bucket = o'.bucket ∧ o.key = o'.key ∧ o.regionOf sp = o'.regionOf sp') := by
  refine ⟨parseSource_eq_iff h sp, fun hread hread' heq => ?_⟩
  rw [(parseSource_eq_iff h sp).mpr hread, (parseSource_eq_iff h' sp').mpr hread'] at heq
  injection heq with heq
  injection heq with hbucket hkey hregion
  exact ⟨hbucket, hkey, hregion⟩

/-- An object whose bucket has a plain name. -/
def plainObject : S3Object := ⟨"sentinel-cogs", "key/x.tif", "us-west-2"⟩

/-- A bucket with `.s3.` in its name. -/
def dottedObject : S3Object := ⟨"abc.s3.def", "k", "us-east-1"⟩

/-- A bucket whose name begins like the host of the path style. -/
def prefixedObject : S3Object := ⟨"s3.def", "abc/k", "us-east-1"⟩

theorem plainObject_legal : plainObject.Legal where
  bucket := ⟨by decide, by decide, List.all_iff_forall_prop.mp rfl,
    fun c hc => by cases hc; rfl, fun c hc => by cases hc; rfl, by decide⟩
  region := ⟨by decide, List.all_iff_forall_prop.mp rfl⟩
  key_ne := by decide
  key_plain := by decide

theorem dottedObject_legal : dottedObject.Legal where
  bucket := ⟨by decide, by decide, List.all_iff_forall_prop.mp rfl,
    fun c hc => by cases hc; rfl, fun c hc => by cases hc; rfl, by decide⟩
  region := ⟨by decide, List.all_iff_forall_prop.mp rfl⟩
  key_ne := by decide
  key_plain := by decide

theorem prefixedObject_legal : prefixedObject.Legal where
  bucket := ⟨by decide, by decide, List.all_iff_forall_prop.mp rfl,
    fun c hc => by cases hc; rfl, fun c hc => by cases hc; rfl, by decide⟩
  region := ⟨by decide, List.all_iff_forall_prop.mp rfl⟩
  key_ne := by decide
  key_plain := by decide

/-- Libraries that reach nothing. -/
def offlineLibraries : Libraries where
  toF32 := id
  display _ := ""
  canonicalize path := .error path
  openReader _ := .error (.other "offline")
  readIfds _ := .error (.other "offline")
  joinError := ""
  gdalOpen path := .error path
  bandError := ""
  fromDefinition d := .error d
  coordTransform _ _ := .error ""
  transformBounds _ _ _ := .error ""

theorem parseSource_url_iff_sample :
    (parseSource offlineLibraries (plainObject.url .virtualHost) =
        .ok (.s3 plainObject.bucket plainObject.key (plainObject.regionOf .virtualHost)) ↔
      plainObject.ReadBack .virtualHost) ∧
      (plainObject.ReadBack .virtualHost → dottedObject.ReadBack .pathStyle →
        parseSource offlineLibraries (plainObject.url .virtualHost) =
          parseSource offlineLibraries (dottedObject.url .pathStyle) →
          plainObject.bucket = dottedObject.bucket ∧ plainObject.key = dottedObject.key ∧
            plainObject.regionOf .virtualHost = dottedObject.regionOf .pathStyle) :=
  parseSource_url_iff offlineLibraries plainObject dottedObject plainObject_legal
    dottedObject_legal .virtualHost .pathStyle

/-- Two objects in different buckets are taken for a third one. -/
theorem dottedBuckets_misread :
    dottedObject.Legal ∧ prefixedObject.Legal ∧
      parseSource offlineLibraries (dottedObject.url .virtualHost) =
        .ok (.s3 "abc" "k" "def.s3.us-east-1") ∧
      parseSource offlineLibraries (prefixedObject.url .virtualHost) =
        .ok (.s3 "abc" "k" "def.s3.us-east-1") :=
  ⟨dottedObject_legal, prefixedObject_legal, rfl, rfl⟩

end OrbitOpenEO
