import OrbitOpenEO.FileStore
import OrbitOpenEO.Workspace
import OrbitOpenEO.Lib.Utf8

/-!
# What `validate_path` lets through

`validate_path` looks at the decoded path only, and the stores use the path as it
came.  `Reads` says how the decoder gets from one to the other: it keeps a character,
or it reads a run of percent signs and hexadecimal digits as one character.  None of
the refused characters and segments is made of these, so what is wrong with the path
as it came is wrong with the decoded one.
-/

namespace OrbitOpenEO

open Lib

@[simp] theorem splitSlash_nil : splitSlash [] = [[]] := rfl

theorem splitSlash_eq_cons : ∀ cs : List Char, ∃ seg segs, splitSlash cs = seg :: segs
  | [] => ⟨[], [], rfl⟩
  | c :: cs => by
      obtain ⟨seg, segs, hcs⟩ := splitSlash_eq_cons cs
      unfold splitSlash
      rw [hcs]
      by_cases hc : c = '/'
      · exact ⟨[], seg :: segs, if_pos hc⟩
      · exact ⟨c :: seg, segs, if_neg hc⟩

theorem splitSlash_ne_nil (cs : List Char) : splitSlash cs ≠ [] := by
  obtain ⟨seg, segs, hcs⟩ := splitSlash_eq_cons cs
  rw [hcs]
  exact List.cons_ne_nil seg segs

@[simp] theorem splitSlash_slash (cs : List Char) : splitSlash ('/' :: cs) = [] :: splitSlash cs := by
  obtain ⟨seg, segs, hcs⟩ := splitSlash_eq_cons cs
  rw [splitSlash, hcs]
  rfl

theorem splitSlash_cons_of_ne {c : Char} (hc : c ≠ '/') {cs seg : List Char}
    {segs : List (List Char)} (hcs : splitSlash cs = seg :: segs) :
    splitSlash (c :: cs) = (c :: seg) :: segs := by
  rw [splitSlash, hcs]
  exact if_neg hc

theorem splitSlash_append_of_notMem {cs seg : List Char} {segs : List (List Char)} :
    ∀ {run : List Char}, '/' ∉ run → splitSlash cs = seg :: segs →
      splitSlash (run ++ cs) = (run ++ seg) :: segs
  | [], _, hcs => hcs
  | c :: run, hrun, hcs => by
      obtain ⟨hc, hrun⟩ := not_or.mp (List.mem_cons.not.mp hrun)
      exact splitSlash_cons_of_ne (Ne.symm hc) (splitSlash_append_of_notMem hrun hcs)

theorem splitSlash_eq_splitOn : ∀ cs : List Char, splitSlash cs = cs.splitOn '/'
  | [] => rfl
  | c :: cs => by
      obtain ⟨seg, segs, hcs⟩ := splitSlash_eq_cons cs
      rw [List.splitOn_cons_eq_if_modifyHead, ← splitSlash_eq_splitOn cs, hcs]
      by_cases hc : c = '/'
      · rw [hc, splitSlash_slash, hcs]
        rfl
      · rw [splitSlash_cons_of_ne hc hcs, if_neg (by simpa using hc)]
        rfl

/-- Two texts with a slash between them. -/
theorem splitSlash_join (as bs : List Char) :
    splitSlash (as ++ '/' :: bs) = splitSlash as ++ splitSlash bs := by
  simp only [splitSlash_eq_splitOn]
  exact List.splitOn_append_cons_self as bs

theorem toList_join (root path : String) :
    (root ++ "/" ++ path).toList = root.toList ++ '/' :: path.toList := by
  rw [String.toList_append, String.toList_append, List.append_assoc]
  rfl

/-- Where a path leads, taken component by component from a directory. -/
def descend : List (List Char) → List (List Char) → List (List Char)
  | here, [] => here
  | here, seg :: segs =>
      if seg = [] ∨ seg = ['.'] then descend here segs
      else if seg = ['.', '.'] then descend here.dropLast segs
      else descend (here ++ [seg]) segs

theorem descend_append (ss : List (List Char)) :
    ∀ (rs here : List (List Char)), descend here (rs ++ ss) = descend (descend here rs) ss
  | [], _ => rfl
  | r :: rs, here => by
      rw [List.cons_append, descend, descend]
      split_ifs
      · exact descend_append ss rs _
      · exact descend_append ss rs _
      · exact descend_append ss rs _

/-- A component that is a name. -/
def NormalSegment (seg : List Char) : Prop := seg ≠ [] ∧ seg ≠ ['.'] ∧ seg ≠ ['.', '.']

theorem descend_normal : ∀ {segs : List (List Char)} (here : List (List Char)),
    (∀ seg ∈ segs, NormalSegment seg) → descend here segs = here ++ segs
  | [], here, _ => (List.append_nil here).symm
  | seg :: segs, here, h => by
      obtain ⟨⟨hempty, hdot, hdots⟩, hsegs⟩ := List.forall_mem_cons.mp h
      rw [descend, if_neg (not_or.mpr ⟨hempty, hdot⟩), if_neg hdots, descend_normal _ hsegs,
        List.append_assoc]
      rfl

/-- The characters an escape is made of. -/
def IsEscapeChar (c : Char) : Prop :=
  c = '%' ∨ (hexDigit (UInt8.ofNat c.toNat)).isSome ∧ c.toNat < 128

instance : DecidablePred IsEscapeChar := fun c => by
  unfold IsEscapeChar
  infer_instance

theorem IsEscapeChar.allowed {c : Char} (h : IsEscapeChar c) :
    isControl c = false ∧ c ∉ disallowedChars := by
  have hall : ∀ n < 128, IsEscapeChar (Char.ofNat n) →
      isControl (Char.ofNat n) = false ∧ Char.ofNat n ∉ disallowedChars := by decide
  have hc : c.toNat < 128 := by
    rcases h with rfl | ⟨_, hc⟩
    · decide
    · exact hc
  have hcode := hall c.toNat hc
  rw [Char.ofNat_toNat] at hcode
  exact hcode h

/-- `raw` is read as `decoded`. -/
inductive Reads : List Char → List Char → Prop
  | nil : Reads [] []
  | keep (c : Char) {raw decoded : List Char} (h : Reads raw decoded) :
      Reads (c :: raw) (c :: decoded)
  | escape {run : List Char} (d : Char) {raw decoded : List Char} (hne : run ≠ [])
      (hrun : ∀ c ∈ run, IsEscapeChar c) (h : Reads raw decoded) :
      Reads (run ++ raw) (d :: decoded)

theorem toNat_ofNat_ascii : ∀ n < 128, (Char.ofNat n).toNat = n := by decide

theorem hexDigit_eq_some {b v : UInt8} (h : hexDigit b = some v) :
    ∃ a : Char, IsEscapeChar a ∧ a.toNat < 128 ∧ UInt8.ofNat a.toNat = b := by
  have hb : b.toNat < 128 := by
    by_contra hlarge
    have hout : ∀ n : UInt8, n.toNat < 128 → ¬ b ≤ n := fun n hn hle => by
      rw [UInt8.le_iff_toNat_le] at hle
      omega
    unfold hexDigit at h
    rw [if_neg fun hc => hout 57 (by decide) hc.2, if_neg fun hc => hout 70 (by decide) hc.2,
      if_neg fun hc => hout 102 (by decide) hc.2] at h
    cases h
  have hchar : (Char.ofNat b.toNat).toNat = b.toNat := toNat_ofNat_ascii _ hb
  have hback : UInt8.ofNat (Char.ofNat b.toNat).toNat = b := by
    rw [hchar]
    exact UInt8.ofNat_toNat
  refine ⟨Char.ofNat b.toNat, Or.inr ⟨?_, ?_⟩, ?_, hback⟩
  · rw [hback, h]
    rfl
  · rw [hchar]
    exact hb
  · rw [hchar]
    exact hb

/-- What `percent_decode_once` does with a percent sign: it copies it, or it reads an
escape. -/
theorem percentDecodeBytes_percent (cs : List Char) :
    percentDecodeBytes (37 :: utf8 cs) = 37 :: percentDecodeBytes (utf8 cs) ∨
    ∃ hi lo cs' b, cs = hi :: lo :: cs' ∧ IsEscapeChar hi ∧ IsEscapeChar lo ∧
      percentDecodeBytes (37 :: utf8 cs) = b :: percentDecodeBytes (utf8 cs') := by
  cases hcs : utf8 cs with
  | nil => exact Or.inl rfl
  | cons x xs =>
      cases xs with
      | nil => exact Or.inl rfl
      | cons y ys =>
          cases hx : hexDigit x with
          | none =>
              left
              rw [percentDecodeBytes, hx]
          | some h =>
              cases hy : hexDigit y with
              | none =>
                  left
                  rw [percentDecodeBytes, hx, hy]
              | some l =>
                  right
                  obtain ⟨hi, hhi, hhi', rfl⟩ := hexDigit_eq_some hx
                  obtain ⟨lo, hlo, hlo', rfl⟩ := hexDigit_eq_some hy
                  obtain ⟨cs1, rfl, hcs1⟩ := utf8_eq_cons_ascii hhi' hcs
                  obtain ⟨cs2, rfl, rfl⟩ := utf8_eq_cons_ascii hlo' hcs1
                  refine ⟨hi, lo, cs2, h * 16 + l, rfl, hhi, hlo, ?_⟩
                  rw [percentDecodeBytes, hx, hy]

theorem percentDecodeBytes_cons_of_ne {b : UInt8} (hb : b ≠ 37) (bytes : List UInt8) :
    percentDecodeBytes (b :: bytes) = b :: percentDecodeBytes bytes := by
  rw [percentDecodeBytes]
  rintro _ _ _ rfl
  exact absurd rfl hb

theorem percentDecodeBytes_copies : ∀ {front : List UInt8} (bytes : List UInt8), 37 ∉ front →
    percentDecodeBytes (front ++ bytes) = front ++ percentDecodeBytes bytes
  | [], _, _ => rfl
  | b :: front, bytes, h => by
      obtain ⟨hb, hfront⟩ := not_or.mp (List.mem_cons.not.mp h)
      rw [List.cons_append, percentDecodeBytes_cons_of_ne (Ne.symm hb),
        percentDecodeBytes_copies bytes hfront]
      rfl

theorem percentDecodeBytes_utf8_cons {c : Char} (hc : c ≠ '%') (cs : List Char) :
    percentDecodeBytes (utf8 (c :: cs)) =
      String.utf8EncodeChar c ++ percentDecodeBytes (utf8 cs) := by
  rw [utf8_cons]
  refine percentDecodeBytes_copies _ fun hmem => hc ?_
  exact eq_of_ascii_mem_utf8EncodeChar (a := '%') (by decide) hmem

theorem isUTF8FirstByte_percent : (37 : UInt8).IsUTF8FirstByte := by decide

/-- Bytes that continue an encoding come from escapes. -/
theorem escapes_of_continuation : ∀ (more : List UInt8) {cs : List Char} {rest : List UInt8},
    (∀ b ∈ more, ¬ b.IsUTF8FirstByte) → percentDecodeBytes (utf8 cs) = more ++ rest →
    ∃ run cs', cs = run ++ cs' ∧ (∀ c ∈ run, IsEscapeChar c) ∧
      percentDecodeBytes (utf8 cs') = rest
  | [], cs, rest, _, h => ⟨[], cs, rfl, fun _ hc => absurd hc List.not_mem_nil, h⟩
  | b :: more, [], rest, _, h => by cases h
  | b :: more, c :: cs, rest, hmore, h => by
      obtain ⟨hb, hmore⟩ := List.forall_mem_cons.mp hmore
      by_cases hc : c = '%'
      · subst hc
        rw [utf8_cons] at h
        rcases percentDecodeBytes_percent cs with hcopy | ⟨hi, lo, cs1, v, rfl, hhi, hlo, hread⟩
        · have hbytes := hcopy.symm.trans h
          rw [List.cons_append, List.cons.injEq] at hbytes
          exact absurd (hbytes.1 ▸ isUTF8FirstByte_percent) hb
        · have hbytes := hread.symm.trans h
          rw [List.cons_append, List.cons.injEq] at hbytes
          obtain ⟨run, cs2, rfl, hrun, hrest⟩ := escapes_of_continuation more hmore hbytes.2
          refine ⟨'%' :: hi :: lo :: run, cs2, rfl, ?_, hrest⟩
          simp only [List.forall_mem_cons]
          exact ⟨Or.inl rfl, hhi, hlo, hrun⟩
      · obtain ⟨first, tail, hcode, hfirst, _⟩ := utf8EncodeChar_eq_cons c
        rw [percentDecodeBytes_utf8_cons hc, hcode, List.cons_append, List.cons_append,
          List.cons.injEq] at h
        exact absurd (h.1 ▸ hfirst) hb

/-- **The decoder reads characters**, whatever the escapes are. -/
theorem reads_of_percentDecodeBytes : ∀ (cs ds : List Char),
    percentDecodeBytes (utf8 cs) = utf8 ds → Reads cs ds
  | [], [], _ => .nil
  | [], d :: ds, h => by
      obtain ⟨first, more, hd, _⟩ := utf8EncodeChar_eq_cons d
      rw [utf8_cons, hd] at h
      cases h
  | c :: cs, ds, h => by
      by_cases hc : c = '%'
      · subst hc
        rw [utf8_cons] at h
        rcases percentDecodeBytes_percent cs with hcopy | ⟨hi, lo, cs1, v, rfl, hhi, hlo, hread⟩
        · have hcopied : utf8 ds = UInt8.ofNat '%'.toNat :: percentDecodeBytes (utf8 cs) :=
            h.symm.trans hcopy
          obtain ⟨ds', rfl, hds⟩ := utf8_eq_cons_ascii (by decide) hcopied
          exact .keep '%' (reads_of_percentDecodeBytes cs ds' hds.symm)
        · have hbytes : v :: percentDecodeBytes (utf8 cs1) = utf8 ds := hread.symm.trans h
          cases ds with
          | nil => cases hbytes
          | cons d ds' =>
              obtain ⟨first, more, hd, _, hmore⟩ := utf8EncodeChar_eq_cons d
              rw [utf8_cons, hd, List.cons_append, List.cons.injEq] at hbytes
              obtain ⟨run, cs2, rfl, hrun, hrest⟩ := escapes_of_continuation more hmore hbytes.2
              have hesc : ∀ c ∈ '%' :: hi :: lo :: run, IsEscapeChar c := by
                simp only [List.forall_mem_cons]
                exact ⟨Or.inl rfl, hhi, hlo, hrun⟩
              exact .escape d (List.cons_ne_nil _ _) hesc
                (reads_of_percentDecodeBytes cs2 ds' hrest)
      · rw [percentDecodeBytes_utf8_cons hc] at h
        cases ds with
        | nil =>
            obtain ⟨first, more, hcode, _⟩ := utf8EncodeChar_eq_cons c
            rw [hcode] at h
            cases h
        | cons d ds' =>
            obtain ⟨rfl, hrest⟩ := utf8EncodeChar_append_inj h
            exact .keep c (reads_of_percentDecodeBytes cs ds' hrest)
termination_by cs => cs.length

theorem Reads.refl : ∀ cs : List Char, Reads cs cs
  | [] => .nil
  | c :: cs => .keep c (refl cs)

/-- A percent-decoded text is read from the text as it came, unless it is the mark for
bytes that are no text. -/
theorem reads_percentDecodeOnce (s : String) :
    Reads s.toList (percentDecodeOnce s).toList ∨ percentDecodeOnce s = "\\0invalid" := by
  unfold percentDecodeOnce
  split
  · cases htext : String.fromUTF8? ⟨(percentDecodeBytes s.toUTF8.toList).toArray⟩ with
    | none => exact Or.inr rfl
    | some t =>
        have hbytes := eq_utf8_of_fromUTF8? htext
        rw [toUTF8_toList] at hbytes
        exact Or.inl (reads_of_percentDecodeBytes _ _ hbytes)
  · exact Or.inl (Reads.refl _)

namespace Reads

variable {raw decoded : List Char}

theorem nonempty (h : Reads raw decoded) (hd : decoded ≠ []) : raw ≠ [] := by
  cases h with
  | nil => exact hd
  | keep => exact List.cons_ne_nil _ _
  | escape d hne => exact List.append_ne_nil_of_left_ne_nil hne _

theorem mem {c : Char} (hc : ¬ IsEscapeChar c) (h : Reads raw decoded) (hmem : c ∈ raw) :
    c ∈ decoded := by
  induction h with
  | nil => exact hmem
  | keep a h ih =>
      rcases List.mem_cons.mp hmem with rfl | hmem
      · exact List.mem_cons_self
      · exact List.mem_cons_of_mem _ (ih hmem)
  | escape d hne hrun h ih =>
      rcases List.mem_append.mp hmem with hmem | hmem
      · exact absurd (hrun _ hmem) hc
      · exact List.mem_cons_of_mem _ (ih hmem)

theorem head {c : Char} (hc : ¬ IsEscapeChar c) (h : Reads raw decoded)
    (hhead : raw.head? = some c) : decoded.head? = some c := by
  cases h with
  | nil => exact hhead
  | keep a h => exact hhead
  | @escape run d raw decoded hne hrun h =>
      obtain ⟨a, run, rfl⟩ := List.exists_cons_of_ne_nil hne
      rw [List.cons_append, List.head?_cons, Option.some.injEq] at hhead
      exact absurd (hrun c (hhead ▸ List.mem_cons_self)) hc

/-- A segment without percent signs and digits is a segment of the decoded text. -/
theorem segments (h : Reads raw decoded) {first : List Char} {others : List (List Char)}
    (hraw : splitSlash raw = first :: others) :
    ∃ first' others', splitSlash decoded = first' :: others' ∧
      ((∀ c ∈ first, ¬ IsEscapeChar c) → first' = first) ∧
      ∀ seg ∈ others, (∀ c ∈ seg, ¬ IsEscapeChar c) → seg ∈ others' := by
  induction h generalizing first others with
  | nil =>
      cases hraw
      exact ⟨[], [], rfl, fun _ => rfl, fun _ hseg => absurd hseg List.not_mem_nil⟩
  | @keep c raw decoded h ih =>
      obtain ⟨seg, segs, hsplit⟩ := splitSlash_eq_cons raw
      obtain ⟨seg', segs', hdecoded, hfirst, hothers⟩ := ih hsplit
      by_cases hc : c = '/'
      · subst hc
        rw [splitSlash_slash, List.cons.injEq] at hraw
        obtain ⟨rfl, rfl⟩ := hraw
        refine ⟨[], seg' :: segs', by rw [splitSlash_slash, hdecoded], fun _ => rfl, ?_⟩
        rw [hsplit]
        intro s hs hplain
        rcases List.mem_cons.mp hs with rfl | hs
        · rw [hfirst hplain]
          exact List.mem_cons_self
        · exact List.mem_cons_of_mem _ (hothers s hs hplain)
      · rw [splitSlash_cons_of_ne hc hsplit, List.cons.injEq] at hraw
        obtain ⟨rfl, rfl⟩ := hraw
        refine ⟨c :: seg', segs', splitSlash_cons_of_ne hc hdecoded, fun hplain => ?_, hothers⟩
        rw [hfirst (List.forall_mem_cons.mp hplain).2]
  | @escape run d raw decoded hne hrun h ih =>
      obtain ⟨seg, segs, hsplit⟩ := splitSlash_eq_cons raw
      obtain ⟨seg', segs', hdecoded, _, hothers⟩ := ih hsplit
      have hnoslash : '/' ∉ run := fun hmem => absurd (hrun _ hmem) (by decide)
      rw [splitSlash_append_of_notMem hnoslash hsplit, List.cons.injEq] at hraw
      obtain ⟨rfl, rfl⟩ := hraw
      obtain ⟨a, run', rfl⟩ := List.exists_cons_of_ne_nil hne
      have hescape : ¬ ∀ c ∈ (a :: run') ++ seg, ¬ IsEscapeChar c := fun hplain =>
        hplain a List.mem_cons_self (hrun a List.mem_cons_self)
      by_cases hd : d = '/'
      · subst hd
        refine ⟨[], seg' :: segs', by rw [splitSlash_slash, hdecoded],
          fun hplain => absurd hplain hescape, ?_⟩
        exact fun s hs hplain => List.mem_cons_of_mem _ (hothers s hs hplain)
      · exact ⟨d :: seg', segs', splitSlash_cons_of_ne hd hdecoded,
          fun hplain => absurd hplain hescape, hothers⟩

theorem mem_segments (h : Reads raw decoded) {seg : List Char} (hplain : ∀ c ∈ seg, ¬ IsEscapeChar c)
    (hseg : seg ∈ splitSlash raw) : seg ∈ splitSlash decoded := by
  obtain ⟨first, others, hraw⟩ := splitSlash_eq_cons raw
  obtain ⟨first', others', hdecoded, hfirst, hothers⟩ := h.segments hraw
  rw [hraw] at hseg
  rw [hdecoded]
  rcases List.mem_cons.mp hseg with rfl | hseg
  · rw [hfirst hplain]
    exact List.mem_cons_self
  · exact List.mem_cons_of_mem _ (hothers seg hseg hplain)

end Reads

/-- A path that leads to a place under every root it is joined to. -/
structure SafePath (cs : List Char) : Prop where
  nonempty : cs ≠ []
  relative : cs.head? ≠ some '/'
  segments : ∀ seg ∈ splitSlash cs, NormalSegment seg
  chars : ∀ c ∈ cs, isControl c = false ∧ c ∉ disallowedChars
  noDash : cs.head? ≠ some '-'
  noTilde : cs.head? ≠ some '~'

theorem checkChars_eq_ok : ∀ {cs : List Char}, checkChars cs = .ok () →
    ∀ c ∈ cs, isControl c = false ∧ c ∉ disallowedChars
  | [], _ => fun _ hc => absurd hc List.not_mem_nil
  | c :: cs, h => by
      unfold checkChars at h
      split_ifs at h with hcontrol hdisallowed
      refine List.forall_mem_cons.mpr ⟨⟨?_, ?_⟩, checkChars_eq_ok h⟩
      · exact Bool.eq_false_of_not_eq_true hcontrol
      · rwa [List.contains_iff_mem] at hdisallowed

/-- What is accepted is safe when it is decoded. -/
theorem safePath_percentDecodeOnce {p : String} (h : validatePath p = .ok ()) :
    SafePath (percentDecodeOnce p).toList := by
  unfold validatePath at h
  generalize (percentDecodeOnce p).toList = target at h ⊢
  simp only [bind, Except.bind, pure, Except.pure, throw, throwThe, MonadExceptOf.throw] at h
  split_ifs at h with hempty habsolute hdash htilde hdrive hsegment
  · cases hchars : checkChars target <;> rw [hchars] at h <;> cases h
  · cases hchars : checkChars target with
    | error e =>
        rw [hchars] at h
        cases h
    | ok u =>
        refine ⟨?_, fun hhead => habsolute (Or.inl hhead), ?_, checkChars_eq_ok hchars, hdash, htilde⟩
        · rintro rfl
          exact hempty rfl
        · intro seg hseg
          have hnormal := List.any_eq_false.mp (Bool.eq_false_of_not_eq_true hsegment) seg hseg
          simp only [Bool.or_eq_true, beq_iff_eq, List.isEmpty_iff, not_or] at hnormal
          exact ⟨hnormal.2, hnormal.1.2, hnormal.1.1⟩

/-- What is read as a safe path is one. -/
theorem SafePath.of_reads {raw decoded : List Char} (hsafe : SafePath decoded)
    (h : Reads raw decoded) : SafePath raw where
  nonempty := h.nonempty hsafe.nonempty
  relative := fun hhead => hsafe.relative (h.head (by decide) hhead)
  segments := fun seg hseg => by
    have hdot : ¬ IsEscapeChar '.' := by decide
    refine ⟨?_, ?_, ?_⟩
    · rintro rfl
      have hplain : ∀ c ∈ ([] : List Char), ¬ IsEscapeChar c := fun _ hc =>
        absurd hc List.not_mem_nil
      exact (hsafe.segments _ (h.mem_segments hplain hseg)).1 rfl
    · rintro rfl
      have hplain : ∀ c ∈ ['.'], ¬ IsEscapeChar c := List.forall_mem_singleton.mpr hdot
      exact (hsafe.segments _ (h.mem_segments hplain hseg)).2.1 rfl
    · rintro rfl
      have hplain : ∀ c ∈ ['.', '.'], ¬ IsEscapeChar c :=
        List.forall_mem_cons.mpr ⟨hdot, List.forall_mem_singleton.mpr hdot⟩
      exact (hsafe.segments _ (h.mem_segments hplain hseg)).2.2 rfl
  chars := fun c hc => by
    by_cases hescape : IsEscapeChar c
    · exact hescape.allowed
    · exact hsafe.chars c (h.mem hescape hc)
  noDash := fun hhead => hsafe.noDash (h.head (by decide) hhead)
  noTilde := fun hhead => hsafe.noTilde (h.head (by decide) hhead)

/-- What is accepted is safe as it came. -/
theorem safePath_of_validatePath {p : String} (h : validatePath p = .ok ()) :
    SafePath p.toList := by
  have hdecoded := safePath_percentDecodeOnce h
  rcases reads_percentDecodeOnce p with hreads | hinvalid
  · exact hdecoded.of_reads hreads
  · rw [hinvalid] at hdecoded
    exact absurd (hdecoded.chars '\\' (by decide)).2 (by decide)

/-- **A safe path stays under its root**: from wherever one starts, the joined path
leads to the root and on from there through the segments of the path. -/
theorem SafePath.descend_join {p : String} (h : SafePath p.toList) (root : PathBuf)
    (here : List (List Char)) :
    descend here (splitSlash (scratch root p).toList) =
      descend here (splitSlash root.toList) ++ splitSlash p.toList := by
  unfold scratch
  rw [if_neg h.relative]
  rw [toList_join, splitSlash_join, descend_append, descend_normal _ h.segments]

/-- **`validate_path` safety**: a path that is accepted is safe both as it came and
decoded, and stays under every root in either form. -/
theorem validatePath_safe {p : String} (h : validatePath p = .ok ()) :
    ∀ form ∈ [p, percentDecodeOnce p], SafePath form.toList ∧
      ∀ (root : PathBuf) (here : List (List Char)),
        descend here (splitSlash (scratch root form).toList) =
          descend here (splitSlash root.toList) ++ splitSlash form.toList := by
  have hraw := safePath_of_validatePath h
  have hdecoded := safePath_percentDecodeOnce h
  simp only [List.forall_mem_cons]
  exact ⟨⟨hraw, hraw.descend_join⟩, ⟨hdecoded, hdecoded.descend_join⟩,
    fun _ hform => absurd hform List.not_mem_nil⟩

/-- A path with an escape that is read as a slash. -/
theorem validatePath_safe_escaped : validatePath "a%2fb" = .ok () ∧
    SafePath "a%2fb".toList ∧ SafePath (percentDecodeOnce "a%2fb").toList := by
  have hdecoded : percentDecodeOnce "a%2fb" = "a/b" := by
    unfold percentDecodeOnce
    rw [if_pos (by decide), toUTF8_toList]
    have hbytes : percentDecodeBytes (utf8 "a%2fb".toList) = utf8 "a/b".toList := by decide
    rw [hbytes, fromUTF8?_utf8]
    exact String.ofList_toList
  have hok : validatePath "a%2fb" = .ok () := by
    unfold validatePath
    rw [hdecoded]
    decide
  have hsafe := validatePath_safe hok
  exact ⟨hok, (hsafe _ List.mem_cons_self).1,
    (hsafe _ (List.mem_cons_of_mem _ List.mem_cons_self)).1⟩

end OrbitOpenEO
