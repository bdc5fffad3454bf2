import OrbitOpenEO.Lib.BurstErrors
import OrbitOpenEO.Lib.PngFormat
import OrbitOpenEO.Json
import OrbitOpenEO.PngCrc32

/-!
# The PNG file of a single number

`save_result` answers a number in the PNG format with an image of one pixel, which
`write_png_1x1` writes by hand.  A reader of the format gets the pixel back, whatever the number
is, and it refuses the file when the tag and the data of a chunk are damaged within 32
consecutive bits: the checksum of the chunk sees such a burst
(`pngCrc32_ne_of_burst`).
-/

namespace OrbitOpenEO

open Lib Lib.PngFormat Lib.ShiftRegister

/-- `pixel.clamp(0.0, 255.0) as u8`. -/
def F64.toU8 (pixel : F64) : UInt8 :=
  match pixel.clamp (.finite 0) (.finite 255) with
  | .finite q => UInt8.ofNat (q.num.tdiv q.den).toNat
  | _ => 0

/-- `u32::to_be_bytes`. -/
def u32ToBeBytes (n : UInt32) : List UInt8 := beBytes n.toNat

/-- `u16::to_le_bytes`. -/
def u16ToLeBytes (n : UInt16) : List UInt8 := leBytes n.toNat

/-- `write_png_chunk`. -/
def writePngChunk (out : List UInt8) (tag : Vector UInt8 4) (data : List UInt8) : List UInt8 :=
  out ++ u32ToBeBytes (.ofNat data.length) ++ tag.toList ++ data ++
    u32ToBeBytes (pngCrc32 (tag.toList ++ data))

/-- The loop over the raw bytes that sums them up. -/
def adlerStep (s : UInt32 × UInt32) (x : UInt8) : UInt32 × UInt32 :=
  let a := (s.1 + x.toUInt32) % 65521
  (a, (s.2 + a) % 65521)

/-- The header of the image. -/
def png1x1Header : List UInt8 :=
  u32ToBeBytes 1 ++ u32ToBeBytes 1 ++ [8] ++ [0] ++ [0] ++ [0] ++ [0]

/-- The zlib stream of the raw bytes. -/
def storedStream (raw : List UInt8) : List UInt8 :=
  let (a, b) := raw.foldl adlerStep (1, 0)
  let header : List UInt8 := [0x78, 0x01, 0x01]
  header ++ u16ToLeBytes (.ofNat raw.length) ++
    u16ToLeBytes (~~~ (.ofNat raw.length)) ++ raw ++ u32ToBeBytes ((b <<< 16) ||| a)

/-- `write_png_1x1`. -/
def writePng1x1 (pixel : F64) : List UInt8 :=
  let v := pixel.toU8
  let out : List UInt8 := [0x89, 0x50, 0x4E, 0x47, 0x0D, 0x0A, 0x1A, 0x0A]
  let out := writePngChunk out ihdr png1x1Header
  let out := writePngChunk out idat (storedStream [0, v])
  writePngChunk out iend []

/-- The bits of some bytes in the order in which the checksum takes them. -/
def bitsOf (bs : List UInt8) : List Bool := messageBits (bs.map UInt8.toBitVec)

/-- The bytes differ, within as many consecutive bits only. -/
def Burst (width : Nat) (bs bs' : List UInt8) : Prop :=
  bs ≠ bs' ∧ bs.length = bs'.length ∧ ∃ before burst burst' after : List Bool,
    burst.length ≤ width ∧ burst.length = burst'.length ∧
      bitsOf bs = before ++ burst ++ after ∧ bitsOf bs' = before ++ burst' ++ after

theorem bitsOf_injective {bs bs' : List UInt8} (hlength : bs.length = bs'.length)
    (h : bitsOf bs = bitsOf bs') : bs = bs' := by
  induction bs generalizing bs' with
  | nil => exact (List.eq_nil_of_length_eq_zero hlength.symm).symm
  | cons b bs ih =>
      cases bs' with
      | nil => cases hlength
      | cons b' bs' =>
          simp only [bitsOf, messageBits, List.map_cons, List.flatMap_cons] at h
          obtain ⟨hfirst, hrest⟩ := List.append_inj h (by rw [length_wordBits, length_wordBits])
          have hbits : b.toBitVec = b'.toBitVec := by
            refine BitVec.eq_of_getLsbD_eq fun i hi => ?_
            exact (List.map_inj_left.mp hfirst) i (List.mem_range.mpr hi)
          rw [UInt8.toBitVec_inj.mp hbits, ih (Nat.succ.inj hlength) hrest]

/-- **The checksum sees every burst of 32 bits.** -/
theorem pngCrc32_ne_of_burst {bs bs' : List UInt8} (h : Burst 32 bs bs') :
    pngCrc32 bs ≠ pngCrc32 bs' := by
  obtain ⟨hne, hlength, before, burst, burst', after, hfits, hsame, hbits, hbits'⟩ := h
  intro hcrc
  have hregister : (bs.map UInt8.toBitVec).foldl (feed 0xEDB88320#32) 0xFFFFFFFF#32 =
      (bs'.map UInt8.toBitVec).foldl (feed 0xEDB88320#32) 0xFFFFFFFF#32 := by
    have hfold : bs.foldl crcByte 0xFFFFFFFF = bs'.foldl crcByte 0xFFFFFFFF :=
      (UInt32.xor_left_inj _).mp hcrc
    have hword := congrArg UInt32.toBitVec hfold
    rwa [foldl_crcByte_toBitVec, foldl_crcByte_toBitVec] at hword
  have hburst := eq_of_foldl_feed_eq (by decide) (by decide) (by simpa using hlength) hbits hbits'
    hsame hfits hregister
  refine hne (bitsOf_injective hlength ?_)
  rw [hbits, hbits', hburst]

theorem writePngChunk_eq (out : List UInt8) (c : Chunk) (hshort : c.data.length < 2 ^ 32) :
    writePngChunk out c.tag c.data = out ++ c.bytes pngCrc32 := by
  have hlength : (UInt32.ofNat c.data.length).toNat = c.data.length := by
    rw [UInt32.toNat_ofNat', Nat.mod_eq_of_lt hshort]
  simp only [writePngChunk, u32ToBeBytes, hlength, Chunk.bytes, Chunk.covered, List.append_assoc]

/-- The sums of the loop are the reduced ones. -/
theorem foldl_adlerStep (raw : List UInt8) {s : UInt32 × UInt32} {t : Nat × Nat}
    (h₁ : s.1.toNat = t.1 % adlerPrime) (h₂ : s.2.toNat = t.2 % adlerPrime) :
    (raw.foldl adlerStep s).1.toNat =
        (raw.foldl (fun s x => (s.1 + x.toNat, s.2 + (s.1 + x.toNat))) t).1 % adlerPrime ∧
      (raw.foldl adlerStep s).2.toNat =
        (raw.foldl (fun s x => (s.1 + x.toNat, s.2 + (s.1 + x.toNat))) t).2 % adlerPrime := by
  induction raw generalizing s t with
  | nil => exact ⟨h₁, h₂⟩
  | cons x raw ih =>
      have hx := x.toNat_lt
      have hfirst : (adlerStep s x).1.toNat = (t.1 + x.toNat) % adlerPrime := by
        simp only [adlerStep, UInt32.toNat_mod, UInt32.toNat_add, UInt8.toNat_toUInt32, h₁]
        rw [adlerPrime, show (65521 : UInt32).toNat = 65521 from rfl]
        omega
      refine ih hfirst ?_
      have hsecond : (adlerStep s x).2.toNat =
          (s.2.toNat + (adlerStep s x).1.toNat) % adlerPrime := by
        have hlt : (adlerStep s x).1.toNat < adlerPrime := by
          rw [hfirst]
          exact Nat.mod_lt _ (by decide)
        have hlt₂ : s.2.toNat < adlerPrime := by
          rw [h₂]
          exact Nat.mod_lt _ (by decide)
        change ((s.2 + (adlerStep s x).1) % 65521).toNat = _
        rw [UInt32.toNat_mod, UInt32.toNat_add, show (65521 : UInt32).toNat = 65521 from rfl]
        rw [adlerPrime] at *
        omega
      rw [hsecond, hfirst, h₂, ← Nat.add_mod]

theorem adlerWord (raw : List UInt8) :
    (((raw.foldl adlerStep (1, 0)).2 <<< 16) ||| (raw.foldl adlerStep (1, 0)).1).toNat =
      adler32 raw := by
  obtain ⟨h₁, h₂⟩ := foldl_adlerStep raw (s := (1, 0)) (t := (1, 0)) rfl rfl
  have hlt₁ : (adlerSums raw).1 % adlerPrime < 2 ^ 16 :=
    Nat.lt_of_lt_of_le (Nat.mod_lt _ (by decide)) (by decide)
  have hlt₂ : (adlerSums raw).2 % adlerPrime < 2 ^ 16 :=
    Nat.lt_of_lt_of_le (Nat.mod_lt _ (by decide)) (by decide)
  rw [UInt32.toNat_or, UInt32.toNat_shiftLeft, h₁, h₂]
  change (((adlerSums raw).2 % adlerPrime) <<< (16 % 32) % 2 ^ 32) |||
    (adlerSums raw).1 % adlerPrime = adler32 raw
  have hword : (adlerSums raw).2 % adlerPrime * 2 ^ 16 < 2 ^ 32 := by
    omega
  rw [Nat.shiftLeft_eq, show 16 % 32 = 16 from rfl, Nat.mod_eq_of_lt hword, Nat.mul_comm,
    ← Nat.two_pow_add_eq_or_of_lt hlt₁, adler32, Nat.mul_comm]

theorem zlibContents_storedStream {raw : List UInt8} (hshort : raw.length < 2 ^ 16) :
    zlibContents (storedStream raw) = some raw := by
  have hlength : (UInt16.ofNat raw.length).toNat = raw.length := by
    rw [UInt16.toNat_ofNat', Nat.mod_eq_of_lt hshort]
  have hcomplement : (~~~ (UInt16.ofNat raw.length)).toNat = 2 ^ 16 - 1 - raw.length := by
    rw [UInt16.toNat_not, hlength]
    rfl
  have hstream := zlibContents_stored hshort
  rw [← adlerWord raw, ← hcomplement] at hstream
  simp only [List.append_assoc, List.cons_append, List.nil_append] at hstream
  simpa only [storedStream, u16ToLeBytes, u32ToBeBytes, hlength, List.append_assoc,
    List.cons_append, List.nil_append] using hstream

/-- The chunks of the file. -/
def png1x1Chunks (v : UInt8) : List Chunk :=
  [⟨ihdr, png1x1Header⟩, ⟨idat, storedStream [0, v]⟩, ⟨iend, []⟩]

theorem length_storedStream (v : UInt8) : (storedStream [0, v]).length = 13 := by
  simp [storedStream, u16ToLeBytes, leBytes, u32ToBeBytes, beBytes]

theorem short_png1x1Chunks {v : UInt8} {c : Chunk} (hc : c ∈ png1x1Chunks v) :
    c.data.length < 2 ^ 31 := by
  simp only [png1x1Chunks, List.mem_cons, List.not_mem_nil, or_false] at hc
  obtain rfl | rfl | rfl := hc
  · decide
  · rw [length_storedStream]
    decide
  · decide

theorem writePng1x1_eq (pixel : F64) :
    writePng1x1 pixel =
      signature ++ (png1x1Chunks pixel.toU8).flatMap (Chunk.bytes pngCrc32) := by
  have hshort {c : Chunk} (hc : c ∈ png1x1Chunks pixel.toU8) : c.data.length < 2 ^ 32 :=
    Nat.lt_trans (short_png1x1Chunks hc) (by decide)
  have hheader := writePngChunk_eq signature ⟨ihdr, png1x1Header⟩ (hshort (by simp [png1x1Chunks]))
  have hdata (out : List UInt8) := writePngChunk_eq out ⟨idat, storedStream [0, pixel.toU8]⟩
    (hshort (by simp [png1x1Chunks]))
  have hend (out : List UInt8) := writePngChunk_eq out ⟨iend, []⟩
    (hshort (by simp [png1x1Chunks]))
  have hwritten : writePng1x1 pixel = writePngChunk (writePngChunk (writePngChunk signature
      ihdr png1x1Header) idat (storedStream [0, pixel.toU8])) iend [] := rfl
  rw [hwritten, hheader, hdata, hend]
  simp [png1x1Chunks, List.append_assoc]

/-- A damaged chunk ends the reading of the file. -/
theorem decode_damaged {before after : List Chunk} {c : Chunk} {covered : List UInt8}
    (hshort : ∀ d ∈ before ++ [c], d.data.length < 2 ^ 31) (hinner : ∀ d ∈ before, d.tag ≠ iend)
    (hburst : Burst 32 c.covered covered) :
    decode pngCrc32 (signature ++ (before.flatMap (Chunk.bytes pngCrc32) ++
      (beBytes c.data.length ++ covered ++ beBytes (pngCrc32 c.covered).toNat ++
        after.flatMap (Chunk.bytes pngCrc32)))) = none := by
  have hlength : covered.length = 4 + c.data.length := by
    rw [← hburst.2.1, length_covered]
  have hread := readChunk_eq_none pngCrc32 hlength
    (hshort c (List.mem_append_right _ (List.mem_singleton_self c))) (pngCrc32_ne_of_burst hburst)
    (after.flatMap (Chunk.bytes pngCrc32))
  rw [decode_signature, readChunks_of_not_read pngCrc32
    (fun d hd => hshort d (List.mem_append_left _ hd)) hinner hread]
  rfl

/-- Only the last chunk ends the file. -/
theorem inner_png1x1Chunks {v : UInt8} {c : Chunk} (hc : c ∈ (png1x1Chunks v).dropLast) :
    c.tag ≠ iend := by
  have hinner : (png1x1Chunks v).dropLast =
      [⟨ihdr, png1x1Header⟩, ⟨idat, storedStream [0, v]⟩] := rfl
  rw [hinner] at hc
  simp only [List.mem_cons, List.not_mem_nil, or_false] at hc
  obtain rfl | rfl := hc
  · exact (by decide : ihdr ≠ iend)
  · exact (by decide : idat ≠ iend)

theorem assemble_png1x1Chunks (v : UInt8) :
    assemble (png1x1Chunks v) = some ⟨1, 1, [[v]]⟩ := by
  have htags : ihdr = ihdr ∧ ∀ c ∈ [(⟨idat, storedStream [0, v]⟩ : Chunk), ⟨iend, []⟩],
      c.tag = idat ∨ c.tag = iend := by
    refine ⟨rfl, fun c hc => ?_⟩
    simp only [List.mem_cons, List.not_mem_nil, or_false] at hc
    obtain rfl | rfl := hc
    · exact .inl rfl
    · exact .inr rfl
  have hdata : ([(⟨idat, storedStream [0, v]⟩ : Chunk), ⟨iend, []⟩].filter
      (·.tag = idat)).flatMap Chunk.data = storedStream [0, v] := by
    have hend : iend ≠ idat := by decide
    simp [hend]
  have hheader : readHeader png1x1Header = some (1, 1) := by decide
  have hstream : zlibContents (storedStream [0, v]) = some [0, v] :=
    zlibContents_storedStream (show 2 < 2 ^ 16 by decide)
  rw [png1x1Chunks, assemble, if_pos htags, hdata, hheader, hstream]
  rfl

/-- **The file is read back, and a damaged one is refused.**  The checksum of the reader is that of
the format, to which `pngCrc32` comes (`pngCrc32_eq`). -/
theorem png_read_back (pixel : F64) :
    decode pngCrc32 (writePng1x1 pixel) = some ⟨1, 1, [[pixel.toU8]]⟩ ∧
      ∀ (before after : List Chunk) (c : Chunk) (covered : List UInt8),
        png1x1Chunks pixel.toU8 = before ++ c :: after → Burst 32 c.covered covered →
          decode pngCrc32 (signature ++ (before.flatMap (Chunk.bytes pngCrc32) ++
            (beBytes c.data.length ++ covered ++ beBytes (pngCrc32 c.covered).toNat ++
              after.flatMap (Chunk.bytes pngCrc32)))) = none := by
  constructor
  · have hall : (png1x1Chunks pixel.toU8).dropLast ++ [(⟨iend, []⟩ : Chunk)] =
        png1x1Chunks pixel.toU8 := rfl
    have hread (extra : Nat) : readChunks pngCrc32 (8 + extra)
        (((png1x1Chunks pixel.toU8).dropLast ++ [(⟨iend, []⟩ : Chunk)]).flatMap
          (Chunk.bytes pngCrc32)) =
            some ((png1x1Chunks pixel.toU8).dropLast ++ [(⟨iend, []⟩ : Chunk)]) :=
      readChunks_bytes pngCrc32 (fun c hc => short_png1x1Chunks hc)
        (fun c hc => inner_png1x1Chunks hc) rfl
        (Nat.lt_of_lt_of_le (by decide : 2 < 8) (Nat.le_add_right _ _))
    rw [hall] at hread
    rw [writePng1x1_eq, decode_signature, hread, Option.bind_some, assemble_png1x1Chunks]
  · intro before after c covered hcut hburst
    refine decode_damaged (fun d hd => short_png1x1Chunks (v := pixel.toU8) ?_)
      (fun d hd => inner_png1x1Chunks (v := pixel.toU8) ?_) hburst
    · rw [hcut, List.append_cons]
      exact List.mem_append_left _ hd
    · rw [hcut, List.dropLast_append_of_ne_nil (List.cons_ne_nil c after)]
      exact List.mem_append_left _ hd

theorem png_read_back_sample :
    decode pngCrc32 (writePng1x1 (.finite 7)) = some ⟨1, 1, [[7]]⟩ ∧
      decode pngCrc32 (signature ++ (((png1x1Chunks 7).dropLast).flatMap (Chunk.bytes pngCrc32) ++
        (beBytes 0 ++ [0x48, 0x45, 0x4E, 0x44] ++
          beBytes (pngCrc32 [0x49, 0x45, 0x4E, 0x44]).toNat ++ []))) = none := by
  have hread := png_read_back (.finite 7)
  have hpixel : F64.toU8 (.finite 7) = 7 := by decide
  rw [hpixel] at hread
  refine ⟨hread.1, hread.2 _ [] ⟨iend, []⟩ [0x48, 0x45, 0x4E, 0x44] rfl ⟨by decide, rfl, [],
    bitsOf [0x49, 0x45, 0x4E, 0x44], bitsOf [0x48, 0x45, 0x4E, 0x44], [], by decide, by decide,
    by decide, by decide⟩⟩

end OrbitOpenEO
