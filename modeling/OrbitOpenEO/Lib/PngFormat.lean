import OrbitOpenEO.Lib.Numerals
import Mathlib.Data.List.Basic
import Mathlib.Tactic.Ring

/-!
# Gray PNG files

A reader of PNG files with eight bits of gray: the signature, the chunks with their checksums,
the zlib stream of stored blocks and the scanlines without a filter.  The checksum of the
chunks is a parameter.  What is written chunk by chunk is read back (`readChunks_bytes`), and a
chunk that is not read ends the reading of the file (`readChunks_of_not_read`).
-/

namespace OrbitOpenEO
namespace Lib
namespace PngFormat

/-- The four bytes of a number, the highest first. -/
def beBytes (n : Nat) : List UInt8 :=
  [.ofNat (n / 2 ^ 24), .ofNat (n / 2 ^ 16), .ofNat (n / 2 ^ 8), .ofNat n]

/-- The two bytes of a number, the lowest first. -/
def leBytes (n : Nat) : List UInt8 := [.ofNat n, .ofNat (n / 2 ^ 8)]

def readBe : List UInt8 → Option (Nat × List UInt8)
  | a :: b :: c :: d :: rest =>
      some (a.toNat * 2 ^ 24 + b.toNat * 2 ^ 16 + c.toNat * 2 ^ 8 + d.toNat, rest)
  | _ => none

theorem readBe_beBytes {n : Nat} (h : n < 2 ^ 32) (rest : List UInt8) :
    readBe (beBytes n ++ rest) = some (n, rest) := by
  have hvalue : n / 2 ^ 24 % 2 ^ 8 * 2 ^ 24 + n / 2 ^ 16 % 2 ^ 8 * 2 ^ 16 +
      n / 2 ^ 8 % 2 ^ 8 * 2 ^ 8 + n % 2 ^ 8 = n := by
    omega
  simp only [beBytes, List.cons_append, List.nil_append, readBe, UInt8.toNat_ofNat', hvalue]

/-- A chunk. -/
structure Chunk where
  tag : Vector UInt8 4
  data : List UInt8

/-- The part of a chunk that its checksum covers. -/
def Chunk.covered (c : Chunk) : List UInt8 := c.tag.toList ++ c.data

variable (crc : List UInt8 → UInt32)

/-- A chunk as it is written. -/
def Chunk.bytes (c : Chunk) : List UInt8 :=
  beBytes c.data.length ++ c.covered ++ beBytes (crc c.covered).toNat

/-- The first chunk, and the bytes after it. -/
def readChunk (bs : List UInt8) : Option (Chunk × List UInt8) :=
  match readBe bs with
  | some (length, t₀ :: t₁ :: t₂ :: t₃ :: bs) =>
      let chunk : Chunk := ⟨#v[t₀, t₁, t₂, t₃], bs.take length⟩
      match readBe (bs.drop length) with
      | some (sum, rest) =>
          if length < 2 ^ 31 ∧ sum = (crc chunk.covered).toNat then some (chunk, rest) else none
      | none => none
  | _ => none

/-- The tag of the last chunk. -/
def iend : Vector UInt8 4 := #v[0x49, 0x45, 0x4E, 0x44]

/-- The chunks up to the last one. -/
def readChunks : Nat → List UInt8 → Option (List Chunk)
  | 0, _ => none
  | fuel + 1, bs =>
      match readChunk crc bs with
      | some (chunk, rest) =>
          if chunk.tag = iend then if rest = [] then some [chunk] else none
          else (readChunks fuel rest).map (chunk :: ·)
      | none => none

theorem length_covered (c : Chunk) : c.covered.length = 4 + c.data.length := by
  rw [Chunk.covered, List.length_append, Vector.length_toList]

/-- The bytes of a chunk are read as their checksum says. -/
theorem readChunk_append {covered : List UInt8} {n : Nat} (hlength : covered.length = 4 + n)
    (hshort : n < 2 ^ 31) (sum : UInt32) (rest : List UInt8) :
    ∃ c : Chunk, c.covered = covered ∧
      readChunk crc (beBytes n ++ covered ++ beBytes sum.toNat ++ rest) =
        if sum = crc covered then some (c, rest) else none := by
  obtain ⟨t₀, t₁, t₂, t₃, data, rfl⟩ : ∃ t₀ t₁ t₂ t₃ data,
      covered = t₀ :: t₁ :: t₂ :: t₃ :: data := by
    match covered, hlength with
    | t₀ :: t₁ :: t₂ :: t₃ :: data, _ => exact ⟨t₀, t₁, t₂, t₃, data, rfl⟩
    | [], h => exact absurd h (by simp; omega)
    | [_], h => exact absurd h (by simp; omega)
    | [_, _], h => exact absurd h (by simp; omega)
    | [_, _, _], h => exact absurd h (by simp; omega)
  have hdata : data.length = n := by
    simp only [List.length_cons] at hlength
    omega
  refine ⟨⟨#v[t₀, t₁, t₂, t₃], data⟩, rfl, ?_⟩
  have hread : readBe (beBytes n ++ (t₀ :: t₁ :: t₂ :: t₃ :: data) ++ beBytes sum.toNat ++ rest) =
      some (n, t₀ :: t₁ :: t₂ :: t₃ :: (data ++ (beBytes sum.toNat ++ rest))) := by
    rw [List.append_assoc, List.append_assoc, readBe_beBytes (by omega)]
    simp only [List.cons_append]
  have htake : (data ++ (beBytes sum.toNat ++ rest)).take n = data := by
    rw [← hdata, List.take_left]
  have hdrop : (data ++ (beBytes sum.toNat ++ rest)).drop n = beBytes sum.toNat ++ rest := by
    rw [← hdata, List.drop_left]
  have hcovered : Chunk.covered ⟨#v[t₀, t₁, t₂, t₃], data⟩ = t₀ :: t₁ :: t₂ :: t₃ :: data := rfl
  rw [readChunk, hread]
  dsimp only
  rw [hdrop, readBe_beBytes sum.toNat_lt, htake]
  dsimp only
  rw [hcovered]
  by_cases hsum : sum = crc (t₀ :: t₁ :: t₂ :: t₃ :: data)
  · rw [if_pos hsum, if_pos ⟨hshort, congrArg UInt32.toNat hsum⟩]
  · rw [if_neg hsum, if_neg fun h => hsum (UInt32.toNat_inj.mp h.2)]

/-- **A written chunk is read back.** -/
theorem readChunk_bytes (c : Chunk) (hshort : c.data.length < 2 ^ 31) (rest : List UInt8) :
    readChunk crc (c.bytes crc ++ rest) = some (c, rest) := by
  obtain ⟨c', hcovered, hread⟩ := readChunk_append crc (length_covered c) hshort
    (crc c.covered) rest
  rw [if_pos rfl] at hread
  have hsame : c' = c := by
    obtain ⟨tag, data⟩ := c
    obtain ⟨tag', data'⟩ := c'
    obtain ⟨htag, hdata⟩ := List.append_inj hcovered (by
      rw [Vector.length_toList, Vector.length_toList])
    exact congrArg₂ Chunk.mk (Vector.toList_inj.mp htag) hdata
  rw [Chunk.bytes, hread, hsame]

/-- **A chunk with another checksum is not read.** -/
theorem readChunk_eq_none {covered : List UInt8} {n : Nat} (hlength : covered.length = 4 + n)
    (hshort : n < 2 ^ 31) {sum : UInt32} (hsum : sum ≠ crc covered) (rest : List UInt8) :
    readChunk crc (beBytes n ++ covered ++ beBytes sum.toNat ++ rest) = none := by
  obtain ⟨_, _, hread⟩ := readChunk_append crc hlength hshort sum rest
  rw [hread, if_neg hsum]

/-- **The chunks of a file are read back.** -/
theorem readChunks_bytes {chunks : List Chunk} {last : Chunk}
    (hshort : ∀ c ∈ chunks ++ [last], c.data.length < 2 ^ 31)
    (hinner : ∀ c ∈ chunks, c.tag ≠ iend) (hlast : last.tag = iend) {fuel : Nat}
    (hfuel : chunks.length < fuel) :
    readChunks crc fuel ((chunks ++ [last]).flatMap (Chunk.bytes crc)) = some (chunks ++ [last]) := by
  induction chunks generalizing fuel with
  | nil =>
      obtain ⟨fuel, rfl⟩ := Nat.exists_eq_succ_of_ne_zero (Nat.ne_of_gt hfuel)
      have hread := readChunk_bytes crc last (hshort last (List.mem_singleton_self last)) []
      rw [List.append_nil] at hread
      simp [readChunks, hread, hlast]
  | cons c chunks ih =>
      obtain ⟨fuel, rfl⟩ := Nat.exists_eq_succ_of_ne_zero (Nat.ne_of_gt (Nat.zero_lt_of_lt hfuel))
      have hrest := ih (fun c' hc' => hshort c' (List.mem_cons_of_mem c hc'))
        (fun c' hc' => hinner c' (List.mem_cons_of_mem c hc')) (Nat.lt_of_succ_lt_succ hfuel)
      have hread := readChunk_bytes crc c (hshort c List.mem_cons_self)
        ((chunks ++ [last]).flatMap (Chunk.bytes crc))
      rw [List.cons_append, List.flatMap_cons]
      simp only [readChunks, hread, if_neg (hinner c List.mem_cons_self), hrest, Option.map_some]

/-- **A chunk that is not read ends the reading.** -/
theorem readChunks_of_not_read {chunks : List Chunk} {bs : List UInt8}
    (hshort : ∀ c ∈ chunks, c.data.length < 2 ^ 31) (hinner : ∀ c ∈ chunks, c.tag ≠ iend)
    (hread : readChunk crc bs = none) (fuel : Nat) :
    readChunks crc fuel (chunks.flatMap (Chunk.bytes crc) ++ bs) = none := by
  induction chunks generalizing fuel with
  | nil =>
      cases fuel with
      | zero => rfl
      | succ fuel => simp [readChunks, hread]
  | cons c chunks ih =>
      cases fuel with
      | zero => rfl
      | succ fuel =>
          have hrest := ih (fun c' hc' => hshort c' (List.mem_cons_of_mem c hc'))
            (fun c' hc' => hinner c' (List.mem_cons_of_mem c hc')) fuel
          have hfirst := readChunk_bytes crc c (hshort c List.mem_cons_self)
            (chunks.flatMap (Chunk.bytes crc) ++ bs)
          rw [List.flatMap_cons, List.append_assoc]
          simp only [readChunks, hfirst, if_neg (hinner c List.mem_cons_self), hrest,
            Option.map_none]

/-- The two sums of Adler-32 before they are reduced. -/
def adlerSums (bs : List UInt8) : Nat × Nat :=
  bs.foldl (fun s x => (s.1 + x.toNat, s.2 + (s.1 + x.toNat))) (1, 0)

/-- The modulus of Adler-32. -/
def adlerPrime : Nat := 65521

def adler32 (bs : List UInt8) : Nat :=
  (adlerSums bs).2 % adlerPrime * 2 ^ 16 + (adlerSums bs).1 % adlerPrime

/-- The stored blocks up to the final one, and the bytes after it. -/
def inflateStored : Nat → List UInt8 → Option (List UInt8 × List UInt8)
  | fuel + 1, head :: l₀ :: l₁ :: n₀ :: n₁ :: rest =>
      let len := l₀.toNat + l₁.toNat * 2 ^ 8
      let nlen := n₀.toNat + n₁.toNat * 2 ^ 8
      -- the block type stands in the second and the third bit
      if head.toNat / 2 % 4 = 0 ∧ len + nlen = 2 ^ 16 - 1 ∧ len ≤ rest.length then
        if head.toNat % 2 = 1 then some (rest.take len, rest.drop len)
        else (inflateStored fuel (rest.drop len)).map fun r => (rest.take len ++ r.1, r.2)
      else none
  | _, _ => none

/-- The contents of a zlib stream of stored blocks without a dictionary. -/
def zlibContents : List UInt8 → Option (List UInt8)
  | cmf :: flg :: bs =>
      if cmf.toNat % 16 = 8 ∧ cmf.toNat / 16 ≤ 7 ∧ (cmf.toNat * 2 ^ 8 + flg.toNat) % 31 = 0 ∧
          flg.toNat / 32 % 2 = 0 then
        match inflateStored bs.length bs with
        | some (contents, tail) =>
            if readBe tail = some (adler32 contents, []) then some contents else none
        | none => none
      else none
  | _ => none

theorem adler32_lt (bs : List UInt8) : adler32 bs < 2 ^ 32 := by
  have h₁ := Nat.mod_lt (adlerSums bs).1 (show 0 < adlerPrime by decide)
  have h₂ := Nat.mod_lt (adlerSums bs).2 (show 0 < adlerPrime by decide)
  rw [adler32]
  rw [adlerPrime] at *
  omega

/-- **A single stored block is read back.** -/
theorem zlibContents_stored {contents : List UInt8} (hshort : contents.length < 2 ^ 16) :
    zlibContents ([0x78, 0x01, 0x01] ++ leBytes contents.length ++
      leBytes (2 ^ 16 - 1 - contents.length) ++ contents ++ beBytes (adler32 contents)) =
      some contents := by
  have hlen : contents.length % 2 ^ 8 + contents.length / 2 ^ 8 % 2 ^ 8 * 2 ^ 8 =
      contents.length := by
    omega
  have hnlen : (2 ^ 16 - 1 - contents.length) % 2 ^ 8 +
      (2 ^ 16 - 1 - contents.length) / 2 ^ 8 % 2 ^ 8 * 2 ^ 8 = 2 ^ 16 - 1 - contents.length := by
    omega
  have hsum : contents.length + (2 ^ 16 - 1 - contents.length) = 2 ^ 16 - 1 := by
    omega
  have hle : contents.length ≤ (contents ++ beBytes (adler32 contents)).length := by
    rw [List.length_append]
    exact Nat.le_add_right _ _
  have htail : readBe (beBytes (adler32 contents)) = some (adler32 contents, []) := by
    rw [← List.append_nil (beBytes _), readBe_beBytes (adler32_lt contents)]
  have hinflate (fuel : Nat) : inflateStored (fuel + 1) (0x01 :: (leBytes contents.length ++
      (leBytes (2 ^ 16 - 1 - contents.length) ++ (contents ++ beBytes (adler32 contents))))) =
      some (contents, beBytes (adler32 contents)) := by
    simp only [leBytes, List.cons_append, List.nil_append, inflateStored, UInt8.toNat_ofNat',
      hlen, hnlen, hsum, hle, List.take_left, List.drop_left]
    rfl
  simp only [List.append_assoc, List.cons_append, List.nil_append, zlibContents, List.length_cons,
    hinflate, htail, if_true]
  rfl

/-- A gray image, row by row. -/
structure GrayImage where
  width : Nat
  height : Nat
  rows : List (List UInt8)
deriving DecidableEq

def signature : List UInt8 := [0x89, 0x50, 0x4E, 0x47, 0x0D, 0x0A, 0x1A, 0x0A]

def ihdr : Vector UInt8 4 := #v[0x49, 0x48, 0x44, 0x52]

def idat : Vector UInt8 4 := #v[0x49, 0x44, 0x41, 0x54]

/-- The width and the height of an image with eight bits of gray and no interlacing. -/
def readHeader (data : List UInt8) : Option (Nat × Nat) :=
  match readBe data with
  | some (width, data) =>
      match readBe data with
      | some (height, rest) =>
          if rest = [8, 0, 0, 0, 0] ∧ 0 < width ∧ 0 < height then some (width, height) else none
      | none => none
  | none => none

/-- The scanlines of an image, none of which is filtered. -/
def readRows (width : Nat) : Nat → List UInt8 → Option (List (List UInt8))
  | 0, bs => if bs = [] then some [] else none
  | height + 1, filter :: bs =>
      if filter = 0 ∧ width ≤ bs.length then
        (readRows width height (bs.drop width)).map (bs.take width :: ·)
      else none
  | _ + 1, [] => none

/-- The image of the chunks of a file. -/
def assemble : List Chunk → Option GrayImage
  | header :: chunks =>
      if header.tag = ihdr ∧ ∀ c ∈ chunks, c.tag = idat ∨ c.tag = iend then
        match readHeader header.data,
          zlibContents ((chunks.filter (·.tag = idat)).flatMap Chunk.data) with
        | some (width, height), some contents =>
            (readRows width height contents).map (⟨width, height, ·⟩)
        | _, _ => none
      else none
  | [] => none

/-- The image of a file. -/
def decode (bs : List UInt8) : Option GrayImage :=
  if bs.take 8 = signature then (readChunks crc bs.length (bs.drop 8)).bind assemble else none

theorem decode_signature (bs : List UInt8) :
    decode crc (signature ++ bs) = (readChunks crc (8 + bs.length) bs).bind assemble := by
  have htake : (signature ++ bs).take 8 = signature := rfl
  have hdrop : (signature ++ bs).drop 8 = bs := rfl
  rw [decode, if_pos htake, hdrop, List.length_append]
  rfl

end PngFormat
end Lib
end OrbitOpenEO
