import OrbitOpenEO.DataCube
import OrbitOpenEO.Lib.Effect

/-!
# Files, rasters and what the executor calls outside

The raster processes work on files: they open GeoTIFFs, run a worker on every
pixel and write new files into the scratch directory.  `World` is what they
share: the files with their content, the file cache, and a log of the writes.

What is not in the repository is a `Platform`: floating-point arithmetic, GDAL,
the network, the clock.  Nothing is assumed about it beyond the fields of
`Platform` that say so: a 16-bit number that was stored is read back as it is.
-/

namespace OrbitOpenEO

open Lib

namespace F64

/-- The comparison `x == y` of two floats. -/
def feq : F64 → F64 → Bool
  | .finite p, .finite q => decide (p = q)
  | .finite p, .negZero => decide (p = 0)
  | .negZero, .finite q => decide (q = 0)
  | .negZero, .negZero => true
  | .posInf, .posInf => true
  | .negInf, .negInf => true
  | _, _ => false

/-- The comparison `x <= y`. -/
def le (x y : F64) : Bool := lt x y || feq x y

/-- `max`: a NaN gives way to the other operand. -/
def max (x y : F64) : F64 :=
  if x = .nan then y else if y = .nan then x else if lt x y then y else x

/-- `min`: a NaN gives way to the other operand. -/
def min (x y : F64) : F64 :=
  if x = .nan then y else if y = .nan then x else if lt y x then y else x

/-- `abs`. -/
def abs : F64 → F64
  | .finite q => .finite (if q < 0 then -q else q)
  | .negZero => .finite 0
  | .negInf => .posInf
  | x => x

/-- `signum`: a zero has a sign. -/
def signum : F64 → F64
  | .finite q => if q < 0 then .finite (-1) else .finite 1
  | .negZero => .finite (-1)
  | .posInf => .finite 1
  | .negInf => .finite (-1)
  | .nan => .nan

end F64

/-- The functions of `f64` or `f32` beyond the four operations. -/
structure MathOps extends FloatOps where
  powf : F64 → F64 → F64
  ln : F64 → F64
  log : F64 → F64 → F64
  exp : F64 → F64
  sqrt : F64 → F64
  floor : F64 → F64
  ceil : F64 → F64
  trunc : F64 → F64
  roundTiesEven : F64 → F64
  /-- `10.powi(p as i32)`. -/
  tenPowi : F64 → F64
  sin : F64 → F64
  cos : F64 → F64
  tan : F64 → F64
  asin : F64 → F64
  acos : F64 → F64
  atan : F64 → F64
  atan2 : F64 → F64 → F64

/-- A single-band raster file: its size, the pixel sizes of its geo-transform
and the stored values. -/
structure Raster where
  rows : Nat
  cols : Nat
  pixelWidth : ℚ
  pixelHeight : ℚ
  pixel : Nat → Nat → F64

/-- `CropWindow`. -/
structure CropWindow where
  minX : ℚ
  minY : ℚ
  maxX : ℚ
  maxY : ℚ
deriving DecidableEq

/-- The places where opening and processing rasters can fail. -/
inductive Stage where
  | builder
  | build
  | maskBuilder
  | maskBuild
  | reduction
deriving DecidableEq

/-- `i16::MIN`, the no-data mark of `mask`. -/
def i16Min : Int := -32768

/-- `i16::MAX`. -/
def i16Max : Int := 32767

/-- What the executor uses from outside the repository. -/
structure Platform where
  f64 : MathOps
  f32 : MathOps
  /-- `x as f32`, and a float of 32 bits kept. -/
  toF32 : F64 → F64
  /-- A stored value read as `i16`. -/
  readI16 : F64 → Int
  readI16_stored : ∀ n : Int, i16Min ≤ n → n ≤ i16Max → readI16 (.finite n) = n
  /-- A stored value read as `u8`. -/
  readU8 : F64 → Nat
  /-- Why a dataset over these sources cannot be built or processed. -/
  refuse : List Raster → Option (Stage × String)
  /-- What a failed run leaves in its output file. -/
  leftover : Option Raster → Option Raster
  /-- The error of a builder or `Dataset::open` on a missing file. -/
  noSuchFile : PathBuf → String
  /-- `gdalwarp -r near` of the first raster onto the grid of the second. -/
  warp : Raster → Raster → Except String Raster
  /-- `gdal_utils::mosaic`. -/
  mosaic : Raster → Raster → Except String Raster
  /-- Where `gdal_utils::mosaic` puts its VRT at a time, which it removes again. -/
  tempVrt : Nat → PathBuf
  /-- The `n`-th reading of the clock, in nanoseconds. -/
  nanos : Nat → Nat
  /-- `AssetSigner::sign`. -/
  sign : String → Except ExecError String
  /-- `Downloader::download`: the cropped window as a local raster. -/
  download : String → CropWindow → Option String → Except ExecError Raster
  /-- The length of a raster file in bytes. -/
  sizeBytes : Raster → Nat
  /-- `FileCache::key_for`, the SHA-256 of a URL. -/
  keyFor : String → String
  /-- Where a new key comes in the iteration order of the cache's hash map. -/
  slot : String → Nat
  /-- The text of a JSON value. -/
  jsonText : Json → String
  /-- The `{:?}` text of a list of floats. -/
  debugFloats : List ℚ → String

/-- An arithmetic without rounding in its four operations.  The other functions
are not meant to be read. -/
def MathOps.exact : MathOps where
  toFloatOps := FloatOps.exact
  powf x _ := x
  ln x := x
  log x _ := x
  exp x := x
  sqrt x := x
  floor x := x
  ceil x := x
  trunc x := x
  roundTiesEven x := x
  tenPowi x := x
  sin x := x
  cos x := x
  tan x := x
  asin x := x
  acos x := x
  atan x := x
  atan2 x _ := x

/-- A platform on which every call succeeds and nothing is rounded, for concrete
runs. -/
def Platform.exact : Platform where
  f64 := MathOps.exact
  f32 := MathOps.exact
  toF32 x := x
  readI16
    | .finite q => q.num
    | _ => 0
  readI16_stored _ _ _ := rfl
  readU8
    | .finite q => q.num.toNat
    | _ => 0
  refuse _ := none
  leftover r := r
  noSuchFile p := s!"{p}: No such file or directory"
  warp scl data := .ok
    { data with
      pixel := fun row col =>
        scl.pixel (row * scl.rows / data.rows) (col * scl.cols / data.cols) }
  mosaic r _ := .ok r
  tempVrt n := s!"/tmp/.tmp{n}.vrt"
  nanos n := n
  sign href := .ok href
  download _ crop _ :=
    .ok ⟨1, 1, crop.maxX - crop.minX, crop.minY - crop.maxY, fun _ _ => .finite 1⟩
  sizeBytes r := 2 * r.rows * r.cols
  keyFor href := href
  slot _ := 0
  jsonText _ := ""
  debugFloats _ := ""

/-- One cached file. -/
structure CacheEntry where
  path : PathBuf
  sizeBytes : Nat
  lastAccess : Nat

/-- `FileCache`: its directory, the soft size limit (zero means unlimited) and
the index, in the iteration order of the hash map. -/
structure FileCache where
  root : PathBuf
  maxBytes : Nat
  index : List (String × CacheEntry)

/-- What the log of a run records. -/
inductive Event where
  /-- A file was written or written anew. -/
  | wrote (path : PathBuf)
  /-- The classification raster that decided the masking of a band at a scene. -/
  | sclUsed (band : String) (scene : Nat) (scl : Raster)

/-- The shared state of all evaluations. -/
structure World where
  files : PathBuf → Option Raster
  cache : Option FileCache
  clockReads : Nat
  log : List Event

/-- Evaluation code. -/
abbrev Eval := EStateM ExecError World

namespace World

/-- No file yet, and no cache. -/
def empty : World := ⟨fun _ => none, none, 0, []⟩

/-- A file gets new content. -/
def write (w : World) (path : PathBuf) (content : Option Raster) : World :=
  { w with files := Function.update w.files path content, log := w.log ++ [.wrote path] }

/-- Note an event. -/
def note (w : World) (e : Event) : World := { w with log := w.log ++ [e] }

@[simp] theorem write_files (w : World) (path : PathBuf) (content : Option Raster) :
    (w.write path content).files = Function.update w.files path content := rfl

end World

/-- `SystemTime::now` in nanoseconds. -/
def now (P : Platform) : Eval Nat := fun w =>
  .ok (P.nanos w.clockReads) { w with clockReads := w.clockReads + 1 }

/-- Build a dataset over the source files, run the worker and write the output
file.  `fail` gives the caller's text for each place where this can go wrong. -/
def reduction (P : Platform) (sources : List PathBuf) (out : PathBuf)
    (fail : Stage → String → String) (compute : List Raster → Raster) : Eval Unit := fun w =>
  match sources.find? (fun p => (w.files p).isNone) with
  | some p => .error (.backend (fail .builder (P.noSuchFile p))) w
  | none =>
      let rasters := sources.filterMap w.files
      match P.refuse rasters with
      | some (.reduction, e) =>
          .error (.backend (fail .reduction e)) (w.write out (P.leftover (w.files out)))
      | some (stage, e) => .error (.backend (fail stage e)) w
      | none => .ok () (w.write out (some (compute rasters)))

/-- A worker that looks at one pixel of every source: the output has the frame of
the first source. -/
def pixelwise (f : List F64 → F64) : List Raster → Raster
  | [] => ⟨0, 0, 1, -1, fun _ _ => f []⟩
  | r :: rs => { r with pixel := fun row col => f ((r :: rs).map (fun s => s.pixel row col)) }

/-- The file `name` of the scratch directory.  An absolute name takes its place. -/
def scratch (dir : PathBuf) (name : String) : PathBuf :=
  if name.toList.head? = some '/' then name else dir ++ "/" ++ name

/-- The file of a key of the cache.  Keys are digests. -/
def cachePath (root : PathBuf) (key : String) : PathBuf := root ++ "/" ++ key

end OrbitOpenEO
