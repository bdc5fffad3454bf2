import OrbitOpenEO.Lib.NumberedNames
import OrbitOpenEO.Lib.StagedWrites

/-!
# Conversions into place

`convert_to_cog` has `gdal_translate` write to a staging file beside the destination and renames
it.  The name of the staging file is made of the destination's name, the process and the time, so
that conversions at work at the same moment, in one process or in several, have different ones.

A reader of a destination sees what was there before or the whole output of a conversion,
whenever a process is killed.
-/

namespace OrbitOpenEO
namespace Staged

open Lib Program StagedWrites

/-- A file in a directory. -/
structure FilePath where
  dir : String
  name : String
deriving DecidableEq

/-- `staging_path_for`, in a process and at a time. -/
def stagingPathFor (dst : FilePath) (pid nanos : Nat) : FilePath :=
  ⟨dst.dir, "." ++ dst.name ++ ".staging." ++ toString pid ++ "." ++ toString nanos⟩

/-- Destination, process and time can be read off. -/
theorem stagingPathFor_inj {dst dst' : FilePath} {pid pid' nanos nanos' : Nat}
    (h : stagingPathFor dst pid nanos = stagingPathFor dst' pid' nanos') :
    dst = dst' ∧ pid = pid' ∧ nanos = nanos' := by
  obtain ⟨hdir, hname⟩ := FilePath.mk.inj h
  have hlist := congrArg String.toList hname
  simp only [String.toList_append, Nat.toString_eq_repr, Nat.toList_repr] at hlist
  have hnanos : '.' :: (dst.name.toList ++ ".staging.".toList ++ Nat.toDigits 10 pid) ++
        '.' :: Nat.toDigits 10 nanos =
      '.' :: (dst'.name.toList ++ ".staging.".toList ++ Nat.toDigits 10 pid') ++
        '.' :: Nat.toDigits 10 nanos' := by
    simpa using hlist
  obtain ⟨hfront, rfl⟩ := digits_marker_inj rfl hnanos
  have hpid : '.' :: (dst.name.toList ++ ".staging".toList) ++ '.' :: Nat.toDigits 10 pid =
      '.' :: (dst'.name.toList ++ ".staging".toList) ++ '.' :: Nat.toDigits 10 pid' := by
    simpa using hfront
  obtain ⟨hbase, rfl⟩ := digits_marker_inj rfl hpid
  have hdst : dst.name = dst'.name :=
    String.toList_inj.mp (List.append_cancel_right (List.cons.inj hbase).2)
  exact ⟨by cases dst; cases dst'; simp_all, rfl, rfl⟩

/-- How a command can fail. -/
inductive CommandError where
  | notFound
  | spawn (msg : String)
  | exited (stderr : String)
deriving DecidableEq

/-- A command that writes a file, by its arguments before the output. -/
structure Translate where
  args : List String
deriving DecidableEq

/-- A conversion asks for nothing but its files. -/
abbrev ConvertRep : FileReq FilePath Translate Empty → Type :=
  FileRep CommandError String fun q : Empty => q.elim

/-- The options of `gdal_translate`. -/
def cogArgs (src : String) : List String :=
  ["-of", "COG", "-co", "BLOCKSIZE=512", "-co", "COMPRESS=LZW", "-co",
    "OVERVIEW_RESAMPLING=AVERAGE", src]

/-- `atomic_replace`. -/
def atomicReplace (debug : FilePath → String) (staging dst : FilePath) :
    Program ConvertRep (Except String Unit) := do
  match ← @request _ ConvertRep (.rename staging dst) with
  | .ok () => pure (.ok ())
  | .error source =>
      @request _ ConvertRep (.remove staging)
      pure (.error ("atomic_replace " ++ debug staging ++ " -> " ++ debug dst ++ ": " ++ source))

/-- `convert_to_cog`. -/
def convertToCog (debug : FilePath → String) (src : String) (dst : FilePath) (pid nanos : Nat) :
    Program ConvertRep (Except String FilePath) := do
  let staging := stagingPathFor dst pid nanos
  match ← @request _ ConvertRep (.fill staging ⟨cogArgs src⟩) with
  | .error .notFound =>
      @request _ ConvertRep (.remove staging)
      pure (.error "convert_to_cog: gdal_translate not found on PATH")
  | .error (.spawn e) =>
      @request _ ConvertRep (.remove staging)
      pure (.error ("gdal_translate spawn: " ++ e))
  | .error (.exited stderr) =>
      @request _ ConvertRep (.remove staging)
      pure (.error ("gdal_translate -of COG failed: " ++ stderr))
  | .ok () =>
      match ← atomicReplace debug staging dst with
      | .error e => pure (.error e)
      | .ok () => pure (.ok dst)

/-- One call of `convert_to_cog`. -/
structure Conversion where
  src : String
  dst : FilePath
  pid : Nat
  nanos : Nat
deriving DecidableEq

namespace Conversion

/-- Its staging file. -/
def staging (conv : Conversion) : FilePath := stagingPathFor conv.dst conv.pid conv.nanos

/-- The call. -/
def run (debug : FilePath → String) (conv : Conversion) :
    Program ConvertRep (Except String FilePath) :=
  convertToCog debug conv.src conv.dst conv.pid conv.nanos

theorem staging_inj {conv conv' : Conversion} (h : conv.staging = conv'.staging) :
    (conv.dst, conv.pid, conv.nanos) = (conv'.dst, conv'.pid, conv'.nanos) := by
  obtain ⟨hdst, hpid, hnanos⟩ := stagingPathFor_inj h
  rw [hdst, hpid, hnanos]

/-- Staging files are hidden. -/
theorem head?_staging (conv : Conversion) : conv.staging.name.toList.head? = some '.' := by
  simp [staging, stagingPathFor]

end Conversion

section Conversions

variable {Content ι : Type} (Whole : List String → Content → Prop)
  (debug : FilePath → String) (convs : ι → Conversion)

/-- What `gdal_translate` has written when it succeeds. -/
def Fills (job : Translate) (c : Content) : Prop := Whole job.args c

/-- Nothing else is asked. -/
def NoAnswers (q : Empty) (_ : (q.elim : Type)) : Prop := q.elim

/-- What is right at a destination: the whole output for one of the sources. -/
def IsOutput (d : FilePath) (c : Content) : Prop :=
  ∃ i, (convs i).dst = d ∧ Whole (cogArgs (convs i).src) c

/-- What the value of a conversion says. -/
def Returned (conv : Conversion) : Except String FilePath → Held FilePath Translate → Prop
  | .ok d, h => d = conv.dst ∧ d ∈ h.made
  | .error _, _ => True

/-- A conversion fills its staging file and renames it only when the command has succeeded. -/
theorem staged_run (i : ι) :
    StagedWrites.Staged (Fills Whole) NoAnswers (IsOutput Whole convs)
      (Set.range fun i => (convs i).dst) {(convs i).staging} (Returned (convs i))
      ((convs i).run debug) .nothing := by
  refine ⟨⟨rfl, rfl⟩, ?_⟩
  rintro (e | ⟨⟩) h ⟨-, rfl⟩
  · cases e <;> exact ⟨rfl, fun _ _ _ => trivial⟩
  · refine ⟨⟨⟨i, rfl⟩, _, rfl, fun c hc => ⟨i, rfl, hc⟩⟩, ?_⟩
    rintro (source | ⟨⟩) h ⟨-, rfl⟩
    · exact ⟨rfl, fun _ _ _ => trivial⟩
    · exact ⟨rfl, Set.mem_insert _ _⟩

variable {Whole debug convs} [DecidableEq ι]

/-- Any number of conversions, in any processes, any of which may be killed at any moment and
started again: at each destination there is what was there before or the whole output of a
conversion to it, and after a conversion has returned it is the latter. -/
theorem conversions_in_place (hvisible : ∀ i, (convs i).dst.name.toList.head? ≠ some '.')
    (hdistinct : ∀ i j, i ≠ j → ((convs i).dst, (convs i).pid, (convs i).nanos) ≠
      ((convs j).dst, (convs j).pid, (convs j).nanos))
    {s t : Pool FilePath Content Translate CommandError String Empty (fun q => q.elim) ι
      (Except String FilePath)}
    (hfree : ∀ i, s.live i = none)
    (hrun : Relation.ReflTransGen
      (Step (Fills Whole) NoAnswers (fun i => (convs i).run debug) fun _ _ => True) s t) :
    (∀ i, t.files (convs i).dst = s.files (convs i).dst ∨
      ∃ c, t.files (convs i).dst = some c ∧ IsOutput Whole convs (convs i).dst c) ∧
    ∀ i d, t.live i = some (.done (.ok d)) →
      d = (convs i).dst ∧ ∃ c, t.files d = some c ∧ IsOutput Whole convs d c := by
  have hown : ∀ i, Disjoint {(convs i).staging} (Set.range fun i => (convs i).dst) := by
    intro i
    rw [Set.disjoint_singleton_left]
    rintro ⟨j, hj⟩
    have hdst : (convs j).dst = (convs i).staging := hj
    exact hvisible j (hdst ▸ (convs i).head?_staging)
  have hapart : ∀ i j, i ≠ j → True →
      Disjoint ({(convs i).staging} : Set FilePath) {(convs j).staging} := by
    intro i j hij _
    rw [Set.disjoint_singleton]
    exact fun h => hdistinct i j hij (Conversion.staging_inj h)
  have hstaged := staged_run Whole debug convs
  refine ⟨fun i => dst_intact hown hapart hstaged hfree hrun ⟨i, rfl⟩, fun i d hd => ?_⟩
  obtain ⟨h, ⟨rfl, hmade⟩, hholds⟩ := holds_of_returned hown hapart hstaged hfree hrun hd
  exact ⟨rfl, (hholds.made _ hmade).2⟩

end Conversions

/-- A conversion to a directory of results. -/
def sampleConversion : Conversion := ⟨"/data/in.tif", ⟨"/data", "out.tif"⟩, 7, 1⟩

/-- No files, nobody at work. -/
def idlePool : Pool FilePath Bool Translate CommandError String Empty (fun q => q.elim) Unit
    (Except String FilePath) :=
  ⟨fun _ => none, fun _ => none⟩

theorem conversions_in_place_sample :
    ∃ t, Relation.ReflTransGen
        (Step (Fills fun _ c => c = true) NoAnswers
          (fun _ : Unit => sampleConversion.run FilePath.name) fun _ _ => True) idlePool t ∧
      t.live () = some (.done (.ok sampleConversion.dst)) ∧
      ∃ c, t.files sampleConversion.dst = some c ∧
        IsOutput (fun _ c => c = true) (fun _ : Unit => sampleConversion) sampleConversion.dst c := by
  have hstart : Step (Fills fun _ c => c = true) NoAnswers
      (fun _ : Unit => sampleConversion.run FilePath.name) (fun _ _ => True) idlePool
      ⟨idlePool.files,
        Function.update idlePool.live () (some (sampleConversion.run FilePath.name))⟩ :=
    .start rfl nofun
  have hwritten : Function.update idlePool.files sampleConversion.staging (some true)
      sampleConversion.staging = some true := Function.update_self _ _ _
  have hfilled := (Relation.ReflTransGen.single hstart).tail
    (.answer (i := ()) (q := .fill sampleConversion.staging ⟨cogArgs sampleConversion.src⟩)
      (r := Except.ok ()) rfl ⟨true, rfl, rfl⟩)
  have hrun := hfilled.tail
    (.answer (i := ()) (q := .rename sampleConversion.staging sampleConversion.dst)
      (r := Except.ok ()) rfl ⟨true, hwritten, rfl⟩)
  have hdone := (conversions_in_place (fun _ => by decide) (fun i j hij => absurd rfl hij)
    (fun _ => rfl) hrun).2 () sampleConversion.dst rfl
  exact ⟨_, hrun, rfl, hdone.2⟩

end Staged
end OrbitOpenEO
