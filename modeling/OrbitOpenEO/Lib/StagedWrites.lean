import OrbitOpenEO.Lib.Requests
import Mathlib.Data.Set.Basic
import Mathlib.Data.Set.Disjoint
import Mathlib.Data.Set.Insert
import Mathlib.Data.Set.Lattice
import Mathlib.Logic.Function.Basic
import Mathlib.Logic.Relation
import Mathlib.Order.CompletePartialOrder

/-!
# Files that appear by a rename

Programs fill files of their own and rename them to where others look for them.  While a file
is being filled it may hold anything; a rename is one step.  Programs can stop at any moment,
and be started again as long as no other program at work has the same files of its own.

* `Pool` is the files and the programs at work, `Step` one step of the whole.
* `Staged` is the discipline of one program: it fills and removes only files of its own, and
  renames to a destination only what it has filled for it.
* `dst_intact`: under this discipline a destination holds, at any moment, what it held at first
  or something that was filled for it, complete; and it does not disappear.
-/

namespace OrbitOpenEO
namespace Lib
namespace StagedWrites

open Program

/-- The requests of a program: `fill` has a file filled by a job, `other` leaves the files
alone. -/
inductive FileReq (Path Job Other : Type) where
  | present (path : Path)
  | fill (path : Path) (job : Job)
  | rename (source target : Path)
  | remove (path : Path)
  | other (q : Other)

variable {Path Content Job Err Err' Other ι α : Type} {OtherRep : Other → Type}

/-- The replies. -/
abbrev FileRep (Err Err' : Type) (OtherRep : Other → Type) : FileReq Path Job Other → Type
  | .present _ => Bool
  | .fill _ _ => Except Err Unit
  | .rename _ _ => Except Err' Unit
  | .remove _ => Unit
  | .other q => OtherRep q

/-- The contents of the files. -/
abbrev Files (Path Content : Type) := Path → Option Content

section System

variable [DecidableEq Path] (Fills : Job → Content → Prop)
  (Answers : (q : Other) → OtherRep q → Prop)

/-- What a request does to the files.  A job that fails leaves anything behind, and a removal
is tried. -/
def fileAct (files : Files Path Content) :
    (q : FileReq Path Job Other) → FileRep Err Err' OtherRep q → Files Path Content → Prop
  | .present p, r, t => t = files ∧ r = (files p).isSome
  | .fill p job, .ok (), t => ∃ c, Fills job c ∧ t = Function.update files p (some c)
  | .fill p _, .error _, t => ∃ c, t = Function.update files p c
  | .rename a d, .ok (), t =>
      ∃ c, files a = some c ∧ t = Function.update (Function.update files a none) d (some c)
  | .rename _ _, .error _, t => t = files
  | .remove p, _, t => t = files ∨ t = Function.update files p none
  | .other q, r, t => Answers q r ∧ t = files

/-- The files, and the programs at work. -/
structure Pool (Path Content Job Err Err' Other : Type) (OtherRep : Other → Type) (ι α : Type) where
  files : Files Path Content
  live : ι → Option (Program (@FileRep Path Job Other Err Err' OtherRep) α)

variable [DecidableEq ι]
  (task : ι → Program (@FileRep Path Job Other Err Err' OtherRep) α)
  (together : ι → ι → Prop)

/-- One step: a program starts beside those with which it may be at work, gets an answer, has a
file half filled, or stops. -/
inductive Step :
    Pool Path Content Job Err Err' Other OtherRep ι α →
      Pool Path Content Job Err Err' Other OtherRep ι α → Prop
  | start {s : Pool Path Content Job Err Err' Other OtherRep ι α} {i : ι} :
      s.live i = none → (∀ j p, s.live j = some p → together i j) →
      Step s { s with live := Function.update s.live i (some (task i)) }
  | answer {s : Pool Path Content Job Err Err' Other OtherRep ι α} {i : ι} {q next r files} :
      s.live i = some (.call q next) → fileAct Fills Answers s.files q r files →
      Step s ⟨files, Function.update s.live i (some (next r))⟩
  | meanwhile {s : Pool Path Content Job Err Err' Other OtherRep ι α} {i : ι} {path job next}
      (c : Option Content) :
      s.live i = some (.call (.fill path job) next) →
      Step s { s with files := Function.update s.files path c }
  | stop {s : Pool Path Content Job Err Err' Other OtherRep ι α} {i : ι} {p} :
      s.live i = some p → Step s { s with live := Function.update s.live i none }

end System

/-- What a program knows of the files: a file of its own that a job has filled, destinations
that exist, and destinations that have been made. -/
structure Held (Path Job : Type) where
  ready : Option (Path × Job)
  known : Set Path
  made : Set Path

/-- A program that starts knows nothing. -/
def Held.nothing : Held Path Job := ⟨none, ∅, ∅⟩

section Discipline

variable (Fills : Job → Content → Prop) (Answers : (q : Other) → OtherRep q → Prop)
  (Good : Path → Content → Prop) (dsts : Set Path) (own : Set Path)

/-- What a program knows after a reply. -/
def learned (h : Held Path Job) :
    (q : FileReq Path Job Other) → FileRep Err Err' OtherRep q → Held Path Job
  | .present p, r => { h with known := if r = true then insert p h.known else h.known }
  | .fill p job, .ok () => { h with ready := some (p, job) }
  | .fill _ _, .error _ => { h with ready := none }
  | .rename _ d, .ok () => ⟨none, h.known, insert d h.made⟩
  | .rename _ _, .error _ => h
  | .remove _, _ => { h with ready := none }
  | .other _, _ => h

/-- What the others may reply. -/
def ReplyOk : (q : FileReq Path Job Other) → FileRep Err Err' OtherRep q → Prop
  | .other q, r => Answers q r
  | _, _ => True

/-- What a program learns from a reply. -/
def learn (h : Held Path Job) (q : FileReq Path Job Other) (r : FileRep Err Err' OtherRep q)
    (h' : Held Path Job) : Prop :=
  ReplyOk Answers q r ∧ h' = learned h q r

/-- The requests that a program may make. -/
def Allowed (h : Held Path Job) : FileReq Path Job Other → Prop
  | .present p => p ∈ dsts
  | .fill p _ => p ∈ own ∧ h.ready = none
  | .rename a d => d ∈ dsts ∧ ∃ job, h.ready = some (a, job) ∧ ∀ c, Fills job c → Good d c
  | .remove p => p ∈ own
  | .other _ => True

/-- A program that keeps the discipline, and whose value goes with what it knows. -/
def Staged (Q : α → Held Path Job → Prop)
    (p : Program (@FileRep Path Job Other Err Err' OtherRep) α)
    (h : Held Path Job) : Prop :=
  safe (learn Answers) (Allowed Fills Good dsts own) Q p h

/-- What a program knows is so. -/
structure Holds (files : Files Path Content) (h : Held Path Job) : Prop where
  ready : ∀ a job, h.ready = some (a, job) → a ∈ own ∧ ∃ c, files a = some c ∧ Fills job c
  known : ∀ d ∈ h.known, d ∈ dsts ∧ (files d).isSome
  made : ∀ d ∈ h.made, d ∈ dsts ∧ ∃ c, files d = some c ∧ Good d c

/-- The files change only where the program may change them. -/
def Changes (files files' : Files Path Content) : Prop :=
  ∀ x, files' x = files x ∨ x ∈ own ∨ x ∈ dsts ∧ ∃ c, files' x = some c ∧ Good x c

end Discipline

section Steps

variable {Fills : Job → Content → Prop} {Answers : (q : Other) → OtherRep q → Prop}
  {Good : Path → Content → Prop} {dsts own : Set Path} {files files' : Files Path Content}
  {h : Held Path Job}

/-- A destination does not disappear. -/
theorem Changes.isSome (hchanges : Changes Good dsts own files files') (hown : Disjoint own dsts)
    {d : Path} (hd : d ∈ dsts) (hsome : (files d).isSome) : (files' d).isSome := by
  rcases hchanges d with heq | hmem | ⟨-, c, hc, -⟩
  · rwa [heq]
  · exact absurd hd (Set.disjoint_left.mp hown hmem)
  · rw [hc]
    rfl

/-- A destination that has been made stays so. -/
theorem Changes.made (hchanges : Changes Good dsts own files files') (hown : Disjoint own dsts)
    {d : Path} (hd : d ∈ dsts) (hmade : ∃ c, files d = some c ∧ Good d c) :
    ∃ c, files' d = some c ∧ Good d c := by
  rcases hchanges d with heq | hmem | ⟨-, hgood⟩
  · rwa [heq]
  · exact absurd hd (Set.disjoint_left.mp hown hmem)
  · exact hgood

/-- The knowledge of another program stays true. -/
theorem Holds.of_changes {own' : Set Path} (hh : Holds Fills Good dsts own' files h)
    (hchanges : Changes Good dsts own files files') (hapart : Disjoint own own')
    (hown : Disjoint own dsts) (hown' : Disjoint own' dsts) :
    Holds Fills Good dsts own' files' h where
  ready a job hready := by
    obtain ⟨ha, c, hc, hfills⟩ := hh.ready a job hready
    refine ⟨ha, c, ?_, hfills⟩
    rcases hchanges a with heq | hmem | ⟨hdst, -⟩
    · rwa [heq]
    · exact absurd ha (Set.disjoint_left.mp hapart hmem)
    · exact absurd hdst (Set.disjoint_left.mp hown' ha)
  known d hd := ⟨(hh.known d hd).1, hchanges.isSome hown (hh.known d hd).1 (hh.known d hd).2⟩
  made d hd := ⟨(hh.made d hd).1, hchanges.made hown (hh.made d hd).1 (hh.made d hd).2⟩

variable [DecidableEq Path]

theorem changes_update {p : Path} (hp : p ∈ own) (c : Option Content) :
    Changes Good dsts own files (Function.update files p c) := by
  intro x
  by_cases hx : x = p
  · exact .inr (.inl (hx ▸ hp))
  · exact .inl (Function.update_of_ne hx _ _)

/-- A request that is allowed changes only what it may. -/
theorem changes_of_act {q : FileReq Path Job Other} {r : FileRep Err Err' OtherRep q}
    (hq : Allowed Fills Good dsts own h q) (hh : Holds Fills Good dsts own files h)
    (hact : fileAct Fills Answers files q r files') : Changes Good dsts own files files' := by
  cases q with
  | present p =>
      rw [hact.1]
      exact fun x => .inl rfl
  | other q =>
      rw [hact.2]
      exact fun x => .inl rfl
  | remove p =>
      rcases hact with rfl | rfl
      · exact fun x => .inl rfl
      · exact changes_update hq none
  | fill p job =>
      cases r with
      | ok u =>
          obtain ⟨c, -, rfl⟩ := hact
          exact changes_update hq.1 _
      | error e =>
          obtain ⟨c, rfl⟩ := hact
          exact changes_update hq.1 _
  | rename a d =>
      cases r with
      | error e =>
          rw [show files' = files from hact]
          exact fun x => .inl rfl
      | ok u =>
          obtain ⟨c, hc, rfl⟩ := hact
          obtain ⟨hd, job, hready, hgood⟩ := hq
          obtain ⟨ha, c', hc', hfills⟩ := hh.ready a job hready
          rw [hc] at hc'
          cases hc'
          intro x
          by_cases hxd : x = d
          · subst hxd
            exact .inr (.inr ⟨hd, c, Function.update_self _ _ _, hgood c hfills⟩)
          · by_cases hxa : x = a
            · exact .inr (.inl (hxa ▸ ha))
            · left
              rw [Function.update_of_ne hxd, Function.update_of_ne hxa]

/-- What a program learns is so. -/
theorem Holds.learned {q : FileReq Path Job Other} {r : FileRep Err Err' OtherRep q}
    (hq : Allowed Fills Good dsts own h q) (hh : Holds Fills Good dsts own files h)
    (hown : Disjoint own dsts) (hact : fileAct Fills Answers files q r files') :
    Holds Fills Good dsts own files' (StagedWrites.learned h q r) := by
  have hchanges := changes_of_act hq hh hact
  have hknown : ∀ d ∈ h.known, d ∈ dsts ∧ (files' d).isSome := fun d hd =>
    ⟨(hh.known d hd).1, hchanges.isSome hown (hh.known d hd).1 (hh.known d hd).2⟩
  have hmade : ∀ d ∈ h.made, d ∈ dsts ∧ ∃ c, files' d = some c ∧ Good d c := fun d hd =>
    ⟨(hh.made d hd).1, hchanges.made hown (hh.made d hd).1 (hh.made d hd).2⟩
  cases q with
  | present p =>
      obtain ⟨rfl, rfl⟩ := hact
      refine ⟨hh.ready, fun d hd => ?_, hmade⟩
      change d ∈ (if _ = true then _ else _ : Set Path) at hd
      split at hd
      · rename_i hp
        rcases Set.mem_insert_iff.mp hd with rfl | hd
        · exact ⟨hq, hp⟩
        · exact hknown d hd
      · exact hknown d hd
  | other q =>
      obtain ⟨-, rfl⟩ := hact
      exact hh
  | remove p => exact ⟨nofun, hknown, hmade⟩
  | fill p job =>
      cases r with
      | ok u =>
          obtain ⟨c, hfills, rfl⟩ := hact
          refine ⟨?_, hknown, hmade⟩
          rintro a job' ⟨⟩
          exact ⟨hq.1, c, Function.update_self _ _ _, hfills⟩
      | error e => exact ⟨nofun, hknown, hmade⟩
  | rename a d =>
      cases r with
      | error e =>
          rw [show files' = files from hact]
          exact hh
      | ok u =>
          obtain ⟨c, hc, rfl⟩ := hact
          refine ⟨nofun, hknown, fun x hx => ?_⟩
          rcases Set.mem_insert_iff.mp hx with rfl | hx
          · obtain ⟨hd, job, hready, hgood⟩ := hq
            obtain ⟨-, c', hc', hfills⟩ := hh.ready a job hready
            rw [hc] at hc'
            cases hc'
            exact ⟨hd, c, Function.update_self _ _ _, hgood c hfills⟩
          · exact hmade x hx

end Steps

section Runs

variable [DecidableEq ι] {Fills : Job → Content → Prop}
  {Answers : (q : Other) → OtherRep q → Prop} {Good : Path → Content → Prop} {dsts : Set Path}
  {task : ι → Program (@FileRep Path Job Other Err Err' OtherRep) α}
  {together : ι → ι → Prop} {own : ι → Set Path} {Q : ι → α → Held Path Job → Prop}
  {before : Files Path Content} {s t : Pool Path Content Job Err Err' Other OtherRep ι α}

/-- What holds between the steps. -/
structure Orderly (Fills : Job → Content → Prop) (Answers : (q : Other) → OtherRep q → Prop)
    (Good : Path → Content → Prop) (dsts : Set Path) (own : ι → Set Path)
    (Q : ι → α → Held Path Job → Prop) (before : Files Path Content)
    (s : Pool Path Content Job Err Err' Other OtherRep ι α) : Prop where
  tasks : ∀ i p, s.live i = some p →
    ∃ h, Staged Fills Answers Good dsts (own i) (Q i) p h ∧ Holds Fills Good dsts (own i) s.files h
  apart : ∀ i j p p', i ≠ j → s.live i = some p → s.live j = some p' → Disjoint (own i) (own j)
  intact : ∀ d ∈ dsts, s.files d = before d ∨ ∃ c, s.files d = some c ∧ Good d c
  lasting : ∀ d ∈ dsts, (before d).isSome → (s.files d).isSome

/-- A change by one of the programs, which goes on as `p'`. -/
theorem Orderly.change {i : ι}
    {p p' : Program (@FileRep Path Job Other Err Err' OtherRep) α}
    {files : Files Path Content} (hs : Orderly Fills Answers Good dsts own Q before s)
    (hown : ∀ i, Disjoint (own i) dsts) (hlive : s.live i = some p)
    (hchanges : Changes Good dsts (own i) s.files files)
    (hnext : ∃ h, Staged Fills Answers Good dsts (own i) (Q i) p' h ∧
      Holds Fills Good dsts (own i) files h) :
    Orderly Fills Answers Good dsts own Q before
      ⟨files, Function.update s.live i (some p')⟩ := by
  have hwas : ∀ {j pj}, j ≠ i → Function.update s.live i (some p') j = some pj →
      s.live j = some pj := fun hj h => by rwa [Function.update_of_ne hj] at h
  refine ⟨fun j pj hj => ?_, fun j k pj pk hne hj hk => ?_, fun d hd => ?_, fun d hd hsome => ?_⟩
  · by_cases hji : j = i
    · subst hji
      change Function.update s.live j (some p') j = some pj at hj
      rw [Function.update_self] at hj
      cases hj
      exact hnext
    · obtain ⟨h, hstaged, hholds⟩ := hs.tasks j pj (hwas hji hj)
      exact ⟨h, hstaged, hholds.of_changes hchanges
        (hs.apart i j p pj (Ne.symm hji) hlive (hwas hji hj)) (hown i) (hown j)⟩
  · have hlives : ∀ {j pj}, Function.update s.live i (some p') j = some pj →
        ∃ q, s.live j = some q := by
      intro j pj hj
      by_cases hji : j = i
      · exact ⟨p, hji ▸ hlive⟩
      · exact ⟨pj, hwas hji hj⟩
    obtain ⟨qj, hqj⟩ := hlives hj
    obtain ⟨qk, hqk⟩ := hlives hk
    exact hs.apart j k qj qk hne hqj hqk
  · rcases hchanges d with heq | hmem | ⟨-, c, hc, hgood⟩
    · have hwas := hs.intact d hd
      rwa [← heq] at hwas
    · exact absurd hd (Set.disjoint_left.mp (hown i) hmem)
    · exact .inr ⟨c, hc, hgood⟩
  · exact hchanges.isSome (hown i) hd (hs.lasting d hd hsome)

variable [DecidableEq Path]

/-- One step. -/
theorem Orderly.step (hown : ∀ i, Disjoint (own i) dsts)
    (hapart : ∀ i j, i ≠ j → together i j → Disjoint (own i) (own j))
    (htask : ∀ i, Staged Fills Answers Good dsts (own i) (Q i) (task i) .nothing)
    (hs : Orderly Fills Answers Good dsts own Q before s)
    (hstep : Step Fills Answers task together s t) :
    Orderly Fills Answers Good dsts own Q before t := by
  cases hstep with
  | @start i hnone hfree =>
      refine ⟨fun j p hj => ?_, fun j k p p' hne hj hk => ?_, hs.intact, hs.lasting⟩
      · by_cases hji : j = i
        · subst hji
          change Function.update s.live j (some (task j)) j = some p at hj
          rw [Function.update_self] at hj
          cases hj
          exact ⟨_, htask j, nofun, nofun, nofun⟩
        · change Function.update s.live i (some (task i)) j = some p at hj
          rw [Function.update_of_ne hji] at hj
          exact hs.tasks j p hj
      · change Function.update s.live i (some (task i)) j = some p at hj
        change Function.update s.live i (some (task i)) k = some p' at hk
        by_cases hji : j = i
        · subst hji
          rw [Function.update_of_ne (Ne.symm hne)] at hk
          exact hapart j k hne (hfree k p' hk)
        · rw [Function.update_of_ne hji] at hj
          by_cases hki : k = i
          · subst hki
            exact (hapart k j (Ne.symm hne) (hfree j p hj)).symm
          · rw [Function.update_of_ne hki] at hk
            exact hs.apart j k p p' hne hj hk
  | @answer i q next r files hlive hact =>
      obtain ⟨h, hstaged, hholds⟩ := hs.tasks _ _ hlive
      have hreply : ReplyOk Answers q r := by
        cases q with
        | other q => exact hact.1
        | _ => exact trivial
      exact hs.change hown hlive (changes_of_act hstaged.1 hholds hact)
        ⟨_, hstaged.2 r _ ⟨hreply, rfl⟩, hholds.learned hstaged.1 (hown _) hact⟩
  | @meanwhile i path job next c hlive =>
      obtain ⟨h, hstaged, hholds⟩ := hs.tasks _ _ hlive
      have hchanges : Changes Good dsts (own i) s.files (Function.update s.files path c) :=
        changes_update hstaged.1.1 c
      have hsame : Function.update s.live i (some (.call (.fill path job) next)) = s.live := by
        rw [← hlive]
        exact Function.update_eq_self _ _
      have hholds' : Holds Fills Good dsts (own i) (Function.update s.files path c) h := by
        refine ⟨?_, fun d hd => ?_, fun d hd => ?_⟩
        · rw [hstaged.1.2]
          exact nofun
        · obtain ⟨hdst, hsome⟩ := hholds.known d hd
          exact ⟨hdst, hchanges.isSome (hown i) hdst hsome⟩
        · obtain ⟨hdst, hmade⟩ := hholds.made d hd
          exact ⟨hdst, hchanges.made (hown i) hdst hmade⟩
      have hnext := hs.change hown hlive hchanges ⟨h, hstaged, hholds'⟩
      rwa [hsame] at hnext
  | @stop i p hlive =>
      have hwas : ∀ {j pj}, Function.update s.live i none j = some pj → s.live j = some pj := by
        intro j pj hj
        by_cases hji : j = i
        · rw [hji, Function.update_self] at hj
          cases hj
        · rwa [Function.update_of_ne hji] at hj
      exact ⟨fun j pj hj => hs.tasks j pj (hwas hj),
        fun j k pj pk hne hj hk => hs.apart j k pj pk hne (hwas hj) (hwas hk), hs.intact,
        hs.lasting⟩

/-- A whole run, from files that nobody is at work on. -/
theorem orderly_run (hown : ∀ i, Disjoint (own i) dsts)
    (hapart : ∀ i j, i ≠ j → together i j → Disjoint (own i) (own j))
    (htask : ∀ i, Staged Fills Answers Good dsts (own i) (Q i) (task i) .nothing)
    (hfree : ∀ i, s.live i = none)
    (hrun : Relation.ReflTransGen (Step Fills Answers task together) s t) :
    Orderly Fills Answers Good dsts own Q s.files t := by
  induction hrun with
  | refl =>
      refine ⟨fun i p hp => ?_, fun i _ p _ _ hp => ?_, fun _ _ => .inl rfl, fun _ _ h => h⟩
      · rw [hfree i] at hp
        cases hp
      · rw [hfree i] at hp
        cases hp
  | tail _ hstep ih => exact ih.step hown hapart htask hstep

/-- A destination holds what it held at first or something complete. -/
theorem dst_intact (hown : ∀ i, Disjoint (own i) dsts)
    (hapart : ∀ i j, i ≠ j → together i j → Disjoint (own i) (own j))
    (htask : ∀ i, Staged Fills Answers Good dsts (own i) (Q i) (task i) .nothing)
    (hfree : ∀ i, s.live i = none)
    (hrun : Relation.ReflTransGen (Step Fills Answers task together) s t)
    {d : Path} (hd : d ∈ dsts) : t.files d = s.files d ∨ ∃ c, t.files d = some c ∧ Good d c :=
  (orderly_run hown hapart htask hfree hrun).intact d hd

/-- What a program returns, and what it then knows. -/
theorem holds_of_returned (hown : ∀ i, Disjoint (own i) dsts)
    (hapart : ∀ i j, i ≠ j → together i j → Disjoint (own i) (own j))
    (htask : ∀ i, Staged Fills Answers Good dsts (own i) (Q i) (task i) .nothing)
    (hfree : ∀ i, s.live i = none)
    (hrun : Relation.ReflTransGen (Step Fills Answers task together) s t)
    {i : ι} {a : α} (ha : t.live i = some (.done a)) :
    ∃ h, Q i a h ∧ Holds Fills Good dsts (own i) t.files h :=
  (orderly_run hown hapart htask hfree hrun).tasks i _ ha

end Runs

end StagedWrites
end Lib
end OrbitOpenEO
