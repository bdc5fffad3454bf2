import OrbitOpenEO.Etl.Protocol

/-!
# Cancellation

A call of `cancel_job` that answers `true` puts up the flag of the job.  Nobody takes it down
again, so the next poll of the task sees it, and a task that has seen it does not complete
(`Obeyed`).  After the last poll a cancellation comes too late, although it may still be
answered with `true`.
-/

namespace OrbitOpenEO
namespace Etl

open Lib Program

theorem cancels_cancelJob (engine : Engine) (k : String) :
    (engine.cancelJob k).2.cancels = engine.cancels := by
  unfold Engine.cancelJob
  split <;> rfl

/-- No flag goes down. -/
theorem flags_cancelJob {engine : Engine} {j : String} (h : engine.flags j = true) (k : String) :
    (engine.cancelJob k).2.flags j = true := by
  unfold Engine.cancelJob
  split
  · by_cases hk : j = k
    · subst hk
      exact Function.update_self _ _ _
    · exact (Function.update_of_ne hk _ _).trans h
  · exact h

/-- The answer `true` means that the flag is up. -/
theorem flags_of_cancelJob {engine : Engine} {k : String} (h : (engine.cancelJob k).1 = true) :
    (engine.cancelJob k).2.flags k = true := by
  unfold Engine.cancelJob at h ⊢
  split
  · exact Function.update_self _ _ _
  · rename_i hnone
    rw [hnone] at h
    cases h

theorem cancelJob_of_none {engine : Engine} {k : String} (h : engine.cancels.get k = none) :
    (engine.cancelJob k).1 = false := by
  unfold Engine.cancelJob
  rw [h]

section Flags

variable {jobId : String} {s t : World}

/-- The task does not touch its flag. -/
theorem flags_act {q : Request} {r : Reply q} (h : act jobId s q r t) :
    t.engine.flags = s.engine.flags := by
  cases q with
  | update u =>
      cases h
      unfold Engine.updateJob
      split <;> rfl
  | counts =>
      obtain ⟨rfl, -⟩ := h
      rfl
  | poll =>
      obtain ⟨rfl, -⟩ := h
      rfl
  | _ =>
      cases h
      rfl

/-- The others do not take the flag down. -/
theorem flags_env {e : Others} (hs : s.engine.flags jobId = true) (h : env jobId s e t) :
    t.engine.flags jobId = true := by
  cases e with
  | cancel k answer =>
      have hflag := flags_cancelJob hs k
      rw [h.1] at hflag
      exact hflag
  | elsewhere =>
      obtain ⟨-, -, -, -, -, hflag⟩ := h
      exact hflag.trans hs

theorem flags_cancel (h : env jobId s (.cancel jobId true) t) :
    t.engine.flags jobId = true := by
  have hflag : (s.engine.cancelJob jobId).2.flags jobId = true :=
    flags_of_cancelJob (congrArg Prod.fst h.1)
  rw [h.1] at hflag
  exact hflag

theorem stopSeen_act {q : Request} {r : Reply q} (hs : s.stopSeen = true)
    (h : act jobId s q r t) : t.stopSeen = true := by
  cases q with
  | poll =>
      obtain ⟨rfl, -⟩ := h
      exact congrArg (· || r) hs
  | counts =>
      obtain ⟨rfl, -⟩ := h
      exact hs
  | _ =>
      cases h
      exact hs

theorem stopSeen_env {e : Others} (hs : s.stopSeen = true) (h : env jobId s e t) :
    t.stopSeen = true := by
  have hview : (t.view jobId).stopSeen = (s.view jobId).stopSeen :=
    congrArg View.stopSeen (view_env h)
  exact hview.trans hs

variable {α : Type} {p p' : Program Reply α} {ls : List (Label Reply Others)}

/-- The flag stays up. -/
theorem flags_runs (h : Runs (act jobId) (env jobId) p s ls p' t)
    (hs : s.engine.flags jobId = true) : t.engine.flags jobId = true := by
  refine h.invariant hs (fun u q r w hu hact => ?_) fun u e w hu henv => flags_env hu henv
  rw [flags_act hact]
  exact hu

theorem stopSeen_runs (h : Runs (act jobId) (env jobId) p s ls p' t)
    (hs : s.stopSeen = true) : t.stopSeen = true :=
  h.invariant hs (fun _ _ _ _ hu hact => stopSeen_act hu hact) fun _ _ _ hu henv =>
    stopSeen_env hu henv

/-- A poll after a cancellation sees the flag. -/
theorem stopSeen_of_poll {l₁ l₂ l₃ : List (Label Reply Others)} {r : Reply .poll}
    (h : Runs (act jobId) (env jobId) p s
      (l₁ ++ .other (.cancel jobId true) :: l₂ ++ .task ⟨.poll, r⟩ :: l₃) p' t) :
    t.stopSeen = true := by
  obtain ⟨p₁, s₁, hbefore, hafter⟩ := h.split
  obtain ⟨p₀, s₀, -, hcancelled⟩ := hbefore.split
  cases hcancelled with
  | other hcancel hbetween =>
      have hflag := flags_runs hbetween (flags_cancel hcancel)
      cases hafter with
      | task hpoll hrest =>
          obtain ⟨rfl, rfl⟩ := hpoll
          refine stopSeen_runs hrest ?_
          show (s₁.stopSeen || s₁.engine.flags jobId) = true
          rw [hflag, Bool.or_true]

end Flags

/-- What a request does to the entry of the job. -/
def entryAct (entry : Option Unit) : (q : Request) → Reply q → Option Unit → Prop
  | .dropFlag, _, entry' => entry' = none
  | _, _, entry' => entry' = entry

/-- The entry of a job. -/
def World.entry (jobId : String) (s : World) : Option Unit := s.engine.cancels.get jobId

section Entry

variable {jobId : String} {s t : World}

theorem entry_act {q : Request} {r : Reply q} (h : act jobId s q r t) :
    entryAct (s.entry jobId) q r (t.entry jobId) := by
  cases q with
  | update u =>
      cases h
      show World.entry jobId _ = World.entry jobId s
      unfold World.entry Engine.updateJob
      split <;> rfl
  | dropFlag =>
      cases h
      exact (BTreeMap.get_remove _ _ _).trans (if_pos rfl)
  | counts =>
      obtain ⟨rfl, -⟩ := h
      rfl
  | poll =>
      obtain ⟨rfl, -⟩ := h
      rfl
  | _ =>
      cases h
      rfl

theorem entry_env {e : Others} (h : env jobId s e t) : t.entry jobId = s.entry jobId := by
  cases e with
  | cancel k answer =>
      have hcancels := cancels_cancelJob s.engine k
      rw [h.1] at hcancels
      exact congrArg (fun m => m.get jobId) hcancels
  | elsewhere =>
      obtain ⟨-, -, -, -, hcancels, -⟩ := h
      exact hcancels

/-- The entry is dropped before the end, and nothing puts it back. -/
theorem wp_entry {host : Host} {ops : FloatOps} {spec : PipelineSpec} (entry : Option Unit) :
    wp entryAct (fun _ e => e = none) (task host ops jobId spec) entry := by
  unfold task
  refine wp_bind.mpr (wp_mono ?_ (wp_of_invariant (fun _ _ _ _ _ _ => trivial) _ entry trivial))
  rintro result _ - r e rfl
  refine wp_of_invariant (fun e q r e' he hact => ?_) (finish jobId result) none rfl
  cases q with
  | dropFlag => exact hact
  | _ => exact hact.trans he

end Entry

/-- Only a job that is completed has sent `Completed`. -/
theorem Ended.completed_of_mem {jobId : String} {v : View} (h : Ended jobId v)
    {rowsRead rowsWritten : Nat} (hmem : .completed jobId rowsRead rowsWritten ∈ v.stream) :
    v.status.map JobStatus.state = some .completed := by
  obtain ⟨start, counts, last, before, st, hongoing, hstream, hst, hlast, -, -⟩ := h
  have hbefore : .completed jobId rowsRead rowsWritten ∉ before := by
    rw [hongoing.stream_eq]
    intro hmem
    rcases List.mem_append.mp hmem with hmem | hmem
    · rcases hongoing.start_eq with rfl | rfl
      · cases hmem
      · cases List.mem_singleton.mp hmem
    · obtain ⟨c, -, hc⟩ := List.mem_map.mp hmem
      cases hc
  rw [hstream] at hmem
  rcases List.mem_append.mp hmem with hmem | hmem
  · exact absurd hmem hbefore
  · cases List.mem_singleton.mp hmem
    have hoccurs : (Event.completed jobId rowsRead rowsWritten).outcome jobId = some .completed :=
      if_pos rfl
    rw [hst, Option.map_some, ← hlast, hoccurs]

/-- Neither the state of a job nor its events say that it has completed. -/
def NotCompleted (jobId : String) (t : World) : Prop :=
  (t.engine.jobs.get jobId).map JobStatus.state ≠ some .completed ∧
    ∀ rowsRead rowsWritten, .completed jobId rowsRead rowsWritten ∉ t.stream

/-- A job does not complete when a cancellation is answered with `true` before a poll of its
task, and once its task has ended no cancellation is answered with `true`. -/
theorem cancellation_before_poll {host : Host} {ops : FloatOps} {dataRoot : Option Path}
    {engine engine' : Engine} {spec : PipelineSpec} {jobId id : String} {startedAt : Nat}
    {inserted : Except String Unit}
    (hrun : engine.run host dataRoot spec jobId startedAt inserted = (.ok id, engine')) :
    (∀ l₁ l₂ l₃ r t, Runs (act id) (env id) (task host ops id spec) (startedWorld engine')
        (l₁ ++ .other (.cancel id true) :: l₂ ++ .task ⟨.poll, r⟩ :: l₃) (.done ()) t →
      NotCompleted id t) ∧
    ∀ ls t, Runs (act id) (env id) (task host ops id spec) (startedWorld engine') ls (.done ()) t →
      (t.engine.cancelJob id).1 = false := by
  refine ⟨fun l₁ l₂ l₃ r t h => ?_, fun ls t h => ?_⟩
  · have hclosed := closed_of_runs (fresh_of_run hrun) h
    have hstate := hclosed.obeyed (stopSeen_of_poll h)
    exact ⟨hstate, fun _ _ hmem => hstate (hclosed.ended.completed_of_mem hmem)⟩
  · have hentry : t.entry id = none :=
      h.wp (World.entry id) (fun _ _ _ _ => entry_act) (fun _ _ _ => entry_env) (wp_entry _)
    exact cancelJob_of_none hentry

/-- A frame with two rows. -/
def twoRows : DataFrame := ⟨[("a", .integer)], [[.int 1], [.int 2]]⟩

/-- A pipeline that writes row by row, and so polls its flag before each row. -/
def rowByRow : PipelineSpec := { Engine.sampleSpec with batchSize := 1 }

/-- Surroundings where everything succeeds and the query returns two rows. -/
def rowScript (s : World) (q : Request) : Reply q × World :=
  script "j" (fun _ => none) twoRows s q

theorem run_rowByRow : Engine.opened.run Engine.sampleHost none rowByRow "j" 0 (.ok ()) =
    (.ok "j", Engine.opened.register "j" 0) :=
  Engine.run_of_recorded rfl ⟨⟨"{}", rfl⟩, rfl⟩

/-- The cancellation comes between the two rows. -/
theorem cancellation_before_poll_sample :
    ∃ l₁ l₂ l₃ r t, Runs (act "j") (env "j") (task Engine.sampleHost .exact "j" rowByRow)
        (startedWorld (Engine.opened.register "j" 0))
        (l₁ ++ .other (.cancel "j" true) :: l₂ ++ .task ⟨.poll, r⟩ :: l₃) (.done ()) t ∧
      NotCompleted "j" t ∧ (t.engine.cancelJob "j").1 = false := by
  have hact : ∀ s q, act "j" s q (rowScript s q).1 (rowScript s q).2 := act_script
  obtain ⟨l₁, hbefore⟩ := exists_runs_steps (env "j") hact 14
    (task Engine.sampleHost .exact "j" rowByRow) (startedWorld (Engine.opened.register "j" 0))
  have hpoll : ∃ next w, steps rowScript 14 (task Engine.sampleHost .exact "j" rowByRow)
      (startedWorld (Engine.opened.register "j" 0)) = (.call .poll next, w) ∧
      (w.engine.cancelJob "j").1 = true := ⟨_, _, rfl, rfl⟩
  obtain ⟨next, w, hsteps, htrue⟩ := hpoll
  rw [hsteps] at hbefore
  obtain ⟨w', hcancel⟩ : ∃ w', env "j" w (.cancel "j" true) w' :=
    ⟨{ w with engine := (w.engine.cancelJob "j").2 }, Prod.ext htrue rfl, rfl, rfl, rfl⟩
  obtain ⟨l₃, hafter⟩ := exists_runs_follow (env "j") hact (next (rowScript w' .poll).1)
    (rowScript w' .poll).2
  have hruns := hbefore.trans (.other hcancel (.task (hact w' .poll) hafter))
  rw [← List.singleton_append, ← List.append_assoc] at hruns
  obtain ⟨hstops, hends⟩ := @cancellation_before_poll _ .exact _ _ _ _ _ _ _ _ run_rowByRow
  exact ⟨l₁, [], l₃, _, _, hruns, hstops l₁ [] l₃ _ _ hruns, hends _ _ hruns⟩

/-- Surroundings where everything succeeds and the query returns no rows, so that the task
polls its flag once, before the loop. -/
def emptyScript (s : World) (q : Request) : Reply q × World :=
  script "j" (fun _ => none) ⟨[("a", .integer)], []⟩ s q

/-- The sample job after its poll. -/
def polled : Program Reply Unit × World :=
  steps emptyScript 7 (task Engine.sampleHost .exact "j" Engine.sampleSpec)
    (startedWorld (Engine.opened.register "j" 0))

/-- The cancellation comes between the poll and the end. -/
theorem late_cancellation :
    ¬ ∀ ls t, Runs (act "j") (env "j") (task Engine.sampleHost .exact "j" Engine.sampleSpec)
        (startedWorld (Engine.opened.register "j" 0)) ls (.done ()) t →
      .other (.cancel "j" true) ∈ ls → NotCompleted "j" t := by
  intro h
  have hact : ∀ s q, act "j" s q (emptyScript s q).1 (emptyScript s q).2 := act_script
  obtain ⟨l₁, hbefore⟩ := exists_runs_steps (env "j") hact 7
    (task Engine.sampleHost .exact "j" Engine.sampleSpec)
    (startedWorld (Engine.opened.register "j" 0))
  have hcancel : env "j" polled.2 (.cancel "j" true)
      { polled.2 with engine := (polled.2.engine.cancelJob "j").2 } :=
    ⟨rfl, rfl, rfl, rfl⟩
  obtain ⟨l₂, hafter⟩ := exists_runs_follow (env "j") hact polled.1
    { polled.2 with engine := (polled.2.engine.cancelJob "j").2 }
  have hnot := h _ _ (hbefore.trans (.other hcancel hafter))
    (List.mem_append_right _ List.mem_cons_self)
  exact absurd rfl hnot.1

end Etl
end OrbitOpenEO
