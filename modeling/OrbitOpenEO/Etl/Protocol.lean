import OrbitOpenEO.Etl.World

/-!
# The protocol of a run

The events of a job are at most one `Started`, progress with a number of written rows that
does not go down, and one terminal event, which names the state that the job is left in.

`Going` is what holds between the steps of `execute`: the status has the row counts that
were reported last.  A helper that fails after its update of the memory breaks this in one
place only, when the progress of a batch cannot be written (`Lost`).
-/

namespace OrbitOpenEO
namespace Etl

open Lib Program

/-- The row counts in an event. -/
def Event.counts : Event → Option (Nat × Nat)
  | .progress _ rowsRead rowsWritten => some (rowsRead, rowsWritten)
  | .completed _ rowsRead rowsWritten => some (rowsRead, rowsWritten)
  | .cancelled _ rowsRead rowsWritten => some (rowsRead, rowsWritten)
  | .started _ => none
  | .failed _ _ => none

/-- The state that a terminal event of a job names. -/
def Event.outcome (jobId : String) : Event → Option JobState
  | .completed id _ _ => if id = jobId then some .completed else none
  | .failed id _ => if id = jobId then some .failed else none
  | .cancelled id _ _ => if id = jobId then some .cancelled else none
  | .started _ => none
  | .progress _ _ _ => none

/-- The row counts reported last. -/
def reported (stream : List Event) : Nat × Nat :=
  ((stream.filterMap Event.counts).getLast?).getD (0, 0)

/-- The progress event of row counts. -/
def progressEvent (jobId : String) (c : Nat × Nat) : Event := .progress jobId c.1 c.2

/-- At most one `Started`, then progress. -/
structure Ongoing (jobId : String) (stream : List Event) (start : List Event)
    (counts : List (Nat × Nat)) : Prop where
  stream_eq : stream = start ++ counts.map (progressEvent jobId)
  start_eq : start = [] ∨ start = [.started jobId]
  written_le : ∀ c ∈ counts, c.2 ≤ c.1
  monotone : counts.Pairwise fun a b => a.2 ≤ b.2

namespace Ongoing

variable {jobId : String} {stream start : List Event} {counts : List (Nat × Nat)}

theorem filterMap_counts (h : Ongoing jobId stream start counts) :
    stream.filterMap Event.counts = counts := by
  have hstart : start.filterMap Event.counts = [] := by
    rcases h.start_eq with rfl | rfl <;> rfl
  have hmap : (counts.map (progressEvent jobId)).filterMap Event.counts = counts := by
    rw [List.filterMap_map]
    exact List.filterMap_some
  rw [h.stream_eq, List.filterMap_append, hstart, hmap, List.nil_append]

theorem reported_eq (h : Ongoing jobId stream start counts) :
    reported stream = (counts.getLast?).getD (0, 0) := by
  unfold reported
  rw [h.filterMap_counts]

/-- One more event of progress. -/
theorem push (h : Ongoing jobId stream start counts) {c : Nat × Nat} (hc : c.2 ≤ c.1)
    (hlast : (reported stream).2 ≤ c.2) :
    Ongoing jobId (stream ++ [progressEvent jobId c]) start (counts ++ [c]) where
  stream_eq := by
    rw [h.stream_eq, List.map_append, List.append_assoc]
    rfl
  start_eq := h.start_eq
  written_le := by
    intro d hd
    rcases List.mem_append.mp hd with hd | hd
    · exact h.written_le d hd
    · rw [List.mem_singleton.mp hd]
      exact hc
  monotone := by
    refine List.pairwise_append.mpr ⟨h.monotone, List.pairwise_singleton _ _, ?_⟩
    intro a ha b hb
    rw [List.mem_singleton.mp hb]
    refine le_trans ?_ hlast
    rw [h.reported_eq]
    rcases List.eq_nil_or_concat' counts with rfl | ⟨init, last, rfl⟩
    · exact absurd ha List.not_mem_nil
    · rw [List.getLast?_concat, Option.getD_some]
      rcases List.mem_append.mp ha with ha | ha
      · exact (List.pairwise_append.mp h.monotone).2.2 a ha last List.mem_cons_self
      · rw [List.mem_singleton.mp ha]

end Ongoing

theorem reported_append (stream : List Event) (e : Event) :
    reported (stream ++ [e]) = (e.counts).getD (reported stream) := by
  unfold reported
  rw [List.filterMap_append]
  cases h : e.counts with
  | none => simp [h]
  | some c => simp [h]

/-- From `written` on, the batches that start here have room for their rows. -/
def Fits (height batch : Nat) : Nat → List Nat → Prop
  | written, [] => written ≤ height
  | written, start :: starts =>
      written ≤ start ∧ start ≤ height ∧ Fits height batch (start + min batch (height - start)) starts

theorem Fits.mono {height batch written written' : Nat} {starts : List Nat}
    (h : Fits height batch written starts) (hle : written' ≤ written) :
    Fits height batch written' starts := by
  cases starts with
  | nil => exact le_trans hle h
  | cons start starts => exact ⟨le_trans hle h.1, h.2⟩

theorem fits_range' {height batch : Nat} (hbatch : 0 < batch) :
    ∀ (n k : Nat), (∀ i < k + n, i * batch < height) →
      Fits height batch (min (k * batch) height) ((List.range' k n).map fun i => i * batch)
  | 0, k, _ => Nat.min_le_right _ _
  | n + 1, k, h => by
      have hk : k * batch < height := h k (by omega)
      have hmin : min ((k + 1) * batch) height = k * batch + min batch (height - k * batch) := by
        rw [Nat.succ_mul]
        omega
      refine ⟨Nat.min_le_left _ _, Nat.le_of_lt hk, ?_⟩
      rw [← hmin]
      exact fits_range' hbatch n (k + 1) fun i hi => h i (by omega)

/-- The loops of the engine cover their rows without overlap. -/
theorem fits_stepBy {batch : Nat} (hbatch : 0 < batch) (height : Nat) :
    Fits height batch 0 (stepBy height batch) := by
  have hstarts : ∀ i < 0 + (height + batch - 1) / batch, i * batch < height := by
    intro i hi
    rw [Nat.zero_add, Nat.lt_div_iff_mul_lt hbatch] at hi
    omega
  have hrange := fits_range' hbatch _ 0 hstarts
  rw [Nat.zero_mul, Nat.zero_min] at hrange
  rw [stepBy, List.range_eq_range']
  exact hrange

theorem stepBy_eq_nil {height batch : Nat} (hbatch : 0 < batch) (h : stepBy height batch = []) :
    height = 0 := by
  have hzero : (height + batch - 1) / batch = 0 := by
    simpa [stepBy] using h
  rw [Nat.div_eq_zero_iff] at hzero
  omega

/-- Between the steps: the status has the counts `c` that were reported last. -/
def Going (jobId : String) (v : View) (c : Nat × Nat) : Prop :=
  (∃ start counts, Ongoing jobId v.stream start counts) ∧ reported v.stream = c ∧
    v.status.map JobStatus.counts = some c ∧ v.unrecorded = none

/-- The progress of a batch could not be written. -/
def Lost (jobId : String) (v : View) : Prop :=
  (∃ start counts, Ongoing jobId v.stream start counts) ∧
    ∃ c, v.unrecorded = some c ∧ v.status.map JobStatus.counts = some c ∧
      (reported v.stream).2 ≤ c.2 ∧ c.2 ≤ c.1

/-- What `execute` leaves when it stops with an error. -/
def Stopped (jobId : String) (e : Error) (v : View) : Prop :=
  (∃ c, Going jobId v c) ∨ (∃ msg, e = .sql msg) ∧ Lost jobId v

/-- The status and the stream of a job that has ended, whatever its row counts. -/
def Ended (jobId : String) (v : View) : Prop :=
  ∃ start counts last before st, Ongoing jobId before start counts ∧
    v.stream = before ++ [last] ∧ v.status = some st ∧ last.outcome jobId = some st.state ∧
    st.state.isTerminal = true ∧ st.finishedAt.isSome = true

/-- Its row counts are the ones reported last, except where a batch was lost. -/
def Accounted (v : View) : Prop :=
  match v.unrecorded with
  | none => v.status.map JobStatus.counts = some (reported v.stream)
  | some c =>
      v.status.map JobStatus.counts = some c ∧ v.status.map JobStatus.state = some .failed ∧
        (reported v.stream).2 ≤ c.2 ∧ c.2 ≤ c.1

section Steps

variable {jobId : String} {v : View} {c : Nat × Nat}

theorem Going.stopped (h : Going jobId v c) (e : Error) : Stopped jobId e v := .inl ⟨c, h⟩

/-- An update that keeps the counts. -/
theorem Going.update (h : Going jobId v c) {u : StatusUpdate}
    (hu : ∀ st, st.counts = c → (u.apply st).counts = c) : Going jobId (v.update u) c := by
  obtain ⟨hongoing, hreported, hstatus, hunrecorded⟩ := h
  obtain ⟨st, hst, hcounts⟩ := Option.map_eq_some_iff.mp hstatus
  refine ⟨hongoing, hreported, ?_, hunrecorded⟩
  rw [View.update_status, hst, Option.map_some, Option.map_some, hu st hcounts]

/-- A poll leaves the counts alone. -/
theorem Going.seen (h : Going jobId v c) (r : Bool) : Going jobId (v.seen r) c := h

/-- Reporting a batch. -/
theorem Going.progress {height written : Nat} (hc : c.2 ≤ written) (hle : written ≤ height)
    (h : Going jobId v c) :
    Going jobId ((v.update (.progress height written)).push (.progress jobId height written))
      (height, written) := by
  obtain ⟨⟨start, counts, hongoing⟩, hreported, hstatus, hunrecorded⟩ := h
  obtain ⟨st, hst, -⟩ := Option.map_eq_some_iff.mp hstatus
  refine ⟨⟨start, _, hongoing.push (c := (height, written)) hle (by rwa [hreported])⟩,
    reported_append _ _, ?_, hunrecorded⟩
  simp only [View.push_status, View.update_status, hst, Option.map_some]
  rfl

theorem Going.lost {height written : Nat} (hc : c.2 ≤ written) (hle : written ≤ height)
    (h : Going jobId v c) (e : String) :
    Lost jobId ((v.update (.progress height written)).answered
      (.updateJob (.progress height written)) (.error e)) := by
  obtain ⟨hongoing, hreported, hstatus, -⟩ := h
  obtain ⟨st, hst, -⟩ := Option.map_eq_some_iff.mp hstatus
  refine ⟨hongoing, (height, written), rfl, ?_, ?_, hle⟩
  · simp only [View.answered_status, View.update_status, hst, Option.map_some]
    rfl
  · simp only [View.answered_stream, View.update_stream, hreported]
    exact hc

end Steps

/-- A job that has seen its flag up does not complete. -/
def Obeyed (v : View) : Prop :=
  v.stopSeen = true → v.status.map JobStatus.state ≠ some .completed

/-- What holds of a job that has ended. -/
structure Closed (jobId : String) (v : View) : Prop where
  ended : Ended jobId v
  accounted : Accounted v
  obeyed : Obeyed v

section Steps

variable {E : Error → View → Prop} {v : View} {host : Host} {ops : FloatOps}

theorem wpTry_insertStatements {table : String} {df : DataFrame} {doNothing : Bool} {batch : Nat}
    {Q : Nat → View → Prop} (hok : ∀ n ≤ df.height, Q n v) (herr : ∀ e, E (.sql e) v) :
    ∀ (starts : List Nat) (total : Nat), Fits df.height batch total starts →
      wpTry viewAct Q E (insertStatements ops table df doNothing batch starts total) v
  | [], total, hfits => wpTry_pure.mpr (hok total hfits)
  | start :: starts, total, hfits => by
      unfold insertStatements
      refine wpTry_bind.mpr (wpTry_insert (fun n hn => ?_) herr)
      have hrows : n ≤ min batch (df.height - start) := by
        simpa [DataFrame.slice, DataFrame.height] using hn
      exact wpTry_insertStatements hok herr starts (total + n)
        (hfits.2.2.mono (Nat.add_le_add hfits.1 hrows))

/-- A chunk brings at most its rows. -/
theorem wpTry_insertChunk {table : String} {df : DataFrame} {dedupe : Option String}
    {Q : Nat → View → Prop} (hok : ∀ n ≤ df.height, Q n v) (herr : ∀ e, E e v) :
    wpTry viewAct Q E (insertChunk host ops table df dedupe) v := by
  unfold insertChunk
  split
  · exact wpTry_pure.mpr (hok 0 (Nat.zero_le _))
  · refine wpTry_bind.mpr (wpTry_check (fun _ => ?_) fun e _ => herr e)
    refine wpTry_bind.mpr (wpTry_execute.mpr ⟨?_, fun e => herr _⟩)
    refine wpTry_bind.mpr (wpTry_insertStatements (fun n hn => ?_) (fun e => herr _) _ _
      (fits_stepBy (Nat.lt_of_lt_of_le Nat.zero_lt_one (Nat.le_max_right _ _)) _))
    exact wpTry_bind.mpr (wpTry_execute.mpr ⟨wpTry_pure.mpr (hok n hn), fun e => herr _⟩)

theorem wpTry_ensureTable {table : String} {df : DataFrame} {dedupe : Option String}
    {Q : Unit → View → Prop} (hok : Q () v) (herr : ∀ e, E e v) :
    wpTry viewAct Q E (ensureTable host table df dedupe) v := by
  unfold ensureTable
  refine wpTry_bind.mpr (wpTry_check (fun _ => ?_) fun e _ => herr e)
  exact wpTry_execute.mpr ⟨hok, fun e => herr _⟩

variable {jobId : String} {spec : PipelineSpec}

/-- The loop over the batches, from a batch whose predecessors are reported. -/
theorem wpTry_insertBatches {df : DataFrame} {batch : Nat} :
    ∀ (starts : List Nat) (written : Nat) (c : Nat × Nat) (v : View),
      Fits df.height batch written starts → Going jobId v c → v.stopSeen = false →
      c.2 = written → (starts = [] → c = (df.height, written)) →
      wpTry viewAct (fun n v => Going jobId v (df.height, n) ∧ v.stopSeen = false)
        (Stopped jobId) (insertBatches host ops jobId spec df batch starts written) v
  | [], written, c, v, _, hgoing, hseen, _, hlast =>
      wpTry_pure.mpr ⟨hlast rfl ▸ hgoing, hseen⟩
  | start :: starts, written, c, v, hfits, hgoing, hseen, hc, _ => by
      unfold insertBatches
      refine wpTry_bind.mpr (wpTry_stopIfCancelled ?_ ((hgoing.seen true).stopped _))
      refine wpTry_bind.mpr (wpTry_insertChunk (fun n hn => ?_) fun e => hgoing.stopped e)
      have hchunk : n ≤ min batch (df.height - start) := by
        refine le_trans hn ?_
        simp only [DataFrame.slice, DataFrame.height, List.length_take]
        exact Nat.min_le_left _ _
      have hmore : written + n ≤ start + min batch (df.height - start) :=
        Nat.add_le_add hfits.1 hchunk
      have hheight : written + n ≤ df.height := by
        have := hfits.2.1
        omega
      have hgrow : c.2 ≤ written + n := hc ▸ Nat.le_add_right _ _
      refine wpTry_bind.mpr (wpTry_record.mpr ⟨?_, fun e => ?_⟩)
      · refine wpTry_bind.mpr (wpTry_send.mpr ?_)
        exact wpTry_insertBatches starts (written + n) (df.height, written + n) _
          (hfits.2.2.mono hmore) (hgoing.progress hgrow hheight) hseen rfl fun _ => rfl
      · exact .inr ⟨⟨e, rfl⟩, hgoing.lost hgrow hheight e⟩

/-- A status that is terminal by a last event. -/
theorem ended_of_last {u : StatusUpdate} {last : Event} {st : JobStatus}
    (hstream : ∃ start counts, Ongoing jobId v.stream start counts)
    (hst : v.status = some st) (hlast : last.outcome jobId = some (u.apply st).state)
    (hterminal : (u.apply st).state.isTerminal = true)
    (hfinished : (u.apply st).finishedAt.isSome = true) :
    Ended jobId ((v.update u).push last) := by
  obtain ⟨start, counts, hongoing⟩ := hstream
  refine ⟨start, counts, last, v.stream, u.apply st, hongoing, rfl, ?_, hlast, hterminal,
    hfinished⟩
  rw [View.push_status, View.update_status, hst, Option.map_some]

/-- Any other end than the regular one obeys. -/
theorem obeyed_of_state {u : StatusUpdate} {last : Event} {st : JobStatus}
    (hst : v.status = some st) (hstate : (u.apply st).state ≠ .completed) :
    Obeyed ((v.update u).push last) := by
  intro _ h
  rw [View.push_status, View.update_status, hst, Option.map_some, Option.map_some] at h
  exact hstate (Option.some.inj h)

/-- What `execute` leaves when it succeeds. -/
theorem closed_of_completed {c : Nat × Nat} (hgoing : Going jobId v c)
    (hseen : v.stopSeen = false) (now : Nat) :
    Closed jobId ((v.update (.completed c.1 c.2 now)).push (.completed jobId c.1 c.2)) := by
  obtain ⟨hongoing, -, hstatus, hunrecorded⟩ := hgoing
  obtain ⟨st, hst, -⟩ := Option.map_eq_some_iff.mp hstatus
  refine ⟨ended_of_last hongoing hst (if_pos rfl) rfl rfl, ?_, fun h => ?_⟩
  · simp only [Accounted, View.push_unrecorded, View.update_unrecorded, hunrecorded,
      View.push_status, View.update_status, hst, View.push_stream, reported_append]
    rfl
  · rw [View.push_stopSeen, View.update_stopSeen, hseen] at h
    cases h

theorem wpTry_load {df : DataFrame} (hgoing : Going jobId v (0, 0))
    (hseen : v.stopSeen = false) :
    wpTry viewAct (fun _ v => Closed jobId v) (Stopped jobId)
      (load host ops jobId spec df) v := by
  unfold load
  refine wpTry_bind.mpr (wpTry_ensureTable ?_ fun e => hgoing.stopped e)
  refine wpTry_bind.mpr (wpTry_stopIfCancelled ?_ ((hgoing.seen true).stopped _))
  have hbatch : 0 < max spec.batchSize 1 := Nat.lt_of_lt_of_le Nat.zero_lt_one (Nat.le_max_right _ _)
  refine wpTry_bind.mpr (wpTry_mono ?_ (fun _ _ h => h) (wpTry_insertBatches
    (stepBy df.height (max spec.batchSize 1)) 0 (0, 0) v (fits_stepBy hbatch _) hgoing hseen rfl ?_))
  · rintro n w ⟨hw, hwseen⟩
    refine wpTry_bind.mpr (wpTry_bind.mpr (wpTry_clock.mpr fun now => ?_))
    refine wpTry_record.mpr ⟨wpTry_send.mpr (closed_of_completed hw hwseen now), fun e => ?_⟩
    rw [View.answered_eq _ (by simp)]
    exact (hw.update fun _ _ => rfl).stopped _
  · intro h
    rw [stepBy_eq_nil hbatch h]

/-- A job that has not sent anything. -/
structure Fresh (v : View) : Prop where
  stream_eq : v.stream = []
  counts_eq : v.status.map JobStatus.counts = some (0, 0)
  unrecorded_eq : v.unrecorded = none
  stopSeen_eq : v.stopSeen = false

theorem Fresh.going (h : Fresh v) : Going jobId v (0, 0) := by
  refine ⟨⟨[], [], ⟨h.stream_eq, .inl rfl, ?_, .nil⟩⟩, ?_, h.counts_eq, h.unrecorded_eq⟩
  · intro c hc
    cases hc
  · rw [h.stream_eq]
    rfl

theorem Fresh.started (h : Fresh v) : Going jobId (v.push (.started jobId)) (0, 0) := by
  refine ⟨⟨[.started jobId], [], ⟨?_, .inr rfl, ?_, .nil⟩⟩, ?_, h.counts_eq, h.unrecorded_eq⟩
  · rw [View.push_stream, h.stream_eq]
    rfl
  · intro c hc
    cases hc
  · rw [View.push_stream, h.stream_eq]
    rfl

theorem wpTry_executeJob (hfresh : Fresh v) :
    wpTry viewAct (fun _ v => Closed jobId v) (Stopped jobId)
      (executeJob host ops jobId spec) v := by
  have hupdated : Going jobId (v.update .running) (0, 0) := hfresh.going.update fun _ h => h
  have hrunning : Fresh (v.update .running) :=
    ⟨hfresh.stream_eq, hupdated.2.2.1, hfresh.unrecorded_eq, hfresh.stopSeen_eq⟩
  unfold executeJob
  refine wpTry_bind.mpr (wpTry_record.mpr ⟨?_, fun e => ?_⟩)
  · have hgoing : Going jobId ((v.update .running).push (.started jobId)) (0, 0) :=
      hrunning.started
    refine wpTry_bind.mpr (wpTry_send.mpr ?_)
    refine wpTry_bind.mpr (wpTry_readSource ?_ fun e => hgoing.stopped _)
    refine wpTry_bind.mpr (wpTry_collect (fun df => ?_) fun e => hgoing.stopped _)
    exact wpTry_load hgoing hfresh.stopSeen_eq
  · rw [View.answered_eq _ (by simp)]
    exact hupdated.stopped _

/-- A helper of `finish` updates the memory, whatever the database answers. -/
theorem wp_markFailed (err : String) :
    wp viewAct (fun _ t => ∃ now, t = v.update (.failed now err)) (markFailed err).run v := by
  refine wp_run_of_wpTry (wpTry_bind.mpr (wpTry_clock.mpr fun now => wpTry_record.mpr ?_))
  refine ⟨⟨now, rfl⟩, fun e => ⟨now, ?_⟩⟩
  exact View.answered_eq _ (by simp) _

theorem wp_markCancelled :
    wp viewAct (fun _ t => ∃ now, t = v.update (.cancelled now)) markCancelled.run v := by
  refine wp_run_of_wpTry (wpTry_bind.mpr (wpTry_clock.mpr fun now => wpTry_record.mpr ?_))
  refine ⟨⟨now, rfl⟩, fun e => ⟨now, ?_⟩⟩
  exact View.answered_eq _ (by simp) _

theorem finish_error {e : Error} (he : e ≠ .cancelled) :
    finish jobId (.error e) =
      ((markFailed e.toString).run >>= fun _ => exchange (.send (.failed jobId e.toString))) := by
  cases e with
  | cancelled => exact absurd rfl he
  | _ => rfl

theorem wp_finish_failed {e : Error} (he : e ≠ .cancelled) (hstopped : Stopped jobId e v) :
    wp viewAct (fun _ v => Closed jobId v) (finish jobId (.error e)) v := by
  rw [finish_error he]
  refine wp_bind.mpr (wp_mono ?_ (wp_markFailed e.toString))
  rintro _ w ⟨now, rfl⟩ r t rfl
  rcases hstopped with ⟨c, hongoing, hreported, hstatus, hunrecorded⟩ |
    ⟨-, hongoing, c, hunrecorded, hstatus, hle, hbound⟩
  · obtain ⟨st, hst, hcounts⟩ := Option.map_eq_some_iff.mp hstatus
    refine ⟨ended_of_last hongoing hst (if_pos rfl) rfl rfl, ?_,
      obeyed_of_state hst JobState.noConfusion⟩
    simp only [Accounted, View.push_unrecorded, View.update_unrecorded, hunrecorded,
      View.push_status, View.update_status, hst, View.push_stream, View.update_stream,
      reported_append, Event.counts, Option.getD_none, hreported, ← hcounts]
    rfl
  · obtain ⟨st, hst, hcounts⟩ := Option.map_eq_some_iff.mp hstatus
    refine ⟨ended_of_last hongoing hst (if_pos rfl) rfl rfl, ?_,
      obeyed_of_state hst JobState.noConfusion⟩
    simp only [Accounted, View.push_unrecorded, View.update_unrecorded, hunrecorded,
      View.push_status, View.update_status, hst, View.push_stream, View.update_stream,
      reported_append, Event.counts, Option.getD_none]
    exact ⟨congrArg some hcounts, rfl, hle, hbound⟩

theorem wp_finish_cancelled (hstopped : Stopped jobId .cancelled v) :
    wp viewAct (fun _ v => Closed jobId v) (finish jobId (.error .cancelled)) v := by
  rcases hstopped with ⟨c, hongoing, -, hstatus, hunrecorded⟩ | ⟨⟨msg, hmsg⟩, -⟩
  · obtain ⟨st, hst, hcounts⟩ := Option.map_eq_some_iff.mp hstatus
    unfold finish
    refine wp_bind.mpr ?_
    rintro _ t ⟨rfl, rfl⟩
    refine wp_bind.mpr (wp_mono ?_ wp_markCancelled)
    rintro _ w ⟨now, rfl⟩ r t rfl
    refine ⟨ended_of_last hongoing hst (if_pos rfl) rfl rfl, ?_,
      obeyed_of_state hst JobState.noConfusion⟩
    simp only [Accounted, View.push_unrecorded, View.update_unrecorded, hunrecorded,
      View.push_status, View.update_status, hst, View.push_stream, View.update_stream,
      reported_append]
    rfl
  · cases hmsg

/-- Every run of the task ends in order. -/
theorem wp_task (hfresh : Fresh v) :
    wp viewAct (fun _ v => Closed jobId v) (task host ops jobId spec) v := by
  unfold task
  refine wp_bind.mpr (wp_mono ?_ (wpTry_executeJob hfresh))
  rintro (e | u) w hw _ t rfl
  · by_cases he : e = .cancelled
    · subst he
      exact wp_finish_cancelled hw
    · exact wp_finish_failed he hw
  · exact hw

end Steps

/-- The world of a job that `run` has just started. -/
def startedWorld (engine : Engine) : World := ⟨engine, [], none, false⟩

/-- The job that `run` has just registered. -/
theorem fresh_of_run {host : Host} {dataRoot : Option Path} {engine engine' : Engine}
    {spec : PipelineSpec} {jobId id : String} {startedAt : Nat} {inserted : Except String Unit}
    (hrun : engine.run host dataRoot spec jobId startedAt inserted = (.ok id, engine')) :
    Fresh ((startedWorld engine').view id) := by
  obtain ⟨rfl, rfl⟩ := Engine.run_eq_ok hrun
  refine ⟨rfl, ?_, rfl, rfl⟩
  simp only [World.view, startedWorld, (Engine.leftover engine id startedAt).1, Option.map_some]
  rfl

/-- What the task of a job leaves, beside the others. -/
theorem closed_of_runs {host : Host} {ops : FloatOps} {spec : PipelineSpec} {jobId : String}
    {s t : World} {ls : List (Label Reply Others)} (hfresh : Fresh (s.view jobId))
    (h : Runs (act jobId) (env jobId) (task host ops jobId spec) s ls (.done ()) t) :
    Closed jobId (t.view jobId) :=
  h.wp (World.view jobId) (fun _ _ _ _ => view_act) (fun _ _ _ => view_env) (wp_task hfresh)

/-- A job of a run that has ended: its events are in order, the last one names the state
that it is in, and its row counts are the ones reported last, unless a batch was written
whose progress the database did not take.  Every run that has begun can come to its end. -/
theorem task_follows_protocol {host : Host} {ops : FloatOps} {dataRoot : Option Path}
    {engine engine' : Engine} {spec : PipelineSpec} {jobId id : String} {startedAt : Nat}
    {inserted : Except String Unit}
    (hrun : engine.run host dataRoot spec jobId startedAt inserted = (.ok id, engine')) :
    (∀ ls t, Runs (act id) (env id) (task host ops id spec) (startedWorld engine') ls (.done ()) t →
      Ended id (t.view id) ∧ Accounted (t.view id)) ∧
    ∀ ls p t, Runs (act id) (env id) (task host ops id spec) (startedWorld engine') ls p t →
      ∃ ls' t', Runs (act id) (env id) p t ls' (.done ()) t' := by
  refine ⟨fun ls t h => ?_, fun ls p t _ => ?_⟩
  · have hclosed := closed_of_runs (fresh_of_run hrun) h
    exact ⟨hclosed.ended, hclosed.accounted⟩
  · obtain ⟨ls', a, t', h⟩ := exists_runs_done (env id) (act_total id) p t
    exact ⟨ls', t', h⟩

/-- The job of a sample spec ends in order. -/
theorem task_follows_protocol_sample :
    (∀ ls t, Runs (act "j") (env "j") (task Engine.sampleHost .exact "j" Engine.sampleSpec)
        (startedWorld (Engine.opened.register "j" 0)) ls (.done ()) t →
      Ended "j" (t.view "j") ∧ Accounted (t.view "j")) ∧
    ∀ ls p t, Runs (act "j") (env "j") (task Engine.sampleHost .exact "j" Engine.sampleSpec)
        (startedWorld (Engine.opened.register "j" 0)) ls p t →
      ∃ ls' t', Runs (act "j") (env "j") p t ls' (.done ()) t' :=
  task_follows_protocol (Engine.run_of_recorded Engine.checkSpec_sample ⟨⟨"{}", rfl⟩, rfl⟩)

/-- A database that does not take the progress of a batch. -/
def refuseProgress : Statement → Option String
  | .updateJob (.progress _ _) => some "database is locked"
  | _ => none

/-- A query result of one row. -/
def oneRow : DataFrame := ⟨[("a", .integer)], [[.int 1]]⟩

/-- One row is written and counted in memory, but no event reports it. -/
theorem lost_batch :
    ¬ ∀ ls t, Runs (act "j") (env "j") (task Engine.sampleHost .exact "j" Engine.sampleSpec)
        (startedWorld (Engine.opened.register "j" 0)) ls (.done ()) t →
      (t.view "j").status.map JobStatus.counts = some (reported (t.view "j").stream) := by
  intro h
  have hact : ∀ s q, act "j" s q (script "j" refuseProgress oneRow s q).1
      (script "j" refuseProgress oneRow s q).2 := act_script
  obtain ⟨ls, hrun⟩ := exists_runs_follow (env "j") hact
    (task Engine.sampleHost .exact "j" Engine.sampleSpec)
    (startedWorld (Engine.opened.register "j" 0))
  have hcounts := h ls _ hrun
  revert hcounts
  decide

end Etl
end OrbitOpenEO
