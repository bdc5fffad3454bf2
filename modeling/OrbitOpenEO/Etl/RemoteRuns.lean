import OrbitOpenEO.Etl.Protocol
import OrbitOpenEO.Lib.Relays
import OrbitOpenEO.Lib.Utf8
import Mathlib.Logic.Relation

/-!
# A run over the wire

`orbit etl run` sends a spec to the server and shows the events of the job as they come.
Between the task of the job and the command lie the channel of the engine, the forwarder of
the server, the channel of the response and the network (`Lib.Relay`).  A path is bytes, and
the spec has a text of it.

`Session.Step` interleaves all of them with the callers of `cancel_job` and the other jobs.
The command shows the events of the job in order, without a gap, and its exit code is the
state that the job is left in (`run_reports_job`).
-/

namespace OrbitOpenEO
namespace Etl

open Lib Program Relation

namespace Pb

/-- The enumeration `FileFormat` of the schema. -/
inductive FileFormat where
  | unspecified
  | csv
  | parquet
  | json
deriving DecidableEq

/-- `FileFormat as i32`. -/
def FileFormat.toI32 : FileFormat → Int
  | .unspecified => 0
  | .csv => 1
  | .parquet => 2
  | .json => 3

/-- `FileFormat::try_from`. -/
def FileFormat.tryFrom (i : Int) : Option FileFormat :=
  [FileFormat.unspecified, .csv, .parquet, .json].find? fun f => f.toI32 == i

/-- The message `FileSource`. -/
structure FileSource where
  path : String
  format : Int
  hasHeader : Bool
  delimiter : String

/-- The message `PipelineSpec`; a file is the only kind of source. -/
structure PipelineSpec where
  source : Option FileSource
  destinationTable : String
  sqlTransform : String
  dedupeColumn : String
  batchSize : Nat

/-- The alternatives of `PipelineEvent`. -/
inductive Event where
  | started (jobId : String)
  | progress (jobId : String) (rowsRead rowsWritten : Nat)
  | completed (jobId : String) (rowsRead rowsWritten : Nat)
  | failed (jobId error : String)
deriving DecidableEq

/-- The message `PipelineEvent`. -/
abbrev PipelineEvent := Option Event

/-- The codes of `tonic::Status` that the server uses. -/
inductive Code where
  | invalidArgument
  | notFound
  | internal
deriving DecidableEq

/-- `tonic::Status`. -/
structure Status where
  code : Code
  message : String
deriving DecidableEq

end Pb

/-- `decode_spec`. -/
def decodeSpec (p : Pb.PipelineSpec) : Except Pb.Status PipelineSpec := do
  let source ← match p.source with
    | none => .error ⟨.invalidArgument, "source required"⟩
    | some f => do
        let format ← match (Pb.FileFormat.tryFrom f.format).getD .unspecified with
          | .csv => .ok FileFormat.csv
          | .parquet => .ok FileFormat.parquet
          | .json => .ok FileFormat.json
          | .unspecified => .error ⟨.invalidArgument, "file format required"⟩
        pure ⟨f.path.toUTF8.toList, format, f.hasHeader,
          if f.delimiter = "" then "," else f.delimiter⟩
  pure
    { source
      destinationTable := p.destinationTable
      sqlTransform := if p.sqlTransform = "" then none else some p.sqlTransform
      dedupeColumn := if p.dedupeColumn = "" then none else some p.dedupeColumn
      batchSize := if p.batchSize = 0 then 1024 else p.batchSize }

/-- `encode_event`; the schema has no message for a cancelled job. -/
def encodeEvent : Event → Pb.PipelineEvent
  | .started id => some (.started id)
  | .progress id rowsRead rowsWritten => some (.progress id rowsRead rowsWritten)
  | .completed id rowsRead rowsWritten => some (.completed id rowsRead rowsWritten)
  | .failed id error => some (.failed id error)
  | .cancelled id _ _ => some (.failed id "cancelled")

/-- `to_status`. -/
def toStatus : Error → Pb.Status
  | .invalidSpec m => ⟨.invalidArgument, m⟩
  | .serde m => ⟨.invalidArgument, m⟩
  | .internal m => ⟨.invalidArgument, m⟩
  | .sourceNotFound p => ⟨.notFound, "source not found: " ++ p⟩
  | e => ⟨.internal, e.toString⟩

/-- `EtlServer::run_pipeline` up to the stream: the id of the job and its task. -/
def runPipeline (host : Host) (ops : FloatOps) (dataRoot : Option Path) (engine : Engine)
    (request : Pb.PipelineSpec) (jobId : String) (startedAt : Nat)
    (inserted : Except String Unit) : Except Pb.Status (String × Program Reply Unit) × Engine :=
  match decodeSpec request with
  | .error e => (.error e, engine)
  | .ok spec =>
      match engine.run host dataRoot spec jobId startedAt inserted with
      | (.error e, engine) => (.error (toStatus e), engine)
      | (.ok id, engine) => (.ok (id, task host ops id spec), engine)

/-- The argument `--format`. -/
inductive FmtArg where
  | csv
  | parquet
  | json
deriving DecidableEq

/-- `FmtArg::to_pb`. -/
def FmtArg.toPb : FmtArg → Pb.FileFormat
  | .csv => .csv
  | .parquet => .parquet
  | .json => .json

/-- `Path::extension`: the last component that is not `.`, behind its last dot, unless the dot
comes first. -/
def pathExtension (path : Path) : Option (List UInt8) :=
  match ((path.splitOn 0x2F).filter fun c => c ≠ [] ∧ c ≠ [0x2E]).getLast? with
  | none => none
  | some name =>
      if name = [0x2E, 0x2E] then none
      else
        match name.reverse.span (· ≠ 0x2E) with
        | (_, []) => none
        | (_, [_]) => none
        | (ext, _ :: _ :: _) => some ext.reverse

/-- `OsStr::to_str`. -/
def toStr (bytes : List UInt8) : Option (List Char) :=
  let cs := decodeLossy bytes
  if utf8 cs = bytes then some cs else none

/-- `FmtArg::from_path`. -/
def FmtArg.fromPath (path : Path) : Option FmtArg :=
  match ((pathExtension path).bind toStr).map fun ext => String.ofList (ext.map Char.toLower) with
  | some "csv" => some .csv
  | some "parquet" => some .parquet
  | some "pq" => some .parquet
  | some "json" => some .json
  | some "ndjson" => some .json
  | _ => none

/-- The arguments of `orbit etl run`. -/
structure EtlRun where
  input : Path
  table : String
  format : Option FmtArg
  sql : Option String
  dedupe : Option String
  batch : Nat
  noHeader : Bool

namespace EtlRun

variable (args : EtlRun)

/-- The format, as given or from the name of the file. -/
def chosen : Option FmtArg := args.format.or (FmtArg.fromPath args.input)

/-- The message that the command sends; of the path it has what `display` shows. -/
def request : Except String Pb.PipelineSpec :=
  match args.chosen with
  | none => .error "cannot infer format from extension; pass --format"
  | some fmt => .ok
      { source := some
          ⟨String.ofList (decodeLossy args.input), fmt.toPb.toI32, !args.noHeader, ","⟩
        destinationTable := args.table
        sqlTransform := args.sql.getD ""
        dedupeColumn := args.dedupe.getD ""
        batchSize := args.batch }

/-- The format that an argument names. -/
def named : FmtArg → FileFormat
  | .csv => .csv
  | .parquet => .parquet
  | .json => .json

/-- What the user asks for: an empty text is no text, and no batch size is the usual one. -/
def asked (fmt : FmtArg) : PipelineSpec where
  source := ⟨args.input, named fmt, !args.noHeader, ","⟩
  destinationTable := args.table
  sqlTransform := args.sql.filter fun s => s ≠ ""
  dedupeColumn := args.dedupe.filter fun s => s ≠ ""
  batchSize := if args.batch = 0 then 1024 else args.batch

variable {args}

theorem getD_empty (x : Option String) :
    (if x.getD "" = "" then none else some (x.getD "")) = x.filter fun s => s ≠ "" := by
  cases x with
  | none => rfl
  | some s =>
      by_cases hs : s = ""
      · simp [hs, Option.filter]
      · simp [hs, Option.filter]

/-- The server reads the message as it was meant if and only if the path is a text. -/
theorem decodeSpec_request {request : Pb.PipelineSpec} (h : args.request = .ok request) :
    ∃ fmt spec, args.chosen = some fmt ∧ decodeSpec request = .ok spec ∧
      (spec = args.asked fmt ↔ ∃ cs, args.input = utf8 cs) := by
  unfold EtlRun.request at h
  cases hfmt : args.chosen with
  | none =>
      rw [hfmt] at h
      cases h
  | some fmt =>
      rw [hfmt] at h
      cases h
      have hpath : (String.ofList (decodeLossy args.input)).toUTF8.toList =
          utf8 (decodeLossy args.input) := by
        rw [toUTF8_toList, String.toList_ofList]
      have hdecoded : decodeSpec
          { source := some
              ⟨String.ofList (decodeLossy args.input), fmt.toPb.toI32, !args.noHeader, ","⟩
            destinationTable := args.table
            sqlTransform := args.sql.getD ""
            dedupeColumn := args.dedupe.getD ""
            batchSize := args.batch } =
          .ok { args.asked fmt with
            source := ⟨utf8 (decodeLossy args.input), named fmt, !args.noHeader, ","⟩ } := by
        unfold EtlRun.asked
        rw [← getD_empty, ← getD_empty, ← hpath]
        cases fmt <;> rfl
      refine ⟨fmt, _, rfl, hdecoded, ?_⟩
      rw [← utf8_decodeLossy_iff]
      constructor
      · intro hsame
        exact congrArg (fun spec => spec.source.path) hsame
      · intro htext
        rw [htext]
        rfl

end EtlRun

/-- What the command writes for an event. -/
def Pb.Event.line : Pb.Event → String
  | .started id => s!"job {id} started"
  | .progress _ rowsRead rowsWritten => s!"read={rowsRead} written={rowsWritten}"
  | .completed id rowsRead rowsWritten =>
      s!"✓ completed read={rowsRead} written={rowsWritten} ({id})"
  | .failed _ error => s!"✗ failed: {error}"

/-- The event after which the command gives up. -/
def Pb.Event.failure : Pb.Event → Option String
  | .failed _ error => some error
  | _ => none

/-- How the command ends. -/
inductive Exit where
  | ok
  | pipelineFailed (error : String)
  | transport (error : String)
deriving DecidableEq

/-- The capacity of the channels of the engine and of the server. -/
def channelCapacity : Nat := 32

/-- A job, the events on their way and the command. -/
structure Session where
  task : Program Reply Unit
  world : World
  relay : Relay Event Pb.PipelineEvent
  shown : List String
  exit : Option Exit

/-- The event of a request. -/
def sentBy : Request → Option Event
  | .send e => some e
  | _ => none

/-- The task has returned. -/
def isDone : Program Reply Unit → Bool
  | .done _ => true
  | .call _ _ => false

namespace Session

/-- A session whose job has just been spawned. -/
def opened (p : Program Reply Unit) (engine : Engine) : Session :=
  ⟨p, startedWorld engine, .fresh, [], none⟩

/-- The body of the loop of the command. -/
def onEvent (s : Session) (ev : Pb.PipelineEvent) (relay : Relay Event Pb.PipelineEvent) :
    Session :=
  let shown := s.shown ++ (ev.map Pb.Event.line).toList
  match ev.bind Pb.Event.failure with
  | none => { s with relay := relay, shown := shown }
  | some error =>
      { s with relay := relay.hangUp, shown := shown, exit := some (.pipelineFailed error) }

/-- The sending of an event waits for room; all else does not. -/
def offered (s : Session) (q : Request) : Option (Relay Event Pb.PipelineEvent) :=
  match sentBy q with
  | none => some s.relay
  | some e => s.relay.offer channelCapacity e

/-- What may happen next: the task goes on, others act, an event moves on, the command reads
one, sees the end of the stream or loses the connection. -/
inductive Step (jobId : String) : Session → Session → Prop
  | work {s : Session} {q : Request} {next : Reply q → Program Reply Unit} {r : Reply q}
      {w : World} {relay : Relay Event Pb.PipelineEvent} :
      s.task = .call q next → act jobId s.world q r w → s.offered q = some relay →
      Step jobId s { s with task := next r, world := w, relay := relay }
  | beside {s : Session} {e : Others} {w : World} :
      env jobId s.world e w → Step jobId s { s with world := w }
  | hop {s : Session} {h : Hop} {relay : Relay Event Pb.PipelineEvent} :
      s.relay.move channelCapacity encodeEvent (isDone s.task) h = some relay →
      Step jobId s { s with relay := relay }
  | event {s : Session} {ev : Pb.PipelineEvent} {relay : Relay Event Pb.PipelineEvent} :
      s.relay.read = some (ev, relay) → Step jobId s (s.onEvent ev relay)
  | close {s : Session} :
      s.relay.isOver = true →
      Step jobId s { s with relay := s.relay.hangUp, exit := some .ok }
  | lost {s : Session} (error : String) :
      s.relay.listening = true →
      Step jobId s { s with relay := s.relay.hangUp, exit := some (.transport error) }

/-- What holds in every state of the session of a job. -/
structure Sound (jobId : String) (start : Session) (s : Session) : Prop where
  runs : ∃ ls, Runs (act jobId) (env jobId) start.task start.world ls s.task s.world
  faithful : s.relay.Faithful encodeEvent s.world.stream
  forwarded : s.relay.listening = true → s.relay.forwarding = false → isDone s.task = true
  shown_eq : s.shown = s.relay.got.filterMap fun ev => ev.map Pb.Event.line
  listening_iff : s.relay.listening = true ↔ s.exit = none
  unfailed : (s.exit = none ∨ s.exit = some .ok) →
    ∀ ev ∈ s.relay.got, ev.bind Pb.Event.failure = none
  ended : s.exit = some .ok →
    isDone s.task = true ∧ s.relay.got = s.world.stream.map encodeEvent
  failed : ∀ error, s.exit = some (.pipelineFailed error) →
    ∃ ev ∈ s.relay.got, ev.bind Pb.Event.failure = some error

section Steps

variable {jobId : String} {start s t : Session}

theorem stream_act {w : World} {q : Request} {r : Reply q} (h : act jobId s.world q r w) :
    w.stream = s.world.stream ++ (sentBy q).toList := by
  cases q with
  | counts =>
      obtain ⟨rfl, -⟩ := h
      exact (List.append_nil _).symm
  | poll =>
      obtain ⟨rfl, -⟩ := h
      exact (List.append_nil _).symm
  | send e =>
      cases h
      rfl
  | _ =>
      cases h
      exact (List.append_nil _).symm

theorem stream_env {w : World} {e : Others} (h : env jobId s.world e w) :
    w.stream = s.world.stream := by
  cases e with
  | cancel k answer => exact h.2.1
  | elsewhere => exact h.1

theorem offered_spec {q : Request} {relay : Relay Event Pb.PipelineEvent}
    (hs : Sound jobId start s) (hbusy : isDone s.task = false)
    (h : s.offered q = some relay) :
    relay.Faithful encodeEvent (s.world.stream ++ (sentBy q).toList) ∧ relay.got = s.relay.got ∧
      relay.listening = s.relay.listening ∧ relay.forwarding = s.relay.forwarding := by
  unfold offered at h
  cases hq : sentBy q with
  | none =>
      rw [hq] at h
      cases h
      rw [Option.toList_none, List.append_nil]
      exact ⟨hs.faithful, rfl, rfl, rfl⟩
  | some e =>
      rw [hq] at h
      refine ⟨hs.faithful.offer (fun hlisten => ?_) h, Relay.offer_got h⟩
      by_contra hforward
      rw [hs.forwarded hlisten (by simpa using hforward)] at hbusy
      cases hbusy

theorem Sound.work (hs : Sound jobId start s) {q : Request} {next : Reply q → Program Reply Unit}
    {r : Reply q} {w : World} {relay : Relay Event Pb.PipelineEvent}
    (htask : s.task = .call q next) (hact : act jobId s.world q r w)
    (hoffer : s.offered q = some relay) :
    Sound jobId start { s with task := next r, world := w, relay := relay } := by
  have hbusy : isDone s.task = false := by rw [htask]; rfl
  obtain ⟨hfaithful, hgot, hlistening, hforwarding⟩ := offered_spec hs hbusy hoffer
  obtain ⟨ls, hruns⟩ := hs.runs
  rw [htask] at hruns
  refine ⟨⟨_, hruns.trans (.task hact (.refl _ _))⟩, ?_, fun hlisten hforward => ?_, ?_, ?_, ?_,
    fun hexit => ?_, ?_⟩
  · rw [stream_act hact]
    exact hfaithful
  · rw [hs.forwarded (hlistening ▸ hlisten) (hforwarding ▸ hforward)] at hbusy
    cases hbusy
  · rw [hgot]
    exact hs.shown_eq
  · rw [hlistening]
    exact hs.listening_iff
  · rw [hgot]
    exact hs.unfailed
  · rw [(hs.ended hexit).1] at hbusy
    cases hbusy
  · rw [hgot]
    exact hs.failed

theorem Sound.beside (hs : Sound jobId start s) {e : Others} {w : World}
    (henv : env jobId s.world e w) : Sound jobId start { s with world := w } := by
  obtain ⟨ls, hruns⟩ := hs.runs
  have hstream := stream_env henv
  refine ⟨⟨_, hruns.trans (.other henv (.refl _ _))⟩, ?_, hs.forwarded, hs.shown_eq,
    hs.listening_iff, hs.unfailed, ?_, hs.failed⟩
  · rw [hstream]
    exact hs.faithful
  · rw [hstream]
    exact hs.ended

theorem Sound.hop (hs : Sound jobId start s) {h : Hop} {relay : Relay Event Pb.PipelineEvent}
    (hmove : s.relay.move channelCapacity encodeEvent (isDone s.task) h = some relay) :
    Sound jobId start { s with relay := relay } := by
  have hgot := Relay.move_got hmove
  have hlistening := Relay.move_listening hmove
  refine ⟨hs.runs, hs.faithful.move hmove, fun hlisten => ?_, ?_, ?_, ?_, ?_, ?_⟩
  · have hbefore : s.relay.listening = true := hlistening ▸ hlisten
    exact Relay.move_forwarding hmove hbefore (hs.forwarded hbefore)
  · rw [hgot]
    exact hs.shown_eq
  · rw [hlistening]
    exact hs.listening_iff
  · rw [hgot]
    exact hs.unfailed
  · rw [hgot]
    exact hs.ended
  · rw [hgot]
    exact hs.failed

/-- Who has hung up has ended. -/
theorem hung_up (relay : Relay Event Pb.PipelineEvent) (exit : Exit) :
    relay.hangUp.listening = true ↔ some exit = none := by
  constructor
  · rintro ⟨⟩
  · rintro ⟨⟩

theorem Sound.event (hs : Sound jobId start s) {ev : Pb.PipelineEvent}
    {relay : Relay Event Pb.PipelineEvent} (hread : s.relay.read = some (ev, relay)) :
    Sound jobId start (s.onEvent ev relay) := by
  have hfaithful := hs.faithful.read hread
  obtain ⟨hlisten, rest, -, rfl⟩ := Relay.read_eq_some hread
  have hexit := hs.listening_iff.mp hlisten
  have hshown : s.shown ++ (ev.map Pb.Event.line).toList =
      (s.relay.got ++ [ev]).filterMap fun ev => ev.map Pb.Event.line := by
    rw [List.filterMap_append, ← hs.shown_eq]
    cases ev <;> rfl
  unfold onEvent
  cases hfailure : ev.bind Pb.Event.failure with
  | none =>
      refine ⟨hs.runs, hfaithful, hs.forwarded, hshown, hs.listening_iff, fun _ ev' hev => ?_,
        fun hok => ?_, fun error hfailed => ?_⟩
      · rcases List.mem_append.mp hev with hev | hev
        · exact hs.unfailed (.inl hexit) ev' hev
        · rw [List.mem_singleton.mp hev]
          exact hfailure
      · rw [hexit] at hok
        cases hok
      · rw [hexit] at hfailed
        cases hfailed
  | some error =>
      refine ⟨hs.runs, hfaithful.hangUp, by rintro ⟨⟩, hshown, hung_up _ _, ?_, by rintro ⟨⟩, ?_⟩
      · rintro (h | h) <;> cases h
      · intro error' hfailed
        cases hfailed
        exact ⟨ev, List.mem_append_right _ List.mem_cons_self, hfailure⟩

theorem Sound.close (hs : Sound jobId start s) (hover : s.relay.isOver = true) :
    Sound jobId start { s with relay := s.relay.hangUp, exit := some .ok } := by
  have hgot := hs.faithful.got_of_isOver hover
  simp only [Relay.isOver, Bool.and_eq_true, Bool.not_eq_true'] at hover
  obtain ⟨⟨⟨hlisten, hforward⟩, -⟩, -⟩ := hover
  exact ⟨hs.runs, hs.faithful.hangUp, by rintro ⟨⟩, hs.shown_eq, hung_up _ _,
    fun _ => hs.unfailed (.inl (hs.listening_iff.mp hlisten)),
    fun _ => ⟨hs.forwarded hlisten hforward, hgot⟩, by rintro _ ⟨⟩⟩

theorem Sound.lost (hs : Sound jobId start s) (error : String) :
    Sound jobId start { s with relay := s.relay.hangUp, exit := some (.transport error) } :=
  ⟨hs.runs, hs.faithful.hangUp, by rintro ⟨⟩, hs.shown_eq, hung_up _ _,
    (by rintro (h | h) <;> cases h), by rintro ⟨⟩, by rintro _ ⟨⟩⟩

theorem Sound.step (hs : Sound jobId start s) (h : Step jobId s t) : Sound jobId start t := by
  cases h with
  | work htask hact hoffer => exact hs.work htask hact hoffer
  | beside henv => exact hs.beside henv
  | hop hmove => exact hs.hop hmove
  | event hread => exact hs.event hread
  | close hover => exact hs.close hover
  | lost error hlisten => exact hs.lost error

theorem Sound.reach (hs : Sound jobId start s) (h : ReflTransGen (Step jobId) s t) :
    Sound jobId start t := by
  induction h with
  | refl => exact hs
  | tail _ hstep ih => exact ih.step hstep

theorem sound_opened (jobId : String) (p : Program Reply Unit) (engine : Engine) :
    Sound jobId (opened p engine) (opened p engine) :=
  ⟨⟨[], .refl _ _⟩, Relay.faithful_fresh, by rintro _ ⟨⟩, rfl, ⟨fun _ => rfl, fun _ => rfl⟩,
    fun _ _ hev => absurd hev List.not_mem_nil, by rintro ⟨⟩, by rintro _ ⟨⟩⟩

end Steps

end Session

/-- An event that does not say that the job has failed. -/
def Event.fine (e : Event) : Prop := (encodeEvent e).bind Pb.Event.failure = none

/-- The last event of a job and the status that it is left in. -/
def Tells (jobId : String) : Event → JobStatus → Prop
  | .completed id rowsRead rowsWritten, st =>
      id = jobId ∧ st.state = .completed ∧ st.rowsRead = rowsRead ∧ st.rowsWritten = rowsWritten
  | .failed _ error, st => st.state = .failed ∧ st.error = some error ∧ error ≠ "cancelled"
  | .cancelled _ _ _, st => st.state = .cancelled
  | .started _, _ => False
  | .progress _ _ _, _ => False

/-- Fine events, and a last one that tells the status. -/
def Told (jobId : String) (v : View) : Prop :=
  ∃ before last st, v.stream = before ++ [last] ∧ (∀ e ∈ before, e.fine) ∧
    v.status = some st ∧ Tells jobId last st

section Told

variable {jobId : String} {v : View} {host : Host} {ops : FloatOps} {spec : PipelineSpec}

theorem Ongoing.fine {stream start : List Event} {counts : List (Nat × Nat)}
    (h : Ongoing jobId stream start counts) : ∀ e ∈ stream, e.fine := by
  intro e he
  rw [h.stream_eq] at he
  rcases List.mem_append.mp he with he | he
  · rcases h.start_eq with rfl | rfl
    · cases he
    · rw [List.mem_singleton.mp he]
      rfl
  · obtain ⟨c, -, rfl⟩ := List.mem_map.mp he
    rfl

theorem append_ne_cancelled {c : Char} {cs : List Char} (hc : c ≠ 'c') (m : String) :
    String.ofList (c :: cs) ++ m ≠ "cancelled" := by
  intro h
  have htext : c :: (cs ++ m.toList) = "cancelled".toList := by
    rw [← h, String.toList_append, String.toList_ofList]
    rfl
  exact hc (List.cons.inj htext).1

/-- The texts of errors are none that the server puts in place of a cancellation. -/
theorem toString_ne_cancelled (e : Error) : e.toString ≠ "cancelled" := by
  cases e with
  | cancelled => decide
  | _ => exact append_ne_cancelled (by decide) _

/-- What a part of the task does not send. -/
def Quiet {α : Type} (p : Task α) : Prop :=
  ∀ v : View, (∀ e ∈ v.stream, e.fine) →
    wpTry viewAct (fun _ w => ∀ e ∈ w.stream, e.fine) (fun _ w => ∀ e ∈ w.stream, e.fine) p v

theorem Quiet.bind {α β : Type} {p : Task α} {f : α → Task β} (hp : Quiet p)
    (hf : ∀ a, Quiet (f a)) : Quiet (p >>= f) :=
  fun v hv => wpTry_bind.mpr (wpTry_mono (fun a w hw => hf a w hw) (fun _ _ h => h) (hp v hv))

theorem quiet_pure {α : Type} (a : α) : Quiet (pure a) := fun _ hv => wpTry_pure.mpr hv

theorem quiet_check {α : Type} (x : Except Error α) : Quiet (check x) :=
  fun _ hv => wpTry_check (fun _ => hv) fun _ _ => hv

theorem quiet_send {e : Event} (he : e.fine) : Quiet (send e) := by
  intro v hv
  refine wpTry_send.mpr fun e' he' => ?_
  rcases List.mem_append.mp he' with he' | he'
  · exact hv e' he'
  · rw [List.mem_singleton.mp he']
    exact he

theorem quiet_execute (stmt : Statement) : Quiet (execute stmt) :=
  fun _ hv => wpTry_execute.mpr ⟨hv, fun _ => hv⟩

theorem quiet_insert (stmt : InsertRows) : Quiet (insert stmt) :=
  fun _ hv => wpTry_insert (fun _ _ => hv) fun _ => hv

theorem quiet_readSource : Quiet (readSource spec) :=
  fun _ hv => wpTry_readSource hv fun _ => hv

theorem quiet_collect : Quiet (collect spec) := fun _ hv => wpTry_collect (fun _ => hv) fun _ => hv

theorem quiet_clock : Quiet clock := fun _ hv => wpTry_clock.mpr fun _ => hv

theorem quiet_stopIfCancelled : Quiet stopIfCancelled :=
  fun _ hv => wpTry_stopIfCancelled hv hv

theorem quiet_record (u : StatusUpdate) : Quiet (record u) :=
  fun _ hv => wpTry_record.mpr ⟨hv, fun _ => hv⟩

theorem quiet_insertStatements {table : String} {df : DataFrame} {doNothing : Bool} {batch : Nat} :
    ∀ (starts : List Nat) (total : Nat),
      Quiet (insertStatements ops table df doNothing batch starts total)
  | [], total => quiet_pure total
  | _ :: starts, _ => (quiet_insert _).bind fun _ => quiet_insertStatements starts _

theorem quiet_insertChunk (table : String) (df : DataFrame) (dedupe : Option String) :
    Quiet (insertChunk host ops table df dedupe) := by
  unfold insertChunk
  split
  · exact quiet_pure 0
  · refine (quiet_check _).bind fun _ => (quiet_execute _).bind fun _ => ?_
    exact (quiet_insertStatements _ _).bind fun _ => (quiet_execute _).bind fun _ => quiet_pure _

theorem quiet_insertBatches (df : DataFrame) (batch : Nat) :
    ∀ (starts : List Nat) (written : Nat),
      Quiet (insertBatches host ops jobId spec df batch starts written)
  | [], written => quiet_pure written
  | _ :: starts, _ => by
      refine quiet_stopIfCancelled.bind fun _ => (quiet_insertChunk _ _ _).bind fun _ => ?_
      refine (quiet_record _).bind fun _ => (quiet_send (e := .progress _ _ _) rfl).bind fun _ => ?_
      exact quiet_insertBatches df batch starts _

/-- Before it ends, a job does not report a failure. -/
theorem quiet_executeJob : Quiet (executeJob host ops jobId spec) := by
  refine (quiet_record _).bind fun _ => (quiet_send (e := .started _) rfl).bind fun _ => ?_
  refine quiet_readSource.bind fun _ => quiet_collect.bind fun df => ?_
  refine Quiet.bind ((quiet_check _).bind fun _ => quiet_execute _) fun _ => ?_
  refine quiet_stopIfCancelled.bind fun _ => (quiet_insertBatches df _ _ _).bind fun n => ?_
  exact Quiet.bind (quiet_clock.bind fun _ => quiet_record _)
    fun _ => quiet_send (e := .completed _ _ _) rfl

/-- A regular end is told. -/
theorem told_of_closed (hclosed : Closed jobId v) (hfine : ∀ e ∈ v.stream, e.fine) :
    Told jobId v := by
  obtain ⟨start, counts, last, before, st, hongoing, hstream, hst, houtcome, hterminal, -⟩ :=
    hclosed.ended
  refine ⟨before, last, st, hstream, hongoing.fine, hst, ?_⟩
  have hlast : last.fine := hfine last (by rw [hstream]; simp)
  have haccounted := hclosed.accounted
  cases last with
  | completed id rowsRead rowsWritten =>
      simp only [Event.outcome, Option.ite_none_right_eq_some, Option.some.injEq] at houtcome
      obtain ⟨rfl, hstate⟩ := houtcome
      refine ⟨rfl, hstate.symm, ?_⟩
      unfold Accounted at haccounted
      split at haccounted
      · rw [hst, hstream, reported_append] at haccounted
        simpa [JobStatus.counts, Event.counts] using haccounted
      · rw [hst] at haccounted
        simp [← hstate] at haccounted
  | failed id error => cases hlast
  | cancelled id rowsRead rowsWritten => cases hlast
  | started id => cases houtcome
  | progress id rowsRead rowsWritten => cases houtcome

theorem told_of_stopped {e : Error} (hstopped : Stopped jobId e v) {u : StatusUpdate}
    {last : Event} (hu : ∀ st : JobStatus, Tells jobId last (u.apply st)) :
    Told jobId ((v.update u).push last) := by
  have hbefore : (∀ e ∈ v.stream, e.fine) ∧ ∃ st, v.status = some st := by
    rcases hstopped with ⟨c, ⟨start, counts, hongoing⟩, -, hstatus, -⟩ |
      ⟨-, ⟨start, counts, hongoing⟩, c, -, hstatus, -⟩
    · obtain ⟨st, hst, -⟩ := Option.map_eq_some_iff.mp hstatus
      exact ⟨hongoing.fine, st, hst⟩
    · obtain ⟨st, hst, -⟩ := Option.map_eq_some_iff.mp hstatus
      exact ⟨hongoing.fine, st, hst⟩
  obtain ⟨hfine, st, hst⟩ := hbefore
  refine ⟨v.stream, last, u.apply st, rfl, hfine, ?_, hu st⟩
  rw [View.push_status, View.update_status, hst, Option.map_some]

theorem wp_finish_told {e : Error} (hstopped : Stopped jobId e v) :
    wp viewAct (fun _ v => Told jobId v) (finish jobId (.error e)) v := by
  by_cases he : e = .cancelled
  · subst he
    unfold finish
    refine wp_bind.mpr ?_
    rintro _ t ⟨rfl, rfl⟩
    refine wp_bind.mpr (wp_mono ?_ wp_markCancelled)
    rintro _ w ⟨now, rfl⟩ r t rfl
    exact told_of_stopped hstopped fun _ => rfl
  · rw [finish_error he]
    refine wp_bind.mpr (wp_mono ?_ (wp_markFailed e.toString))
    rintro _ w ⟨now, rfl⟩ r t rfl
    exact told_of_stopped hstopped fun _ => ⟨rfl, rfl, toString_ne_cancelled e⟩

/-- Every run of the task tells its end. -/
theorem wp_task_told (hfresh : Fresh v) :
    wp viewAct (fun _ v => Told jobId v) (task host ops jobId spec) v := by
  have hnil : ∀ e ∈ v.stream, e.fine := by
    rw [hfresh.stream_eq]
    exact fun e he => absurd he List.not_mem_nil
  unfold task
  refine wp_bind.mpr (wp_mono ?_
    (wpTry_and (wpTry_executeJob hfresh) (quiet_executeJob v hnil)))
  rintro (e | u) w ⟨hw, hfine⟩ _ t rfl
  · exact wp_finish_told hw
  · exact told_of_closed hw hfine

end Told

namespace Session

section Ends

variable {jobId : String} {start s : Session}

/-- The events under way get as far as they can without the command. -/
theorem exists_drained (n : Nat) :
    ∀ {s : Session}, Sound jobId start s → s.relay.weight = n →
      ∃ t, ReflTransGen (Step jobId) s t ∧ Sound jobId start t ∧ t.relay.Drained ∧
        t.task = s.task ∧ t.exit = s.exit := by
  induction n using Nat.strongRecOn with
  | ind n ih =>
      intro s hs hn
      by_cases hdrained : s.relay.Drained
      · exact ⟨s, .refl, hs, hdrained, rfl, rfl⟩
      · obtain ⟨h, relay, hmove, hlt⟩ := Relay.exists_move (f := encodeEvent)
          (show 0 < channelCapacity by decide) hs.faithful.idle hdrained (isDone s.task)
        obtain ⟨t, hreach, ht, hdrained', htask, hexit⟩ := ih _ (hn ▸ hlt) (hs.hop hmove) rfl
        exact ⟨t, .head (.hop hmove) hreach, ht, hdrained', htask, hexit⟩

/-- The task gets to its end, whether or not somebody reads its events. -/
theorem exists_done :
    ∀ (p : Program Reply Unit) {s : Session}, s.task = p → Sound jobId start s →
      ∃ t, ReflTransGen (Step jobId) s t ∧ Sound jobId start t ∧ isDone t.task = true ∧
        t.exit = s.exit
  | .done (), s, hp, hs => ⟨s, .refl, hs, by rw [hp]; rfl, rfl⟩
  | .call q next, s, hp, hs => by
      obtain ⟨t, hreach, ht, hdrained, htask, hexit⟩ := exists_drained _ hs rfl
      have hinbox : t.relay.inbox = [] := (List.append_eq_nil_iff.mp hdrained.1).2
      obtain ⟨r, w, hact⟩ := act_total jobId t.world q
      have hoffer : ∃ relay, t.offered q = some relay := by
        unfold offered
        cases sentBy q with
        | none => exact ⟨_, rfl⟩
        | some e =>
            simp only [Relay.offer, hinbox, List.length_nil, show 0 < channelCapacity by decide,
              if_true]
            split <;> exact ⟨_, rfl⟩
      obtain ⟨relay, hoffer⟩ := hoffer
      have hcall : t.task = .call q next := htask.trans hp
      obtain ⟨u, hreach', hu, hdone, hexit'⟩ :=
        exists_done (next r) rfl (ht.work hcall hact hoffer)
      exact ⟨u, hreach.trans (.head (.work hcall hact hoffer) hreach'), hu, hdone,
        hexit'.trans hexit⟩

/-- Once the task has ended, the command gets to its end as well. -/
theorem exists_exit :
    ∀ (wire : List Pb.PipelineEvent) {s : Session}, s.relay.wire = wire →
      Sound jobId start s → isDone s.task = true → s.relay.Drained → s.exit = none →
      ∃ t, ReflTransGen (Step jobId) s t ∧ isDone t.task = true ∧
        ∃ v, t.exit = some v ∧ ∀ e, v ≠ .transport e
  | [], s, hwire, hs, hdone, hdrained, hexit => by
      have hlisten := hs.listening_iff.mpr hexit
      have houtbox := hdrained.2 hlisten
      obtain ⟨hheld, hinbox⟩ := List.append_eq_nil_iff.mp hdrained.1
      cases hforward : s.relay.forwarding with
      | false =>
          have hover : s.relay.isOver = true := by
            simp [Relay.isOver, hlisten, hforward, houtbox, hwire]
          exact ⟨_, .single (.close hover), hdone, .ok, rfl, by rintro _ ⟨⟩⟩
      | true =>
          have hmove : s.relay.move channelCapacity encodeEvent (isDone s.task) .finish =
              some s.relay.stop := by
            simp [Relay.move, hforward, Option.toList_eq_nil_iff.mp hheld, hinbox, hdone]
          have hover : ({ s with relay := s.relay.stop } : Session).relay.isOver = true := by
            simp [Relay.isOver, Relay.stop, hlisten, houtbox, hwire]
          exact ⟨_, .head (.hop hmove) (.single (.close hover)), hdone, .ok, rfl, by rintro _ ⟨⟩⟩
  | ev :: wire, s, hwire, hs, hdone, hdrained, hexit => by
      have hlisten := hs.listening_iff.mpr hexit
      have hread : s.relay.read =
          some (ev, { s.relay with wire := wire, got := s.relay.got ++ [ev] }) := by
        simp only [Relay.read, hlisten, hwire]
      have hnext := hs.event hread
      cases hfailure : ev.bind Pb.Event.failure with
      | none =>
          have hsame : (s.onEvent ev { s.relay with wire := wire, got := s.relay.got ++ [ev] }) =
              { s with
                relay := { s.relay with wire := wire, got := s.relay.got ++ [ev] }
                shown := s.shown ++ (ev.map Pb.Event.line).toList } := by
            simp only [onEvent, hfailure]
          rw [hsame] at hnext
          obtain ⟨t, hreach, ht⟩ := exists_exit wire rfl hnext hdone hdrained hexit
          exact ⟨t, .head (hsame ▸ .event hread) hreach, ht⟩
      | some error =>
          refine ⟨_, .single (.event hread), ?_, .pipelineFailed error, ?_, by rintro _ ⟨⟩⟩
          · simp only [onEvent, hfailure]
            exact hdone
          · simp only [onEvent, hfailure]

/-- No session is stuck. -/
theorem exists_end (hs : Sound jobId start s) :
    ∃ t, ReflTransGen (Step jobId) s t ∧ isDone t.task = true ∧
      ∃ v, t.exit = some v ∧ (s.exit = none → ∀ e, v ≠ .transport e) := by
  obtain ⟨t, hreach, ht, hdone, hexit⟩ := exists_done s.task rfl hs
  cases hs' : s.exit with
  | some v => exact ⟨t, hreach, hdone, v, hexit.trans hs', by rintro ⟨⟩⟩
  | none =>
      obtain ⟨u, hreach', hu, hdrained, htask, hexit'⟩ := exists_drained _ ht rfl
      obtain ⟨w, hreach'', hdone', v, hv, hno⟩ := exists_exit _ rfl hu (htask ▸ hdone) hdrained
        (hexit'.trans (hexit.trans hs'))
      exact ⟨w, (hreach.trans hreach').trans hreach'', hdone', v, hv, fun _ => hno⟩

end Ends

/-- The exit of the command says what has become of the job. -/
def Reports (s : Session) (jobId : String) : Exit → JobStatus → Prop
  | .ok, st =>
      st.state = .completed ∧
        s.shown.getLast? = some (Pb.Event.completed jobId st.rowsRead st.rowsWritten).line
  | .pipelineFailed error, st =>
      (st.state = .failed ∧ st.error = some error ∧ error ≠ "cancelled") ∨
        (st.state = .cancelled ∧ error = "cancelled")
  | .transport _, _ => True

end Session

/-- The line of the command for an event of the job. -/
def Event.line (e : Event) : String := ((encodeEvent e).map Pb.Event.line).getD ""

theorem filterMap_line (events : List Event) :
    ((events.map encodeEvent).filterMap fun ev => ev.map Pb.Event.line) =
      events.map Event.line := by
  rw [List.filterMap_map, ← List.filterMap_eq_map]
  refine List.filterMap_congr fun e _ => ?_
  cases e <;> rfl

namespace Session

section Verdict

variable {jobId : String} {start s : Session}

/-- The command shows the events from the first one on. -/
theorem Sound.shown_events (hs : Sound jobId start s) :
    ∃ events, events <+: s.world.stream ∧ s.shown = events.map Event.line := by
  refine ⟨s.world.stream.take s.relay.got.length, List.take_prefix _ _, ?_⟩
  rw [hs.shown_eq, List.prefix_iff_eq_take.mp hs.faithful.in_order, ← List.map_take,
    filterMap_line]
  simp

/-- A job that has told its end and a command that has ended agree. -/
theorem Sound.reports (hs : Sound jobId start s) (htold : Told jobId (s.world.view jobId))
    {v : Exit} (hexit : s.exit = some v) :
    ∃ st, s.world.engine.jobs.get jobId = some st ∧ s.Reports jobId v st := by
  obtain ⟨before, last, st, hstream, hfine, hst, htells⟩ := htold
  refine ⟨st, hst, ?_⟩
  have hstream : s.world.stream = before ++ [last] := hstream
  cases v with
  | transport error => trivial
  | ok =>
      obtain ⟨-, hgot⟩ := hs.ended hexit
      have hlast : last.fine :=
        hs.unfailed (.inr hexit) _ (by rw [hgot, hstream]; simp)
      have hshown : s.shown.getLast? = some last.line := by
        rw [hs.shown_eq, hgot, filterMap_line, hstream, List.map_append]
        exact List.getLast?_concat
      cases last with
      | completed id rowsRead rowsWritten =>
          obtain ⟨rfl, hstate, rfl, rfl⟩ := htells
          exact ⟨hstate, hshown⟩
      | failed id error => cases hlast
      | cancelled id rowsRead rowsWritten => cases hlast
      | started id => exact htells.elim
      | progress id rowsRead rowsWritten => exact htells.elim
  | pipelineFailed error =>
      obtain ⟨ev, hev, hfailure⟩ := hs.failed error hexit
      obtain ⟨e, he, rfl⟩ := List.mem_map.mp (hs.faithful.in_order.subset hev)
      rw [hstream] at he
      rcases List.mem_append.mp he with he | he
      · rw [hfine e he] at hfailure
        cases hfailure
      · rw [List.mem_singleton.mp he] at hfailure
        cases last with
        | completed id rowsRead rowsWritten => cases hfailure
        | failed id error' =>
            cases hfailure
            exact .inl htells
        | cancelled id rowsRead rowsWritten =>
            cases hfailure
            exact .inr ⟨htells, rfl⟩
        | started id => exact htells.elim
        | progress id rowsRead rowsWritten => exact htells.elim

end Verdict

end Session

/-- A job that is run over the wire is the one asked for if and only if the path of its file is
a text.  The command shows its events from the first one on, in order; when the task has ended
as well, its exit code and its last line are those of the job; and whatever has happened, both
can still come to their end. -/
theorem run_reports_job {host : Host} {ops : FloatOps} {dataRoot : Option Path}
    {engine engine' : Engine} {args : EtlRun} {request : Pb.PipelineSpec}
    {jobId id : String} {startedAt : Nat} {inserted : Except String Unit}
    {p : Program Reply Unit} (hrequest : args.request = .ok request)
    (hrun : runPipeline host ops dataRoot engine request jobId startedAt inserted =
      (.ok (id, p), engine')) :
    (∃ fmt spec, args.chosen = some fmt ∧ p = task host ops id spec ∧
      (spec = args.asked fmt ↔ ∃ cs, args.input = utf8 cs)) ∧
    ∀ s, ReflTransGen (Session.Step id) (.opened p engine') s →
      (∃ events, events <+: s.world.stream ∧ s.shown = events.map Event.line) ∧
      (s.exit = some .ok → isDone s.task = true) ∧
      (isDone s.task = true → ∀ v, s.exit = some v →
        ∃ st, s.world.engine.jobs.get id = some st ∧ s.Reports id v st) ∧
      ∃ t, ReflTransGen (Session.Step id) s t ∧ isDone t.task = true ∧
        ∃ v, t.exit = some v ∧ (s.exit = none → ∀ e, v ≠ .transport e) := by
  obtain ⟨fmt, spec, hfmt, hdecode, hasked⟩ := EtlRun.decodeSpec_request hrequest
  unfold runPipeline at hrun
  rw [hdecode] at hrun
  split at hrun
  · rename_i spec hspec
    cases hspec
  rename_i spec hspec
  cases hspec
  split at hrun
  · cases hrun
  rename_i id' engine'' hstart
  cases hrun
  refine ⟨⟨fmt, spec, hfmt, rfl, hasked⟩, fun s hreach => ?_⟩
  have hs := (Session.sound_opened id _ engine').reach hreach
  refine ⟨hs.shown_events, fun hok => (hs.ended hok).1, fun hdone v hv => ?_,
    Session.exists_end hs⟩
  obtain ⟨ls, hruns⟩ := hs.runs
  have htold := hruns.wp (World.view id) (fun _ _ _ _ => view_act) (fun _ _ _ => view_env)
    (wp_task_told (fresh_of_run hstart))
  cases htask : s.task with
  | call q next =>
      rw [htask] at hdone
      cases hdone
  | done a =>
      rw [htask] at htold
      exact hs.reports htold hv

/-- `orbit etl run --input data.csv --table t`. -/
def sampleRun : EtlRun := ⟨utf8 "data.csv".toList, "t", none, none, none, 1024, false⟩

theorem run_reports_job_sample :
    (∃ fmt spec, sampleRun.chosen = some fmt ∧
      task Engine.sampleHost .exact "j" (sampleRun.asked .csv) =
        task Engine.sampleHost .exact "j" spec ∧
      (spec = sampleRun.asked fmt ↔ ∃ cs, sampleRun.input = utf8 cs)) ∧
    ∀ s, ReflTransGen (Session.Step "j") (.opened (task Engine.sampleHost .exact "j"
        (sampleRun.asked .csv)) (Engine.opened.register "j" 0)) s →
      (∃ events, events <+: s.world.stream ∧ s.shown = events.map Event.line) ∧
      (s.exit = some .ok → isDone s.task = true) ∧
      (isDone s.task = true → ∀ v, s.exit = some v →
        ∃ st, s.world.engine.jobs.get "j" = some st ∧ s.Reports "j" v st) ∧
      ∃ t, ReflTransGen (Session.Step "j") s t ∧ isDone t.task = true ∧
        ∃ v, t.exit = some v ∧ (s.exit = none → ∀ e, v ≠ .transport e) := by
  have hrequest : sampleRun.request =
      .ok ⟨some ⟨"data.csv", 1, true, ","⟩, "t", "", "", 1024⟩ := by
    have hchosen : sampleRun.chosen = some .csv := by decide +kernel
    unfold EtlRun.request
    rw [hchosen, sampleRun, decodeLossy_utf8]
    rfl
  have hspec : decodeSpec ⟨some ⟨"data.csv", 1, true, ","⟩, "t", "", "", 1024⟩ =
      .ok (sampleRun.asked .csv) := by
    have hinput : sampleRun.input = "data.csv".toUTF8.toList := (toUTF8_toList _).symm
    unfold EtlRun.asked
    rw [hinput]
    rfl
  refine @run_reports_job Engine.sampleHost .exact none Engine.opened _ sampleRun _ "j" "j" 0
    (.ok ()) _ hrequest ?_
  unfold runPipeline
  rw [hspec]
  rfl

end Etl
end OrbitOpenEO
