import Optic.Store.CopySpec
import Optic.Store.Piecewise
import Optic.Streams.ReaderSpec
import Optic.Streams.WriterSpec

open rust file_system optic.records streams

namespace optic.store

/-- How a copy ends: with everything passed on, or with the first failure of one side behind
a front of the bytes. -/
inductive Copies (path : Path) (reader : Reader) (writer : Writer) (length : Nat) : Copied → Prop where
  | all {reader' : Reader} {writer' : Writer} (enough : length ≤ (delivered reader.events).length)
    (written : writer'.written = writer.written ++ (delivered reader.events).take length)
    (asked : reader'.asked ≤ max reader.asked (reader.position + length))
    (stopped : reader'.stopped = reader.stopped) (failed : writer'.failed = writer.failed) :
    Copies path reader writer length ⟨.ok (), reader', writer'⟩
  | unread {reader' : Reader} {writer' : Writer} (stop : Stop) (accepted : List UInt8)
    (front : accepted <+: (delivered reader.events).take length)
    (written : writer'.written = writer.written ++ accepted)
    (asked : reader'.asked ≤ max reader.asked (reader.position + length))
    (stopped : reader'.stopped = reader.stopped.or (some stop)) (failed : writer'.failed = writer.failed) :
    Copies path reader writer length ⟨.error (.Filesystem "read artifact" path stop.error), reader', writer'⟩
  | unwritten {reader' : Reader} {writer' : Writer} (source : IoError) (accepted : List UInt8)
    (front : accepted <+: (delivered reader.events).take length)
    (written : writer'.written = writer.written ++ accepted)
    (asked : reader'.asked ≤ max reader.asked (reader.position + length))
    (stopped : reader'.stopped = reader.stopped) (failed : writer'.failed = writer.failed.or (some source)) :
    Copies path reader writer length ⟨.error (.WriteEvidence source), reader', writer'⟩

namespace Copies

variable {path : Path} {reader mid : Reader} {writer passed : Writer} {count rest : Nat} {copied : Copied}

/-- A buffer that was passed on comes in front of what the rest of a copy does. -/
theorem behind (hread : Reader.Passed reader mid count) (hcount : count ≤ (delivered reader.events).length)
    (hwritten : passed.written = writer.written ++ (delivered reader.events).take count)
    (hfailed : passed.failed = writer.failed) (h : Copies path mid passed rest copied) :
    Copies path reader writer (count + rest) copied := by
  have hdelivered : delivered mid.events = (delivered reader.events).drop count := by
    rw [hread.events, (after_delivered hcount).1]
  have htake : (delivered reader.events).take (count + rest) =
      (delivered reader.events).take count ++ (delivered mid.events).take rest := by
    rw [hdelivered, List.take_add]
  have hasked {asked : Nat} (h : asked ≤ max mid.asked (mid.position + rest)) :
      asked ≤ max reader.asked (reader.position + (count + rest)) := by
    have hmid := hread.asked
    rw [hread.position] at h
    omega
  have hfront {accepted : List UInt8} (h : accepted <+: (delivered mid.events).take rest) :
      (delivered reader.events).take count ++ accepted <+: (delivered reader.events).take (count + rest) := by
    rw [htake]
    exact (List.prefix_append_right_inj _).mpr h
  cases h with
  | all enough written asked stopped failed =>
    refine .all ?_ ?_ (hasked asked) (stopped.trans hread.stopped) (failed.trans hfailed)
    · rw [hdelivered, List.length_drop] at enough
      omega
    · rw [written, hwritten, htake, List.append_assoc]
  | unread stop accepted front written asked stopped failed =>
    refine .unread stop _ (hfront front) ?_ (hasked asked) ?_ (failed.trans hfailed)
    · rw [written, hwritten, List.append_assoc]
    · rw [stopped, hread.stopped]
  | unwritten source accepted front written asked stopped failed =>
    refine .unwritten source _ (hfront front) ?_ (hasked asked) (stopped.trans hread.stopped) ?_
    · rw [written, hwritten, List.append_assoc]
    · rw [failed, hfailed]

end Copies

/-- A copy that attributes its end: it passes on the bytes in order, all of them or a front up to the
first failure, whose side its error names. It asks for no byte behind them. -/
structure Exact (events : List Event) (length : Nat) (path : Path) (copied : Copied) : Prop where
  complete : copied.result = .ok () → copied.writer.written = (delivered events).take length ∧
    copied.writer.written.length = length
  front : copied.writer.written <+: (delivered events).take length
  succeeds : copied.result = .ok () ↔ copied.reader.stopped = none ∧ copied.writer.failed = none
  write_error : ∀ source, copied.result = .error (.WriteEvidence source) ↔
    copied.reader.stopped = none ∧ copied.writer.failed = some source
  read_error : ∀ source, copied.result = .error (.Filesystem "read artifact" path source) ↔
    copied.reader.stopped.map Stop.error = some source ∧ copied.writer.failed = none
  asked : copied.reader.asked ≤ length

variable {w w' : World} {Artifact : Type} [Serde (CaptureRecord Artifact)] [Serde InstanceManifest] {self : Store}
  {capture : CaptureId} {artifact : ArtifactId} {range : ByteRange}

/-- A copy opens the range, and then passes it on. -/
theorem Store.copy_evidence_eq : self.copy_evidence Artifact capture artifact range =
    self.open_evidence Artifact capture artifact range >>= fun found =>
      copy_evidence_bytes found.2 range.length found.1 := by
  simp only [Store.copy_evidence, Store.open_evidence, Action.bind_assoc, Action.pure_bind]

section Refusals

variable {manifest : InstanceManifest} (hmanifest : self.read_instances Artifact capture w = (.ok manifest, w'))
include hmanifest

end Refusals

end optic.store
