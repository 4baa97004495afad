import QueryScope.Plan.Listing
import QueryScope.Plan.TableScan
import QueryScope.Snapshot.MemoryPool
import QueryScope.Snapshot.Query

/-!
# Summaries

The key facts of a value in a few lines for a reader.
-/

namespace QueryScope

/-- A type whose values can be summarised. -/
class Summary (α : Type) where
  /-- What a value is, in messages. -/
  label : String
  /-- The lines of a value's summary. -/
  lines : α → List String

namespace Summary

/-- A number of bytes. -/
def bytes (count : UInt64) : String :=
  (DataSize.ofBytes count).text

/-- The lines one level in. -/
def nested (lines : List String) : List String :=
  lines.map ("  " ++ ·)

/-- The count nearest to an integer. -/
def count (n : Int) : UInt64 :=
  UInt64.ofNat (min n.toNat (UInt64.size - 1))

end Summary

open Summary (bytes nested)

instance : Summary Query where
  label := "query"
  lines q :=
    let stats := q.stats
    let times := s!"elapsed: {stats.elapsedTime.text}"
    let tasks := s!"tasks: {stats.completedTasks}/{stats.totalTasks}"
    let drivers := s!"drivers: {stats.completedDrivers}/{stats.totalDrivers}"
    let progress := stats.progress?.map fun part =>
      s!"  progress: {(part.mul (Double.ofNat 100)).toFixed 1}%"
    let stages := q.outputStage.map fun stage => s!"  stages: {stage.all.length}"
    let failed := q.failure.map fun failure =>
      let root := failure.rootCause
      let message := root.message.getD ""
      s!"  failed: {root.type}: {message}"
    [s!"query {q.id.text} [{Named.name q.state}]",
      s!"  pool: {q.memoryPool.text}  scheduled: {q.scheduled}",
      s!"  {times}  {tasks}  {drivers}"] ++
        progress.toList ++ stages.toList ++ failed.toList

instance : Summary Stage where
  label := "stage"
  lines stage := stage.all.map fun s =>
    s!"stage {s.id.text} [{Named.name s.state}] tasks: {s.tasks.length} " ++
      s!"sub-stages: {s.subStages.length}"

instance : Summary ConsumerBuffer where
  label := "buffer"
  lines b :=
    let mark := if b.finished then " (finished)" else ""
    [s!"buffer {b.id.text}{mark}: {b.bufferedPages} buffered, {b.pagesSent} sent, " ++
      s!"partition {b.page.partition} holds {bytes b.page.bufferedBytes}"]

instance : Summary OutputBuffer where
  label := "output buffer"
  lines b :=
    (s!"{Named.name b.type} buffers [{Named.name b.state}]: {b.totalBufferedPages} pages / " ++
      s!"{bytes b.totalBufferedBytes} buffered, {b.totalPagesSent} pages sent") ::
        nested (b.buffers.flatMap Summary.lines)

instance : Summary Task where
  label := "task"
  lines t :=
    let status := t.status
    [s!"task {status.id.text} [{Named.name status.state}] v{status.version}",
      s!"  drivers: {status.queuedDrivers} queued, {status.runningDrivers} running  " ++
        s!"memory: {bytes status.memoryReservation}"] ++ nested (Summary.lines t.output)

instance : Summary MemoryPool where
  label := "memory pool"
  lines p :=
    let free := p.freeBytes
    let rest :=
      if free < 0 then s!"over-committed by {bytes (Summary.count (-free))}"
      else s!"{bytes (Summary.count free)} free"
    s!"pool {bytes p.reservedBytes} of {bytes p.maxBytes} reserved ({rest})" ::
      p.reservations.map fun (query, reserved) => s!"  {query.text}: {bytes reserved}"

instance : Summary Fragment where
  label := "fragment"
  lines f :=
    let fragments := f.remoteSources.map (·.text)
    let reads :=
      if fragments.isEmpty then [] else [s!"  reads fragments: {Sql.commaSeparated fragments}"]
    let scans := match f.root.tableScans with
      | .ok scans => scans
      | .error _ => []
    (s!"fragment {f.id.text} [{f.partitioning.handle.label}] " ++
      s!"root: {f.root.kind} ({f.root.id.text})") ::
      (reads ++ scans.map fun s => s!"  scans {s.connector.text}:{s.table.text}")

/-- The lines of an expression's summary. They say how many parameters its placeholders take, which
can be one more than a number of 32 bits. -/
def Expression.summaryLines (e : Expression) : Checked (List String) :=
  let first := s!"{e.kind} expression: {e.listingText}"
  match e.maxParameter with
  | none => some [first]
  | some highest => do
    let count ← Checked.next highest
    return [first, s!"  placeholders: {count}"]

end QueryScope
