import QueryScope.Enumeration
import QueryScope.Handle

/-!
# Output buffers

The pages that a task has ready for its consumers. The counters come as signed numbers; each type
has one function that narrows them, in the order in which its faults are reported.
-/

namespace QueryScope

/-- Counters of one partition of an output buffer. -/
structure PageBuffer where
  /-- The partition. -/
  partition : UInt32
  /-- Pages in the buffer. -/
  bufferedPages : UInt64
  /-- Bytes in the buffer. -/
  bufferedBytes : UInt64
  /-- Rows that have been added. -/
  rowsAdded : UInt64
  /-- Pages that have been added. -/
  pagesAdded : UInt64
deriving DecidableEq

namespace PageBuffer

/-- A page buffer from its counters. -/
def make (partition bufferedPages bufferedBytes rowsAdded pagesAdded : Int64) :
    Except FieldFault PageBuffer :=
  return {
    partition := ← nonNegative32 "partition" partition
    bufferedPages := ← nonNegative "bufferedPages" bufferedPages
    bufferedBytes := ← nonNegative "bufferedBytes" bufferedBytes
    rowsAdded := ← nonNegative "rowsAdded" rowsAdded
    pagesAdded := ← nonNegative "pagesAdded" pagesAdded }

/-- The page buffer as JSON. -/
def encode (b : PageBuffer) : Json :=
  .object [("partition", .ofUInt32 b.partition), ("bufferedPages", .ofUInt64 b.bufferedPages),
    ("bufferedBytes", .ofUInt64 b.bufferedBytes), ("rowsAdded", .ofUInt64 b.rowsAdded),
    ("pagesAdded", .ofUInt64 b.pagesAdded)]

end PageBuffer

/-- The buffer of one consumer. -/
structure ConsumerBuffer where
  /-- The consumer. -/
  id : OutputBufferId
  /-- Whether the consumer has taken the last page. -/
  finished : Bool
  /-- Pages that wait for the consumer. -/
  bufferedPages : UInt64
  /-- Pages that the consumer has got. -/
  pagesSent : UInt64
  /-- The counters of its partition. -/
  page : PageBuffer
deriving DecidableEq

namespace ConsumerBuffer

/-- A consumer's buffer from its counters. -/
def make (id : OutputBufferId) (finished : Bool) (bufferedPages pagesSent : Int64)
    (page : PageBuffer) : Except FieldFault ConsumerBuffer :=
  return {
    id, finished, page
    bufferedPages := ← nonNegative "bufferedPages" bufferedPages
    pagesSent := ← nonNegative "pagesSent" pagesSent }

/-- The buffer as JSON. -/
def encode (b : ConsumerBuffer) : Json :=
  .object [("bufferId", .string b.id.text), ("finished", .bool b.finished),
    ("bufferedPages", .ofUInt64 b.bufferedPages), ("pagesSent", .ofUInt64 b.pagesSent),
    ("pageBufferInfo", b.page.encode)]

end ConsumerBuffer

/-- The output buffer of a task, with a part for each consumer. -/
structure OutputBuffer where
  /-- Which consumer gets a page. -/
  type : BufferType
  /-- How far the buffer has come. -/
  state : BufferState
  /-- Whether consumers may still be added. -/
  canAddBuffers : Bool
  /-- Whether pages may still be added. -/
  canAddPages : Bool
  /-- Bytes in the buffers of all consumers. -/
  totalBufferedBytes : UInt64
  /-- Pages in the buffers of all consumers. -/
  totalBufferedPages : UInt64
  /-- Rows that all consumers have got. -/
  totalRowsSent : UInt64
  /-- Pages that all consumers have got. -/
  totalPagesSent : UInt64
  /-- The buffers of the consumers. -/
  buffers : List ConsumerBuffer
deriving DecidableEq

namespace OutputBuffer

/-- An output buffer from its counters. -/
def make (type : BufferType) (state : BufferState) (canAddBuffers canAddPages : Bool)
    (bufferedBytes bufferedPages rowsSent pagesSent : Int64) (buffers : List ConsumerBuffer) :
    Except FieldFault OutputBuffer :=
  return {
    type, state, canAddBuffers, canAddPages, buffers
    totalBufferedBytes := ← nonNegative "totalBufferedBytes" bufferedBytes
    totalBufferedPages := ← nonNegative "totalBufferedPages" bufferedPages
    totalRowsSent := ← nonNegative "totalRowsSent" rowsSent
    totalPagesSent := ← nonNegative "totalPagesSent" pagesSent }

/-- The buffer of a consumer, the first if there are several. -/
def buffer? (b : OutputBuffer) (id : OutputBufferId) : Option ConsumerBuffer :=
  b.buffers.find? (·.id = id)

/-- The output buffer as JSON. -/
def encode (b : OutputBuffer) : Json :=
  .object [("type", .ofNamed b.type), ("state", .ofNamed b.state),
    ("canAddBuffers", .bool b.canAddBuffers), ("canAddPages", .bool b.canAddPages),
    ("totalBufferedBytes", .ofUInt64 b.totalBufferedBytes),
    ("totalBufferedPages", .ofUInt64 b.totalBufferedPages),
    ("totalRowsSent", .ofUInt64 b.totalRowsSent), ("totalPagesSent", .ofUInt64 b.totalPagesSent),
    ("buffers", .array (b.buffers.map (·.encode)))]

end OutputBuffer

end QueryScope
