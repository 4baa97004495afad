import QueryScope.Counter
import QueryScope.Identifier
import QueryScope.Json.Basic

/-!
# Memory pools

What the queries of a pool hold of its memory. The engine promises more than there is, so the free
part may be below zero.
-/

namespace QueryScope

/-- A memory pool. The reservations have their queries ascending. -/
structure MemoryPool where
  /-- All bytes of the pool. -/
  maxBytes : UInt64
  /-- Bytes that are reserved. -/
  reservedBytes : UInt64
  /-- Bytes that are reserved and can be taken back. -/
  reservedRevocableBytes : UInt64
  /-- Reserved bytes by query. -/
  reservations : List (QueryId × UInt64)
  /-- Reserved bytes that can be taken back, by query. -/
  revocableReservations : List (QueryId × UInt64)
deriving DecidableEq

namespace MemoryPool

/-- A pool from its counters. -/
def make (maxBytes reservedBytes reservedRevocableBytes : Int64)
    (reservations revocableReservations : List (QueryId × UInt64)) :
    Except FieldFault MemoryPool :=
  return {
    reservations, revocableReservations
    maxBytes := ← nonNegative "maxBytes" maxBytes
    reservedBytes := ← nonNegative "reservedBytes" reservedBytes
    reservedRevocableBytes := ← nonNegative "reservedRevocableBytes" reservedRevocableBytes }

/-- What both kinds of reservation leave of the pool. -/
def freeBytes (p : MemoryPool) : Int :=
  p.maxBytes.toNat - p.reservedBytes.toNat - p.reservedRevocableBytes.toNat

/-- The bytes under a query, none when it is not listed. -/
def bytesOf (reservations : List (QueryId × UInt64)) (query : QueryId) : UInt64 :=
  match reservations.find? (·.1 = query) with
  | some (_, bytes) => bytes
  | none => 0

/-- What a query holds of both kinds; a sum beyond 64 bits is shown as the largest count. -/
def reservedBy (p : MemoryPool) (query : QueryId) : UInt64 :=
  let sum := (bytesOf p.reservations query).toNat + (bytesOf p.revocableReservations query).toNat
  UInt64.ofNat (min sum (UInt64.size - 1))

/-- Reservations as JSON. -/
def encodeReservations (reservations : List (QueryId × UInt64)) : Json :=
  .object (reservations.map fun (query, bytes) => (query.text, .ofUInt64 bytes))

/-- The pool as JSON. -/
def encode (p : MemoryPool) : Json :=
  .object [("maxBytes", .ofUInt64 p.maxBytes), ("reservedBytes", .ofUInt64 p.reservedBytes),
    ("reservedRevocableBytes", .ofUInt64 p.reservedRevocableBytes),
    ("queryMemoryReservations", encodeReservations p.reservations),
    ("queryMemoryRevocableReservations", encodeReservations p.revocableReservations)]

end MemoryPool

end QueryScope
