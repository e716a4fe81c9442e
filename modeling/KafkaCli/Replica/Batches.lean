import KafkaCli.Error
import KafkaCli.Lib.MachineInt

/-!
# Record batches of a fetch response

`parse_record_batches` walks the record batches that one replica returned and keeps, for each,
its last offset, the offset after it and its checksum. Arithmetic on offsets wraps at 64 bits,
as in the released binary.
-/

namespace KafkaCli.Replica

/-- What the verifier keeps of a record batch. Only the parser builds one, and it always puts
the offset after the last one into `nextOffset`. -/
structure ParsedBatch where
  lastOffset : Int
  nextOffset : Int
  checksum : Nat
  next_eq : nextOffset = wrap64 (lastOffset + 1)
  deriving DecidableEq, Repr

/-- The batch of the given last offset and checksum. -/
def ParsedBatch.ofLast (lastOffset : Int) (checksum : Nat) : ParsedBatch where
  lastOffset := lastOffset
  nextOffset := wrap64 (lastOffset + 1)
  checksum := checksum
  next_eq := rfl

/-- The batch that opened a row, and the replica it came from. -/
structure BatchMessageInfo where
  replicaId : Int
  lastOffset : Int
  nextOffset : Int
  checksum : Nat
  next_eq : nextOffset = wrap64 (lastOffset + 1)
  deriving DecidableEq, Repr

def BatchMessageInfo.ofBatch (replicaId : Int) (batch : ParsedBatch) : BatchMessageInfo where
  replicaId := replicaId
  lastOffset := batch.lastOffset
  nextOffset := batch.nextOffset
  checksum := batch.checksum
  next_eq := batch.next_eq

/-- The batches from a byte offset on. A batch that is cut off ends the walk. -/
def parseRecordBatchesFrom (records : List UInt8) (offset : Nat) : Result (List ParsedBatch) :=
  if offset + 61 ≤ records.length then
    let baseOffset := signedBe (slice records offset (offset + 8))
    let batchLength := signedBe (slice records (offset + 8) (offset + 12))
    if batchLength < 49 then
      .error (.config s!"invalid record batch length: {batchLength}")
    else
      let totalSize := 12 + batchLength.toNat
      if records.length < offset + totalSize then
        .ok []
      else
        let magic := records.getD (offset + 16) 0
        if magic ≠ 2 then
          .error (.unsupported s!"unsupported record batch magic: {magic}")
        else
          let checksum := unsignedBe (slice records (offset + 17) (offset + 21))
          let lastOffsetDelta := signedBe (slice records (offset + 23) (offset + 27))
          let lastOffset := wrap64 (baseOffset + lastOffsetDelta)
          (parseRecordBatchesFrom records (offset + totalSize)).map fun batches =>
            ParsedBatch.ofLast lastOffset checksum :: batches
  else
    .ok []
termination_by records.length - offset

/-- `parse_record_batches`: the batches of a fetch response. -/
def parseRecordBatches (records : List UInt8) : Result (List ParsedBatch) :=
  parseRecordBatchesFrom records 0

end KafkaCli.Replica
