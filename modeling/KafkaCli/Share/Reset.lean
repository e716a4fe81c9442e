import KafkaCli.Groups.ResetTarget
import KafkaCli.Lib.SortedMap

/-!
# Resetting the offsets of a share group

The plan of `reset_share_group_offsets`: what the new offset of each partition of a share group
is. There is no shift here and no duration, and a group without an offset for a partition starts
at its end.
-/

namespace KafkaCli.Share

open Checked Groups SortedMap

structure ShareGroupResetOffsetsArgs where
  group : String
  topic : List String := []
  allTopics : Bool := false
  toEarliest : Bool := false
  toLatest : Bool := false
  toOffset : Option Int := none
  toCurrent : Bool := false
  toDatetime : Option String := none
  fromFile : Option String := none
  dryRun : Bool := false
  execute : Bool := false
  exportCsv : Bool := false

structure ShareGroupOffsetRow where
  group : String
  topic : String
  partition : Int
  leaderEpoch : Option Int
  startOffset : Option Int
  lag : Option Int
  error : Option String
  deriving DecidableEq

variable (args : ShareGroupResetOffsetsArgs)

def chooseOneShareTarget : Error := .usage "choose one Share group reset target"

def validateShareResetTarget : Result Unit :=
  if args.toEarliest ∨ args.toLatest ∨ args.toOffset.isSome ∨ args.toCurrent ∨
      args.toDatetime.isSome ∨ args.fromFile.isSome then .ok ()
  else .error chooseOneShareTarget

/-- The start offsets of a group by topic and partition, where it has one. -/
abbrev ShareOffsets := Std.TreeMap (String × Int) Int

def currentOffsets (rows : List ShareGroupOffsetRow) : ShareOffsets :=
  .ofList (rows.filterMap fun row => row.startOffset.map ((row.topic, row.partition), ·))

/-- The new offset of a partition. -/
def shareResetTarget (currentOffsets : ShareOffsets)
    (timestampOffsets : Option (List PartitionOffset)) (topic : String) (partition : Int)
    (watermarks : Watermarks) : Result Int :=
  if args.toEarliest then .ok watermarks.low
  else if args.toLatest then .ok watermarks.high
  else
    match args.toOffset with
    | some offset => .ok (watermarks.clamp offset)
    | none =>
      if args.toCurrent then .ok (currentOffsets.getD (topic, partition) watermarks.high)
      else if timestampOffsets.isSome then
        .ok ((committedOffset timestampOffsets topic partition).getD watermarks.high)
      else .error chooseOneShareTarget

/-- The rows for some partitions, in their order. -/
def planShareReset (fetchWatermarks : String → Int → Result Watermarks)
    (currentOffsets : ShareOffsets) (timestampOffsets : Option (List PartitionOffset))
    (partitions : List (String × Int)) : Result (List ResetOffsetRow) :=
  partitions.mapM fun (topic, partition) => do
    let watermarks ← fetchWatermarks topic partition
    let newOffset ←
      shareResetTarget args currentOffsets timestampOffsets topic partition watermarks
    return { group := args.group, topic, partition, newOffset }

end KafkaCli.Share
