import KafkaCli.Groups.Reset

/-!
# Planning only reads

The plan of a reset is made by calls that change nothing in the cluster.
-/

namespace KafkaCli.Groups

open Run Session

variable (host : Host) (timeout : Nat)

theorem readOnly_resetTimestamp (toDatetime byDuration : Option String) :
    ReadOnly (resetTimestamp host toDatetime byDuration) := by
  unfold resetTimestamp
  split
  · exact .map (.ofExcept _) _
  · exact .bind (readOnly_ask host not_false) fun _ => .bind (.ofExcept _) fun _ => .pure _
  · exact .pure _

theorem readOnly_committedOffsets (needed : Bool) (partitions : List (String × Int)) :
    ReadOnly (committedOffsets host needed partitions) := by
  refine .ite (.map ?_ _) (.pure _)
  exact readOnly_ask host not_false

theorem readOnly_offsetsForTimes (timestamp : Option Int) (partitions : List (String × Int)) :
    ReadOnly (offsetsForTimes host timestamp partitions) := by
  cases timestamp with
  | none => exact .pure _
  | some timestamp =>
    refine .bind (.forM fun _ _ => readOnly_ask host not_false) fun _ => .map ?_ _
    exact readOnly_ask host not_false

theorem readOnly_planTopic (accepts : TopicMetadata → Bool) (args : ResetOffsetsArgs)
    (timestamp : Option Int) (topicName : String) (selected : Option (Std.TreeSet Int)) :
    ReadOnly (planTopic host accepts args timestamp topicName selected) := by
  refine .bind (readOnly_ask host not_false) fun _ => .bind (.ofExcept _) fun _ => ?_
  refine .bind (.ofExcept _) fun _ => .bind (readOnly_committedOffsets host _ _) fun _ => ?_
  refine .bind (readOnly_offsetsForTimes host _ _) fun _ => .mapM fun _ _ => ?_
  exact .bind (readOnly_ask host not_false) fun _ => .bind (.ofExcept _) fun _ => .pure _

theorem readOnly_planTopics (accepts : TopicMetadata → Bool) (args : ResetOffsetsArgs)
    (timestamp : Option Int) (topics : ResetTopics) :
    ReadOnly (planTopics host accepts args timestamp topics) := by
  refine .bind (.mapM fun _ _ => ?_) fun _ => .pure _
  exact readOnly_planTopic host accepts args timestamp _ _

theorem readOnly_committedTopics (group : String) :
    ReadOnly (committedTopics host timeout group) :=
  .bind (readOnly_admin host) fun _ =>
    .bind (readOnly_listConsumerGroupOffsets host group timeout) fun _ => .pure _

theorem readOnly_planGroup (args : ResetOffsetsArgs) (timestamp : Option Int) (group : String) :
    ReadOnly (planGroup host timeout args timestamp group) := by
  refine .bind (readOnly_ask host not_false) fun _ => .ite ?_ ?_
  · refine .bind (readOnly_committedTopics host timeout group) fun topics => .ite (.pure _) ?_
    exact .map (readOnly_planTopics host _ args timestamp topics) _
  · refine .bind (.ofExcept _) fun topics => ?_
    exact .map (readOnly_planTopics host _ args timestamp topics) _

theorem readOnly_selectGroups (args : ResetOffsetsArgs) :
    ReadOnly (selectGroups host timeout args) := by
  refine .bind (.ofExcept _) fun _ => .bind (.ite (.pure _) ?_) fun _ => ?_
  · refine .bind (readOnly_admin host) fun _ => ?_
    exact .bind (readOnly_listConsumerGroups host timeout) fun _ => .pure _
  · refine .bind (.ofExcept _) fun _ => .bind (readOnly_admin host) fun _ => ?_
    exact .bind (readOnly_listConsumerGroups host timeout) fun _ => .pure _

end KafkaCli.Groups
