import KafkaCli.Groups.ReadOnly
import KafkaCli.Streams.InternalTopics
import KafkaCli.Streams.Protocol

/-!
# The workflows of Streams groups

The commands that delete Streams groups, that reset their offsets, and that reset an application.
All three can delete internal topics at the end.
-/

namespace KafkaCli.Streams

open Checked Groups PlanExecute Text

variable (host : Host) (timeout : Nat)

/-- The descriptions by their ids. -/
def byGroupId (descriptions : List StreamsGroupDescription) :
    Std.TreeMap String StreamsGroupDescription :=
  .ofList (descriptions.map fun description => (description.groupId, description))

theorem mem_of_getElem?_insertMany {l : List (String × StreamsGroupDescription)}
    {m : Std.TreeMap String StreamsGroupDescription} {key : String}
    {value : StreamsGroupDescription} (h : (m.insertMany l)[key]? = some value) :
    (key, value) ∈ l ∨ m[key]? = some value := by
  induction l generalizing m with
  | nil => exact .inr (by simpa using h)
  | cons entry l ih =>
    rw [Std.TreeMap.insertMany_cons] at h
    rcases ih h with hmem | hinsert
    · exact .inl (List.mem_cons_of_mem entry hmem)
    · rw [Std.TreeMap.getElem?_insert] at hinsert
      split_ifs at hinsert with hkey
      · cases hinsert
        have heq : entry.1 = key := by simpa using hkey
        exact .inl (heq ▸ List.mem_cons_self)
      · exact .inr hinsert

theorem eq_of_byGroupId {descriptions : List StreamsGroupDescription} {group : String}
    {description : StreamsGroupDescription}
    (h : (byGroupId descriptions)[group]? = some description) :
    description ∈ descriptions ∧ description.groupId = group := by
  rw [byGroupId, Std.TreeMap.ofList_eq_insertMany_empty] at h
  rcases mem_of_getElem?_insertMany h with hmem | hempty
  · obtain ⟨found, hfound, heq⟩ := List.mem_map.1 hmem
    cases heq
    exact ⟨hfound, rfl⟩
  · simp at hempty

/-! ## Deleting groups -/

/-- Why a group is not deleted. -/
def deletionError (details : Std.TreeMap String StreamsGroupDescription) (group : String) :
    Option String :=
  match details[group]? with
  | none => some s!"Group '{group}' is not a Streams group"
  | some description =>
    let state := description.groupState
    if state = "Empty" then none else some s!"Streams group is not EMPTY (state: {state})"

/-- The rows of topics that were deleted. -/
def deletionRows (topics : List String) (results : List (Except (String × String) String)) :
    List MutationRow :=
  (topics.zip results).map fun (topic, result) =>
    match result with
    | .ok _ => { resource := topic, status := "DELETED", error := none }
    | .error (_, code) => { resource := topic, status := "FAILED", error := some code }

/-- The row of a group that was to be deleted. -/
def deletedGroupRow (group : String) (error : ErrorCode) : MutationRow where
  resource := group
  status := if error.isNone then "DELETED" else "FAILED"
  error := error

/-- Delete a group that may be deleted, and then its internal topics. -/
def deleteStreamsGroup (group : String) (internalTopics : List String) :
    Command (List MutationRow) := do
  let error ← deleteOneGroup host group
  if error.isNone ∧ internalTopics ≠ [] then do
    admin host
    let results : List (Except (String × String) String) ←
      host.ask (.deleteTopics group internalTopics)
    return deletedGroupRow group error :: deletionRows internalTopics results
  else return [deletedGroupRow group error]

/-- The rows of one of the selected groups. -/
def deleteSelectedGroup (details : Std.TreeMap String StreamsGroupDescription)
    (deleteAllInternalTopics execute : Bool) (group : String) : Command (List MutationRow) :=
  match details[group]?, deletionError details group with
  | some description, none =>
    let internalTopics :=
      if deleteAllInternalTopics then (streamsInternalTopics description).toList else []
    if !execute then
      return (group :: internalTopics).map fun resource =>
        { resource, status := "PREVIEW", error := none }
    else deleteStreamsGroup host group internalTopics
  | _, error => return [{ resource := group, status := "FAILED", error }]

def deleteStreamsGroups (requested : List String)
    (allGroups deleteAllInternalTopics execute : Bool) : Command PUnit := do
  let available ← groupIdsByType host "streams"
  let groups := if allGroups then available else requested
  ofExcept (failIf (groups = []) (Error.usage "no Streams groups matched"))
  let existing := groups.filter (· ∈ available)
  let descriptions ← describeStreamsGroups host existing false false
  let details := byGroupId descriptions
  let rows ← groups.mapM (deleteSelectedGroup host details deleteAllInternalTopics execute)
  let rows := rows.flatten
  host.ask (.print (.mutationRows "streams-groups.delete" rows))
  ofExcept (partialFailure (rows.map (·.error)))

/-! ## Resetting offsets -/

structure StreamsGroupResetOffsetsArgs where
  group : List String := []
  allGroups : Bool := false
  inputTopic : List String := []
  allInputTopics : Bool := false
  toEarliest : Bool := false
  toLatest : Bool := false
  toOffset : Option Int := none
  shiftBy : Option Int := none
  toCurrent : Bool := false
  toDatetime : Option String := none
  byDuration : Option String := none
  fromFile : Option String := none
  dryRun : Bool := false
  execute : Bool := false
  exportCsv : Bool := false
  deleteInternalTopic : List String := []
  deleteAllInternalTopics : Bool := false

def streamsResetTargetArgs (args : StreamsGroupResetOffsetsArgs) : ResetOffsetsArgs where
  group := args.group
  allGroups := args.allGroups
  topic := args.inputTopic
  allTopics := args.allInputTopics
  toEarliest := args.toEarliest
  toLatest := args.toLatest
  toOffset := args.toOffset
  shiftBy := args.shiftBy
  toCurrent := args.toCurrent
  toDatetime := args.toDatetime
  byDuration := args.byDuration
  fromFile := args.fromFile
  exportCsv := args.exportCsv
  execute := args.execute
  dryRun := args.dryRun

/-- The inactive groups by their ids, and an error for each other one. -/
def inactiveGroups (descriptions : List StreamsGroupDescription) :
    Std.TreeMap String StreamsGroupDescription × List String :=
  let inactive (description : StreamsGroupDescription) : Bool :=
    description.groupState = "Empty" || description.groupState = "Dead"
  let active (group state : String) : String :=
    s!"assignments can only be reset if Streams group '{group}' is inactive; " ++
      s!"current state is {state}"
  (byGroupId (descriptions.filter inactive), (descriptions.filter (!inactive ·)).map
    fun description => active description.groupId description.groupState)

/-- The topics of a reset: the source topics of the group, or those of the arguments. -/
def streamsResetTopics (args : StreamsGroupResetOffsetsArgs)
    (description : StreamsGroupDescription) : Result ResetTopics :=
  if args.allInputTopics then
    .ok (.ofList ((sourceTopics description).map fun topic => (topic, none)))
  else parseResetTopics args.inputTopic

/-- The plan of a group. Topics whose metadata has an error do not count. -/
def planStreamsGroup (args : StreamsGroupResetOffsetsArgs) (timestamp : Option Int)
    (group : String × StreamsGroupDescription) : Command (Option PlannedOffsets) := do
  let topics ← ofExcept (streamsResetTopics args group.2)
  host.ask (.createConsumer [("group.id", group.1)])
  some <$> planTopics host (·.error.isNone) (streamsResetTargetArgs args) timestamp topics

/-- The topics that are deleted for a group after its reset. -/
def topicsToDelete (args : StreamsGroupResetOffsetsArgs) (description : StreamsGroupDescription) :
    List String :=
  if args.deleteAllInternalTopics then (streamsInternalTopics description).toList
  else (Std.TreeSet.ofList args.deleteInternalTopic : Std.TreeSet String).toList

/-- Delete the topics of one group. The errors of the topics are returned. -/
def deleteGroupTopics (args : StreamsGroupResetOffsetsArgs)
    (group : String × StreamsGroupDescription) : Command (List String) := do
  let topics := topicsToDelete args group.2
  if topics = [] then return []
  else do
    let results : List (Except (String × String) String) ←
      host.ask (.deleteTopics group.1 topics)
    return results.filterMap fun result =>
      match result with
      | .ok _ => none
      | .error (topic, code) => some s!"deleting internal topic '{topic}' failed: {code}"

/-- Delete the internal topics of the groups that were reset. -/
def deleteResetTopics (args : StreamsGroupResetOffsetsArgs)
    (inactive : Std.TreeMap String StreamsGroupDescription) : Command (List String) := do
  if args.execute ∧ (args.deleteInternalTopic ≠ [] ∨ args.deleteAllInternalTopics) then do
    admin host
    let errors ← inactive.toList.mapM (deleteGroupTopics host args)
    return errors.flatten
  else return []

/-- The groups whose offsets are reset, with the errors of those that are active. -/
def selectStreamsGroups (args : StreamsGroupResetOffsetsArgs) :
    Command (Std.TreeMap String StreamsGroupDescription × List String) := do
  ofExcept (validateResetTarget host (streamsResetTargetArgs args))
  let groups ← (if args.allGroups then groupIdsByType host "streams" else pure args.group)
  ofExcept (failIf (groups = []) (Error.usage "no Streams groups matched"))
  let descriptions ← describeStreamsGroups host groups false true
  return inactiveGroups descriptions

def resetStreamsGroupOffsets (args : StreamsGroupResetOffsetsArgs) : Command PUnit := do
  let (inactive, errors) ← selectStreamsGroups host args
  match args.fromFile with
  | some path =>
    resetFromFile host timeout "streams-groups.reset-offsets" (streamsResetTargetArgs args) path
      inactive.keys errors
  | none => do
    let timestamp ← resetTimestamp host args.toDatetime args.byDuration
    let planned ← planExecute (planStreamsGroup host args timestamp)
      (fun group => executeGroup host timeout args.execute group.1) inactive.toList
    let deletionErrors ← deleteResetTopics host args inactive
    host.ask (.print (.resetRows "streams-groups.reset-offsets"
      (resetRows (planned.map fun (group, offsets) => (group.1, offsets))) args.exportCsv
      (args.group.length = 1) (errors ++ deletionErrors)))

/-! ## What only reads -/

section ReadOnly

open Run

variable (args : StreamsGroupResetOffsetsArgs)

theorem readOnly_selectStreamsGroups : ReadOnly (selectStreamsGroups host args) := by
  refine .bind (.ofExcept _) fun _ => .bind (.ite ?_ (.pure _)) fun _ => ?_
  · exact readOnly_groupIdsByType host _
  · refine .bind (.ofExcept _) fun _ => ?_
    exact .bind (readOnly_describeStreamsGroups host _ _ _) fun _ => .pure _

theorem readOnly_planStreamsGroup (timestamp : Option Int)
    (group : String × StreamsGroupDescription) :
    ReadOnly (planStreamsGroup host args timestamp group) := by
  refine .bind (.ofExcept _) fun _ => .bind (readOnly_ask host not_false) fun _ => ?_
  exact .map (readOnly_planTopics host _ _ _ _) _

end ReadOnly

end KafkaCli.Streams
