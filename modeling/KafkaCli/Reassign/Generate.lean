import KafkaCli.Lib.Decimal
import KafkaCli.Reassign.Calls
import KafkaCli.Reassign.Striping

/-!
# Proposals

`reassign generate` proposes a plan for the topics of a file, over the brokers of a list.

`proposal_accepted`: what it proposes, `read_reassignment` accepts; it has one entry for each
partition of each topic, and it moves no replica between log directories.
-/

namespace KafkaCli.Reassign

open Checked Decimal Run Session Text

/-! ## The algorithm -/

/-- Split at commas and drop what is empty at the end, as Java does. -/
def splitJavaList (value : String) : List String :=
  if value = "" then [""] else (split value ',').rdropWhile (· = "")

def parsePartitions (value : Option String) : Result (Option (List Int)) :=
  match value.filter (· ≠ "") with
  | none => .ok none
  | some value => some <$> (splitJavaList value).mapM fun item =>
    (parseI32 item).mapError fun _ => Error.usage s!"invalid partition: {item}"

/-- The brokers of `--broker-list`. -/
def parseBrokerList (brokerList : String) : Result (List Int) := do
  let brokers ← parsePartitions (some brokerList)
  let brokers ← (brokers.filter (· ≠ [])).elim
    (.error (Error.usage "--broker-list must not be empty")) .ok
  failIf (¬ brokers.Nodup) (Error.usage "--broker-list contains duplicate broker IDs")
  return brokers

/-- A broker with its rack by the description of the cluster. -/
def brokerRack (cluster : List ClusterBroker) (disableRackAware : Bool) (brokerId : Int) :
    Except Failure BrokerRack :=
  match cluster.find? (·.brokerId = brokerId) with
  | none => .error (.check (.undescribed brokerId))
  | some broker => .ok (brokerId, if disableRackAware then none else broker.rack)

/-- The entry that is proposed for a partition. -/
def proposedPartition (topic : String) (brokers replicationFactor : Nat)
    (entry : MetadataPartition × List Int) : Result ReassignmentPartition := do
  failIf (replicationFactor > brokers) (Error.usage <|
    s!"topic {topic} requires {replicationFactor} distinct brokers, " ++
      s!"but only {brokers} were supplied")
  return { topic, partition := entry.1.id, replicas := entry.2
           logDirs := List.replicate entry.2.length "any" }

/-- The entries that are proposed for a topic. -/
def proposedTopic (brokerRacks : List BrokerRack) (metadata : Metadata) (selected : String) :
    Result (List ReassignmentPartition) := do
  let topic ← (metadata.topics.find? (·.name = selected)).elim
    (.error (Error.usage s!"topic {selected} not found")) .ok
  let replicationFactor := (topic.partitions.head?.map (·.replicas.length)).getD 0
  let assignments ←
    stripedReplicaAssignment brokerRacks topic.partitions.length replicationFactor
  (topic.partitions.zip assignments).mapM
    (proposedPartition selected brokerRacks.length replicationFactor)

/-- The racks of the brokers; where they are used, all brokers have one or none has. -/
def checkRacks (disableRackAware : Bool) (brokerRacks : List BrokerRack) : Result Unit :=
  let rackless := (brokerRacks.filter (·.2.isNone)).length
  failIf (disableRackAware = false ∧ rackless ≠ 0 ∧ rackless ≠ brokerRacks.length)
    (.usage "not all brokers have rack information; use --disable-rack-aware")

variable (host : Host)

/-- `generate_reassignment`, up to the proposal. -/
def buildProposal (path brokerList : String) (disableRackAware : Bool) :
    Command ReassignmentFile := do
  let topics ← ofExcept (liftResult (host.readTopicsToMove path))
  let brokers ← ofExcept (liftResult (parseBrokerList brokerList))
  ofExcept (liftResult (failIf (¬ topics.Nodup)
    (.usage "topics-to-move JSON contains duplicate topics")))
  host.ask .createConsumer
  let metadata : Metadata ← host.ask .fetchMetadata
  ofExcept (liftResult ((brokers.find? (· ∉ metadata.brokers)).elim (.ok ()) fun unknown =>
    .error (.usage s!"broker {unknown} is not in cluster metadata")))
  host.ask .protocolAdmin
  let cluster : List ClusterBroker ← host.ask .describeCluster
  let brokerRacks ← ofExcept (brokers.mapM (brokerRack cluster disableRackAware))
  ofExcept (liftResult (checkRacks disableRackAware brokerRacks))
  let partitions ← ofExcept (liftResult (topics.mapM (proposedTopic brokerRacks metadata)))
  return { version := 1, partitions := partitions.flatten }

def generateReassignment (path brokerList : String) (disableRackAware : Bool) : Command Unit := do
  let proposal ← buildProposal host path brokerList disableRackAware
  host.ask (.print (.proposal proposal))

/-! ## One topic -/

/-- The entries of a topic: one for each partition, in their order, for different brokers. -/
structure Proposed (topic : MetadataTopic) (entries : List ReassignmentPartition) : Prop where
  partitions_eq : entries.map (·.partition) = topic.partitions.map (·.id)
  topic_eq : ∀ entry ∈ entries, entry.topic = topic.name
  replicas_ne : ∀ entry ∈ entries, entry.replicas ≠ []
  replicas_nodup : ∀ entry ∈ entries, entry.replicas.Nodup
  logDirs_eq : ∀ entry ∈ entries, entry.logDirs = List.replicate entry.replicas.length "any"

theorem proposedPartition_ok {topic : String} {brokers factor : Nat}
    {entry : MetadataPartition × List Int} {proposed : ReassignmentPartition}
    (h : proposedPartition topic brokers factor entry = .ok proposed) :
    proposed = { topic, partition := entry.1.id, replicas := entry.2
                 logDirs := List.replicate entry.2.length "any" } := by
  simp only [proposedPartition, Checked.bind_eq_ok, pure_eq_ok] at h
  obtain ⟨_, -, hproposed⟩ := h
  exact hproposed.symm

theorem proposed_of_proposedTopic {brokerRacks : List BrokerRack} {metadata : Metadata}
    {selected : String} {entries : List ReassignmentPartition}
    (hbrokers : (brokerRacks.map Prod.fst).Nodup)
    (h : proposedTopic brokerRacks metadata selected = .ok entries) :
    ∃ topic ∈ metadata.topics, topic.name = selected ∧ Proposed topic entries := by
  simp only [proposedTopic, Checked.bind_eq_ok] at h
  obtain ⟨topic, htopic, assignments, hassignments, hentries⟩ := h
  cases hfind : metadata.topics.find? (·.name = selected) with
  | none => simp [hfind] at htopic
  | some found =>
    rw [hfind] at htopic
    cases htopic
    have hname : topic.name = selected := by simpa using List.find?_some hfind
    obtain ⟨hfactor, hlength, hreplicas⟩ := stripedReplicaAssignment_ok hbrokers hassignments
    have hmap := mapM_ok_eq_map (fun _ _ => proposedPartition_ok) hentries
    have hassigned : ∀ entry ∈ entries, entry.topic = selected ∧ ∃ replicas ∈ assignments,
        entry.replicas = replicas ∧ entry.logDirs = List.replicate replicas.length "any" := by
      intro entry hentry
      rw [hmap] at hentry
      obtain ⟨pair, hpair, rfl⟩ := List.mem_map.1 hentry
      exact ⟨rfl, pair.2, (List.of_mem_zip hpair).2, rfl, rfl⟩
    refine ⟨topic, List.mem_of_find?_eq_some hfind, hname, ?_⟩
    constructor
    · rw [hmap, List.map_map]
      show (topic.partitions.zip assignments).map ((·.id) ∘ Prod.fst) = _
      rw [← List.map_map, List.map_fst_zip hlength.ge]
    · intro entry hentry
      rw [(hassigned entry hentry).1, hname]
    · intro entry hentry hnil
      obtain ⟨-, replicas, hmem, hsame, -⟩ := hassigned entry hentry
      have hcount := (hreplicas replicas hmem).length_eq
      rw [← hsame, hnil, List.length_nil] at hcount
      exact hfactor hcount.symm
    · intro entry hentry
      obtain ⟨-, replicas, hmem, hsame, -⟩ := hassigned entry hentry
      rw [hsame]
      exact (hreplicas replicas hmem).nodup
    · intro entry hentry
      obtain ⟨-, replicas, -, hsame, hdirs⟩ := hassigned entry hentry
      rw [hsame, hdirs]

/-! ## All topics -/

/-- What is known of a topic that is to be moved: it has partitions, with different numbers that
are not negative. -/
structure MetadataTopic.Sound (topic : MetadataTopic) : Prop where
  partitions_ne : topic.partitions ≠ []
  ids_nodup : (topic.partitions.map (·.id)).Nodup
  ids_nonneg : ∀ partition ∈ topic.partitions, 0 ≤ partition.id

variable {topic : MetadataTopic} {entries : List ReassignmentPartition}

theorem Proposed.valid (h : Proposed topic entries) (hsound : topic.Sound) (hname : topic.name ≠ "")
    {entry : ReassignmentPartition} (hentry : entry ∈ entries) : entry.Valid where
  topic_ne := by
    rw [h.topic_eq entry hentry]
    exact hname
  partition_nonneg := by
    have hmem : entry.partition ∈ topic.partitions.map (·.id) := by
      rw [← h.partitions_eq]
      exact List.mem_map_of_mem hentry
    obtain ⟨partition, hpartition, hid⟩ := List.mem_map.1 hmem
    rw [← hid]
    exact hsound.ids_nonneg partition hpartition
  replicas_ne := h.replicas_ne entry hentry
  replicas_nodup := h.replicas_nodup entry hentry
  logDirs_length _ := by rw [h.logDirs_eq entry hentry, List.length_replicate]

/-- Other topics have no entries here. -/
theorem filter_topic_eq_nil {selected : String} {partitions : List ReassignmentPartition}
    (h : ∀ entry ∈ partitions, entry.topic ≠ selected) :
    partitions.filter (·.topic = selected) = [] := by
  refine List.filter_eq_nil_iff.2 fun entry hentry => ?_
  simpa using h entry hentry

theorem Proposed.targets_nodup (h : Proposed topic entries) (hsound : topic.Sound) :
    (entries.map ReassignmentPartition.target).Nodup := by
  have hids := hsound.ids_nodup
  rw [← h.partitions_eq] at hids
  refine List.Nodup.of_map Prod.snd ?_
  rwa [List.map_map]

theorem Proposed.ne_nil (h : Proposed topic entries) (hsound : topic.Sound) : entries ≠ [] := by
  intro hnil
  have hids := h.partitions_eq
  rw [hnil, List.map_nil, eq_comm, List.map_eq_nil_iff] at hids
  exact hsound.partitions_ne hids

/-- A loop whose steps all leave the accumulator as it was. -/
theorem foldl_eq_self {α β : Type} {f : α → β → α} {a : α} {l : List β}
    (h : ∀ b ∈ l, f a b = a) : l.foldl f a = a := by
  induction l with
  | nil => rfl
  | cons b l ih =>
    rw [List.foldl_cons, h b List.mem_cons_self]
    exact ih fun b' hb' => h b' (List.mem_cons_of_mem b hb')

/-- A plan that leaves its replicas in any log directory moves none of them there. -/
theorem brokerLogDirPlan_any {plan : ReassignmentFile}
    (h : ∀ entry ∈ plan.partitions, ∀ logDir ∈ entry.logDirs, logDir = "any") :
    brokerLogDirPlan plan = ∅ := by
  refine foldl_eq_self fun entry hentry => foldl_eq_self fun (broker, logDir) hpair => ?_
  have hany := h entry hentry logDir (List.of_mem_zip hpair).2
  simp [hany]

/-- The entries of all topics together. -/
structure AllProposed (topics : List String) (metadata : Metadata)
    (partitions : List ReassignmentPartition) : Prop where
  valid : ∀ entry ∈ partitions, entry.Valid
  topic_mem : ∀ entry ∈ partitions, entry.topic ∈ topics
  any : ∀ entry ∈ partitions, ∀ logDir ∈ entry.logDirs, logDir = "any"
  targets_nodup : (partitions.map ReassignmentPartition.target).Nodup
  entries_eq : ∀ selected ∈ topics, ∃ topic ∈ metadata.topics, topic.name = selected ∧
    (partitions.filter (·.topic = selected)).map (·.partition) = topic.partitions.map (·.id)

/-- The entries of one more topic, in front of the others. -/
theorem AllProposed.cons {topics : List String} {metadata : Metadata}
    {partitions : List ReassignmentPartition} (h : AllProposed topics metadata partitions)
    (hnew : topic.name ∉ topics) (hne : topic.name ≠ "") (hmem : topic ∈ metadata.topics)
    (hsound : topic.Sound) (hproposed : Proposed topic entries) :
    AllProposed (topic.name :: topics) metadata (entries ++ partitions) where
  valid := List.forall_mem_append.2 ⟨fun _ => hproposed.valid hsound hne, h.valid⟩
  topic_mem := by
    refine List.forall_mem_append.2 ⟨?_, ?_⟩
    · intro entry hentry
      rw [hproposed.topic_eq entry hentry]
      exact List.mem_cons_self
    · intro entry hentry
      exact List.mem_cons_of_mem _ (h.topic_mem entry hentry)
  any := by
    refine List.forall_mem_append.2 ⟨?_, h.any⟩
    intro entry hentry logDir hlogDir
    rw [hproposed.logDirs_eq entry hentry] at hlogDir
    exact List.eq_of_mem_replicate hlogDir
  targets_nodup := by
    rw [List.map_append, List.nodup_append]
    refine ⟨hproposed.targets_nodup hsound, h.targets_nodup, ?_⟩
    intro target htarget target' htarget' heq
    obtain ⟨entry, hentry, rfl⟩ := List.mem_map.1 htarget
    obtain ⟨entry', hentry', rfl⟩ := List.mem_map.1 htarget'
    have hsame : entry'.topic = topic.name := by
      rw [← hproposed.topic_eq entry hentry]
      exact (congrArg Prod.fst heq).symm
    exact hnew (hsame ▸ h.topic_mem entry' hentry')
  entries_eq := by
    intro selected hselected
    rcases List.mem_cons.1 hselected with rfl | hold
    · refine ⟨topic, hmem, rfl, ?_⟩
      have hall : entries.filter (·.topic = topic.name) = entries :=
        List.filter_eq_self.2 fun entry hentry => by simpa using hproposed.topic_eq entry hentry
      have hnone : partitions.filter (·.topic = topic.name) = [] :=
        filter_topic_eq_nil fun entry hentry heq => hnew (heq ▸ h.topic_mem entry hentry)
      rw [List.filter_append, hall, hnone, List.append_nil, hproposed.partitions_eq]
    · obtain ⟨found, hfound, hname, hentries⟩ := h.entries_eq selected hold
      refine ⟨found, hfound, hname, ?_⟩
      have hnone : entries.filter (·.topic = selected) = [] := by
        refine filter_topic_eq_nil fun entry hentry heq => ?_
        rw [hproposed.topic_eq entry hentry] at heq
        exact hnew (heq ▸ hold)
      rw [List.filter_append, hnone, List.nil_append, hentries]

theorem allProposed_flatten {topics : List String} {metadata : Metadata}
    {lists : List (List ReassignmentPartition)} (hnodup : topics.Nodup)
    (hne : ∀ topic ∈ topics, topic ≠ "")
    (hsound : ∀ topic ∈ metadata.topics, topic.name ∈ topics → topic.Sound)
    (h : List.Forall₂ (fun selected entries => ∃ topic ∈ metadata.topics, topic.name = selected ∧
      Proposed topic entries) topics lists) : AllProposed topics metadata lists.flatten := by
  induction h with
  | nil => exact ⟨by simp, by simp, by simp, List.nodup_nil, by simp⟩
  | @cons selected entries topics lists hfirst _ ih =>
    obtain ⟨topic, hmem, rfl, hproposed⟩ := hfirst
    rw [List.nodup_cons] at hnodup
    have hrest := ih hnodup.2 (fun t ht => hne t (List.mem_cons_of_mem _ ht))
      fun t ht hname => hsound t ht (List.mem_cons_of_mem _ hname)
    exact hrest.cons hnodup.1 (hne _ List.mem_cons_self) hmem
      (hsound topic hmem List.mem_cons_self) hproposed

theorem accepted_of_allProposed {topics : List String} {metadata : Metadata}
    {partitions : List ReassignmentPartition} (h : AllProposed topics metadata partitions)
    (hne : partitions ≠ []) : ReassignmentFile.Accepted { version := 1, partitions } where
  version_eq := rfl
  partitions_ne := hne
  valid := h.valid
  targets_nodup := h.targets_nodup

/-! ## The proposal -/

theorem nodup_of_parseBrokerList {brokerList : String} {brokers : List Int}
    (h : parseBrokerList brokerList = .ok brokers) : brokers.Nodup := by
  simp only [parseBrokerList, Checked.bind_eq_ok, failIf_eq_ok, not_not, pure_eq_ok] at h
  obtain ⟨_, -, _, -, _, hnodup, rfl⟩ := h
  exact hnodup

theorem brokerRack_fst {cluster : List ClusterBroker} {disableRackAware : Bool} {broker : Int}
    {entry : BrokerRack} (h : brokerRack cluster disableRackAware broker = .ok entry) :
    entry.1 = broker := by
  rw [brokerRack] at h
  cases hfind : cluster.find? (·.brokerId = broker) with
  | none =>
    rw [hfind] at h
    cases h
  | some found =>
    rw [hfind] at h
    cases h
    rfl

variable {host : Host} {path brokerList : String} {disableRackAware : Bool}
  {proposal : ReassignmentFile} {t t' : Transcript Reply Failure}

/-- What a proposal is made from. -/
theorem buildProposal_ok
    (h : (buildProposal host path brokerList disableRackAware).run t = .ok proposal t') :
    ∃ topics metadata brokerRacks lists, host.readTopicsToMove path = .ok topics ∧ topics.Nodup ∧
      ⟨.fetchMetadata, .ok metadata⟩ ∈ t' ∧ (brokerRacks.map Prod.fst).Nodup ∧
      topics.mapM (proposedTopic brokerRacks metadata) = .ok lists ∧
      proposal = { version := 1, partitions := lists.flatten } := by
  simp only [buildProposal, Run.bind_eq_ok, run_ofExcept_eq_ok, liftResult, mapError_eq_ok,
    Host.ask, ask_eq_ok] at h
  obtain ⟨topics, _, ⟨htopics, rfl⟩, brokers, _, ⟨hbrokers, rfl⟩, _, _, ⟨hnodup, rfl⟩,
    _, _, ⟨-, rfl⟩, metadata, _, ⟨-, rfl⟩, _, _, ⟨-, rfl⟩, _, _, ⟨-, rfl⟩, cluster, _, ⟨-, rfl⟩,
    brokerRacks, _, ⟨hracks, rfl⟩, _, _, ⟨-, rfl⟩, lists, _, ⟨hlists, rfl⟩, hproposal⟩ := h
  cases hproposal
  have hsame : brokers = brokerRacks.map Prod.fst := by
    have heach := (forall₂_of_mapM_ok hracks).imp fun _ _ hrack => (brokerRack_fst hrack).symm
    rwa [← List.forall₂_map_right_iff, List.forall₂_eq_eq_eq] at heach
  refine ⟨topics, metadata, brokerRacks, lists, htopics, ?_, by simp, ?_, hlists, rfl⟩
  · simpa using hnodup
  · rw [← hsame]
    exact nodup_of_parseBrokerList hbrokers

/-- What is printed is the proposal. -/
theorem generateReassignment_ok {u : Unit}
    (h : (generateReassignment host path brokerList disableRackAware).run t = .ok u t') :
    ∃ proposal before, (buildProposal host path brokerList disableRackAware).run t =
        .ok proposal before ∧ t' = before ++ [⟨.print (.proposal proposal), .ok u⟩] := by
  obtain ⟨proposal, before, hbuild, hprint⟩ := Run.bind_eq_ok.1 h
  exact ⟨proposal, before, hbuild, (ask_eq_ok.1 hprint).2⟩

/-- **Proposals are accepted.** What is proposed for topics whose metadata are sound can be read
back as a plan. It has an entry for each partition of each of the topics and no other entries, and
it moves no replica between log directories. -/
theorem proposal_accepted {topics : List String} (htopics : host.readTopicsToMove path = .ok topics)
    (hne : topics ≠ []) (hnames : ∀ topic ∈ topics, topic ≠ "")
    (hsound : ∀ metadata, ⟨.fetchMetadata, .ok metadata⟩ ∈ t →
      ∀ topic ∈ metadata.topics, topic.name ∈ topics → topic.Sound)
    (h : (buildProposal host path brokerList disableRackAware).run [] = .ok proposal t) :
    readReassignment (.ok proposal) = .ok proposal ∧
      (∃ metadata, ⟨.fetchMetadata, .ok metadata⟩ ∈ t ∧
        (∀ entry ∈ proposal.partitions, entry.topic ∈ topics) ∧
        ∀ selected ∈ topics, ∃ topic ∈ metadata.topics, topic.name = selected ∧
          (proposal.partitions.filter (·.topic = selected)).map (·.partition) =
            topic.partitions.map (·.id)) ∧
      brokerLogDirPlan proposal = ∅ := by
  obtain ⟨topics', metadata, brokerRacks, lists, htopics', hnodup, hmetadata, hracks, hlists,
    rfl⟩ := buildProposal_ok h
  cases htopics'.symm.trans htopics
  have hproposed := (forall₂_of_mapM_ok hlists).imp fun _ _ => proposed_of_proposedTopic hracks
  have hall := allProposed_flatten hnodup hnames (hsound metadata hmetadata) hproposed
  have hpartitions : lists.flatten ≠ [] := by
    cases hproposed with
    | nil => exact absurd rfl hne
    | cons hfirst _ =>
      obtain ⟨topic, hmem, rfl, hentries⟩ := hfirst
      have hfilled := hentries.ne_nil (hsound metadata hmetadata topic hmem List.mem_cons_self)
      rw [List.flatten_cons]
      exact List.append_ne_nil_of_left_ne_nil hfilled _
  refine ⟨readReassignment_ok.2 ⟨rfl, accepted_of_allProposed hall hpartitions⟩, ?_,
    brokerLogDirPlan_any hall.any⟩
  exact ⟨metadata, hmetadata, hall.topic_mem, hall.entries_eq⟩

/-! ## A topic over two racks -/

def ordersProposal : ReassignmentFile where
  version := 1
  partitions :=
    [{ topic := "orders", partition := 0, replicas := [1, 3], logDirs := ["any", "any"] },
     { topic := "orders", partition := 1, replicas := [3, 2], logDirs := ["any", "any"] }]

def ordersTranscript : Transcript Reply Failure :=
  [⟨.createConsumer, .ok ()⟩, ⟨.fetchMetadata, .ok ordersMetadata⟩, ⟨.protocolAdmin, .ok ()⟩,
   ⟨.describeCluster, .ok rackBrokers⟩]

theorem ordersTopic_sound : ordersTopic.Sound := ⟨by decide, by decide, by decide⟩

theorem proposal_accepted_orders :
    (buildProposal (ordersHost ordersProposal) "topics.json" "1,2,3" false).run [] =
        .ok ordersProposal ordersTranscript ∧
      readReassignment (.ok ordersProposal) = .ok ordersProposal ∧
      brokerLogDirPlan ordersProposal = ∅ := by
  have hrun : (buildProposal (ordersHost ordersProposal) "topics.json" "1,2,3" false).run [] =
      .ok ordersProposal ordersTranscript := rfl
  have hsound : ∀ metadata, ⟨.fetchMetadata, .ok metadata⟩ ∈ ordersTranscript →
      ∀ topic ∈ metadata.topics, topic.name ∈ ["orders"] → topic.Sound := by
    intro metadata hmem topic htopic _
    have hmetadata : metadata = ordersMetadata := by simpa [ordersTranscript] using hmem
    rw [hmetadata, ordersMetadata, List.mem_singleton] at htopic
    rw [htopic]
    exact ordersTopic_sound
  have htopics : (ordersHost ordersProposal).readTopicsToMove "topics.json" = .ok ["orders"] := rfl
  obtain ⟨hread, -, hdirs⟩ := proposal_accepted htopics (by simp) (by simp) hsound hrun
  exact ⟨hrun, hread, hdirs⟩

end KafkaCli.Reassign
