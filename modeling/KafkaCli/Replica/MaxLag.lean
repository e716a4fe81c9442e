import KafkaCli.Lib.RunningMax
import KafkaCli.Replica.Verify
import Mathlib.Data.Finset.Max

/-!
# The largest lag

`verify_checksum` checks all partitions, in an order that changes from run to run, and remembers
the one whose verified fetch offset is the furthest behind its largest high watermark. The check of
a partition does not depend on what was found for the others (`Verifies`), so that what is
remembered is a running maximum over the partitions.

**Theorem (`lagReported_iff`).** In every order the largest lag is reported exactly under
`LagsReported`: the difference of the two offsets wraps at 64 bits.
-/

namespace KafkaCli.Replica

open Lockstep RunningMax

/-! ## All partitions -/

/-- The lines of `verify_checksum`. -/
inductive ChecksumLine
  | ofPartition (line : ReportLine)
  | maxLag (lag : Int) (partition : Option TopicPartitionKey) (offset : Int) (partitions : Nat)
  deriving DecidableEq, Repr

/-- A line as it is printed at a given time. -/
def ChecksumLine.text (timestamp : String) : ChecksumLine → String
  | .ofPartition line => line.text timestamp
  | .maxLag lag partition offset partitions =>
    let label := (partition.map TopicPartitionKey.label).getD "null"
    s!"{timestamp}: max lag is {lag} for partition {label} at offset {offset} among " ++
      s!"{partitions} partitions"

/-- `ReplicaBuffer::maybe_report_max_lag`; `due` says whether the interval has passed. -/
def maybeReportMaxLag (due : Bool) (partitions : Nat) (buffer : ReplicaBuffer) :
    List ChecksumLine :=
  if due then
    [.maxLag buffer.maxLag buffer.maxLagPartition buffer.offsetWithMaxLag partitions]
  else []

/-- The loop of `verify_checksum` over the partitions. -/
def verifyPartitions (orders : TopicPartitionKey → IterOrder (Int × List ParsedBatch)) :
    List TopicPartitionKey → ReplicaBuffer → Verification × List ReportLine
  | [], buffer => (.ok buffer, [])
  | key :: keys, buffer =>
    match verifyPartition (orders key) buffer key with
    | (.ok buffer, lines) =>
      let (verification, rest) := verifyPartitions orders keys buffer
      (verification, lines ++ rest)
    | (verification, lines) => (verification, lines)

/-- `ReplicaBuffer::verify_checksum`, over the keys of the cache. -/
def verifyChecksum (orders : TopicPartitionKey → IterOrder (Int × List ParsedBatch))
    (keys : List TopicPartitionKey) (due : Bool) (buffer : ReplicaBuffer) :
    Verification × List ChecksumLine :=
  let buffer := { buffer with maxLag := -1, offsetWithMaxLag := -1, maxLagPartition := none }
  match verifyPartitions orders keys buffer with
  | (.ok buffer, lines) =>
    (.ok buffer, lines.map .ofPartition ++ maybeReportMaxLag due keys.length buffer)
  | (verification, lines) => (verification, lines.map .ofPartition)

/-! ## One partition -/

/-- The offset to which the full rows move, if there are any. -/
def MovesTo (responses : FetchResponse) : Option Int → Prop
  | none => ¬ FullRow responses 0
  | some offset => ∃ j last, (∀ i ≤ j, FullRow responses i) ∧ ¬ FullRow responses (j + 1) ∧
      RowAt responses j last ∧ offset = wrap64 (last + 1)

/-- The buffer after the check of a partition. -/
def afterCheck (key : TopicPartitionKey) (responses : FetchResponse) (moved : Option Int)
    (buffer : ReplicaBuffer) : ReplicaBuffer :=
  (({ buffer with
    fetchOffsets := moveOffset key buffer.fetchOffsets moved } : ReplicaBuffer).noteLag
    key (maxHighWatermark responses)).clearCache key

/-- The check of a partition succeeds, whatever was found for the other partitions. -/
structure Verifies (order : IterOrder (Int × List ParsedBatch)) (expected : Option Nat)
    (key : TopicPartitionKey) (responses : FetchResponse) (moved : Option Int) : Prop where
  moves : MovesTo responses moved
  run : ∀ buffer : ReplicaBuffer, buffer.recordsCache key = some responses →
    buffer.expectedReplicas key = expected →
    ∃ lines, verifyPartition order buffer key = (.ok (afterCheck key responses moved buffer), lines)

/-- Where the loop ends without a conflict. -/
theorem walkEnd_eq_stopped {key : TopicPartitionKey} {lanes : List (Lane Int)} {k : Nat}
    (h : scan none (row lanes k) ≠ .conflict) (fetchOffsets : TopicPartitionKey → Option Int) :
    walkEnd key lanes k fetchOffsets =
      .stopped (moveOffset key fetchOffsets (offsetAfter lanes k)) := by
  unfold walkEnd
  cases hscan : scan none (row lanes k) with
  | conflict => exact absurd hscan h
  | full key => rfl
  | missing => rfl

/-- The offset after the full rows. -/
theorem movesTo_offsetAfter {responses : FetchResponse} {parsed : List (Int × List ParsedBatch)}
    (order : IterOrder (Int × List ParsedBatch))
    (hparsed : parseResponses responses.entries = .ok parsed) {k : Nat}
    (hk : FullPrefix (lanes (watermarks responses) (startCursors order parsed)) k) :
    MovesTo responses
      (offsetAfter (lanes (watermarks responses) (startCursors order parsed)) k) := by
  have hfull := full_startCursors_iff order hparsed
  cases k with
  | zero => exact fun h => hk.2 ((hfull 0).2 h)
  | succ j =>
    obtain ⟨last, hscan⟩ := full_iff_scan.1 (hk.1 j j.lt_succ_self)
    rw [offsetAfter_succ hscan]
    exact ⟨j, last, fun i hi => (hfull i).1 (hk.1 i (Nat.lt_succ_of_le hi)),
      fun h => hk.2 ((hfull (j + 1)).2 h), rowAt_of_scan order hparsed hscan, rfl⟩

/-- A check that has succeeded once does so whatever was found for the other partitions. -/
theorem verifies_of_ok {order : IterOrder (Int × List ParsedBatch)} {buffer after : ReplicaBuffer}
    {key : TopicPartitionKey} {responses : FetchResponse} {lines : List ReportLine}
    (hcache : buffer.recordsCache key = some responses)
    (hrun : verifyPartition order buffer key = (.ok after, lines)) :
    ∃ moved, Verifies order (buffer.expectedReplicas key) key responses moved := by
  by_cases hcount : responses.entries.length = (buffer.expectedReplicas key).getD 0
  · cases hparsed : parseResponses responses.entries with
    | error error => simp [verifyPartition, hcache, hcount, hparsed] at hrun
    | ok parsed =>
      obtain ⟨k, hk⟩ := exists_fullPrefix_lanes (watermarks responses) (startCursors order parsed)
      have hscan : scan none (row (lanes (watermarks responses) (startCursors order parsed)) k) ≠
          .conflict := by
        intro hconflict
        rw [verifyPartition_eq hcache hcount hparsed, verifyRows_startCursors hk] at hrun
        simp [walkEnd, hconflict] at hrun
      refine ⟨_, movesTo_offsetAfter order hparsed hk, fun other hother hexpected => ?_⟩
      rw [verifyPartition_eq hother (hexpected ▸ hcount) hparsed, verifyRows_startCursors hk,
        walkEnd_eq_stopped hscan]
      exact ⟨_, rfl⟩
  · simp [verifyPartition, hcache, hcount] at hrun

/-- All responses of a row end at one offset. -/
theorem RowAt.unique {responses : FetchResponse} {i : Nat} {last last' : Int}
    (hne : responses.entries ≠ []) (h : RowAt responses i last) (h' : RowAt responses i last') :
    last = last' := by
  obtain ⟨response, hmem⟩ := List.exists_mem_of_ne_nil _ hne
  obtain ⟨batches, batch, hok, hget, hlast, -⟩ := h response hmem
  obtain ⟨batches', batch', hok', hget', hlast', -⟩ := h' response hmem
  obtain rfl := Except.ok.inj (hok.symm.trans hok')
  obtain rfl := Option.some.inj (hget.symm.trans hget')
  exact hlast.symm.trans hlast'

/-- There is one offset to move to. -/
theorem MovesTo.unique {responses : FetchResponse} {moved moved' : Option Int}
    (h : MovesTo responses moved) (h' : MovesTo responses moved') : moved = moved' := by
  cases moved with
  | none =>
    cases moved' with
    | none => rfl
    | some offset =>
      obtain ⟨j, last, hfull, -⟩ := h'
      exact absurd (hfull 0 (Nat.zero_le j)) h
  | some offset =>
    obtain ⟨j, last, hfull, hstop, hrow, rfl⟩ := h
    cases moved' with
    | none => exact absurd (hfull 0 (Nat.zero_le j)) h'
    | some offset' =>
      obtain ⟨j', last', hfull', hstop', hrow', rfl⟩ := h'
      have hj : j = j' := by
        rcases Nat.lt_trichotomy j j' with hlt | heq | hgt
        · exact absurd (hfull' (j + 1) hlt) hstop
        · exact heq
        · exact absurd (hfull (j' + 1) hgt) hstop'
      subst hj
      rw [hrow.unique (hfull j (Nat.le_refl j)).1 hrow']

/-! ## What a check changes -/

/-- What is remembered of the lags: the largest, the partition that has it, and its offset. -/
def ReplicaBuffer.kept (buffer : ReplicaBuffer) : Int × Option TopicPartitionKey × Int :=
  (buffer.maxLag, buffer.maxLagPartition, buffer.offsetWithMaxLag)

section AfterCheck

variable (key : TopicPartitionKey) (responses : FetchResponse) (moved : Option Int)
  (buffer : ReplicaBuffer)

theorem noteLag_eq (maxHw : Int) : buffer.noteLag key maxHw =
    if buffer.maxLag < wrap64 (maxHw - buffer.offset key) then
      { buffer with
        offsetWithMaxLag := buffer.offset key
        maxLag := wrap64 (maxHw - buffer.offset key)
        maxLagPartition := some key }
    else buffer := rfl

theorem afterCheck_fetchOffsets : (afterCheck key responses moved buffer).fetchOffsets =
    moveOffset key buffer.fetchOffsets moved := by
  rw [afterCheck, ReplicaBuffer.clearCache, noteLag_eq]
  split_ifs <;> rfl

theorem afterCheck_expectedReplicas : (afterCheck key responses moved buffer).expectedReplicas =
    buffer.expectedReplicas := by
  rw [afterCheck, ReplicaBuffer.clearCache, noteLag_eq]
  split_ifs <;> rfl

theorem afterCheck_recordsCache : (afterCheck key responses moved buffer).recordsCache =
    Function.update buffer.recordsCache key (some ∅) := by
  rw [afterCheck, ReplicaBuffer.clearCache, noteLag_eq]
  split_ifs <;> rfl

theorem moveOffset_getD : (moveOffset key buffer.fetchOffsets moved key).getD 0 =
    moved.getD (buffer.offset key) := by
  cases moved with
  | none => rfl
  | some offset =>
    rw [moveOffset, Function.update_self]
    rfl

theorem moveOffset_of_ne {other : TopicPartitionKey} (h : other ≠ key) :
    moveOffset key buffer.fetchOffsets moved other = buffer.fetchOffsets other := by
  cases moved with
  | none => rfl
  | some offset => exact Function.update_of_ne h _ _

/-- The lag is remembered where it is the largest. -/
theorem noteLag_kept {value : TopicPartitionKey → Int}
    {mark : TopicPartitionKey → Option TopicPartitionKey × Int} {maxHw : Int}
    (hvalue : value key = wrap64 (maxHw - buffer.offset key))
    (hmark : mark key = (some key, buffer.offset key)) :
    (buffer.noteLag key maxHw).kept = note value mark buffer.kept key := by
  rw [noteLag_eq]
  by_cases h : buffer.maxLag < wrap64 (maxHw - buffer.offset key)
  · rw [if_pos h, note_of_lt (hvalue ▸ h : buffer.kept.1 < value key), hvalue, hmark]
    rfl
  · rw [if_neg h, note_of_le (hvalue ▸ not_lt.1 h : value key ≤ buffer.kept.1)]

theorem afterCheck_kept {value : TopicPartitionKey → Int}
    {mark : TopicPartitionKey → Option TopicPartitionKey × Int}
    (hvalue : value key =
      wrap64 (maxHighWatermark responses - moved.getD (buffer.offset key)))
    (hmark : mark key = (some key, moved.getD (buffer.offset key))) :
    (afterCheck key responses moved buffer).kept = note value mark buffer.kept key := by
  rw [← moveOffset_getD key moved buffer] at hvalue hmark
  exact noteLag_kept key { buffer with fetchOffsets := moveOffset key buffer.fetchOffsets moved }
    hvalue hmark

end AfterCheck

/-! ## The run over the partitions -/

section Run

variable (orders : TopicPartitionKey → IterOrder (Int × List ParsedBatch)) (buffer : ReplicaBuffer)
  (responses : TopicPartitionKey → FetchResponse) (moved : TopicPartitionKey → Option Int)

/-- The fetch offset of a partition after its check. -/
def verifiedOffset (key : TopicPartitionKey) : Int := (moved key).getD (buffer.offset key)

/-- How far it is behind the largest high watermark. -/
def lagOf (key : TopicPartitionKey) : Int :=
  maxHighWatermark (responses key) - verifiedOffset buffer moved key

/-- The lag as it is computed. -/
def wrappedLag (key : TopicPartitionKey) : Int := wrap64 (lagOf buffer responses moved key)

/-- What is remembered of a partition. -/
def lagMark (key : TopicPartitionKey) : Option TopicPartitionKey × Int :=
  (some key, verifiedOffset buffer moved key)

/-- The checks of these partitions succeed. -/
def AllVerify (keys : List TopicPartitionKey) : Prop :=
  ∀ key ∈ keys,
    Verifies (orders key) (buffer.expectedReplicas key) key (responses key) (moved key)

/-- The partitions are still as they were in front of the loop. -/
structure Untouched (keys : List TopicPartitionKey) (now : ReplicaBuffer) : Prop where
  expected : now.expectedReplicas = buffer.expectedReplicas
  cache : ∀ key ∈ keys, now.recordsCache key = some (responses key)
  offsets : ∀ key ∈ keys, now.fetchOffsets key = buffer.fetchOffsets key

/-- What the loop does to the partitions it goes over. -/
structure Passed (keys : List TopicPartitionKey) (now after : ReplicaBuffer) : Prop where
  kept : after.kept =
    keys.foldl (note (wrappedLag buffer responses moved) (lagMark buffer moved)) now.kept
  offset : ∀ key ∈ keys, after.offset key = verifiedOffset buffer moved key
  emptied : ∀ key ∈ keys, after.recordsCache key = some ∅
  others : ∀ key ∉ keys, after.recordsCache key = now.recordsCache key ∧
    after.fetchOffsets key = now.fetchOffsets key

variable {orders buffer responses moved} {keys : List TopicPartitionKey} {now : ReplicaBuffer}

/-- The check of one partition leaves the others as they were. -/
theorem untouched_afterCheck {key : TopicPartitionKey} (moved : Option Int) (hkey : key ∉ keys)
    (h : Untouched buffer responses (key :: keys) now) :
    Untouched buffer responses keys (afterCheck key (responses key) moved now) where
  expected := (afterCheck_expectedReplicas _ _ _ now).trans h.expected
  cache other hother := by
    have hne : other ≠ key := fun heq => hkey (heq ▸ hother)
    rw [afterCheck_recordsCache, Function.update_of_ne hne]
    exact h.cache other (List.mem_cons_of_mem key hother)
  offsets other hother := by
    have hne : other ≠ key := fun heq => hkey (heq ▸ hother)
    rw [afterCheck_fetchOffsets, moveOffset_of_ne _ _ _ hne]
    exact h.offsets other (List.mem_cons_of_mem key hother)

/-- One partition, and then the others. -/
theorem Passed.cons {key : TopicPartitionKey} {after : ReplicaBuffer} (hkey : key ∉ keys)
    (hoffset : now.offset key = buffer.offset key)
    (h : Passed buffer responses moved keys
      (afterCheck key (responses key) (moved key) now) after) :
    Passed buffer responses moved (key :: keys) now after where
  kept := by
    rw [h.kept, List.foldl_cons]
    have hkept : (afterCheck key (responses key) (moved key) now).kept =
        note (wrappedLag buffer responses moved) (lagMark buffer moved) now.kept key :=
      afterCheck_kept key (responses key) (moved key) now (by rw [hoffset]; rfl)
        (by rw [hoffset]; rfl)
    rw [hkept]
  offset other hother := by
    rcases List.mem_cons.1 hother with rfl | hmem
    · rw [ReplicaBuffer.offset, (h.others other hkey).2, afterCheck_fetchOffsets, moveOffset_getD,
        hoffset]
      rfl
    · exact h.offset other hmem
  emptied other hother := by
    rcases List.mem_cons.1 hother with rfl | hmem
    · rw [(h.others other hkey).1, afterCheck_recordsCache, Function.update_self]
    · exact h.emptied other hmem
  others other hother := by
    rw [List.mem_cons, not_or] at hother
    obtain ⟨hcache, hfetch⟩ := h.others other hother.2
    rw [afterCheck_recordsCache, Function.update_of_ne hother.1] at hcache
    rw [afterCheck_fetchOffsets, moveOffset_of_ne _ _ _ hother.1] at hfetch
    exact ⟨hcache, hfetch⟩

/-- The loop checks each partition once, and keeps the largest lag. -/
theorem verifyPartitions_ok (hnodup : keys.Nodup)
    (hverify : AllVerify orders buffer responses moved keys)
    (hnow : Untouched buffer responses keys now) :
    ∃ after lines, verifyPartitions orders keys now = (.ok after, lines) ∧
      Passed buffer responses moved keys now after := by
  induction keys generalizing now with
  | nil =>
    exact ⟨now, [], rfl, rfl, fun _ h => absurd h List.not_mem_nil,
      fun _ h => absurd h List.not_mem_nil, fun _ _ => ⟨rfl, rfl⟩⟩
  | cons key keys ih =>
    rw [List.nodup_cons] at hnodup
    have hcheck := hverify key List.mem_cons_self
    obtain ⟨first, hfirst⟩ := hcheck.run now (hnow.cache key List.mem_cons_self)
      (congrFun hnow.expected key)
    obtain ⟨after, rest, hrest, hpassed⟩ := ih hnodup.2
      (fun other hother => hverify other (List.mem_cons_of_mem key hother))
      (untouched_afterCheck (moved key) hnodup.1 hnow)
    refine ⟨after, first ++ rest, ?_, ?_⟩
    · rw [verifyPartitions, hfirst]
      dsimp only
      rw [hrest]
    · have hoffset : now.offset key = buffer.offset key :=
        congrArg (·.getD 0) (hnow.offsets key List.mem_cons_self)
      exact hpassed.cons hnodup.1 hoffset

/-- The fields that `verify_checksum` resets first. -/
def ReplicaBuffer.resetLag (buffer : ReplicaBuffer) : ReplicaBuffer :=
  { buffer with maxLag := -1, offsetWithMaxLag := -1, maxLagPartition := none }

/-- All partitions are checked. -/
theorem verifyChecksum_ok (due : Bool) (hnodup : keys.Nodup)
    (hverify : AllVerify orders buffer responses moved keys)
    (hcache : ∀ key ∈ keys, buffer.recordsCache key = some (responses key)) :
    ∃ after lines, verifyChecksum orders keys due buffer = (.ok after, lines) ∧
      Passed buffer responses moved keys buffer.resetLag after := by
  have hstart : Untouched buffer responses keys buffer.resetLag := ⟨rfl, hcache, fun _ _ => rfl⟩
  obtain ⟨after, lines, hrun, hpassed⟩ := verifyPartitions_ok hnodup hverify hstart
  refine ⟨after, lines.map .ofPartition ++ maybeReportMaxLag due keys.length after, ?_, hpassed⟩
  simp only [ReplicaBuffer.resetLag] at hrun
  simp only [verifyChecksum, hrun]

end Run

/-! ## The largest lag -/

/-- The keys of the cache. -/
structure Visits (buffer : ReplicaBuffer) (keys : List TopicPartitionKey) : Prop where
  nodup : keys.Nodup
  mem_iff : ∀ key, key ∈ keys ↔ (buffer.recordsCache key).isSome

/-- The offsets are those of 64 bits. -/
structure ReplicaBuffer.InRange (buffer : ReplicaBuffer) : Prop where
  offsets : ∀ key offset, buffer.fetchOffsets key = some offset → Fits64 offset
  watermarks : ∀ key responses, buffer.recordsCache key = some responses →
    ∀ response ∈ responses.entries, Fits64 response.2.highWatermark

/-- How far the rows of the responses of a partition lead to behind its largest high watermark. -/
def LagAt (buffer : ReplicaBuffer) (key : TopicPartitionKey) (lag : Int) : Prop :=
  ∃ responses moved, buffer.recordsCache key = some responses ∧ MovesTo responses moved ∧
    lag = maxHighWatermark responses - moved.getD (buffer.offset key)

/-- No lag is too large, and one that is too small is no larger than another one, wrapped. -/
def LagsReported (buffer : ReplicaBuffer) : Prop :=
  ∀ key lag, LagAt buffer key lag → lag < 2 ^ 63 ∧
    (lag < -2 ^ 63 → ∃ other lag', LagAt buffer other lag' ∧ lag + 2 ^ 64 < lag')

/-- The largest lag is what the fields say, and the caches are empty. -/
structure LagReported (before after : ReplicaBuffer) : Prop where
  bound : ∀ key responses, before.recordsCache key = some responses →
    maxHighWatermark responses - after.offset key ≤ after.maxLag
  attained : after.maxLag ≠ -1 → ∃ key responses, before.recordsCache key = some responses ∧
    after.maxLagPartition = some key ∧ after.offsetWithMaxLag = after.offset key ∧
    after.maxLag = maxHighWatermark responses - after.offset key
  least : -1 ≤ after.maxLag
  nothing : after.maxLag = -1 → after.maxLagPartition = none ∧ after.offsetWithMaxLag = -1
  emptied : ∀ key, (before.recordsCache key).isSome → after.recordsCache key = some ∅
  others : ∀ key, before.recordsCache key = none → after.recordsCache key = none

theorem fits_maxHighWatermark {responses : FetchResponse}
    (h : ∀ response ∈ responses.entries, Fits64 response.2.highWatermark) :
    Fits64 (maxHighWatermark responses) := by
  rw [maxHighWatermark]
  cases hmax : (responses.entries.map (·.2.highWatermark)).max? with
  | none => exact ⟨by decide, by decide⟩
  | some maxHw =>
    obtain ⟨response, hmem, rfl⟩ := List.mem_map.1 (List.max?_mem hmax)
    exact h response hmem

/-- The offset to fetch next is one of 64 bits. -/
theorem fits_verifiedOffset {buffer : ReplicaBuffer} (hrange : buffer.InRange)
    {responses : FetchResponse} {moved : Option Int} (hmoves : MovesTo responses moved)
    (key : TopicPartitionKey) : Fits64 (moved.getD (buffer.offset key)) := by
  cases moved with
  | some offset =>
    obtain ⟨j, last, -, -, -, rfl⟩ := hmoves
    exact fits_wrap64 (last + 1)
  | none =>
    show Fits64 ((buffer.fetchOffsets key).getD 0)
    cases hoffset : buffer.fetchOffsets key with
    | none => exact ⟨by decide, by decide⟩
    | some offset => exact hrange.offsets key offset hoffset

section Reported

variable {orders : TopicPartitionKey → IterOrder (Int × List ParsedBatch)} {buffer : ReplicaBuffer}
  {responses : TopicPartitionKey → FetchResponse} {moved : TopicPartitionKey → Option Int}
  {keys visits : List TopicPartitionKey}

/-- The lag of a partition is that of its rows. -/
theorem lagAt_iff (hkeys : Visits buffer keys)
    (hcache : ∀ key ∈ keys, buffer.recordsCache key = some (responses key))
    (hmoves : ∀ key ∈ keys, MovesTo (responses key) (moved key)) (key : TopicPartitionKey)
    (lag : Int) : LagAt buffer key lag ↔ key ∈ keys ∧ lag = lagOf buffer responses moved key := by
  refine ⟨?_, ?_⟩
  · intro ⟨responses', moved', hsome, hmoves', hlag⟩
    have hmem : key ∈ keys := (hkeys.mem_iff key).2 (by rw [hsome]; rfl)
    obtain rfl := Option.some.inj (hsome.symm.trans (hcache key hmem))
    rw [hmoves'.unique (hmoves key hmem)] at hlag
    exact ⟨hmem, hlag⟩
  · intro ⟨hmem, hlag⟩
    exact ⟨responses key, moved key, hcache key hmem, hmoves key hmem, hlag⟩

/-- A lag is a difference of offsets. -/
theorem lagOf_bounds (hrange : buffer.InRange)
    (hcache : ∀ key ∈ keys, buffer.recordsCache key = some (responses key))
    (hmoves : ∀ key ∈ keys, MovesTo (responses key) (moved key)) {key : TopicPartitionKey}
    (hmem : key ∈ keys) : -2 ^ 64 < lagOf buffer responses moved key := by
  have hhw := fits_maxHighWatermark (hrange.watermarks key _ (hcache key hmem))
  have hoffset := fits_verifiedOffset hrange (hmoves key hmem) key
  unfold lagOf verifiedOffset
  unfold Fits64 at hhw hoffset
  omega

/-- What the loop has remembered is from before it, or it is a partition of the largest lag. -/
theorem Passed.cases {after : ReplicaBuffer}
    (h : Passed buffer responses moved visits buffer.resetLag after) :
    after.kept = (-1, none, -1) ∨ ∃ key ∈ visits, -1 < wrappedLag buffer responses moved key ∧
      after.kept = (wrappedLag buffer responses moved key, lagMark buffer moved key) := by
  rcases foldl_eq (wrappedLag buffer responses moved) (lagMark buffer moved) visits
    buffer.resetLag.kept with hsame | ⟨key, hkey, hlt, hkept⟩
  · exact .inl (h.kept.trans hsame)
  · exact .inr ⟨key, hkey, hlt, h.kept.trans hkept⟩

/-- No computed lag is larger. -/
theorem Passed.bound {after : ReplicaBuffer}
    (h : Passed buffer responses moved visits buffer.resetLag after) {key : TopicPartitionKey}
    (hkey : key ∈ visits) : wrappedLag buffer responses moved key ≤ after.maxLag := by
  have hle := value_le_foldl (wrappedLag buffer responses moved) (lagMark buffer moved) hkey
    buffer.resetLag.kept
  rw [← h.kept] at hle
  exact hle

/-- Under the condition on the lags, the largest one is reported. -/
theorem Passed.reported {after : ReplicaBuffer} (hkeys : Visits buffer keys)
    (hvisits : visits.Perm keys)
    (hcache : ∀ key ∈ keys, buffer.recordsCache key = some (responses key))
    (hlow : ∀ key ∈ keys, -2 ^ 64 < lagOf buffer responses moved key)
    (hlags : ∀ key ∈ keys, lagOf buffer responses moved key < 2 ^ 63 ∧
      (lagOf buffer responses moved key < -2 ^ 63 →
        ∃ other ∈ keys, lagOf buffer responses moved key + 2 ^ 64 <
          lagOf buffer responses moved other))
    (h : Passed buffer responses moved visits buffer.resetLag after) :
    LagReported buffer after := by
  have hmem : ∀ key responses', buffer.recordsCache key = some responses' →
      key ∈ keys ∧ responses key = responses' := fun key responses' hsome => by
    have hkey : key ∈ keys := (hkeys.mem_iff key).2 (by rw [hsome]; rfl)
    exact ⟨hkey, Option.some.inj ((hcache key hkey).symm.trans hsome)⟩
  have hoffset : ∀ key ∈ keys, after.offset key = verifiedOffset buffer moved key :=
    fun key hkey => h.offset key (hvisits.mem_iff.2 hkey)
  have hle : ∀ key ∈ keys, lagOf buffer responses moved key ≤ after.maxLag := fun key hkey =>
    (le_wrap64 (hlow key hkey) (hlags key hkey).1).trans (h.bound (hvisits.mem_iff.2 hkey))
  -- the lag that is kept is not one that came out large
  have hkept : ∀ key ∈ keys, after.maxLag = wrappedLag buffer responses moved key →
      after.maxLag = lagOf buffer responses moved key := by
    intro key hkey hlag
    obtain ⟨hhigh, hsmall⟩ := hlags key hkey
    by_cases hfits : -2 ^ 63 ≤ lagOf buffer responses moved key
    · exact hlag.trans (wrap64_of_fits ⟨hfits, hhigh⟩)
    · obtain ⟨other, hother, hlt⟩ := hsmall (not_le.1 hfits)
      rw [wrappedLag, wrap64_of_lt (hlow key hkey) (not_le.1 hfits)] at hlag
      exact absurd (hle other hother) (not_le.2 (hlag ▸ hlt))
  have hothers : ∀ key, buffer.recordsCache key = none → key ∉ visits := by
    intro key hnone hkey
    have hsome := (hkeys.mem_iff key).1 (hvisits.mem_iff.1 hkey)
    rw [hnone] at hsome
    cases hsome
  refine ⟨fun key responses' hsome => ?_, fun hne => ?_, ?_, fun hnothing => ?_,
    fun key hsome => ?_, fun key hnone => ?_⟩
  · obtain ⟨hkey, rfl⟩ := hmem key responses' hsome
    rw [hoffset key hkey]
    exact hle key hkey
  · rcases h.cases with hsame | ⟨key, hkey, -, hmark⟩
    · exact absurd (congrArg Prod.fst hsame) hne
    · have hkeys' : key ∈ keys := hvisits.mem_iff.1 hkey
      have hlag : after.maxLag = wrappedLag buffer responses moved key := congrArg Prod.fst hmark
      have hoffsetLag : after.offsetWithMaxLag = verifiedOffset buffer moved key :=
        congrArg (fun kept => kept.2.2) hmark
      refine ⟨key, responses key, hcache key hkeys', congrArg (fun kept => kept.2.1) hmark, ?_, ?_⟩
      · rw [hoffsetLag, hoffset key hkeys']
      · rw [hoffset key hkeys']
        exact hkept key hkeys' hlag
  · rcases h.cases with hsame | ⟨key, hkey, hlt, hmark⟩
    · exact (congrArg Prod.fst hsame).ge
    · exact hlt.le.trans (congrArg Prod.fst hmark).ge
  · rcases h.cases with hsame | ⟨key, hkey, hlt, hmark⟩
    · exact ⟨congrArg (fun kept => kept.2.1) hsame, congrArg (fun kept => kept.2.2) hsame⟩
    · exact absurd (hnothing.symm.trans (congrArg Prod.fst hmark)) hlt.ne
  · exact h.emptied key (hvisits.mem_iff.2 ((hkeys.mem_iff key).2 hsome))
  · exact (h.others key (hothers key hnone)).1.trans hnone

/-- A lag that comes out largest of all is kept where its partition is checked first. -/
theorem Passed.kept_of_first {key : TopicPartitionKey} {rest : List TopicPartitionKey}
    {after : ReplicaBuffer} (hlag : -1 < wrappedLag buffer responses moved key)
    (hlargest : ∀ other ∈ rest,
      wrappedLag buffer responses moved other ≤ wrappedLag buffer responses moved key)
    (h : Passed buffer responses moved (key :: rest) buffer.resetLag after) :
    after.kept = (wrappedLag buffer responses moved key, lagMark buffer moved key) := by
  have hfirst : buffer.resetLag.kept.1 < wrappedLag buffer responses moved key := hlag
  rw [h.kept, List.foldl_cons, note_of_lt hfirst]
  exact foldl_of_le _ _ hlargest

/-- A lag that is too small comes out larger than it is, and is reported if it is the largest. -/
theorem Passed.not_reported {key : TopicPartitionKey} {rest : List TopicPartitionKey}
    {after : ReplicaBuffer}
    (hcache : buffer.recordsCache key = some (responses key))
    (hlow : -2 ^ 64 < lagOf buffer responses moved key)
    (hsmall : lagOf buffer responses moved key < -2 ^ 63)
    (hlargest : ∀ other ∈ rest,
      wrappedLag buffer responses moved other ≤ wrappedLag buffer responses moved key)
    (h : Passed buffer responses moved (key :: rest) buffer.resetLag after) :
    ¬ LagReported buffer after := by
  intro hreported
  have hwrapped : wrappedLag buffer responses moved key =
      lagOf buffer responses moved key + 2 ^ 64 := wrap64_of_lt hlow hsmall
  have hkept := h.kept_of_first (by omega) hlargest
  have hlag : after.maxLag = wrappedLag buffer responses moved key := congrArg Prod.fst hkept
  obtain ⟨other, responses', hsome, hpartition, -, hdifference⟩ := hreported.attained (by omega)
  have hmark : after.maxLagPartition = some key := congrArg (fun kept => kept.2.1) hkept
  obtain rfl := Option.some.inj (hmark.symm.trans hpartition)
  obtain rfl := Option.some.inj (hcache.symm.trans hsome)
  rw [h.offset key List.mem_cons_self] at hdifference
  have htrue : after.maxLag = lagOf buffer responses moved key := hdifference
  omega

/-- What is reported is a number of 64 bits, so that no lag is too large. -/
theorem Passed.lag_lt {after : ReplicaBuffer} (hreported : LagReported buffer after)
    (h : Passed buffer responses moved visits buffer.resetLag after) {key : TopicPartitionKey}
    (hkey : key ∈ visits) (hcache : buffer.recordsCache key = some (responses key)) :
    lagOf buffer responses moved key < 2 ^ 63 := by
  have hbound := hreported.bound key (responses key) hcache
  rw [h.offset key hkey] at hbound
  have hle : lagOf buffer responses moved key ≤ after.maxLag := hbound
  rcases h.cases with hsame | ⟨other, -, -, hmark⟩
  · have hlag : after.maxLag = -1 := congrArg Prod.fst hsame
    omega
  · have hlag : after.maxLag = wrappedLag buffer responses moved other := congrArg Prod.fst hmark
    have hfits := (fits_wrap64 (lagOf buffer responses moved other)).2
    rw [wrappedLag] at hlag
    omega

/-- A lag that is too small, with no larger one beyond what it comes out as, comes with one that
comes out largest of all. -/
theorem exists_largest
    (hlow : ∀ key ∈ keys, -2 ^ 64 < lagOf buffer responses moved key)
    (hhigh : ∀ key ∈ keys, lagOf buffer responses moved key < 2 ^ 63) {key : TopicPartitionKey}
    (hkey : key ∈ keys) (hsmall : lagOf buffer responses moved key < -2 ^ 63)
    (hnone : ∀ other ∈ keys,
      lagOf buffer responses moved other ≤ lagOf buffer responses moved key + 2 ^ 64) :
    ∃ top ∈ keys, lagOf buffer responses moved top < -2 ^ 63 ∧ ∀ other ∈ keys,
      wrappedLag buffer responses moved other ≤ wrappedLag buffer responses moved top := by
  obtain ⟨top, htop, hlargest⟩ := Finset.exists_max_image keys.toFinset
    (wrappedLag buffer responses moved) ⟨key, List.mem_toFinset.2 hkey⟩
  simp only [List.mem_toFinset] at htop hlargest
  by_cases hfits : -2 ^ 63 ≤ lagOf buffer responses moved top
  · -- the largest is a lag that fits, no larger than what the small one comes out as
    refine ⟨key, hkey, hsmall, fun other hother => (hlargest other hother).trans ?_⟩
    rw [wrappedLag, wrap64_of_fits ⟨hfits, hhigh top htop⟩, wrappedLag,
      wrap64_of_lt (hlow key hkey) hsmall]
    exact hnone top htop
  · exact ⟨top, htop, not_le.1 hfits, hlargest⟩

end Reported

/-- **When the largest lag is reported**, whatever the order of the partitions. -/
theorem lagReported_iff (orders : TopicPartitionKey → IterOrder (Int × List ParsedBatch))
    (due : Bool) (buffer : ReplicaBuffer) (keys : List TopicPartitionKey)
    (hkeys : Visits buffer keys) (hrange : buffer.InRange)
    (hverify : ∀ key ∈ keys, ∃ after lines,
      verifyPartition (orders key) buffer key = (.ok after, lines)) :
    (∀ visits, visits.Perm keys → ∃ after lines,
      verifyChecksum orders visits due buffer = (.ok after, lines) ∧ LagReported buffer after) ↔
      LagsReported buffer := by
  have hcached : ∀ key ∈ keys, ∃ responses, buffer.recordsCache key = some responses :=
    fun key hkey => Option.isSome_iff_exists.1 ((hkeys.mem_iff key).1 hkey)
  have hchecks : ∀ key, ∃ responses moved, key ∈ keys →
      buffer.recordsCache key = some responses ∧
        Verifies (orders key) (buffer.expectedReplicas key) key responses moved := by
    intro key
    by_cases hkey : key ∈ keys
    · obtain ⟨responses, hresponses⟩ := hcached key hkey
      obtain ⟨after, lines, hrun⟩ := hverify key hkey
      obtain ⟨moved, hmoved⟩ := verifies_of_ok hresponses hrun
      exact ⟨responses, moved, fun _ => ⟨hresponses, hmoved⟩⟩
    · exact ⟨∅, none, fun h => absurd h hkey⟩
  choose responses moved hcheck using hchecks
  have hcache := fun key hkey => (hcheck key hkey).1
  have hmoves := fun key hkey => (hcheck key hkey).2.moves
  have hlow : ∀ key ∈ keys, -2 ^ 64 < lagOf buffer responses moved key := fun _ hkey =>
    lagOf_bounds hrange hcache hmoves hkey
  have hrun : ∀ visits, visits.Perm keys → ∃ after lines,
      verifyChecksum orders visits due buffer = (.ok after, lines) ∧
        Passed buffer responses moved visits buffer.resetLag after := fun visits hvisits =>
    verifyChecksum_ok due (hvisits.nodup_iff.2 hkeys.nodup)
      (fun key hkey => (hcheck key (hvisits.mem_iff.1 hkey)).2)
      fun key hkey => hcache key (hvisits.mem_iff.1 hkey)
  unfold LagsReported
  simp only [lagAt_iff hkeys hcache hmoves]
  refine ⟨fun hall key lag hlag => ?_, fun hlags visits hvisits => ?_⟩
  · obtain ⟨hkey, rfl⟩ := hlag
    have hhigh : ∀ other ∈ keys, lagOf buffer responses moved other < 2 ^ 63 := by
      intro other hother
      obtain ⟨after, lines, hafter, hreported⟩ := hall keys (.refl keys)
      obtain ⟨after', lines', hafter', hpassed⟩ := hrun keys (.refl keys)
      cases hafter.symm.trans hafter'
      exact hpassed.lag_lt hreported hother (hcache other hother)
    refine ⟨hhigh key hkey, fun hsmall => ?_⟩
    by_contra hnone
    obtain ⟨top, htop, hsmall', hlargest⟩ := exists_largest hlow hhigh hkey hsmall
      fun other hother => not_lt.1 fun hlt => hnone ⟨other, _, ⟨hother, rfl⟩, hlt⟩
    -- its partition may be the first one
    have hperm : (top :: keys.erase top).Perm keys := (List.perm_cons_erase htop).symm
    obtain ⟨after, lines, hafter, hreported⟩ := hall _ hperm
    obtain ⟨after', lines', hafter', hpassed⟩ := hrun _ hperm
    cases hafter.symm.trans hafter'
    exact hpassed.not_reported (hcache top htop) (hlow top htop) hsmall'
      (fun other hother => hlargest other (List.mem_of_mem_erase hother)) hreported
  · obtain ⟨after, lines, hafter, hpassed⟩ := hrun visits hvisits
    refine ⟨after, lines, hafter, hpassed.reported hkeys hvisits hcache hlow fun key hkey => ?_⟩
    obtain ⟨hhigh, hsmall⟩ := hlags key _ ⟨hkey, rfl⟩
    refine ⟨hhigh, fun hlt => ?_⟩
    obtain ⟨other, lag', ⟨hother, rfl⟩, hlarger⟩ := hsmall hlt
    exact ⟨other, hother, hlarger⟩

/-- A buffer with one partition. -/
def singleBuffer (expected : Nat) (fetchOffset : Int) (responses : FetchResponse) :
    ReplicaBuffer where
  expectedReplicas := fun _ => some expected
  fetchOffsets := fun _ => some fetchOffset
  recordsCache := fun key => if key = sampleKey then some responses else none
  maxLag := -1
  offsetWithMaxLag := -1
  maxLagPartition := none

theorem singleBuffer_visits (expected : Nat) (fetchOffset : Int) (responses : FetchResponse) :
    Visits (singleBuffer expected fetchOffset responses) [sampleKey] where
  nodup := List.nodup_singleton _
  mem_iff key := by
    rw [List.mem_singleton, singleBuffer]
    by_cases h : key = sampleKey <;> simp [h]

theorem lagReported_iff_sample :
    (∀ visits, visits.Perm [sampleKey] → ∃ after lines,
      verifyChecksum (fun _ => .id _) visits true (singleBuffer 2 0 sampleResponses) =
        (.ok after, lines) ∧ LagReported (singleBuffer 2 0 sampleResponses) after) ↔
      LagsReported (singleBuffer 2 0 sampleResponses) := by
  refine lagReported_iff (fun _ => .id _) true (singleBuffer 2 0 sampleResponses) [sampleKey]
    (singleBuffer_visits 2 0 sampleResponses) ⟨?_, ?_⟩ ?_
  · intro key offset hoffset
    cases hoffset
    exact ⟨by decide, by decide⟩
  · intro key responses hsome
    simp only [singleBuffer, Option.ite_none_right_eq_some, Option.some.injEq] at hsome
    obtain ⟨-, rfl⟩ := hsome
    exact List.forall_mem_cons.2 ⟨⟨by decide, by decide⟩,
      List.forall_mem_singleton.2 ⟨by decide, by decide⟩⟩
  · intro key hkey
    rw [List.mem_singleton.1 hkey]
    obtain ⟨moved, hverifies⟩ := verifies_of_ok rfl verifyPartition_sample
    obtain ⟨lines, hrun⟩ := hverifies.run (singleBuffer 2 0 sampleResponses) rfl rfl
    exact ⟨_, lines, hrun⟩

/-- One replica without records, whose high watermark is the largest number. -/
def emptyResponses : FetchResponse := ⟨[⟨1, 2 ^ 63 - 1, []⟩], List.nodupKeys_singleton _⟩

theorem parse_nil : parseRecordBatches [] = .ok [] := by
  rw [parseRecordBatches, parseRecordBatchesFrom, if_neg (by decide)]

theorem verifyPartition_empty : ∃ after lines,
    verifyPartition (.id _) (singleBuffer 1 (-1) emptyResponses) sampleKey =
      (.ok after, lines) := by
  have hparsed : parseResponses emptyResponses.entries = .ok [(1, [])] := by
    simp only [emptyResponses, parseResponses, parse_nil]
    rfl
  have hscan : scan none (row (lanes (watermarks emptyResponses)
      (startCursors (.id _) [(1, [])])) 0) = .missing := by decide
  have hk : FullPrefix (lanes (watermarks emptyResponses) (startCursors (.id _) [(1, [])])) 0 :=
    fullPrefix_iff_scan.2 ⟨fun i hi => absurd hi (Nat.not_lt_zero i), by simp [hscan]⟩
  have hstopped : scan none (row (lanes (watermarks emptyResponses)
      (startCursors (.id _) [(1, [])])) 0) ≠ .conflict := by
    rw [hscan]
    simp
  rw [verifyPartition_eq rfl rfl hparsed, verifyRows_startCursors hk, walkEnd_eq_stopped hstopped]
  exact ⟨_, _, rfl⟩

theorem movesTo_empty : MovesTo emptyResponses none := by
  intro ⟨_, offset, hrow⟩
  obtain ⟨batches, batch, hok, hget, -⟩ := hrow _ List.mem_cons_self
  obtain rfl := Except.ok.inj (parse_nil.symm.trans hok)
  cases hget

/-- A lag of `2 ^ 63` is reported as none. -/
theorem lagReported_fails : ∃ after lines,
    verifyChecksum (fun _ => .id _) [sampleKey] false (singleBuffer 1 (-1) emptyResponses) =
        (.ok after, lines) ∧
      after.maxLag = -1 ∧ after.offset sampleKey = -1 ∧
      ¬ LagReported (singleBuffer 1 (-1) emptyResponses) after := by
  obtain ⟨first, _, hrun⟩ := verifyPartition_empty
  obtain ⟨moved, hverifies⟩ := verifies_of_ok rfl hrun
  obtain rfl := hverifies.moves.unique movesTo_empty
  have hall : AllVerify (fun _ => .id _) (singleBuffer 1 (-1) emptyResponses)
      (fun _ => emptyResponses) (fun _ => none) [sampleKey] :=
    List.forall_mem_singleton.2 hverifies
  obtain ⟨after, lines, hafter, hpassed⟩ := verifyChecksum_ok false (List.nodup_singleton _) hall
    (List.forall_mem_singleton.2 rfl)
  have hkept : after.kept = (-1, none, -1) :=
    hpassed.kept.trans (foldl_of_le _ _ (List.forall_mem_singleton.2 (by decide)))
  have hlag : after.maxLag = -1 := congrArg Prod.fst hkept
  have hoffset : after.offset sampleKey = -1 := hpassed.offset sampleKey List.mem_cons_self
  refine ⟨after, lines, hafter, hlag, hoffset, fun hreported => ?_⟩
  have hbound := hreported.bound sampleKey emptyResponses rfl
  have hhw : maxHighWatermark emptyResponses = 2 ^ 63 - 1 := by decide
  rw [hlag, hoffset, hhw] at hbound
  omega

end KafkaCli.Replica
