import KafkaCli.DumpLog.OffsetIndex
import KafkaCli.DumpLog.ProducerSnapshot
import KafkaCli.Lib.Wire

/-!
# Dumping the other indices

A time index and a transaction index hold entries of a fixed size, as an offset index does.
`dump_time_index` and `dump_txnindex` print a line for each. A time index may be preallocated, and
its dump ends at an entry of zeros behind the first one.

**Theorem (`index_dumps_faithful`).** Of all three indices the dump prints the entries that were
written, of which there is at least one, and nothing of the padding. Two indices with the same
lines hold the same entries, so no dump loses anything.
-/

namespace KafkaCli.DumpLog

open Run Wire

/-! ## The time index -/

/-- An entry of a time index. -/
structure TimeEntry where
  timestamp : Int
  relative : Int
  deriving DecidableEq, Repr

/-- The entry of twelve bytes. -/
def TimeEntry.ofChunk (chunk : List UInt8) : TimeEntry where
  timestamp := signedBe (slice chunk 0 8)
  relative := signedBe (slice chunk 8 12)

def timeEntries (data : List UInt8) : List TimeEntry :=
  (chunksExact 12 data).map TimeEntry.ofChunk

/-- The timestamp in front of the first entry. -/
def noTimestamp : Int := -2 ^ 63

/-- The offset of an entry. -/
def TimeEntry.offset (base : Int) (entry : TimeEntry) : Int := wrap64 (base + entry.relative)

def timeEntryLine (base : Int) (entry : TimeEntry) : String :=
  s!"timestamp: {entry.timestamp} offset: {entry.offset base}"

/-- The dump ends at this entry. -/
def TimeEntry.EndsAt (prevTs : Int) (entry : TimeEntry) : Prop :=
  entry.timestamp = 0 ∧ entry.relative = 0 ∧ prevTs ≠ noTimestamp

instance (prevTs : Int) (entry : TimeEntry) : Decidable (entry.EndsAt prevTs) :=
  inferInstanceAs (Decidable (_ ∧ _ ∧ _))

/-- A timestamp before the one in front of it is told on the standard error. -/
def warnOutOfOrder (path : String) (prevTs timestamp : Int) : SnapshotDump Unit :=
  if timestamp < prevTs then
    printErr s!"Out of order timestamp in {path}: {timestamp} after {prevTs}"
  else pure ()

/-- An entry is printed unless entries are only verified. -/
def showEntry (verifyOnly : Bool) (line : String) : SnapshotDump Unit :=
  if verifyOnly then pure () else printOut line

/-- The loop over the entries. -/
def dumpTimeEntries (verifyOnly : Bool) (path : String) (base : Int) :
    (prevTs : Int) → List TimeEntry → SnapshotDump Unit
  | _, [] => pure ()
  | prevTs, entry :: entries =>
    if entry.EndsAt prevTs then pure ()
    else do
      warnOutOfOrder path prevTs entry.timestamp
      showEntry verifyOnly (timeEntryLine base entry)
      dumpTimeEntries verifyOnly path base entry.timestamp entries

/-- `dump_time_index`, given what the file holds. -/
def dumpTimeIndex (sanityOnly verifyOnly : Bool) (path name : String)
    (file : Except String (List UInt8)) : SnapshotDump Unit := do
  let base ← ofExcept (baseOffsetFromName path name)
  let data ← ofExcept (file.mapError Error.io)
  if data = [] then printOut s!"{path} is empty."
  else if data.length % 12 ≠ 0 then
    let length := data.length
    throw (.config s!"corrupt time index {path}: length {length} is not a multiple of 12")
  else if sanityOnly then printOut s!"{path} passed sanity check."
  else dumpTimeEntries verifyOnly path base noTimestamp (timeEntries data)

/-! ## The transaction index -/

/-- An aborted transaction. -/
structure AbortedTxn where
  version : Int
  producerId : Int
  firstOffset : Int
  lastOffset : Int
  lastStableOffset : Int
  deriving DecidableEq, Repr

/-- `ABORTED_TXN_RECORD_SIZE`. -/
def abortedTxnRecordSize : Nat := 2 + 8 * 4

/-- The transaction of so many bytes. -/
def AbortedTxn.ofChunk (chunk : List UInt8) : AbortedTxn where
  version := signedBe (slice chunk 0 2)
  producerId := signedBe (slice chunk 2 10)
  firstOffset := signedBe (slice chunk 10 18)
  lastOffset := signedBe (slice chunk 18 26)
  lastStableOffset := signedBe (slice chunk 26 34)

def abortedTxns (data : List UInt8) : List AbortedTxn :=
  (chunksExact abortedTxnRecordSize data).map AbortedTxn.ofChunk

def abortedTxnLine (txn : AbortedTxn) : String :=
  s!"version: {txn.version} producerId: {txn.producerId} firstOffset: {txn.firstOffset}" ++
    s!" lastOffset: {txn.lastOffset} lastStableOffset: {txn.lastStableOffset}"

/-- One transaction of the loop. -/
def dumpAbortedTxn (path : String) (txn : AbortedTxn) : SnapshotDump Unit :=
  let version := txn.version
  if version ≠ 0 then
    throw (.config s!"unexpected aborted transaction version {version} in {path}")
  else printOut (abortedTxnLine txn)

/-- The line in front of the transactions. -/
def txnIndexLine (base : Int) (count : Nat) : String :=
  s!"Transaction index starting offset: {base} ({count} entries)"

/-- The offset in the name of a transaction index, 0 for none. -/
def txnIndexBase (path name : String) : Int :=
  match baseOffsetFromName path name with
  | .ok base => base
  | .error _ => 0

/-- `dump_txnindex`, given what the file holds. -/
def dumpTxnindex (path name : String) (file : Except String (List UInt8)) : SnapshotDump Unit := do
  let data ← ofExcept (file.mapError Error.io)
  let length := data.length
  if data = [] then printOut s!"{path} is empty."
  else if length % abortedTxnRecordSize ≠ 0 then
    throw (.config (s!"corrupt txnindex {path}: length {length} is not a multiple of " ++
      s!"{abortedTxnRecordSize}"))
  else
    printOut (txnIndexLine (txnIndexBase path name) (length / abortedTxnRecordSize))
    (abortedTxns data).forM (dumpAbortedTxn path)

/-! ## Entries of a fixed size -/

section Chunks

variable {size : Nat}

theorem chunksExact_append {chunk : List UInt8} (hlength : chunk.length = size) (hpos : 0 < size)
    (rest : List UInt8) : chunksExact size (chunk ++ rest) = chunk :: chunksExact size rest := by
  have hcount : (chunk ++ rest).length / size = rest.length / size + 1 := by
    rw [List.length_append, hlength, Nat.add_comm, Nat.add_div_right _ hpos]
  rw [chunksExact, hcount, List.range_succ_eq_map, List.map_cons, List.map_map, chunksExact]
  congr 1
  · simp [slice, hlength]
  · refine List.map_congr_left fun i _ => ?_
    have hdrop : size * (i + 1) = chunk.length + size * i := by
      rw [hlength, Nat.mul_succ, Nat.add_comm]
    simp only [Function.comp_apply, slice, hdrop, List.drop_append, Nat.add_sub_cancel_left]
    rw [List.drop_eq_nil_of_le (Nat.le_add_right _ _), List.nil_append]

theorem chunksExact_flatMap {ε : Type} {encode : ε → List UInt8} (hpos : 0 < size)
    (hlength : ∀ entry, (encode entry).length = size) (entries : List ε) (rest : List UInt8) :
    chunksExact size (entries.flatMap encode ++ rest) =
      entries.map encode ++ chunksExact size rest := by
  induction entries with
  | nil => rfl
  | cons entry entries ih =>
    rw [List.flatMap_cons, List.append_assoc, chunksExact_append (hlength entry) hpos, ih,
      List.map_cons, List.cons_append]

theorem chunksExact_zeros (hpos : 0 < size) (count : Nat) :
    chunksExact size (List.replicate (size * count) 0) =
      List.replicate count (List.replicate size 0) := by
  induction count with
  | zero => simp [chunksExact]
  | succ count ih =>
    rw [Nat.mul_succ, Nat.add_comm, List.replicate_add, chunksExact_append (by simp) hpos, ih,
      List.replicate_succ]

theorem length_of_mem_chunksExact {data chunk : List UInt8} (h : chunk ∈ chunksExact size data) :
    chunk.length = size := by
  obtain ⟨i, hi, rfl⟩ := List.mem_map.1 h
  have hlow : size * (i + 1) ≤ data.length :=
    (Nat.mul_le_mul_left size (List.mem_range.1 hi)).trans (Nat.mul_div_le data.length size)
  rw [slice, List.length_take, List.length_drop]
  rw [Nat.mul_succ] at hlow
  omega

theorem chunksExact_ne_nil {data : List UInt8} (hpos : 0 < size) (hne : data ≠ [])
    (hlength : data.length % size = 0) : chunksExact size data ≠ [] := by
  have hdata : 0 < data.length := List.length_pos_of_ne_nil hne
  have hcount : 0 < data.length / size :=
    Nat.div_pos (Nat.le_of_dvd hdata (Nat.dvd_of_mod_eq_zero hlength)) hpos
  rw [chunksExact, ne_eq, List.map_eq_nil_iff, List.range_eq_nil]
  omega

end Chunks

/-! ## What the writers write -/

def IndexEntry.encode (entry : IndexEntry) : List UInt8 :=
  intBe 4 entry.relative ++ intBe 4 entry.position

def TimeEntry.encode (entry : TimeEntry) : List UInt8 :=
  intBe 8 entry.timestamp ++ intBe 4 entry.relative

def AbortedTxn.encode (txn : AbortedTxn) : List UInt8 :=
  intBe 2 txn.version ++ (intBe 8 txn.producerId ++ (intBe 8 txn.firstOffset ++
    (intBe 8 txn.lastOffset ++ intBe 8 txn.lastStableOffset)))

/-- The number is in the range of a signed 32-bit integer. -/
def Fits32 (x : Int) : Prop := -2 ^ 31 ≤ x ∧ x < 2 ^ 31

/-- The entries of an offset index: no relative offset behind the first one is 0. -/
structure HeldOffsets (entries : List IndexEntry) : Prop where
  nonempty : entries ≠ []
  fits : ∀ entry ∈ entries, Fits32 entry.relative ∧ Fits32 entry.position
  tail : ∀ entry ∈ entries.tail, entry.relative ≠ 0

/-- The entries of a time index: none behind the first one is all zero. -/
structure HeldTimes (entries : List TimeEntry) : Prop where
  nonempty : entries ≠ []
  fits : ∀ entry ∈ entries, Fits64 entry.timestamp ∧ Fits32 entry.relative
  timestamps : ∀ entry ∈ entries, entry.timestamp ≠ noTimestamp
  tail : ∀ entry ∈ entries.tail, ¬ (entry.timestamp = 0 ∧ entry.relative = 0)

/-- The transactions of a transaction index. -/
structure HeldTxns (txns : List AbortedTxn) : Prop where
  nonempty : txns ≠ []
  version : ∀ txn ∈ txns, txn.version = 0
  fits : ∀ txn ∈ txns, Fits64 txn.producerId ∧ Fits64 txn.firstOffset ∧ Fits64 txn.lastOffset ∧
    Fits64 txn.lastStableOffset

section Encode

theorem signedBe_intBe_four {x : Int} (h : Fits32 x) : signedBe (intBe 4 x) = x := by
  rw [signedBe_intBe]
  obtain ⟨hlow, hhigh⟩ := h
  exact Int.bmod_eq_of_le (by omega) (by omega)

theorem signedBe_intBe_eight {x : Int} (h : Fits64 x) : signedBe (intBe 8 x) = x := by
  rw [signedBe_intBe]
  exact wrap64_of_fits h

theorem IndexEntry.length_encode (entry : IndexEntry) : entry.encode.length = 8 := by
  simp [encode]

theorem TimeEntry.length_encode (entry : TimeEntry) : entry.encode.length = 12 := by
  simp [encode]

theorem AbortedTxn.length_encode (txn : AbortedTxn) :
    txn.encode.length = abortedTxnRecordSize := by
  simp [encode, abortedTxnRecordSize]

theorem IndexEntry.ofChunk_encode {entry : IndexEntry} (hrelative : Fits32 entry.relative)
    (hposition : Fits32 entry.position) : ofChunk entry.encode = entry := by
  have hfirst : slice entry.encode 0 4 = intBe 4 entry.relative := by
    simp [encode, slice]
  have hsecond : slice entry.encode 4 8 = intBe 4 entry.position := by
    simp [encode, slice]
  rw [ofChunk, hfirst, hsecond, signedBe_intBe_four hrelative, signedBe_intBe_four hposition]

theorem TimeEntry.ofChunk_encode {entry : TimeEntry} (htimestamp : Fits64 entry.timestamp)
    (hrelative : Fits32 entry.relative) : ofChunk entry.encode = entry := by
  have hfirst : slice entry.encode 0 8 = intBe 8 entry.timestamp := by
    simp [encode, slice]
  have hsecond : slice entry.encode 8 12 = intBe 4 entry.relative := by
    simp [encode, slice]
  rw [ofChunk, hfirst, hsecond, signedBe_intBe_eight htimestamp, signedBe_intBe_four hrelative]

theorem AbortedTxn.ofChunk_encode {txn : AbortedTxn} (hversion : txn.version = 0)
    (hfits : Fits64 txn.producerId ∧ Fits64 txn.firstOffset ∧ Fits64 txn.lastOffset ∧
      Fits64 txn.lastStableOffset) : ofChunk txn.encode = txn := by
  obtain ⟨hproducer, hfirst, hlast, hstable⟩ := hfits
  have hslices : slice txn.encode 0 2 = intBe 2 txn.version ∧
      slice txn.encode 2 10 = intBe 8 txn.producerId ∧
      slice txn.encode 10 18 = intBe 8 txn.firstOffset ∧
      slice txn.encode 18 26 = intBe 8 txn.lastOffset ∧
      slice txn.encode 26 34 = intBe 8 txn.lastStableOffset := by
    simp [encode, slice, List.drop_append, List.drop_eq_nil_of_le]
  obtain ⟨h₀, h₁, h₂, h₃, h₄⟩ := hslices
  have hzero : signedBe (intBe 2 txn.version) = txn.version := by
    rw [hversion]
    decide
  rw [ofChunk, h₀, h₁, h₂, h₃, h₄, hzero, signedBe_intBe_eight hproducer,
    signedBe_intBe_eight hfirst, signedBe_intBe_eight hlast, signedBe_intBe_eight hstable]

end Encode

/-! ## What is printed -/

/-- The lines of a dump that returns. -/
def printed {σ : Type} (out : σ → List String) : EStateM.Result Error σ Unit → Option (List String)
  | .ok _ state => some (out state)
  | .error _ _ => none

theorem printed_eq_some {σ : Type} {out : σ → List String} {result : EStateM.Result Error σ Unit}
    {lines : List String} :
    printed out result = some lines ↔ ∃ state, result = .ok () state ∧ out state = lines := by
  cases result with
  | ok _ state => simp [printed]
  | error error state => simp [printed]

/-- The entries of a time index that are printed, behind a timestamp. -/
def shownTimes : (prevTs : Int) → List TimeEntry → List TimeEntry
  | _, [] => []
  | prevTs, entry :: entries =>
    if entry.EndsAt prevTs then [] else entry :: shownTimes entry.timestamp entries

theorem run_warnOutOfOrder (path : String) (prevTs timestamp : Int) (state : SnapshotState) :
    ∃ err, (warnOutOfOrder path prevTs timestamp).run state = .ok () { state with err } := by
  unfold warnOutOfOrder
  split_ifs
  · exact ⟨_, rfl⟩
  · exact ⟨state.err, rfl⟩

theorem run_dumpTimeEntries (path : String) (base prevTs : Int) (entries : List TimeEntry)
    (state : SnapshotState) : ∃ err,
      (dumpTimeEntries false path base prevTs entries).run state =
        .ok () ⟨state.out ++ (shownTimes prevTs entries).map (timeEntryLine base), err⟩ := by
  induction entries generalizing prevTs state with
  | nil => exact ⟨state.err, by simp [shownTimes, dumpTimeEntries]⟩
  | cons entry entries ih =>
    rw [dumpTimeEntries, shownTimes]
    by_cases hend : entry.EndsAt prevTs
    · rw [if_pos hend, if_pos hend]
      exact ⟨state.err, by simp⟩
    · rw [if_neg hend, if_neg hend]
      obtain ⟨warned, hwarn⟩ := run_warnOutOfOrder path prevTs entry.timestamp state
      obtain ⟨err, hrest⟩ := ih entry.timestamp ⟨state.out ++ [timeEntryLine base entry], warned⟩
      refine ⟨err, (bind_of_ok hwarn _).trans ((bind_of_ok (run_printOut _ _) _).trans ?_)⟩
      rw [hrest, List.map_cons, List.append_assoc, List.singleton_append]

theorem run_dumpAbortedTxn_eq_ok {path : String} {txn : AbortedTxn}
    {state state' : SnapshotState} : (dumpAbortedTxn path txn).run state = .ok () state' ↔
      txn.version = 0 ∧ state' = { state with out := state.out ++ [abortedTxnLine txn] } := by
  rw [dumpAbortedTxn]
  by_cases hversion : txn.version = 0
  · simp [hversion, run_printOut, eq_comm]
  · simp [hversion]

/-- The dump prints all transactions, if all are of a version that it knows. -/
theorem run_dumpAbortedTxns_eq_ok {path : String} {txns : List AbortedTxn}
    {state state' : SnapshotState} : (txns.forM (dumpAbortedTxn path)).run state = .ok () state' ↔
      (∀ txn ∈ txns, txn.version = 0) ∧
        state' = { state with out := state.out ++ txns.map abortedTxnLine } := by
  induction txns generalizing state with
  | nil => simp [eq_comm]
  | cons txn txns ih =>
    change (forM (txn :: txns) (dumpAbortedTxn path)).run state = .ok () state' ↔ _
    rw [forM_cons_eq_ok, List.forall_mem_cons, List.map_cons]
    constructor
    · rintro ⟨next, hfirst, hrest⟩
      obtain ⟨hversion, rfl⟩ := run_dumpAbortedTxn_eq_ok.1 hfirst
      obtain ⟨hversions, rfl⟩ := ih.1 hrest
      exact ⟨⟨hversion, hversions⟩, by simp⟩
    · rintro ⟨⟨hversion, hversions⟩, rfl⟩
      exact ⟨_, run_dumpAbortedTxn_eq_ok.2 ⟨hversion, rfl⟩, ih.2 ⟨hversions, by simp⟩⟩

/-! ## The formats -/

/-- An index with entries of a fixed size, and the dump of it. -/
structure IndexFormat (ε : Type) where
  size : Nat
  encode : ε → List UInt8
  /-- The entries of a file, without what follows them. -/
  entries : List UInt8 → List ε
  /-- The lines in front of the entries. -/
  front : (base : Int) → (count : Nat) → List String
  line : (base : Int) → ε → String
  /-- What is printed of a file. -/
  dump : (path name : String) → List UInt8 → Option (List String)

/-- The offset index, dumped beside a log. -/
def offsetIndex (maxMessageSize : Int) (log : Option (List UInt8)) : IndexFormat IndexEntry where
  size := 8
  encode := IndexEntry.encode
  entries data := logicalEntries (indexEntries data)
  front _ _ := []
  line := entryLine
  dump path name data := printed IndexState.out ((dumpOffsetIndex
    { sanityOnly := false, verifyOnly := false, maxMessageSize } path name (.ok data)
    (.ok log)).run { mismatches := ∅, out := [] })

def timeIndex : IndexFormat TimeEntry where
  size := 12
  encode := TimeEntry.encode
  entries data := shownTimes noTimestamp (timeEntries data)
  front _ _ := []
  line := timeEntryLine
  dump path name data := printed SnapshotState.out
    ((dumpTimeIndex false false path name (.ok data)).run ⟨[], []⟩)

def transactionIndex : IndexFormat AbortedTxn where
  size := abortedTxnRecordSize
  encode := AbortedTxn.encode
  entries := abortedTxns
  front base count := [txnIndexLine base count]
  line _ := abortedTxnLine
  dump path name data := printed SnapshotState.out
    ((dumpTxnindex path name (.ok data)).run ⟨[], []⟩)

/-- Files of one name with the same lines hold the same entries. -/
def IndexFormat.Lossless {ε : Type} (format : IndexFormat ε) : Prop :=
  ∀ path name data data' lines, format.dump path name data = some lines →
    format.dump path name data' = some lines → format.entries data = format.entries data'

/-! ## Lines tell entries -/

/-- The line of an empty file is no line of an entry. -/
theorem emptyLine_ne (path front : String) (n : Int) :
    s!"{path} is empty." ≠ front ++ toString n := by
  intro h
  have hlast := congrArg (fun s : String => s.toList.getLast?) h
  obtain ⟨c, hc⟩ : ∃ c, (toString n).toList.getLast? = some c :=
    ⟨_, List.getLast?_eq_some_getLast (Decimal.toList_toString_ne_nil n)⟩
  have hdot : (toString " is empty.").toList.getLast? = some '.' := by decide
  simp only [String.toList_append, List.getLast?_append, hdot, hc, Option.some_or] at hlast
  obtain rfl := Option.some.inj hlast
  have hnumeral := Decimal.isDigit_of_mem_toString (List.mem_of_getLast? hc)
  exact absurd hnumeral (by decide)

section Lines

variable {base : Int}

theorem wrap64_add_inj {r r' : Int} (hr : Fits32 r) (hr' : Fits32 r')
    (h : wrap64 (base + r) = wrap64 (base + r')) : r = r' := by
  have hmod := congrArg (· % (2 ^ 64 : Int)) h
  have hbmod : ∀ x : Int, wrap64 x % 2 ^ 64 = x % 2 ^ 64 := fun x => Int.bmod_emod
  simp only [hbmod] at hmod
  obtain ⟨hlow, hhigh⟩ := hr
  obtain ⟨hlow', hhigh'⟩ := hr'
  omega

theorem delimits_label {label : String} (h : label.toList.head? = some ' ') (s : String) :
    Decimal.Delimits (label ++ s) := by
  intro c hc
  rw [Text.head?_append h] at hc
  cases hc
  decide

/-- A number behind a label, and another label behind it. -/
theorem field_inj {label label' s t : String} {n m : Int}
    (hlabel : label'.toList.head? = some ' ')
    (h : label ++ (toString n ++ (label' ++ s)) = label ++ (toString m ++ (label' ++ t))) :
    n = m ∧ label' ++ s = label' ++ t := by
  have hlist := congrArg String.toList h
  rw [String.toList_append, String.toList_append (t := toString m ++ _),
    List.append_cancel_left_eq, String.toList_inj] at hlist
  exact Decimal.toString_append_inj (delimits_label hlabel s) (delimits_label hlabel t) hlist

theorem lastField_inj {label : String} {n m : Int}
    (h : label ++ toString n = label ++ toString m) : n = m := by
  have hlist := congrArg String.toList h
  rw [String.toList_append, String.toList_append, List.append_cancel_left_eq,
    String.toList_inj] at hlist
  exact Decimal.toString_injective hlist

theorem entryLine_inj {entry entry' : IndexEntry} (hfits : Fits32 entry.relative)
    (hfits' : Fits32 entry'.relative) (h : entryLine base entry = entryLine base entry') :
    entry = entry' := by
  simp only [entryLine, String.append_assoc] at h
  obtain ⟨hoffset, h⟩ := field_inj (by decide) h
  have hrelative := wrap64_add_inj hfits hfits' hoffset
  have hposition := lastField_inj h
  cases entry
  cases entry'
  simp_all

theorem timeEntryLine_inj {entry entry' : TimeEntry} (hfits : Fits32 entry.relative)
    (hfits' : Fits32 entry'.relative) (h : timeEntryLine base entry = timeEntryLine base entry') :
    entry = entry' := by
  simp only [timeEntryLine, String.append_assoc] at h
  obtain ⟨htimestamp, h⟩ := field_inj (by decide) h
  have hrelative := wrap64_add_inj hfits hfits' (lastField_inj h)
  cases entry
  cases entry'
  simp_all

theorem abortedTxnLine_inj {txn txn' : AbortedTxn} (h : abortedTxnLine txn = abortedTxnLine txn') :
    txn = txn' := by
  simp only [abortedTxnLine, String.append_assoc] at h
  obtain ⟨hversion, h⟩ := field_inj (by decide) h
  obtain ⟨hproducer, h⟩ := field_inj (by decide) h
  obtain ⟨hfirst, h⟩ := field_inj (by decide) h
  obtain ⟨hlast, h⟩ := field_inj (by decide) h
  have hstable := lastField_inj h
  cases txn
  cases txn'
  simp_all

end Lines

/-- Lines that tell entries tell lists of them. -/
theorem map_inj_of_mem {α β : Type} {f : α → β} {l l' : List α}
    (hf : ∀ a ∈ l, ∀ b ∈ l', f a = f b → a = b) (h : l.map f = l'.map f) : l = l' := by
  induction l generalizing l' with
  | nil => exact (List.map_eq_nil_iff.1 h.symm).symm
  | cons a l ih =>
    cases l' with
    | nil => cases h
    | cons b l' =>
      rw [List.map_cons, List.map_cons, List.cons.injEq] at h
      obtain ⟨hhead, htail⟩ := h
      rw [hf a List.mem_cons_self b List.mem_cons_self hhead,
        ih (fun x hx y hy => hf x (List.mem_cons_of_mem a hx) y (List.mem_cons_of_mem b hy)) htail]

/-! ## The three dumps -/

theorem fits32_signedBe {bytes : List UInt8} (h : bytes.length = 4) : Fits32 (signedBe bytes) := by
  have hlow : -((2 ^ (8 * bytes.length) : Nat) / 2 : Int) ≤ signedBe bytes :=
    Int.le_bmod (Nat.two_pow_pos _)
  have hhigh : signedBe bytes < ((2 ^ (8 * bytes.length) : Nat) + 1 : Int) / 2 :=
    Int.bmod_lt (Nat.two_pow_pos _)
  rw [h] at hlow hhigh
  exact ⟨by omega, by omega⟩

/-- How an index is dumped. -/
structure IndexFormat.DumpsBy {ε : Type} (format : IndexFormat ε)
    (base : (path name : String) → Int) : Prop where
  dump_eq : ∀ path name data lines, format.dump path name data = some lines →
    data = [] ∧ lines = [s!"{path} is empty."] ∨
    data ≠ [] ∧ data.length % format.size = 0 ∧
      lines = format.front (base path name) (data.length / format.size) ++
        (format.entries data).map (format.line (base path name))
  entries_ne_nil : ∀ data, data ≠ [] → data.length % format.size = 0 → format.entries data ≠ []
  length_front : ∀ base count count',
    (format.front base count).length = (format.front base count').length
  line_ends : ∀ base entry, ∃ front n, format.line base entry = front ++ toString (n : Int)
  line_inj : ∀ base data data', ∀ entry ∈ format.entries data, ∀ entry' ∈ format.entries data',
    format.line base entry = format.line base entry' → entry = entry'

section Lossless

variable {ε : Type} {format : IndexFormat ε} {base : (path name : String) → Int}

/-- An empty file is dumped like no other. -/
theorem IndexFormat.DumpsBy.not_empty (h : format.DumpsBy base) {path name : String}
    {data : List UInt8} (hne : data ≠ []) :
    format.dump path name data ≠ some [s!"{path} is empty."] := by
  intro hdump
  rcases h.dump_eq path name data _ hdump with ⟨hempty, -⟩ | ⟨-, hlength, hlines⟩
  · exact hne hempty
  · have hlast := congrArg List.getLast? hlines
    have hentries := h.entries_ne_nil data hne hlength
    rw [List.getLast?_append, List.getLast?_map, List.getLast?_eq_some_getLast hentries,
      Option.map_some, Option.some_or] at hlast
    have hends := h.line_ends (base path name) ((format.entries data).getLast hentries)
    obtain ⟨front, n, hline⟩ := hends
    rw [hline] at hlast
    exact emptyLine_ne path front n (Option.some.inj hlast)

theorem IndexFormat.DumpsBy.lossless (h : format.DumpsBy base) : format.Lossless := by
  intro path name data data' lines hdump hdump'
  rcases h.dump_eq path name data lines hdump with ⟨rfl, rfl⟩ | ⟨hne, hlength, rfl⟩
  · by_cases hne : data' = []
    · rw [hne]
    · exact absurd hdump' (h.not_empty hne)
  · rcases h.dump_eq path name data' _ hdump' with ⟨rfl, hempty⟩ | ⟨-, -, hlines⟩
    · rw [hempty] at hdump
      exact absurd hdump (h.not_empty hne)
    · have hmaps := (List.append_inj hlines (h.length_front _ _ _)).2
      exact map_inj_of_mem (h.line_inj (base path name) data data') hmaps

end Lossless

theorem length_slice_of_mem {size start stop : Nat} {data chunk : List UInt8}
    (hmem : chunk ∈ chunksExact size data) (hstop : stop ≤ size) :
    (slice chunk start stop).length = stop - start := by
  rw [slice, List.length_take, List.length_drop, length_of_mem_chunksExact hmem]
  omega

theorem mem_of_mem_logicalEntries {entry : IndexEntry} {entries : List IndexEntry}
    (h : entry ∈ logicalEntries entries) : entry ∈ entries := by
  cases entries with
  | nil => cases h
  | cons first rest =>
    rcases List.mem_cons.1 h with rfl | htail
    · exact List.mem_cons_self
    · exact List.mem_cons_of_mem first ((List.takeWhile_sublist _).subset htail)

theorem mem_of_mem_shownTimes {prevTs : Int} {entry : TimeEntry} {entries : List TimeEntry}
    (h : entry ∈ shownTimes prevTs entries) : entry ∈ entries := by
  induction entries generalizing prevTs with
  | nil => cases h
  | cons first rest ih =>
    rw [shownTimes] at h
    split_ifs at h
    · cases h
    · rcases List.mem_cons.1 h with rfl | htail
      · exact List.mem_cons_self
      · exact List.mem_cons_of_mem first (ih htail)

section Dumps

variable {maxMessageSize : Int} {log : Option (List UInt8)} {path name : String} {base : Int}
  {data : List UInt8}

theorem offsetIndex_empty (hbase : baseOffsetFromName path name = .ok base) :
    (offsetIndex maxMessageSize log).dump path name [] = some [s!"{path} is empty."] := by
  simp only [offsetIndex, dumpOffsetIndex, hbase]
  rfl

theorem offsetIndex_misaligned (hbase : baseOffsetFromName path name = .ok base) (hne : data ≠ [])
    (hlength : data.length % 8 ≠ 0) :
    (offsetIndex maxMessageSize log).dump path name data = none := by
  simp only [offsetIndex, dumpOffsetIndex, hbase]
  change printed _ (((if data = [] then _ else _) : IndexDump Unit).run _) = _
  rw [if_neg hne, if_pos hlength]
  rfl

theorem offsetIndex_dump (hbase : baseOffsetFromName path name = .ok base) (hne : data ≠ [])
    (hlength : data.length % 8 = 0) : (offsetIndex maxMessageSize log).dump path name data =
      some ((logicalEntries (indexEntries data)).map (entryLine base)) := by
  let options : IndexOptions := { sanityOnly := false, verifyOnly := false, maxMessageSize }
  obtain ⟨state, hrun, hout⟩ : ∃ state,
      (dumpOffsetIndex options path name (.ok data) (.ok log)).run { mismatches := ∅, out := [] } =
        .ok () state ∧
      state.out = [] ++ (logicalEntries (indexEntries data)).map (entryLine base) :=
    out_dumpOffsetIndex hbase hne hlength rfl rfl rfl _
  simp only [offsetIndex, options] at hrun ⊢
  rw [hrun, printed, hout, List.nil_append]

theorem timeIndex_empty (hbase : baseOffsetFromName path name = .ok base) :
    timeIndex.dump path name [] = some [s!"{path} is empty."] := by
  simp only [timeIndex, dumpTimeIndex, hbase]
  rfl

theorem timeIndex_misaligned (hbase : baseOffsetFromName path name = .ok base) (hne : data ≠ [])
    (hlength : data.length % 12 ≠ 0) : timeIndex.dump path name data = none := by
  simp only [timeIndex, dumpTimeIndex, hbase]
  change printed _ (((if data = [] then _ else _) : SnapshotDump Unit).run _) = _
  rw [if_neg hne, if_pos hlength]
  rfl

theorem timeIndex_dump (hbase : baseOffsetFromName path name = .ok base) (hne : data ≠ [])
    (hlength : data.length % 12 = 0) : timeIndex.dump path name data =
      some ((shownTimes noTimestamp (timeEntries data)).map (timeEntryLine base)) := by
  obtain ⟨err, hrun⟩ := run_dumpTimeEntries path base noTimestamp (timeEntries data) ⟨[], []⟩
  have hdump : (dumpTimeIndex false false path name (.ok data)).run ⟨[], []⟩ =
      (dumpTimeEntries false path base noTimestamp (timeEntries data)).run ⟨[], []⟩ := by
    simp only [dumpTimeIndex, hbase]
    change ((if data = [] then _ else _) : SnapshotDump Unit).run _ = _
    rw [if_neg hne, if_neg (not_not.2 hlength)]
    rfl
  simp only [timeIndex, hdump, hrun, printed, List.nil_append]

theorem transactionIndex_dump_eq_some {lines : List String} (hne : data ≠ []) :
    transactionIndex.dump path name data = some lines ↔
      data.length % abortedTxnRecordSize = 0 ∧ (∀ txn ∈ abortedTxns data, txn.version = 0) ∧
        lines = txnIndexLine (txnIndexBase path name) (data.length / abortedTxnRecordSize) ::
          (abortedTxns data).map abortedTxnLine := by
  by_cases hlength : data.length % abortedTxnRecordSize = 0
  · have hdump : (dumpTxnindex path name (.ok data)).run ⟨[], []⟩ =
        ((abortedTxns data).forM (dumpAbortedTxn path)).run
          ⟨[txnIndexLine (txnIndexBase path name) (data.length / abortedTxnRecordSize)], []⟩ := by
      change ((if data = [] then _ else _) : SnapshotDump Unit).run _ = _
      rw [if_neg hne, if_neg (not_not.2 hlength)]
      rfl
    simp only [transactionIndex, hdump, printed_eq_some, run_dumpAbortedTxns_eq_ok]
    constructor
    · rintro ⟨state, ⟨hversions, rfl⟩, rfl⟩
      exact ⟨hlength, hversions, rfl⟩
    · rintro ⟨-, hversions, rfl⟩
      exact ⟨_, ⟨hversions, rfl⟩, rfl⟩
  · have hdump : transactionIndex.dump path name data = none := by
      change printed _ (((if data = [] then _ else _) : SnapshotDump Unit).run _) = _
      rw [if_neg hne, if_pos hlength]
      rfl
    rw [hdump]
    exact iff_of_false nofun fun h => hlength h.1

theorem baseOf_eq (hbase : baseOffsetFromName path name = .ok base) :
    txnIndexBase path name = base := by
  rw [txnIndexBase, hbase]

theorem offsetIndex_dumpsBy : (offsetIndex maxMessageSize log).DumpsBy txnIndexBase where
  dump_eq := by
    intro path name data lines hdump
    cases hbase : baseOffsetFromName path name with
    | error fault => simp [offsetIndex, dumpOffsetIndex, hbase, printed] at hdump
    | ok base =>
      rw [baseOf_eq hbase]
      by_cases hne : data = []
      · rw [hne, offsetIndex_empty hbase] at hdump
        exact .inl ⟨hne, (Option.some.inj hdump).symm⟩
      · by_cases hlength : data.length % 8 = 0
        · rw [offsetIndex_dump hbase hne hlength] at hdump
          exact .inr ⟨hne, hlength, (Option.some.inj hdump).symm⟩
        · rw [offsetIndex_misaligned hbase hne hlength] at hdump
          cases hdump
  entries_ne_nil := by
    intro data hne hlength hnil
    have hchunks := chunksExact_ne_nil (by decide : 0 < 8) hne hlength
    obtain ⟨chunk, chunks, hchunk⟩ := List.exists_cons_of_ne_nil hchunks
    simp [offsetIndex, indexEntries, hchunk, logicalEntries] at hnil
  length_front _ _ _ := rfl
  line_ends _ entry := ⟨_, entry.position, rfl⟩
  line_inj := by
    intro base data data' entry hentry entry' hentry' hline
    have hfits : ∀ bytes, ∀ e ∈ (offsetIndex maxMessageSize log).entries bytes,
        Fits32 e.relative := by
      intro bytes e he
      obtain ⟨chunk, hchunk, rfl⟩ := List.mem_map.1 (mem_of_mem_logicalEntries he)
      exact fits32_signedBe (length_slice_of_mem hchunk (by decide))
    exact entryLine_inj (hfits data entry hentry) (hfits data' entry' hentry') hline

theorem timeIndex_dumpsBy : timeIndex.DumpsBy txnIndexBase where
  dump_eq := by
    intro path name data lines hdump
    cases hbase : baseOffsetFromName path name with
    | error fault => simp [timeIndex, dumpTimeIndex, hbase, printed] at hdump
    | ok base =>
      rw [baseOf_eq hbase]
      by_cases hne : data = []
      · rw [hne, timeIndex_empty hbase] at hdump
        exact .inl ⟨hne, (Option.some.inj hdump).symm⟩
      · by_cases hlength : data.length % 12 = 0
        · rw [timeIndex_dump hbase hne hlength] at hdump
          exact .inr ⟨hne, hlength, (Option.some.inj hdump).symm⟩
        · rw [timeIndex_misaligned hbase hne hlength] at hdump
          cases hdump
  entries_ne_nil := by
    intro data hne hlength hnil
    have hchunks := chunksExact_ne_nil (by decide : 0 < 12) hne hlength
    obtain ⟨chunk, chunks, hchunk⟩ := List.exists_cons_of_ne_nil hchunks
    simp [timeIndex, timeEntries, hchunk, shownTimes, TimeEntry.EndsAt] at hnil
  length_front _ _ _ := rfl
  line_ends base entry := ⟨_, entry.offset base, rfl⟩
  line_inj := by
    intro base data data' entry hentry entry' hentry' hline
    have hfits : ∀ bytes, ∀ e ∈ timeIndex.entries bytes, Fits32 e.relative := by
      intro bytes e he
      obtain ⟨chunk, hchunk, rfl⟩ := List.mem_map.1 (mem_of_mem_shownTimes he)
      exact fits32_signedBe (length_slice_of_mem hchunk (by decide))
    exact timeEntryLine_inj (hfits data entry hentry) (hfits data' entry' hentry') hline

theorem transactionIndex_dumpsBy : transactionIndex.DumpsBy txnIndexBase where
  dump_eq := by
    intro path name data lines hdump
    by_cases hne : data = []
    · rw [hne] at hdump
      exact .inl ⟨hne, (Option.some.inj hdump).symm⟩
    · obtain ⟨hlength, -, rfl⟩ := (transactionIndex_dump_eq_some hne).1 hdump
      exact .inr ⟨hne, hlength, rfl⟩
  entries_ne_nil := by
    intro data hne hlength hnil
    have hchunks := chunksExact_ne_nil (by decide : 0 < abortedTxnRecordSize) hne hlength
    exact hchunks (List.map_eq_nil_iff.1 hnil)
  length_front _ _ _ := rfl
  line_ends _ txn := ⟨_, txn.lastStableOffset, (String.append_assoc ..).symm⟩
  line_inj _ _ _ _ _ _ _ hline := abortedTxnLine_inj hline

end Dumps

/-! ## The theorem -/

section Complete

theorem zeros_of_offset : IndexEntry.ofChunk (List.replicate 8 0) = ⟨0, 0⟩ := by decide

theorem zeros_of_time : TimeEntry.ofChunk (List.replicate 12 0) = ⟨0, 0⟩ := by decide

theorem logicalEntries_padded {entries : List IndexEntry} (hheld : HeldOffsets entries)
    (count : Nat) : logicalEntries (entries ++ List.replicate count ⟨0, 0⟩) = entries := by
  obtain ⟨first, rest, rfl⟩ := List.exists_cons_of_ne_nil hheld.nonempty
  have hall : ∀ entry ∈ rest, decide (entry.relative ≠ 0) = true := fun entry hentry =>
    decide_eq_true (hheld.tail entry hentry)
  rw [List.cons_append, logicalEntries, List.takeWhile_append_of_pos hall]
  cases count <;> simp [List.replicate_succ]

theorem shownTimes_padded {entries : List TimeEntry} {prevTs : Int} (hprev : prevTs ≠ noTimestamp)
    (htimestamps : ∀ entry ∈ entries, entry.timestamp ≠ noTimestamp)
    (hentries : ∀ entry ∈ entries, ¬ (entry.timestamp = 0 ∧ entry.relative = 0)) (count : Nat) :
    shownTimes prevTs (entries ++ List.replicate count ⟨0, 0⟩) = entries := by
  induction entries generalizing prevTs with
  | nil => cases count <;> simp [shownTimes, List.replicate_succ, TimeEntry.EndsAt, hprev]
  | cons entry entries ih =>
    rw [List.forall_mem_cons] at htimestamps hentries
    have hgoes : ¬ entry.EndsAt prevTs := fun h => hentries.1 ⟨h.1, h.2.1⟩
    rw [List.cons_append, shownTimes, if_neg hgoes, ih htimestamps.1 htimestamps.2 hentries.2]

theorem shownTimes_held {entries : List TimeEntry} (hheld : HeldTimes entries) (count : Nat) :
    shownTimes noTimestamp (entries ++ List.replicate count ⟨0, 0⟩) = entries := by
  obtain ⟨first, rest, rfl⟩ := List.exists_cons_of_ne_nil hheld.nonempty
  have htimestamps := List.forall_mem_cons.1 hheld.timestamps
  have hgoes : ¬ first.EndsAt noTimestamp := fun h => h.2.2 rfl
  rw [List.cons_append, shownTimes, if_neg hgoes,
    shownTimes_padded htimestamps.1 htimestamps.2 hheld.tail]

variable {ε : Type} {size count : Nat} {encode : ε → List UInt8} {entries : List ε}

theorem length_written (hlength : ∀ entry, (encode entry).length = size) (entries : List ε)
    (count : Nat) : (entries.flatMap encode ++ List.replicate (size * count) 0).length =
      size * (entries.length + count) := by
  have hflat : (entries.flatMap encode).length = size * entries.length := by
    induction entries with
    | nil => rfl
    | cons entry entries ih =>
      rw [List.flatMap_cons, List.length_append, ih, hlength, List.length_cons, Nat.mul_succ,
        Nat.add_comm]
  rw [List.length_append, hflat, List.length_replicate, Nat.mul_add]

theorem written_ne_nil (hlength : ∀ entry, (encode entry).length = size) (hpos : 0 < size)
    (hne : entries ≠ []) :
    entries.flatMap encode ++ List.replicate (size * count) 0 ≠ [] := by
  have hcount := List.length_pos_of_ne_nil hne
  apply List.ne_nil_of_length_pos
  rw [length_written hlength]
  exact Nat.mul_pos hpos (Nat.add_pos_left hcount count)

/-- What is written is read, and then the padding. -/
theorem chunks_written (hlength : ∀ entry, (encode entry).length = size) (hpos : 0 < size)
    {ofChunk : List UInt8 → ε} (hread : ∀ entry ∈ entries, ofChunk (encode entry) = entry) :
    (chunksExact size (entries.flatMap encode ++ List.replicate (size * count) 0)).map ofChunk =
      entries ++ List.replicate count (ofChunk (List.replicate size 0)) := by
  rw [chunksExact_flatMap hpos hlength, chunksExact_zeros hpos, List.map_append, List.map_map,
    List.map_replicate]
  congr 1
  exact (List.map_congr_left hread).trans (List.map_id entries)

end Complete

/-- **The dumps of the indices are faithful.** An index that was written with at least one entry,
and perhaps preallocated, is printed entry by entry, and what is printed tells which entries a file
holds. -/
theorem index_dumps_faithful (maxMessageSize : Int) (log : Option (List UInt8))
    {path name : String} {base : Int} (hbase : baseOffsetFromName path name = .ok base) :
    (∀ entries count, HeldOffsets entries → (offsetIndex maxMessageSize log).dump path name
        (entries.flatMap IndexEntry.encode ++ List.replicate (8 * count) 0) =
          some (entries.map (entryLine base))) ∧
      (∀ entries count, HeldTimes entries → timeIndex.dump path name
        (entries.flatMap TimeEntry.encode ++ List.replicate (12 * count) 0) =
          some (entries.map (timeEntryLine base))) ∧
      (∀ txns, HeldTxns txns → transactionIndex.dump path name (txns.flatMap AbortedTxn.encode) =
          some (txnIndexLine base txns.length :: txns.map abortedTxnLine)) ∧
      (offsetIndex maxMessageSize log).Lossless ∧ timeIndex.Lossless ∧
      transactionIndex.Lossless := by
  refine ⟨?_, ?_, ?_, offsetIndex_dumpsBy.lossless, timeIndex_dumpsBy.lossless,
    transactionIndex_dumpsBy.lossless⟩
  · intro entries count hheld
    have hwritten : indexEntries (entries.flatMap IndexEntry.encode ++
        List.replicate (8 * count) 0) = entries ++ List.replicate count ⟨0, 0⟩ := by
      rw [indexEntries, chunks_written IndexEntry.length_encode (by decide) fun entry hentry =>
        IndexEntry.ofChunk_encode (hheld.fits entry hentry).1 (hheld.fits entry hentry).2,
        zeros_of_offset]
    have haligned := congrArg (· % 8) (length_written IndexEntry.length_encode entries count)
    rw [offsetIndex_dump hbase
      (written_ne_nil IndexEntry.length_encode (Nat.succ_pos 7) hheld.nonempty)
      (haligned.trans (Nat.mul_mod_right 8 _)), hwritten, logicalEntries_padded hheld]
  · intro entries count hheld
    have hwritten : timeEntries (entries.flatMap TimeEntry.encode ++
        List.replicate (12 * count) 0) = entries ++ List.replicate count ⟨0, 0⟩ := by
      rw [timeEntries, chunks_written TimeEntry.length_encode (by decide) fun entry hentry =>
        TimeEntry.ofChunk_encode (hheld.fits entry hentry).1 (hheld.fits entry hentry).2,
        zeros_of_time]
    have haligned := congrArg (· % 12) (length_written TimeEntry.length_encode entries count)
    rw [timeIndex_dump hbase (written_ne_nil TimeEntry.length_encode (by decide) hheld.nonempty)
      (haligned.trans (Nat.mul_mod_right 12 _)), hwritten, shownTimes_held hheld]
  · intro txns hheld
    -- a transaction index is not preallocated
    have hplain : txns.flatMap AbortedTxn.encode ++
        List.replicate (abortedTxnRecordSize * 0) 0 = txns.flatMap AbortedTxn.encode := by
      rw [Nat.mul_zero, List.replicate_zero, List.append_nil]
    have hlength := length_written AbortedTxn.length_encode txns 0
    have hwritten : abortedTxns (txns.flatMap AbortedTxn.encode ++
        List.replicate (abortedTxnRecordSize * 0) 0) = txns := by
      rw [abortedTxns, chunks_written AbortedTxn.length_encode (by decide) fun txn htxn =>
        AbortedTxn.ofChunk_encode (hheld.version txn htxn) (hheld.fits txn htxn),
        List.replicate_zero, List.append_nil]
    rw [← hplain]
    refine (transactionIndex_dump_eq_some
      (written_ne_nil AbortedTxn.length_encode (by decide) hheld.nonempty)).2 ⟨?_, ?_, ?_⟩
    · rw [hlength, Nat.mul_mod_right]
    · rw [hwritten]
      exact hheld.version
    · rw [hwritten, hlength, baseOf_eq hbase, Nat.mul_div_cancel_left _ (by decide),
        Nat.add_zero]

theorem index_dumps_faithful_padded :
    (offsetIndex 0 none).dump "7.index" "7.index"
        ([⟨0, 0⟩, ⟨4, 120⟩].flatMap IndexEntry.encode ++ List.replicate (8 * 3) 0) =
          some ["offset: 7 position: 0", "offset: 11 position: 120"] ∧
      timeIndex.dump "7.timeindex" "7.timeindex"
        ([⟨1000, 4⟩, ⟨2000, 9⟩].flatMap TimeEntry.encode ++ List.replicate (12 * 3) 0) =
          some ["timestamp: 1000 offset: 11", "timestamp: 2000 offset: 16"] ∧
      transactionIndex.dump "7.txnindex" "7.txnindex" (AbortedTxn.encode ⟨0, 5, 7, 9, 8⟩) =
          some ["Transaction index starting offset: 7 (1 entries)",
            "version: 0 producerId: 5 firstOffset: 7 lastOffset: 9 lastStableOffset: 8"] := by
  refine ⟨?_, ?_, ?_⟩
  · have hdump := (index_dumps_faithful 0 none (show baseOffsetFromName "7.index" "7.index" = .ok 7
      from rfl)).1 [⟨0, 0⟩, ⟨4, 120⟩] 3 ⟨by simp, by simp [Fits32], by simp⟩
    exact hdump.trans (by decide +kernel)
  · have hdump := (index_dumps_faithful 0 none (show baseOffsetFromName "7.timeindex" "7.timeindex"
      = .ok 7 from rfl)).2.1 [⟨1000, 4⟩, ⟨2000, 9⟩] 3
      ⟨by simp, by simp [Fits32, Fits64], by simp [noTimestamp], by simp⟩
    exact hdump.trans (by decide +kernel)
  · have hdump := (index_dumps_faithful 0 none (show baseOffsetFromName "7.txnindex" "7.txnindex"
      = .ok 7 from rfl)).2.2.1 [⟨0, 5, 7, 9, 8⟩] ⟨by simp, by simp, by simp [Fits64]⟩
    exact hdump.trans (by decide +kernel)

end KafkaCli.DumpLog
