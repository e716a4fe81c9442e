import KafkaCli.DumpLog.Segment

/-!
# Dumping an offset index

`dump_offset_index` reads an index of eight bytes an entry. It either checks the entries or prints
them, and then compares each one with the batch of the log that it points to. An index may be
preallocated: zeros follow its entries. Each of the two loops has its own rule for their end.

**Theorem (`sanityAgrees_iff`).** The check accepts just the indices whose entries are in order,
exactly under `PaddingPasses` or where the entries are not in order. It fails where zeros follow an
entry that is not zero, since it compares them with this entry before it takes them for the end.
-/

namespace KafkaCli.DumpLog

open Text

/-- An entry of an index. -/
structure IndexEntry where
  relative : Int
  position : Int
  deriving DecidableEq, Repr

/-- The entry of eight bytes. -/
def IndexEntry.ofChunk (chunk : List UInt8) : IndexEntry where
  relative := signedBe (slice chunk 0 4)
  position := signedBe (slice chunk 4 8)

/-- The complete chunks of some size. -/
def chunksExact (size : Nat) (data : List UInt8) : List (List UInt8) :=
  (List.range (data.length / size)).map fun i => slice data (size * i) (size * i + size)

def indexEntries (data : List UInt8) : List IndexEntry :=
  (chunksExact 8 data).map IndexEntry.ofChunk

structure IndexOptions where
  sanityOnly : Bool
  verifyOnly : Bool
  maxMessageSize : Int
  deriving DecidableEq, Repr

/-- What the dump of indices remembers: the mismatches by file, and the lines. -/
structure IndexState where
  mismatches : Std.TreeMap String (Std.TreeMap Int Int)
  out : List String

abbrev IndexDump := EStateM Error IndexState

/-- `base_offset_from_name`. -/
def baseOffsetFromName (path name : String) : Result Int :=
  match Decimal.parseI64 ((split name '.').headD "") with
  | .ok base => .ok base
  | .error _ => .error (.usage s!"cannot parse base offset from {path}")

/-! ## The check -/

/-- The loop of the sanity check. -/
def checkEntries (path : String) : (prevRel : Int) → List IndexEntry → Result Unit
  | _, [] => .ok ()
  | prevRel, entry :: entries =>
    if entry.relative < 0 ∨ entry.position < 0 ∨ entry.relative < prevRel then
      .error (.config s!"index {path} failed sanity check")
    else if entry.relative = 0 ∧ prevRel ≥ 0 then .ok ()
    else checkEntries path entry.relative entries

/-! ## The dump -/

/-- The default of the largest message, for a size that is negative. -/
def defaultMaxMessageSize : Nat := 5 * 1024 * 1024

def maxSize (options : IndexOptions) : Nat :=
  if options.maxMessageSize < 0 then defaultMaxMessageSize else options.maxMessageSize.toNat

/-- The last offset of the batch that an entry points to, where it is not the entry's. -/
def mismatchOf (options : IndexOptions) (log : Option (List UInt8)) (offset position : Int) :
    Option Int := do
  let log ← log
  if 0 ≤ position ∧ position.toNat < log.length then
    let stop := min (position.toNat + maxSize options) log.length
    let last ← firstBatchLastOffset (slice log position.toNat stop)
    if last ≠ offset then some last else none
  else none

def noteMismatch (path : String) (offset : Int) (last : Option Int) (state : IndexState) :
    IndexState :=
  match last with
  | none => state
  | some last =>
    let ofFile := (state.mismatches.getD path ∅).insert offset last
    { state with mismatches := state.mismatches.insert path ofFile }

/-- The offset of an entry. -/
def IndexEntry.offset (base : Int) (entry : IndexEntry) : Int := wrap64 (base + entry.relative)

def entryLine (base : Int) (entry : IndexEntry) : String :=
  s!"offset: {entry.offset base} position: {entry.position}"

section Loop

variable (options : IndexOptions) (path : String) (base : Int) (log : Option (List UInt8))

/-- One entry of the loop. -/
def dumpEntry (state : IndexState) (entry : IndexEntry) : IndexState :=
  let offset := entry.offset base
  let state := noteMismatch path offset (mismatchOf options log offset entry.position) state
  if options.verifyOnly then state
  else { state with out := state.out ++ [entryLine base entry] }

/-- The loop over the entries; `i` is the number of the entry. -/
def dumpEntries : (i : Nat) → List IndexEntry → IndexState → IndexState
  | _, [], state => state
  | i, entry :: entries, state =>
    if entry.relative = 0 ∧ i > 0 then state
    else dumpEntries (i + 1) entries (dumpEntry options path base log state entry)

end Loop

/-- `dump_offset_index`, given what the file holds, and what the log beside it does where there is
one. -/
def dumpOffsetIndex (options : IndexOptions) (path name : String)
    (file : Except String (List UInt8)) (log : Except String (Option (List UInt8))) :
    IndexDump Unit := do
  let base ← ofExcept (baseOffsetFromName path name)
  let data ← ofExcept (file.mapError Error.io)
  if data = [] then
    modify fun state => { state with out := state.out ++ [s!"{path} is empty."] }
  else if data.length % 8 ≠ 0 then
    let length := data.length
    throw (.config s!"corrupt index {path}: length {length} is not a multiple of 8")
  else if options.sanityOnly then
    ofExcept (checkEntries path (-1) (indexEntries data))
    modify fun state => { state with out := state.out ++ [s!"{path} passed sanity check."] }
  else
    let log ← ofExcept (log.mapError Error.io)
    modify (dumpEntries options path base log 0 (indexEntries data))

/-! ## Entries and padding -/

/-- The entries up to the first one behind the front whose relative offset is zero. -/
def logicalEntries : List IndexEntry → List IndexEntry
  | [] => []
  | first :: entries => first :: entries.takeWhile (·.relative ≠ 0)

/-- What follows the entries. -/
def padding : List IndexEntry → List IndexEntry
  | [] => []
  | _ :: entries => entries.dropWhile (·.relative ≠ 0)

section Loop

variable {options : IndexOptions} {path : String} {base : Int} {log : Option (List UInt8)}

theorem dumpEntries_takeWhile {i : Nat} (hi : 0 < i) (entries : List IndexEntry)
    (state : IndexState) : dumpEntries options path base log i entries state =
      (entries.takeWhile (·.relative ≠ 0)).foldl (dumpEntry options path base log) state := by
  induction entries generalizing i state with
  | nil => rfl
  | cons entry entries ih =>
    rw [dumpEntries]
    by_cases hzero : entry.relative = 0
    · rw [if_pos ⟨hzero, hi⟩, List.takeWhile_cons_of_neg (by simpa using hzero), List.foldl_nil]
    · rw [if_neg fun h => hzero h.1, List.takeWhile_cons_of_pos (by simpa using hzero),
        List.foldl_cons, ih (Nat.succ_pos i)]

/-- The dump comes to the entries and to nothing else. -/
theorem dumpEntries_eq_foldl (entries : List IndexEntry) (state : IndexState) :
    dumpEntries options path base log 0 entries state =
      (logicalEntries entries).foldl (dumpEntry options path base log) state := by
  cases entries with
  | nil => rfl
  | cons first entries =>
    rw [dumpEntries, if_neg fun h => Nat.lt_irrefl 0 h.2, dumpEntries_takeWhile Nat.one_pos]
    rfl

/-- An entry is printed unless entries are only verified. -/
theorem out_dumpEntry (hverify : options.verifyOnly = false) (state : IndexState)
    (entry : IndexEntry) :
    (dumpEntry options path base log state entry).out = state.out ++ [entryLine base entry] := by
  have hout : ∀ offset last, (noteMismatch path offset last state).out = state.out := by
    intro offset last
    cases last <;> rfl
  simp [dumpEntry, hverify, hout]

theorem out_foldl_dumpEntry (hverify : options.verifyOnly = false) (entries : List IndexEntry)
    (state : IndexState) : (entries.foldl (dumpEntry options path base log) state).out =
      state.out ++ entries.map (entryLine base) := by
  induction entries generalizing state with
  | nil => simp
  | cons entry entries ih =>
    rw [List.foldl_cons, ih, out_dumpEntry hverify, List.map_cons, List.append_assoc,
      List.singleton_append]

end Loop

section Runs

variable {options : IndexOptions} {path name : String} {base : Int} {data : List UInt8}
  {log : Except String (Option (List UInt8))}

/-- What `dump_offset_index` leaves of the state, where it dumps. -/
theorem run_dumpOffsetIndex (hbase : baseOffsetFromName path name = .ok base) (hdata : data ≠ [])
    (hlength : data.length % 8 = 0) (hsanity : options.sanityOnly = false)
    {bytes : Option (List UInt8)} (hlog : log = .ok bytes) (state : IndexState) :
    (dumpOffsetIndex options path name (.ok data) log).run state = .ok ()
      ((logicalEntries (indexEntries data)).foldl (dumpEntry options path base bytes) state) := by
  rw [← dumpEntries_eq_foldl, dumpOffsetIndex, hbase, hlog]
  simp only [hsanity, ne_eq, Bool.false_eq_true, if_false]
  change ((if data = [] then _ else _) : IndexDump Unit).run state = _
  rw [if_neg hdata, if_neg (not_not.2 hlength)]
  rfl

/-- **The entries of an index** are those that are printed. -/
theorem out_dumpOffsetIndex (hbase : baseOffsetFromName path name = .ok base) (hdata : data ≠ [])
    (hlength : data.length % 8 = 0) (hsanity : options.sanityOnly = false)
    (hverify : options.verifyOnly = false) {bytes : Option (List UInt8)} (hlog : log = .ok bytes)
    (state : IndexState) :
    ∃ state', (dumpOffsetIndex options path name (.ok data) log).run state = .ok () state' ∧
      state'.out = state.out ++ (logicalEntries (indexEntries data)).map (entryLine base) :=
  ⟨_, run_dumpOffsetIndex hbase hdata hlength hsanity hlog state,
    out_foldl_dumpEntry hverify _ state⟩

/-- The check of an index succeeds where its entries pass. -/
theorem run_check_eq_ok (hbase : baseOffsetFromName path name = .ok base) (hdata : data ≠ [])
    (hlength : data.length % 8 = 0) (hsanity : options.sanityOnly = true) (state : IndexState) :
    (∃ state', (dumpOffsetIndex options path name (.ok data) log).run state = .ok () state') ↔
      checkEntries path (-1) (indexEntries data) = .ok () := by
  rw [dumpOffsetIndex, hbase]
  simp only [hsanity, ne_eq, if_true]
  change (∃ state', ((if data = [] then _ else _) : IndexDump Unit).run state = .ok () state') ↔ _
  rw [if_neg hdata, if_neg (not_not.2 hlength)]
  cases hcheck : checkEntries path (-1) (indexEntries data) with
  | ok passed => exact ⟨fun _ => rfl, fun _ => ⟨_, rfl⟩⟩
  | error error =>
    refine ⟨?_, nofun⟩
    rintro ⟨state', hrun⟩
    cases hrun

end Runs

/-! ## What the check accepts -/

/-- Entries in order, behind an entry with the relative offset `prev`. -/
structure InOrderFrom (prev : Int) (entries : List IndexEntry) : Prop where
  nonneg : ∀ entry ∈ entries, 0 ≤ entry.relative ∧ 0 ≤ entry.position
  sorted : (prev :: entries.map IndexEntry.relative).Pairwise (· ≤ ·)

/-- Entries in order: none is negative, and the relative offsets do not decrease. -/
structure InOrder (entries : List IndexEntry) : Prop where
  nonneg : ∀ entry ∈ entries, 0 ≤ entry.relative ∧ 0 ≤ entry.position
  sorted : (entries.map IndexEntry.relative).Pairwise (· ≤ ·)

theorem inOrderFrom_cons {prev : Int} {entry : IndexEntry} {entries : List IndexEntry} :
    InOrderFrom prev (entry :: entries) ↔
      ¬ (entry.relative < 0 ∨ entry.position < 0 ∨ entry.relative < prev) ∧
        InOrderFrom entry.relative entries := by
  constructor
  · intro ⟨hnonneg, hsorted⟩
    rw [List.map_cons, List.pairwise_cons] at hsorted
    have hfirst := hnonneg entry List.mem_cons_self
    have hprev := hsorted.1 entry.relative List.mem_cons_self
    exact ⟨by omega, fun e he => hnonneg e (List.mem_cons_of_mem _ he), hsorted.2⟩
  · intro ⟨hfirst, hnonneg, hsorted⟩
    refine ⟨List.forall_mem_cons.2 ⟨by omega, hnonneg⟩, ?_⟩
    rw [List.map_cons, List.pairwise_cons]
    refine ⟨List.forall_mem_cons.2 ⟨by omega, fun r hr => ?_⟩, hsorted⟩
    have hle := (List.pairwise_cons.1 hsorted).1 r hr
    omega

theorem inOrder_cons {first : IndexEntry} {entries : List IndexEntry} :
    InOrder (first :: entries) ↔ ¬ (first.relative < 0 ∨ first.position < 0) ∧
      InOrderFrom first.relative entries := by
  constructor
  · intro ⟨hnonneg, hsorted⟩
    have hfirst := hnonneg first List.mem_cons_self
    exact ⟨by omega, fun e he => hnonneg e (List.mem_cons_of_mem _ he), hsorted⟩
  · intro ⟨hfirst, hnonneg, hsorted⟩
    exact ⟨List.forall_mem_cons.2 ⟨by omega, hnonneg⟩, hsorted⟩

theorem InOrderFrom.nil (prev : Int) : InOrderFrom prev [] where
  nonneg := by simp
  sorted := by simp

/-- Behind an entry the check accepts entries in order, and zeros behind them only where they come
right behind a zero. -/
theorem checkEntries_eq_ok (path : String) {prev : Int} (hprev : 0 ≤ prev)
    (entries : List IndexEntry) :
    checkEntries path prev entries = .ok () ↔
      InOrderFrom prev (entries.takeWhile (·.relative ≠ 0)) ∧
        (entries.dropWhile (·.relative ≠ 0) = [] ∨
          prev = 0 ∧ ∃ padded rest, entries = padded :: rest ∧ padded.relative = 0 ∧
            0 ≤ padded.position) := by
  induction entries generalizing prev with
  | nil => simp [checkEntries, InOrderFrom.nil]
  | cons entry entries ih =>
    rw [checkEntries]
    by_cases hzero : entry.relative = 0
    · -- the first zero: it ends the loop, unless it is below the entry before it
      have htake : (entry :: entries).takeWhile (·.relative ≠ 0) = [] :=
        List.takeWhile_cons_of_neg (by simpa using hzero)
      have hdrop : (entry :: entries).dropWhile (·.relative ≠ 0) = entry :: entries :=
        List.dropWhile_cons_of_neg (by simpa using hzero)
      rw [htake, hdrop, and_iff_right (InOrderFrom.nil prev), or_iff_right (List.cons_ne_nil _ _)]
      split_ifs with hbad hend
      · refine ⟨nofun, ?_⟩
        rintro ⟨hprev', _, _, ⟨rfl, rfl⟩, _, hposition⟩
        omega
      · exact ⟨fun _ => ⟨by omega, entry, entries, rfl, hzero, by omega⟩, fun _ => rfl⟩
      · omega
    · have htake : (entry :: entries).takeWhile (·.relative ≠ 0) =
          entry :: entries.takeWhile (·.relative ≠ 0) :=
        List.takeWhile_cons_of_pos (by simpa using hzero)
      have hdrop : (entry :: entries).dropWhile (·.relative ≠ 0) =
          entries.dropWhile (·.relative ≠ 0) :=
        List.dropWhile_cons_of_pos (by simpa using hzero)
      rw [htake, hdrop, inOrderFrom_cons]
      split_ifs with hbad hend
      · exact ⟨nofun, fun h => absurd hbad h.1.1⟩
      · omega
      · rw [ih (by omega), and_iff_right hbad]
        refine and_congr_right fun _ => or_congr_right ?_
        refine ⟨fun h => absurd h.1 hzero, ?_⟩
        rintro ⟨_, _, _, ⟨rfl, rfl⟩, hpadded, _⟩
        exact absurd hpadded hzero

/-- What follows the entries does not make the check fail: there is nothing, or the only entry is a
zero, and so is the one behind it. -/
def PaddingPasses (entries : List IndexEntry) : Prop :=
  padding entries = [] ∨ ∃ first padded rest, entries = first :: padded :: rest ∧
    first.relative = 0 ∧ padded.relative = 0 ∧ 0 ≤ padded.position

/-- The check of an index accepts entries in order, if what follows them passes. -/
theorem checkEntries_eq_ok_iff (path : String) (entries : List IndexEntry) :
    checkEntries path (-1) entries = .ok () ↔
      InOrder (logicalEntries entries) ∧ PaddingPasses entries := by
  cases entries with
  | nil =>
    have hempty : InOrder [] := ⟨by simp, by simp⟩
    simp [checkEntries, logicalEntries, hempty, PaddingPasses, padding]
  | cons first entries =>
    rw [checkEntries, logicalEntries, inOrder_cons, PaddingPasses, padding]
    split_ifs with hbad hend
    · refine ⟨nofun, fun h => absurd ?_ h.1.1⟩
      omega
    · omega
    · have hnonneg : ¬ (first.relative < 0 ∨ first.position < 0) := by omega
      rw [checkEntries_eq_ok path (by omega) entries, and_iff_right hnonneg]
      refine and_congr_right fun _ => or_congr_right ⟨?_, ?_⟩
      · rintro ⟨hzero, padded, rest, rfl, hpadded, hposition⟩
        exact ⟨first, padded, rest, rfl, hzero, hpadded, hposition⟩
      · rintro ⟨_, padded, rest, ⟨rfl, rfl⟩, hzero, hpadded, hposition⟩
        exact ⟨hzero, padded, rest, rfl, hpadded, hposition⟩

/-! ## The theorem -/

/-- The check of an index succeeds just where its entries are in order. -/
def SanityAgrees (options : IndexOptions) (path name : String) (data : List UInt8)
    (log : Except String (Option (List UInt8))) (state : IndexState) : Prop :=
  (∃ state', (dumpOffsetIndex options path name (.ok data) log).run state = .ok () state') ↔
    InOrder (logicalEntries (indexEntries data))

/-- **When the check of an index is right.** -/
theorem sanityAgrees_iff (options : IndexOptions) (path name : String) (base : Int)
    (data : List UInt8) (log : Except String (Option (List UInt8))) (state : IndexState)
    (hbase : baseOffsetFromName path name = .ok base) (hdata : data ≠ [])
    (hlength : data.length % 8 = 0) (hsanity : options.sanityOnly = true) :
    SanityAgrees options path name data log state ↔
      (InOrder (logicalEntries (indexEntries data)) → PaddingPasses (indexEntries data)) := by
  rw [SanityAgrees, run_check_eq_ok hbase hdata hlength hsanity, checkEntries_eq_ok_iff]
  tauto

/-- An index of an entry at 5 and a zero. -/
def paddedIndex : List UInt8 := [0, 0, 0, 5, 0, 0, 0, 100, 0, 0, 0, 0, 0, 0, 0, 0]

def checkOnly : IndexOptions where
  sanityOnly := true
  verifyOnly := false
  maxMessageSize := 5 * 1024 * 1024

def indexStart : IndexState where
  mismatches := ∅
  out := []

/-- An index of entries at 5 and 9, and room for two more. -/
def twoEntries : List UInt8 :=
  [0, 0, 0, 5, 0, 0, 0, 100, 0, 0, 0, 9, 0, 0, 0, 200] ++ List.replicate 16 0

theorem sanityAgrees_iff_two :
    SanityAgrees checkOnly "0.index" "0.index" twoEntries (.ok none) indexStart ↔
      (InOrder (logicalEntries (indexEntries twoEntries)) →
        PaddingPasses (indexEntries twoEntries)) :=
  sanityAgrees_iff checkOnly "0.index" "0.index" 0 twoEntries _ _ (by decide +kernel) (by decide)
    (by decide) rfl

/-- A preallocated index with an entry fails. -/
theorem not_sanityAgrees :
    ¬ ∀ (options : IndexOptions) (path name : String) (base : Int) (data : List UInt8)
      (log : Except String (Option (List UInt8))) (state : IndexState),
      baseOffsetFromName path name = .ok base → data ≠ [] → data.length % 8 = 0 →
      options.sanityOnly = true → SanityAgrees options path name data log state := by
  intro hall
  have hbase : baseOffsetFromName "0.index" "0.index" = .ok 0 := by decide +kernel
  have hdata : paddedIndex ≠ [] := by decide
  have hagrees := hall checkOnly "0.index" "0.index" 0 paddedIndex (.ok none) indexStart hbase hdata
    rfl rfl
  rw [SanityAgrees, run_check_eq_ok hbase hdata rfl rfl] at hagrees
  have hentries : logicalEntries (indexEntries paddedIndex) = [⟨5, 100⟩] := by decide +kernel
  have horder : InOrder [⟨5, 100⟩] := ⟨by simp, by simp⟩
  rw [hentries] at hagrees
  have hcheck : checkEntries "0.index" (-1) (indexEntries paddedIndex) =
      .error (.config "index 0.index failed sanity check") := by
    decide +kernel
  exact absurd ((hagrees.2 horder).symm.trans hcheck) nofun

end KafkaCli.DumpLog
