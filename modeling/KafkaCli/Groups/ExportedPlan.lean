import KafkaCli.Groups.Reset
import KafkaCli.Groups.ReadOnly

/-!
# Exported plans

`write_reset_rows` prints a plan as CSV with `--export`, and `read_reset_plan` reads such a file.

`readsBack_iff`: where the CSV library reads what it wrote, an exported plan is read back as it was
unless it is empty, or was written without its groups although they are not all the first one that
is selected.
-/

namespace KafkaCli.Groups

open Checked Decimal Run Session Text

/-! ## Writing a plan -/

/-- The CSV library, without headers. A writer holds the bytes of the records serialized so far. -/
structure Csv where
  serialize : List UInt8 → List String → Except String (List UInt8)
  intoInner : List UInt8 → Except String (List UInt8)
  read : String → List (Except String (List String))

/-- The fields of a row; where there is a single group, it is left out. -/
def ResetOffsetRow.fields (singleGroup : Bool) (row : ResetOffsetRow) : List String :=
  if singleGroup then [row.topic, toString row.partition, toString row.newOffset]
  else [row.group, row.topic, toString row.partition, toString row.newOffset]

/-- The text that `write_reset_rows` prints for an export. -/
def resetCsv (csv : Csv) (rows : List ResetOffsetRow) (singleGroup : Bool) : Result String := do
  let bytes ← rows.foldlM (fun bytes row =>
    (csv.serialize bytes (row.fields singleGroup)).mapError fun error =>
      Error.usage s!"cannot export reset CSV: {error}") []
  let bytes ← (csv.intoInner bytes).mapError fun error =>
    Error.usage s!"cannot finish reset CSV: {error}"
  (fromUtf8 bytes).mapError fun error => Error.usage s!"reset CSV is not UTF-8: {error}"

/-! ## What is exported -/

/-- The partition of a row for its group. -/
def ResetOffsetRow.target (row : ResetOffsetRow) : String × String × Int :=
  (row.group, row.topic, row.partition)

/-- A row with a topic, whose partition and offset are numbers of their types and not negative. -/
structure ResetOffsetRow.Valid (row : ResetOffsetRow) : Prop where
  topic_ne : row.topic ≠ ""
  partition_nonneg : 0 ≤ row.partition
  partition_lt : row.partition < 2 ^ 31
  newOffset_nonneg : 0 ≤ row.newOffset
  newOffset_lt : row.newOffset < 2 ^ 63

/-- The file holds a plan as it was exported, and the offsets are still inside of the partitions. -/
structure Exported (host : Host) (csv : Csv) (path : String) (groups : List String)
    (singleGroup : Bool) (rows : List ResetOffsetRow) : Prop where
  distinct : (rows.map ResetOffsetRow.target).Nodup
  valid : ∀ row ∈ rows, row.Valid
  selected : ∀ row ∈ rows, row.group ∈ groups
  file : ∃ text, resetCsv csv rows singleGroup = .ok text ∧
    host.readCsv path = .ok (csv.read text) ∧
    csv.read text = rows.map fun row => .ok (row.fields singleGroup)
  consumer : ∀ t, host.server t (.createConsumer []) = .ok ()
  inside : ∀ row ∈ rows, ∀ t, ∃ watermarks : Watermarks,
    host.server t (.fetchWatermarks row.topic row.partition) = .ok watermarks ∧
      watermarks.low ≤ row.newOffset ∧ row.newOffset ≤ watermarks.high

/-- The plan is read without a change. -/
def ReadsBack (host : Host) (path : String) (groups : List String) (singleGroup : Bool)
    (rows : List ResetOffsetRow) : Prop :=
  ∀ t, ∃ t', (readResetPlan host path groups singleGroup).run t = .ok rows t'

variable {host : Host} {csv : Csv} {path : String} {groups : List String} {singleGroup : Bool}
  {rows done : List ResetOffsetRow} {row : ResetOffsetRow} {t t' : Transcript Reply Error}

/-! ## One row -/

theorem Watermarks.clamp_of_inside {watermarks : Watermarks} {offset : Int}
    (hlow : watermarks.low ≤ offset) (hhigh : offset ≤ watermarks.high) :
    watermarks.clamp offset = offset := by
  rw [Watermarks.clamp]
  omega

theorem parseCsvNumber_ok {parse : String → Except ParseIntError Int} {value : String} {n : Int}
    (h : parse value = .ok n) (index : Nat) (name : String) :
    parseCsvNumber parse value index name = .ok n := by
  rw [parseCsvNumber, h]
  rfl

/-- The fields of a row are read as they were written. -/
theorem readResetRecord_fields (hvalid : row.Valid)
    (hgroup : singleGroup = true → groups.head? = some row.group) (index : Nat) :
    readResetRecord groups singleGroup index (row.fields singleGroup) =
      .ok (row.group, row.topic, row.partition, row.newOffset) := by
  have hpartition : parseI32 (toString row.partition) = .ok row.partition :=
    parseSigned_toString (by have := hvalid.partition_nonneg; omega)
      (by have := hvalid.partition_lt; omega)
  have hoffset : parseI64 (toString row.newOffset) = .ok row.newOffset :=
    parseSigned_toString (by have := hvalid.newOffset_nonneg; omega)
      (by have := hvalid.newOffset_lt; omega)
  rw [ResetOffsetRow.fields]
  generalize toString row.partition = partition at hpartition
  generalize toString row.newOffset = offset at hoffset
  cases singleGroup with
  | true =>
    simp [readResetRecord, hgroup rfl, parseCsvNumber_ok hpartition, parseCsvNumber_ok hoffset]
  | false =>
    simp [readResetRecord, parseCsvNumber_ok hpartition, parseCsvNumber_ok hoffset]

theorem checkResetRecord_ok (hvalid : row.Valid) (hgroup : row.group ∈ groups)
    (hnew : row.target ∉ done.map ResetOffsetRow.target) (index : Nat) :
    checkResetRecord groups done index row.group row.topic row.partition row.newOffset =
      .ok () := by
  have hplace : ¬ (row.topic = "" ∨ row.partition < 0 ∨ row.newOffset < 0) := by
    have hpartition := hvalid.partition_nonneg
    have hoffset := hvalid.newOffset_nonneg
    simp only [hvalid.topic_ne, false_or, not_or]
    omega
  have hseen : ¬ ∃ row' ∈ done, row'.group = row.group ∧ row'.topic = row.topic ∧
      row'.partition = row.partition := by
    intro ⟨row', hmem, hgroup, htopic, hpartition⟩
    apply hnew
    exact List.mem_map.2 ⟨row', hmem, by simp [ResetOffsetRow.target, *]⟩
  exact bind_eq_ok.2 ⟨(), failIf_eq_ok.2 (not_not_intro hgroup),
    bind_eq_ok.2 ⟨(), failIf_eq_ok.2 hplace, failIf_eq_ok.2 hseen⟩⟩

/-- A row that is valid, selected and new is read as it was written. -/
theorem readResetRow_run (h : Exported host csv path groups singleGroup rows) (hmem : row ∈ rows)
    (hgroup : singleGroup = true → groups.head? = some row.group)
    (hnew : row.target ∉ done.map ResetOffsetRow.target) (index : Nat)
    (t : Transcript Reply Error) :
    ∃ t', (readResetRow host groups singleGroup done
      (.ok (row.fields singleGroup), index)).run t = .ok (done ++ [row]) t' := by
  obtain ⟨watermarks, hanswer, hlow, hhigh⟩ := h.inside row hmem t
  have hrecord := readResetRecord_fields (h.valid row hmem) hgroup index
  have hcheck := checkResetRecord_ok (h.valid row hmem) (h.selected row hmem) hnew index
  refine ⟨t ++ [⟨.fetchWatermarks row.topic row.partition, .ok watermarks⟩], ?_⟩
  rw [readResetRow, Except.mapError, bind_of_ok (run_ofExcept_ok _ t), hrecord,
    bind_of_ok (run_ofExcept_ok _ t)]
  simp only [hcheck]
  rw [bind_of_ok (run_ofExcept_ok _ t), Host.ask, bind_of_ok (ask_run_ok hanswer),
    Watermarks.clamp_of_inside hlow hhigh]
  rfl

/-! ## The whole plan -/

/-- The rows that are still to be read are appended to those that were read. -/
theorem foldlM_readResetRow_run (h : Exported host csv path groups singleGroup rows)
    (hgroups : singleGroup = true → ∀ row ∈ rows, groups.head? = some row.group)
    {todo : List ResetOffsetRow} (hrows : done ++ todo = rows) (index : Nat)
    (t : Transcript Reply Error) :
    ∃ t', (((todo.map fun row => .ok (row.fields singleGroup)).zipIdx index).foldlM
      (readResetRow host groups singleGroup) done).run t = .ok rows t' := by
  induction todo generalizing done index t with
  | nil =>
    rw [List.append_nil] at hrows
    subst hrows
    exact ⟨t, rfl⟩
  | cons row todo ih =>
    have hmem : row ∈ rows := by simp [← hrows]
    have hnew : row.target ∉ done.map ResetOffsetRow.target := by
      have hdistinct := h.distinct
      rw [← hrows, List.map_append, List.map_cons, List.nodup_append] at hdistinct
      intro hold
      exact hdistinct.2.2 row.target hold row.target List.mem_cons_self rfl
    obtain ⟨t', hrow⟩ := readResetRow_run h hmem (fun hsingle => hgroups hsingle row hmem) hnew
      index t
    have hrows : (done ++ [row]) ++ todo = rows := by simp [hrows]
    obtain ⟨t'', hrest⟩ := ih hrows (index + 1) t'
    refine ⟨t'', ?_⟩
    rw [List.map_cons, List.zipIdx_cons, List.foldlM_cons, bind_of_ok hrow, hrest]

theorem readsBack_of_groups (h : Exported host csv path groups singleGroup rows) (hne : rows ≠ [])
    (hgroups : singleGroup = true → ∀ row ∈ rows, groups.head? = some row.group) :
    ReadsBack host path groups singleGroup rows := by
  intro t
  obtain ⟨text, -, hfile, hread⟩ := h.file
  obtain ⟨t', hloop⟩ := foldlM_readResetRow_run h hgroups (List.nil_append rows) 0
    (t ++ [⟨.createConsumer [], .ok ()⟩])
  refine ⟨t', ?_⟩
  rw [readResetPlan, hfile, Except.mapError, bind_of_ok (run_ofExcept_ok _ t), Host.ask,
    bind_of_ok (ask_run_ok (h.consumer t)), hread, bind_of_ok hloop, (failIf_eq_ok (u := ())).2 hne,
    bind_of_ok (run_ofExcept_ok _ t')]
  rfl

/-! ## What is read from rows without a group -/

/-- A record of three fields belongs to the first group that is selected. -/
theorem head_of_readResetRecord {index : Nat} {record : List String} (hlength : record.length = 3)
    {entry : String × String × Int × Int}
    (h : readResetRecord groups true index record = .ok entry) :
    groups.head? = some entry.1 := by
  simp only [readResetRecord, hlength, and_true, if_true, Checked.bind_eq_ok] at h
  obtain ⟨group, hgroup, _, -, _, -, hentry⟩ := h
  cases hhead : groups.head? with
  | none => simp [hhead] at hgroup
  | some first =>
    rw [hhead] at hgroup
    cases hgroup
    cases hentry
    rfl

theorem head_of_readResetRow {index : Nat} {record : List String} (hlength : record.length = 3)
    (h : (readResetRow host groups true done (.ok record, index)).run t = .ok rows t') :
    ∀ row ∈ rows, row ∈ done ∨ groups.head? = some row.group := by
  obtain ⟨record', _, hrecord, hread⟩ := Run.bind_eq_ok.1 h
  obtain ⟨⟨group, topic, partition, requested⟩, _, hentry, hchecks⟩ := Run.bind_eq_ok.1 hread
  obtain ⟨_, _, -, hask⟩ := Run.bind_eq_ok.1 hchecks
  obtain ⟨watermarks, _, -, hpure⟩ := Run.bind_eq_ok.1 hask
  cases (eq_of_ofExcept_ok hrecord).1
  have hhead := head_of_readResetRecord hlength (eq_of_ofExcept_ok hentry).1
  cases hpure
  intro row hrow
  rcases List.mem_append.1 hrow with hold | hnew
  · exact .inl hold
  · rw [List.mem_singleton] at hnew
    rw [hnew]
    exact .inr hhead

theorem head_of_foldlM_readResetRow {records : List (List String)}
    (hlength : ∀ record ∈ records, record.length = 3) (index : Nat)
    (h : (((records.map Except.ok).zipIdx index).foldlM (readResetRow host groups true)
      done).run t = .ok rows t') : ∀ row ∈ rows, row ∈ done ∨ groups.head? = some row.group := by
  induction records generalizing done index t with
  | nil =>
    cases h
    exact fun _ => .inl
  | cons record records ih =>
    rw [List.map_cons, List.zipIdx_cons, List.foldlM_cons, Run.bind_eq_ok] at h
    obtain ⟨next, t₁, hfirst, hrest⟩ := h
    have hlater := ih (fun r hr => hlength r (List.mem_cons_of_mem _ hr)) (index + 1) hrest
    intro row hrow
    rcases hlater row hrow with hnext | hhead
    · exact head_of_readResetRow (hlength record List.mem_cons_self) hfirst row hnext
    · exact .inr hhead

theorem groups_of_readsBack (h : Exported host csv path groups singleGroup rows)
    (hback : ReadsBack host path groups singleGroup rows) :
    rows ≠ [] ∧ (singleGroup = true → ∀ row ∈ rows, groups.head? = some row.group) := by
  obtain ⟨t', hrun⟩ := hback []
  obtain ⟨text, -, hfile, hread⟩ := h.file
  obtain ⟨records, _, hrecords, hrun⟩ := Run.bind_eq_ok.1 hrun
  obtain ⟨_, _, -, hrun⟩ := Run.bind_eq_ok.1 hrun
  obtain ⟨read, _, hloop, hrun⟩ := Run.bind_eq_ok.1 hrun
  obtain ⟨_, _, hcheck, hrun⟩ := Run.bind_eq_ok.1 hrun
  have hsame : read = rows := by
    cases hrun
    rfl
  subst hsame
  refine ⟨failIf_eq_ok.1 (eq_of_ofExcept_ok hcheck).1, ?_⟩
  intro hsingle
  subst hsingle
  rw [hfile, hread] at hrecords
  cases (eq_of_ofExcept_ok hrecords).1
  have hfields : (read.map fun row => Except.ok (row.fields true)) =
      (read.map (ResetOffsetRow.fields true)).map (Except.ok (ε := String)) := by simp
  rw [hfields] at hloop
  have hlength : ∀ record ∈ read.map (ResetOffsetRow.fields true), record.length = 3 := by
    intro record hrecord
    obtain ⟨row, -, rfl⟩ := List.mem_map.1 hrecord
    rfl
  intro row hrow
  rcases head_of_foldlM_readResetRow hlength 0 hloop row hrow with hnone | hhead
  · cases hnone
  · exact hhead

/-- **Which exported plans are read back.** A plan that was exported is read as it was exactly when
it is not empty and, if it was written without its groups, all its groups are the first one that is
selected. -/
theorem readsBack_iff (host : Host) (csv : Csv) (path : String) (groups : List String)
    (singleGroup : Bool) (rows : List ResetOffsetRow)
    (h : Exported host csv path groups singleGroup rows) :
    ReadsBack host path groups singleGroup rows ↔
      rows ≠ [] ∧ (singleGroup = true → ∀ row ∈ rows, groups.head? = some row.group) :=
  ⟨groups_of_readsBack h, fun ⟨hne, hgroups⟩ => readsBack_of_groups h hne hgroups⟩

/-! ## Small plans -/

/-- A CSV library for fields that need no quotes. -/
def plainCsv : Csv where
  serialize bytes fields := .ok (bytes ++ encodeUtf8 (",".intercalate fields ++ "\n"))
  intoInner bytes := .ok bytes
  read text := (lines text).map fun line => .ok (split line ',')

/-- A host whose file holds an exported plan. -/
def planHost (rows : List ResetOffsetRow) (singleGroup : Bool) : Host :=
  { hostOf emptyCluster with
    readCsv := fun _ => .ok (match resetCsv plainCsv rows singleGroup with
      | .ok text => plainCsv.read text
      | .error _ => []) }

/-- One partition for two groups. -/
def twoGroups : List ResetOffsetRow :=
  [⟨"billing", "orders", 0, 4⟩, ⟨"shipping", "orders", 0, 7⟩]

theorem resetCsv_twoGroups (singleGroup : Bool) : resetCsv plainCsv twoGroups singleGroup =
    .ok (if singleGroup then "orders,0,4\norders,0,7\n"
      else "billing,orders,0,4\nshipping,orders,0,7\n") := by
  cases singleGroup with
  | true => decide +kernel
  | false => decide +kernel

theorem exported_twoGroups (singleGroup : Bool) : Exported (planHost twoGroups singleGroup) plainCsv
    "plan.csv" ["billing", "shipping"] singleGroup twoGroups where
  distinct := by decide
  valid row hrow := by
    simp only [twoGroups, List.mem_cons, List.not_mem_nil, or_false] at hrow
    rcases hrow with rfl | rfl <;> exact ⟨by decide, by decide, by decide, by decide, by decide⟩
  selected := by decide
  file := by
    refine ⟨_, resetCsv_twoGroups singleGroup, ?_, ?_⟩
    · simp [planHost, resetCsv_twoGroups]
    · cases singleGroup with
      | true => decide +kernel
      | false => decide +kernel
  consumer _ := rfl
  inside row hrow t := by
    refine ⟨⟨0, 10, by decide⟩, rfl, ?_⟩
    simp only [twoGroups, List.mem_cons, List.not_mem_nil, or_false] at hrow
    rcases hrow with rfl | rfl <;> decide

theorem readsBack_twoGroups : ReadsBack (planHost twoGroups false) "plan.csv"
    ["billing", "shipping"] false twoGroups :=
  (readsBack_iff _ _ _ _ _ _ (exported_twoGroups false)).2 ⟨by decide, by simp⟩

theorem exported_nil : Exported (planHost [] true) plainCsv "plan.csv" ["billing"] true [] where
  distinct := by decide
  valid := by simp
  selected := by simp
  file := ⟨"", by decide +kernel, by decide +kernel, by decide +kernel⟩
  consumer _ := rfl
  inside := by simp

/-- An empty plan is refused by the reader, and two groups become one without their names. -/
theorem exported_plans_not_read_back :
    ¬ (Exported (planHost [] true) plainCsv "plan.csv" ["billing"] true [] →
      ReadsBack (planHost [] true) "plan.csv" ["billing"] true []) ∧
    ¬ (Exported (planHost twoGroups true) plainCsv "plan.csv" ["billing", "shipping"] true
        twoGroups →
      ReadsBack (planHost twoGroups true) "plan.csv" ["billing", "shipping"] true twoGroups) := by
  refine ⟨?_, ?_⟩
  · intro h
    exact (groups_of_readsBack exported_nil (h exported_nil)).1 rfl
  · intro h
    have hexported := exported_twoGroups true
    have hgroups := (groups_of_readsBack hexported (h hexported)).2 rfl
      ⟨"shipping", "orders", 0, 7⟩ (by decide)
    simp at hgroups

end KafkaCli.Groups
