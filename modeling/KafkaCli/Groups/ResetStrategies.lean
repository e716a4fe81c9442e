import KafkaCli.Share.Reset
import KafkaCli.Streams.ApplicationReset

/-!
# Three resets, the same strategies

The offsets of consumer groups, of share groups and of applications are reset by three pieces of
code, each with strategies of its own. `ResetStrategy.offset` says what a strategy means: the
offset that it gives, in terms of the watermarks of a partition, of its committed offset and of the
offset at a point in time.

* `resetTarget_of_options`, `shareResetTarget_of_options`, `inputOffset_of_options`: each piece of
  code follows the strategies that it has.
* `plannedOffsets_inside`: the new offset lies inside the partition, unless the current one is
  kept.
-/

namespace KafkaCli.Groups

open Share Streams

/-! ## Strategies -/

inductive ResetStrategy
  | earliest
  | latest
  | toOffset (offset : Int)
  | shiftBy (shift : Int)
  | current
  /-- A datetime or a duration. -/
  | timestamp
  deriving DecidableEq

/-- The offset that a strategy gives. -/
def ResetStrategy.offset (watermarks : Watermarks) (committed : Int) (found : Option Int) :
    ResetStrategy → Int
  | .earliest => watermarks.low
  | .latest => watermarks.high
  | .toOffset offset => watermarks.clamp offset
  | .shiftBy shift => watermarks.clamp (committed + shift)
  | .current => committed
  | .timestamp => found.getD watermarks.high

/-- The options that choose a target. -/
structure TargetOptions where
  toEarliest : Bool := false
  toLatest : Bool := false
  toOffset : Option Int := none
  shiftBy : Option Int := none
  toCurrent : Bool := false
  atTime : Bool := false

/-- The options of a strategy; the command line accepts one of them and no other. -/
def ResetStrategy.options : ResetStrategy → TargetOptions
  | .earliest => { toEarliest := true }
  | .latest => { toLatest := true }
  | .toOffset offset => { toOffset := some offset }
  | .shiftBy shift => { shiftBy := some shift }
  | .current => { toCurrent := true }
  | .timestamp => { atTime := true }

def resetOptions (args : ResetOffsetsArgs) : TargetOptions where
  toEarliest := args.toEarliest
  toLatest := args.toLatest
  toOffset := args.toOffset
  shiftBy := args.shiftBy
  toCurrent := args.toCurrent
  atTime := args.toDatetime.isSome || args.byDuration.isSome

def shareResetOptions (args : ShareGroupResetOffsetsArgs) : TargetOptions where
  toEarliest := args.toEarliest
  toLatest := args.toLatest
  toOffset := args.toOffset
  toCurrent := args.toCurrent
  atTime := args.toDatetime.isSome

def applicationResetOptions (args : StreamsApplicationResetArgs) : TargetOptions where
  toEarliest := args.toEarliest
  toLatest := args.toLatest
  toOffset := args.toOffset
  shiftBy := args.shiftBy
  atTime := args.toDatetime.isSome || args.byDuration.isSome

/-! ## Arithmetic -/

variable {watermarks : Watermarks}

theorem Watermarks.clamp_inside (watermarks : Watermarks) (offset : Int) :
    watermarks.low ≤ watermarks.clamp offset ∧ watermarks.clamp offset ≤ watermarks.high := by
  have hle := watermarks.low_le_high
  rw [Watermarks.clamp]
  omega

/-- The sum may be cut off at the range of its type: the watermarks lie within it. -/
theorem Watermarks.clamp_saturate64 (hlow : Fits64 watermarks.low) (hhigh : Fits64 watermarks.high)
    (offset : Int) : watermarks.clamp (saturate64 offset) = watermarks.clamp offset := by
  have hle := watermarks.low_le_high
  rw [Fits64] at hlow hhigh
  rw [Watermarks.clamp, Watermarks.clamp, saturate64]
  omega

/-! ## Each reset -/

section Agree

variable {committed timestampOffsets : Option (List PartitionOffset)} {topic : String}
  {partition offset : Int} {strategy : ResetStrategy}

theorem resetTarget_of_options {args : ResetOffsetsArgs}
    (hoptions : resetOptions args = strategy.options)
    (htimestamp : timestampOffsets.isSome = (resetOptions args).atTime)
    (hcommitted : committedOffset committed topic partition = some offset)
    (hlow : Fits64 watermarks.low) (hhigh : Fits64 watermarks.high) :
    resetTarget args committed timestampOffsets topic partition watermarks = .ok
      (strategy.offset watermarks offset (committedOffset timestampOffsets topic partition)) := by
  rw [hoptions] at htimestamp
  have hclamp := Watermarks.clamp_saturate64 hlow hhigh
  cases strategy <;>
    simp only [resetOptions, ResetStrategy.options, TargetOptions.mk.injEq]
      at hoptions htimestamp <;>
    obtain ⟨hearliest, hlatest, htoOffset, hshiftBy, hcurrent, -⟩ := hoptions <;>
    simp [resetTarget, ResetStrategy.offset, shiftedOffset, *]

theorem shareResetTarget_of_options {args : ShareGroupResetOffsetsArgs}
    {currentOffsets : ShareOffsets} (hoptions : shareResetOptions args = strategy.options)
    (htimestamp : timestampOffsets.isSome = (shareResetOptions args).atTime)
    (hcurrent : currentOffsets[(topic, partition)]? = some offset) :
    shareResetTarget args currentOffsets timestampOffsets topic partition watermarks = .ok
      (strategy.offset watermarks offset (committedOffset timestampOffsets topic partition)) := by
  rw [hoptions] at htimestamp
  cases strategy <;>
    simp only [shareResetOptions, ResetStrategy.options, TargetOptions.mk.injEq]
      at hoptions htimestamp <;>
    obtain ⟨hearliest, hlatest, htoOffset, hshiftBy, hcurrent', -⟩ := hoptions <;>
    simp [shareResetTarget, ResetStrategy.offset, Std.TreeMap.getD_eq_getD_getElem?, *] at *

theorem inputOffset_of_options {args : StreamsApplicationResetArgs} {sources : ResetSources}
    (hoptions : applicationResetOptions args = strategy.options) (hplan : sources.plan = none)
    (htimestamp : sources.timestampOffsets.isSome = (applicationResetOptions args).atTime)
    (hcommitted : committedOffset sources.committed topic partition = some offset)
    (hlow : Fits64 watermarks.low) (hhigh : Fits64 watermarks.high) :
    inputOffset args sources topic partition watermarks = .ok (strategy.offset watermarks offset
      (committedOffset sources.timestampOffsets topic partition)) := by
  rw [hoptions] at htimestamp
  have hclamp := Watermarks.clamp_saturate64 hlow hhigh
  cases strategy <;>
    simp only [applicationResetOptions, ResetStrategy.options, TargetOptions.mk.injEq]
      at hoptions htimestamp <;>
    obtain ⟨hearliest, hlatest, htoOffset, hshiftBy, hcurrent', -⟩ := hoptions <;>
    simp [inputOffset, ResetStrategy.offset, *] at *

end Agree

/-! ## Inside the partition -/

/-- The offset lies inside the partition. -/
def Watermarks.Inside (watermarks : Watermarks) (offset : Int) : Prop :=
  watermarks.low ≤ offset ∧ offset ≤ watermarks.high

section Inside

variable {committed timestampOffsets : Option (List PartitionOffset)} {topic : String}
  {partition n : Int}

theorem inside_low (watermarks : Watermarks) : watermarks.Inside watermarks.low :=
  ⟨Int.le_refl _, watermarks.low_le_high⟩

theorem inside_high (watermarks : Watermarks) : watermarks.Inside watermarks.high :=
  ⟨watermarks.low_le_high, Int.le_refl _⟩

theorem inside_getD {found : Option Int} (hfound : ∀ n, found = some n → watermarks.Inside n) :
    watermarks.Inside (found.getD watermarks.high) := by
  cases hn : found with
  | none => exact inside_high watermarks
  | some n => exact hfound n hn

variable (hfound : ∀ n, committedOffset timestampOffsets topic partition = some n →
  watermarks.Inside n)

include hfound

theorem resetTarget_inside {args : ResetOffsetsArgs}
    (h : resetTarget args committed timestampOffsets topic partition watermarks = .ok n) :
    watermarks.Inside n ∨ args.toCurrent ∧ committedOffset committed topic partition = some n := by
  rw [resetTarget] at h
  split at h
  · cases h
    exact .inl (inside_low watermarks)
  split at h
  · cases h
    exact .inl (inside_high watermarks)
  split at h
  · cases h
    exact .inl (watermarks.clamp_inside _)
  · cases hcommitted : committedOffset committed topic partition with
    | none =>
      rw [hcommitted] at h
      cases h
    | some offset =>
      rw [hcommitted] at h
      cases h
      exact .inl (watermarks.clamp_inside _)
  split at h
  · next hcurrent =>
    cases hcommitted : committedOffset committed topic partition with
    | none =>
      rw [hcommitted] at h
      cases h
    | some offset =>
      rw [hcommitted] at h
      cases h
      exact .inr ⟨hcurrent, rfl⟩
  split at h
  · cases h
    exact .inl (inside_getD hfound)
  · cases h

theorem shareResetTarget_inside {args : ShareGroupResetOffsetsArgs} {currentOffsets : ShareOffsets}
    (h : shareResetTarget args currentOffsets timestampOffsets topic partition watermarks = .ok n) :
    watermarks.Inside n ∨ args.toCurrent ∧ currentOffsets[(topic, partition)]? = some n := by
  rw [shareResetTarget] at h
  split at h
  · cases h
    exact .inl (inside_low watermarks)
  split at h
  · cases h
    exact .inl (inside_high watermarks)
  split at h
  · cases h
    exact .inl (watermarks.clamp_inside _)
  split at h
  · next hcurrent =>
    rw [Std.TreeMap.getD_eq_getD_getElem?] at h
    cases hoffset : currentOffsets[(topic, partition)]? with
    | none =>
      rw [hoffset] at h
      cases h
      exact .inl (inside_high watermarks)
    | some offset =>
      rw [hoffset] at h
      cases h
      exact .inr ⟨hcurrent, rfl⟩
  split at h
  · cases h
    exact .inl (inside_getD hfound)
  · cases h

theorem inputOffset_inside {args : StreamsApplicationResetArgs} {plan : Option ResetPlan}
    (h : inputOffset args ⟨plan, committed, timestampOffsets⟩ topic partition watermarks = .ok n) :
    watermarks.Inside n := by
  rw [inputOffset] at h
  split at h
  · next plan _ =>
    cases hplan : plan.lookup (topic, partition) with
    | none =>
      rw [hplan] at h
      cases h
    | some offset =>
      rw [hplan] at h
      cases h
      exact watermarks.clamp_inside _
  · cases h
    exact watermarks.clamp_inside _
  split at h
  · cases h
    exact inside_high watermarks
  split at h
  · cases h
    exact watermarks.clamp_inside _
  split at h
  · cases h
    exact inside_getD hfound
  · cases h
    exact inside_low watermarks

end Inside

/-- Each planned row of a share group is for a partition with its watermarks, inside of them unless
it keeps the current offset. -/
theorem planShareReset_inside {args : ShareGroupResetOffsetsArgs} {currentOffsets : ShareOffsets}
    {fetchWatermarks : String → Int → Result Watermarks} {partitions : List (String × Int)}
    {timestampOffsets : Option (List PartitionOffset)} {rows : List ResetOffsetRow}
    (hfound : ∀ topic partition watermarks, fetchWatermarks topic partition = .ok watermarks →
      ∀ n, committedOffset timestampOffsets topic partition = some n → watermarks.Inside n)
    (h : planShareReset args fetchWatermarks currentOffsets timestampOffsets partitions =
      .ok rows) :
    ∀ row ∈ rows, ∃ watermarks, fetchWatermarks row.topic row.partition = .ok watermarks ∧
      (watermarks.Inside row.newOffset ∨ args.toCurrent ∧
        currentOffsets[(row.topic, row.partition)]? = some row.newOffset) := by
  intro row hrow
  obtain ⟨⟨topic, partition⟩, -, hplanned⟩ := (Checked.mem_mapM_ok h).1 hrow
  simp only [Checked.bind_eq_ok, Checked.pure_eq_ok] at hplanned
  obtain ⟨watermarks, hwatermarks, n, htarget, rfl⟩ := hplanned
  exact ⟨watermarks, hwatermarks,
    shareResetTarget_inside (hfound topic partition watermarks hwatermarks) htarget⟩

/-! ## Main result -/

/-- **New offsets lie inside the partition**, unless the current one is kept; no sum overflows, and
where the three resets have a strategy in common, they give the same offset. -/
theorem plannedOffsets_inside (watermarks : Watermarks) (hlow : Fits64 watermarks.low)
    (hhigh : Fits64 watermarks.high) (committed timestampOffsets : Option (List PartitionOffset))
    (currentOffsets : ShareOffsets) (topic : String) (partition : Int)
    (hfound : ∀ n, committedOffset timestampOffsets topic partition = some n →
      watermarks.Inside n) :
    (∀ args n, resetTarget args committed timestampOffsets topic partition watermarks = .ok n →
      watermarks.Inside n ∨
        args.toCurrent ∧ committedOffset committed topic partition = some n) ∧
    (∀ args n,
      shareResetTarget args currentOffsets timestampOffsets topic partition watermarks = .ok n →
        watermarks.Inside n ∨ args.toCurrent ∧ currentOffsets[(topic, partition)]? = some n) ∧
    (∀ args plan (isInput : Bool) n, (if isInput then
        inputOffset args ⟨plan, committed, timestampOffsets⟩ topic partition watermarks
        else .ok watermarks.high) = .ok n → watermarks.Inside n) ∧
    (∀ offset shift, Fits64 (saturate64 (offset + shift)) ∧
      watermarks.clamp (saturate64 (offset + shift)) = watermarks.clamp (offset + shift)) ∧
    ∀ (strategy : ResetStrategy) (offset : Int),
      timestampOffsets.isSome = strategy.options.atTime →
      committedOffset committed topic partition = some offset →
      currentOffsets[(topic, partition)]? = some offset → ∃ n,
        (∀ args, resetOptions args = strategy.options →
          resetTarget args committed timestampOffsets topic partition watermarks = .ok n) ∧
        (∀ args, shareResetOptions args = strategy.options → shareResetTarget args currentOffsets
          timestampOffsets topic partition watermarks = .ok n) ∧
        ∀ args, applicationResetOptions args = strategy.options →
          inputOffset args ⟨none, committed, timestampOffsets⟩ topic partition watermarks =
            .ok n := by
  refine ⟨fun args n => resetTarget_inside hfound, fun args n => shareResetTarget_inside hfound,
    ?_, ?_, ?_⟩
  · intro args plan isInput n h
    cases isInput with
    | true => exact inputOffset_inside hfound h
    | false =>
      cases h
      exact inside_high watermarks
  · intro offset shift
    refine ⟨?_, Watermarks.clamp_saturate64 hlow hhigh _⟩
    rw [Fits64, saturate64]
    omega
  · intro strategy offset htimestamp hcommitted hcurrent
    refine ⟨strategy.offset watermarks offset (committedOffset timestampOffsets topic partition),
      ?_, ?_, ?_⟩
    · intro args hoptions
      exact resetTarget_of_options hoptions (hoptions ▸ htimestamp) hcommitted hlow hhigh
    · intro args hoptions
      exact shareResetTarget_of_options hoptions (hoptions ▸ htimestamp) hcurrent
    · intro args hoptions
      exact inputOffset_of_options hoptions rfl (hoptions ▸ htimestamp) hcommitted hlow hhigh

/-- A shift beyond the end stops there. -/
theorem plannedOffsets_inside_shift :
    Watermarks.Inside ⟨3, 10, by decide⟩ 10 := by
  have hresult : resetTarget { shiftBy := some 5 } (some [⟨"t", 0, some 8⟩]) none "t" 0
      ⟨3, 10, by decide⟩ = .ok 10 := by rfl
  refine ((plannedOffsets_inside ⟨3, 10, by decide⟩ (by simp [Fits64]) (by simp [Fits64])
    (some [⟨"t", 0, some 8⟩]) none ∅ "t" 0 nofun).1 _ _ hresult).elim id ?_
  rintro ⟨⟨⟩, -⟩

/-- A current offset below the first one of the partition is kept. -/
theorem plannedOffset_current_outside :
    ¬ ∀ (watermarks : Watermarks) (args : ResetOffsetsArgs) (committed : List PartitionOffset)
      (topic : String) (partition n : Int),
      resetTarget args (some committed) none topic partition watermarks = .ok n →
        watermarks.Inside n := by
  intro h
  have hinside := h ⟨3, 10, by decide⟩ { toCurrent := true } [⟨"t", 0, some 1⟩] "t" 0 1 rfl
  exact absurd hinside.1 (by decide)

end KafkaCli.Groups
