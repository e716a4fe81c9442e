import KafkaCli.Lib.MachineInt
import KafkaCli.Reassign.Generate

/-!
# Topic-partition specifications

`offsets --topic-partitions` selects partitions with items such as `orders:0`, `orders:2-5`,
`orders:-3` or `:4-`: an expression for the topic, and a partition or a half-open range.

**Theorem (`selectsExactly_iff`).** A specification is accepted exactly when its items follow this
grammar, and selects what they say, unless an item that follows it is the partition `2147483647`,
whose range has no room for an upper bound, or the items follow it but for a sign before a number.

The numbers of the code are those of `parse_i32`, with a sign. `ItemText` is the grammar for any
kind of numbers; `signedItem_iff` is what the code reads, in these terms.
-/

namespace KafkaCli.Offsets

open Checked Decimal Text

/-! ## The algorithm -/

structure TopicPartitionPattern where
  topic : String → Bool
  start : Option Int
  stop : Option Int

/-- `TopicPartitionPattern::matches`. -/
def TopicPartitionPattern.selects (pattern : TopicPartitionPattern) (topic : String)
    (partition : Int) : Bool :=
  pattern.topic topic && pattern.start.all (· ≤ partition) && pattern.stop.all (partition < ·)

section Algorithm

variable (compile : String → Except String (String → Bool))

/-- `topic_pattern`: the expression must match a whole topic. `compile` reads an expression. -/
def topicPattern (expression : String) : Result (String → Bool) :=
  (compile ("^(?:" ++ expression ++ ")$")).mapError fun error =>
    .usage s!"invalid topic regular expression: {error}"

def parseOptionalPartitionBound (value : String) : Result (Option Int) :=
  if value = "" then .ok none
  else
    match parseI32 value with
    | .ok bound => .ok (some bound)
    | .error _ => .error (.usage s!"invalid partition bound: {value}")

/-- The partitions of an item. -/
def parsePartitionRange (range : String) : Result (Option Int × Option Int) :=
  if range = "" then .ok (none, none)
  else
    match splitOnce range '-' with
    | some (start, stop) => do
      let start ← parseOptionalPartitionBound start
      let stop ← parseOptionalPartitionBound stop
      failIf (start.any (· < 0) ∨ stop.any (· < 0))
        (.usage s!"partition bounds in {range} must be non-negative")
      return (start, stop)
    | none => do
      let partition ← (parseI32 range).mapError fun _ => .usage s!"invalid partition: {range}"
      failIf (partition < 0) (.usage s!"partition {partition} must be non-negative")
      return (some partition, some (saturate32 (partition + 1)))

/-- One item of a specification. -/
def parseTopicPartition (item : String) : Result TopicPartitionPattern := do
  let (topic, partitions) := (splitOnce item ':').getD (item, "")
  let topic ← topicPattern compile (if topic = "" then ".*" else topic)
  let (start, stop) ← parsePartitionRange partitions
  failIf (start.any fun start => stop.any (start ≥ ·))
    (.usage "partition range must be increasing")
  return { topic, start, stop }

def parseTopicPartitionPatterns (value : String) : Result (List TopicPartitionPattern) :=
  (Reassign.splitJavaList value).mapM (parseTopicPartition compile)

end Algorithm

/-! ## The grammar -/

/-- Some partitions. -/
inductive Range
  | all
  | one (partition : ℕ)
  | between (start stop : Option ℕ)

def Range.Contains (partition : Int) : Range → Prop
  | .all => True
  | .one n => partition = n
  | .between start stop => (∀ n ∈ start, (n : Int) ≤ partition) ∧ ∀ n ∈ stop, partition < n

/-- A kind of numbers: the texts that stand for one. -/
abbrev Numbers := String → ℕ → Prop

/-- A bound of a range is a number, or missing. -/
def IsBound (numbers : Numbers) (text : String) : Option ℕ → Prop
  | none => text = ""
  | some n => numbers text n

/-- The text of a range. A partition and a lower bound are `lower` numbers, an upper bound is an
`upper` one. -/
inductive RangeText (lower upper : Numbers) : String → Range → Prop
  | all : RangeText lower upper "" .all
  | one {text : String} {n : ℕ} : lower text n → RangeText lower upper text (.one n)
  | between {first last : String} {start stop : Option ℕ} :
    IsBound lower first start → IsBound upper last stop →
      (∀ a ∈ start, ∀ b ∈ stop, a < b) →
        RangeText lower upper (first ++ ("-" ++ last)) (.between start stop)

/-- The expression for a topic is accepted; an empty one stands for every topic. -/
def AcceptsTopic (compile : String → Except String (String → Bool)) (expression : String) : Prop :=
  expression = "" ∨ ∃ pattern, topicPattern compile expression = .ok pattern

/-- The topic is one that the expression stands for. -/
def MatchesTopic (compile : String → Except String (String → Bool)) (expression topic : String) :
    Prop :=
  expression = "" ∨
    ∃ pattern, topicPattern compile expression = .ok pattern ∧ pattern topic = true

/-- The text of an item: an expression without a colon, and a range behind a colon, if any. -/
inductive ItemText (compile : String → Except String (String → Bool)) (lower upper : Numbers) :
    String → String → Range → Prop
  | topic {expression : String} : ':' ∉ expression.toList → AcceptsTopic compile expression →
    ItemText compile lower upper expression expression .all
  | range {expression text : String} {range : Range} : ':' ∉ expression.toList →
    AcceptsTopic compile expression → RangeText lower upper text range →
      ItemText compile lower upper (expression ++ (":" ++ text)) expression range

/-- A number of the grammar: digits, and not too large. -/
def Digits (text : String) (n : ℕ) : Prop := IsNumeral text n ∧ n ≤ 2 ^ 31 - 1

instance (text : String) (n : ℕ) : Decidable (Digits text n) := inferInstanceAs (Decidable (_ ∧ _))

/-- A number with or without a plus sign. -/
def PlusDigits (text : String) (n : ℕ) : Prop :=
  Digits text n ∨ ∃ digits, text = "+" ++ digits ∧ Digits digits n

/-- A number with or without a plus sign, or zero with a minus sign. -/
def SignedDigits (text : String) (n : ℕ) : Prop :=
  PlusDigits text n ∨ ∃ digits, text = "-" ++ digits ∧ Digits digits n ∧ n = 0

/-- All items of the specification follow the grammar, with some kinds of numbers. -/
def AllItems (compile : String → Except String (String → Bool)) (lower upper : Numbers)
    (value : String) : Prop :=
  ∀ item ∈ Reassign.splitJavaList value,
    ∃ expression range, ItemText compile lower upper item expression range

/-- The specification is accepted exactly when its items follow the grammar, and a partition is
selected exactly when it is one of an item. -/
def SelectsExactly (compile : String → Except String (String → Bool)) (value : String) : Prop :=
  ((∃ patterns, parseTopicPartitionPatterns compile value = .ok patterns) ↔
    AllItems compile Digits Digits value) ∧
  ∀ patterns, parseTopicPartitionPatterns compile value = .ok patterns →
    ∀ (topic : String) (partition : Int), '\n' ∉ topic.toList → 0 ≤ partition →
      ((∃ pattern ∈ patterns, pattern.selects topic partition = true) ↔
        ∃ item ∈ Reassign.splitJavaList value, ∃ expression range,
          ItemText compile Digits Digits item expression range ∧
            MatchesTopic compile expression topic ∧ range.Contains partition)

/-! ## Numbers -/

/-- A number that is not negative is read with a plus sign, or as a zero with a minus sign. -/
theorem parseI32_eq_ok_iff {text : String} {n : ℕ} :
    parseI32 text = .ok (n : Int) ↔ SignedDigits text n := by
  rw [parseI32, parseSigned_eq_ok]
  refine ⟨?_, ?_⟩
  · rintro ⟨digits, m, hnumeral, ⟨rfl | rfl, hlimit, hn⟩ | ⟨rfl, hlimit, hn⟩⟩
    · obtain rfl : n = m := by omega
      exact .inl (.inl ⟨hnumeral, hlimit⟩)
    · obtain rfl : n = m := by omega
      exact .inl (.inr ⟨digits, rfl, hnumeral, hlimit⟩)
    · obtain rfl : n = m := by omega
      exact .inr ⟨digits, rfl, ⟨hnumeral, by omega⟩, by omega⟩
  · rintro ((⟨hnumeral, hlimit⟩ | ⟨digits, rfl, hnumeral, hlimit⟩) |
      ⟨digits, rfl, ⟨hnumeral, hlimit⟩, rfl⟩)
    · exact ⟨text, n, hnumeral, .inl ⟨.inl rfl, hlimit, rfl⟩⟩
    · exact ⟨digits, n, hnumeral, .inl ⟨.inr rfl, hlimit, rfl⟩⟩
    · exact ⟨digits, 0, hnumeral, .inr ⟨rfl, by omega, rfl⟩⟩

theorem Digits.not_mem {text : String} {n : ℕ} (h : Digits text n) {c : Char}
    (hc : c.isDigit = false) : c ∉ text.toList := by
  intro hmem
  rw [h.1.digits c hmem] at hc
  cases hc

/-- Without a minus sign the sign is a plus sign, or missing. -/
theorem SignedDigits.plus {text : String} {n : ℕ} (h : SignedDigits text n)
    (hminus : '-' ∉ text.toList) : PlusDigits text n := by
  rcases h with h | ⟨digits, rfl, _⟩
  · exact h
  · exact absurd (by simp) hminus

theorem PlusDigits.not_mem_minus {text : String} {n : ℕ} (h : PlusDigits text n) :
    '-' ∉ text.toList := by
  rcases h with h | ⟨digits, rfl, h⟩
  · exact h.not_mem (by decide)
  · have hdigits := h.not_mem (c := '-') (by decide)
    simpa using hdigits

theorem PlusDigits.digits {text : String} {n : ℕ} (h : PlusDigits text n)
    (hplus : '+' ∉ text.toList) : Digits text n := by
  rcases h with h | ⟨digits, rfl, _⟩
  · exact h
  · exact absurd (by simp) hplus

/-! ## Ranges -/

/-- The bounds of a range. -/
def Range.bounds : Range → Option Int × Option Int
  | .all => (none, none)
  | .one n => (some n, some (n + 1))
  | .between start stop => (start.map Nat.cast, stop.map Nat.cast)

/-- The bounds are such that no partition is between them. -/
def Decreasing (bounds : Option Int × Option Int) : Prop :=
  (bounds.1.any fun start => bounds.2.any (start ≥ ·)) = true

theorem parseOptionalPartitionBound_iff {text : String} {bound : Option ℕ} :
    parseOptionalPartitionBound text = .ok (bound.map Nat.cast) ↔
      IsBound SignedDigits text bound := by
  rw [parseOptionalPartitionBound]
  cases bound with
  | none =>
    split_ifs with hempty
    · exact iff_of_true rfl hempty
    · refine iff_of_false ?_ hempty
      cases parseI32 text <;> simp
  | some n =>
    rw [IsBound, ← parseI32_eq_ok_iff]
    split_ifs with hempty
    · subst hempty
      exact iff_of_false (by simp) (by simp [parseI32, parseSigned])
    · cases parseI32 text <;> simp

/-- A bound that is not negative. -/
theorem exists_bound {text : String} {bound : Option Int}
    (h : parseOptionalPartitionBound text = .ok bound) (hnonneg : ¬ bound.any (· < 0)) :
    ∃ n : Option ℕ, bound = n.map Nat.cast ∧ IsBound SignedDigits text n := by
  cases bound with
  | none => exact ⟨none, rfl, parseOptionalPartitionBound_iff.1 h⟩
  | some x =>
    obtain ⟨n, rfl⟩ : ∃ n : ℕ, x = n := Int.eq_ofNat_of_zero_le (by simpa using hnonneg)
    exact ⟨some n, rfl, parseOptionalPartitionBound_iff.1 h⟩

theorem decreasing_map_iff {start stop : Option ℕ} :
    Decreasing (start.map Nat.cast, stop.map Nat.cast) ↔ ¬ ∀ a ∈ start, ∀ b ∈ stop, a < b := by
  cases start <;> cases stop <;> simp [Decreasing]

theorem saturate32_succ {n : ℕ} (h : n < 2 ^ 31 - 1) : saturate32 ((n : Int) + 1) = n + 1 := by
  rw [saturate32]
  omega

/-- **The ranges that are read**, with their bounds. -/
theorem of_parsePartitionRange {text : String} {bounds : Option Int × Option Int}
    (h : parsePartitionRange text = .ok bounds) (hincreasing : ¬ Decreasing bounds) :
    ∃ range, RangeText PlusDigits SignedDigits text range ∧ range ≠ .one (2 ^ 31 - 1) ∧
      bounds = range.bounds := by
  rw [parsePartitionRange] at h
  split_ifs at h with hempty
  · cases h
    exact ⟨.all, hempty ▸ .all, by simp, rfl⟩
  · cases hsplit : splitOnce text '-' with
    | some pieces =>
      obtain ⟨first, last⟩ := pieces
      obtain ⟨hfirst, rfl⟩ := splitOnce_eq_some.1 hsplit
      simp only [hsplit, bind_eq_ok, failIf_eq_ok, pure_eq_ok, not_or] at h
      obtain ⟨start, hstart, stop, hstop, _, ⟨hstartNonneg, hstopNonneg⟩, rfl⟩ := h
      obtain ⟨lower, rfl, hlower⟩ := exists_bound hstart hstartNonneg
      obtain ⟨upper, rfl, hupper⟩ := exists_bound hstop hstopNonneg
      rw [decreasing_map_iff, not_not] at hincreasing
      refine ⟨.between lower upper, .between ?_ hupper hincreasing, by simp, rfl⟩
      cases lower with
      | none => exact hlower
      | some n => exact SignedDigits.plus hlower hfirst
    | none =>
      simp only [hsplit, bind_eq_ok, failIf_eq_ok, pure_eq_ok, mapError_eq_ok] at h
      obtain ⟨partition, hparse, _, hnonneg, rfl⟩ := h
      obtain ⟨n, rfl⟩ := Int.eq_ofNat_of_zero_le (Int.not_lt.1 hnonneg)
      have hnumber := (parseI32_eq_ok_iff.1 hparse).plus (splitOnce_eq_none.1 hsplit)
      have hsmall : n < 2 ^ 31 - 1 := by
        by_contra hlarge
        refine hincreasing ?_
        have hcut : saturate32 ((n : Int) + 1) ≤ n := by
          rw [saturate32]
          omega
        rw [Decreasing, Option.any_some, Option.any_some, decide_eq_true_eq]
        exact hcut
      refine ⟨.one n, .one hnumber, ?_, ?_⟩
      · intro heq
        rw [Range.one.injEq] at heq
        exact absurd heq (Nat.ne_of_lt hsmall)
      · rw [saturate32_succ hsmall]
        rfl

/-- A partition is read, except for the last one of all. -/
theorem parsePartitionRange_one {text : String} {n : ℕ} (hnumber : PlusDigits text n)
    (hlast : n ≠ 2 ^ 31 - 1) : parsePartitionRange text = .ok (Range.one n).bounds := by
  have hne : text ≠ "" := by
    rintro rfl
    have hempty := parseI32_eq_ok_iff.2 (Or.inl hnumber)
    simp [parseI32, parseSigned] at hempty
  have hsmall : n < 2 ^ 31 - 1 := by
    have hle : n ≤ 2 ^ 31 - 1 := by
      rcases hnumber with hdigits | ⟨_, _, hdigits⟩ <;> exact hdigits.2
    omega
  have hparse := parseI32_eq_ok_iff.2 (Or.inl hnumber)
  have hnonneg : ¬ (n : Int) < 0 := by omega
  rw [parsePartitionRange, if_neg hne, splitOnce_eq_none.2 hnumber.not_mem_minus, hparse]
  simp only [Except.mapError, ok_bind, failIf, hnonneg, if_false, saturate32_succ hsmall]
  rfl

/-- Two bounds are read. -/
theorem parsePartitionRange_between {first last : String} {start stop : Option ℕ}
    (hstart : IsBound PlusDigits first start) (hstop : IsBound SignedDigits last stop) :
    parsePartitionRange (first ++ ("-" ++ last)) = .ok (Range.between start stop).bounds := by
  have hfirst : '-' ∉ first.toList := by
    cases start with
    | none =>
      rw [show first = "" from hstart]
      simp
    | some n => exact PlusDigits.not_mem_minus hstart
  have hstartSigned : IsBound SignedDigits first start := by
    cases start with
    | none => exact hstart
    | some n => exact .inl hstart
  have hsplit : splitOnce (first ++ ("-" ++ last)) '-' = some (first, last) :=
    splitOnce_append hfirst last
  have hne : first ++ ("-" ++ last) ≠ "" := by simp
  have hnonneg : ¬ ((start.map (Nat.cast : ℕ → Int)).any (· < 0) = true ∨
      (stop.map (Nat.cast : ℕ → Int)).any (· < 0) = true) := by
    cases start <;> cases stop <;> simp
  rw [parsePartitionRange, if_neg hne, hsplit]
  simp only [parseOptionalPartitionBound_iff.2 hstartSigned,
    parseOptionalPartitionBound_iff.2 hstop, ok_bind]
  rw [failIf, if_neg hnonneg]
  rfl

/-- Every range is read, except for the last partition of all. -/
theorem parsePartitionRange_of_rangeText {text : String} {range : Range}
    (h : RangeText PlusDigits SignedDigits text range) (hlast : range ≠ .one (2 ^ 31 - 1)) :
    parsePartitionRange text = .ok range.bounds ∧ ¬ Decreasing range.bounds := by
  cases h with
  | all => exact ⟨rfl, by simp [Decreasing, Range.bounds]⟩
  | @one _ n hnumber =>
    have hincreasing : ¬ Decreasing (Range.one n).bounds := by
      simp only [Decreasing, Range.bounds, Option.any_some, decide_eq_true_eq]
      omega
    exact ⟨parsePartitionRange_one hnumber fun heq => hlast (heq ▸ rfl), hincreasing⟩
  | @between first last start stop hstart hstop hlt =>
    refine ⟨parsePartitionRange_between hstart hstop, ?_⟩
    rw [Range.bounds, decreasing_map_iff, not_not]
    exact hlt

/-! ## Items -/

/-- The range of an item: what stands behind its first colon. -/
def rangeOf (item : String) : String := ((splitOnce item ':').getD (item, "")).2

section Items

variable {compile : String → Except String (String → Bool)} {lower upper : Numbers}

theorem ItemText.split {item expression : String} {range : Range}
    (h : ItemText compile lower upper item expression range) :
    ((splitOnce item ':').getD (item, "")).1 = expression ∧ AcceptsTopic compile expression ∧
      RangeText lower upper (rangeOf item) range := by
  cases h with
  | topic hcolon haccepts =>
    rw [rangeOf, splitOnce_eq_none.2 hcolon]
    exact ⟨rfl, haccepts, .all⟩
  | @range _ text _ hcolon haccepts hrange =>
    have hsplit : splitOnce (expression ++ (":" ++ text)) ':' = some (expression, text) :=
      splitOnce_append hcolon text
    rw [rangeOf, hsplit]
    exact ⟨rfl, haccepts, hrange⟩

theorem itemText_of_split (hlower : ∀ n, ¬ lower "" n) {item expression text : String}
    {range : Range} (hsplit : (splitOnce item ':').getD (item, "") = (expression, text))
    (haccepts : AcceptsTopic compile expression) (hrange : RangeText lower upper text range) :
    ItemText compile lower upper item expression range := by
  cases hcolon : splitOnce item ':' with
  | none =>
    rw [hcolon, Option.getD_none, Prod.mk.injEq] at hsplit
    obtain ⟨rfl, rfl⟩ := hsplit
    generalize hempty : "" = text at hrange
    cases hrange with
    | all => exact .topic (splitOnce_eq_none.1 hcolon) haccepts
    | one hnumber => exact absurd (hempty ▸ hnumber) (hlower _)
    | between _ _ _ => exact absurd hempty (by simp)
  | some pieces =>
    rw [hcolon, Option.getD_some] at hsplit
    subst hsplit
    obtain ⟨hfirst, rfl⟩ := splitOnce_eq_some.1 hcolon
    exact .range hfirst haccepts hrange

theorem not_plusDigits_empty (n : ℕ) : ¬ PlusDigits "" n := by
  intro h
  have hparse := parseI32_eq_ok_iff.2 (Or.inl h)
  simp [parseI32, parseSigned] at hparse

theorem not_digits_empty (n : ℕ) : ¬ Digits "" n := fun h => not_plusDigits_empty n (.inl h)

/-- The range has no sign in front of a number. -/
def Signless (text : String) : Prop := '+' ∉ text.toList ∧ text.toList.count '-' ≤ 1

instance (text : String) : Decidable (Signless text) := inferInstanceAs (Decidable (_ ∧ _))

theorem RangeText.of_one {text : String} {n : ℕ} (h : RangeText lower upper text (.one n)) :
    lower text n := by
  cases h with
  | one hnumber => exact hnumber

/-- Without signs the numbers are those of the grammar. -/
theorem RangeText.digits {text : String} {range : Range}
    (h : RangeText PlusDigits SignedDigits text range) (hsign : Signless text) :
    RangeText Digits Digits text range := by
  cases h with
  | all => exact .all
  | one hnumber => exact .one (hnumber.digits hsign.1)
  | @between first last start stop hstart hstop hlt =>
    obtain ⟨hplus, hminus⟩ := hsign
    simp only [String.toList_append, List.mem_append, not_or] at hplus
    simp only [String.toList_append, List.count_append] at hminus
    have hlast : '-' ∉ last.toList := by
      rw [← List.count_eq_zero]
      have hone : "-".toList.count '-' = 1 := by decide
      omega
    refine .between ?_ ?_ hlt
    · cases start with
      | none => exact hstart
      | some n => exact PlusDigits.digits hstart hplus.1
    · cases stop with
      | none => exact hstop
      | some n => exact (SignedDigits.plus hstop hlast).digits hplus.2.2

theorem IsBound.not_mem {text : String} {bound : Option ℕ} (h : IsBound Digits text bound)
    {c : Char} (hc : c.isDigit = false) : c ∉ text.toList := by
  cases bound with
  | none =>
    rw [show text = "" from h]
    simp
  | some n => exact Digits.not_mem h hc

/-- Numbers of the grammar have no signs. -/
theorem RangeText.signless {text : String} {range : Range}
    (h : RangeText Digits Digits text range) : Signless text := by
  cases h with
  | all => decide
  | one hnumber =>
    refine ⟨hnumber.not_mem (by decide), ?_⟩
    rw [List.count_eq_zero.2 (hnumber.not_mem (by decide))]
    exact Nat.zero_le 1
  | @between first last start stop hstart hstop _ =>
    have hplus : '+' ∉ first.toList := hstart.not_mem (by decide)
    have hplus' : '+' ∉ last.toList := hstop.not_mem (by decide)
    have hminus : first.toList.count '-' = 0 := List.count_eq_zero.2 (hstart.not_mem (by decide))
    have hminus' : last.toList.count '-' = 0 := List.count_eq_zero.2 (hstop.not_mem (by decide))
    rw [Signless, String.toList_append, String.toList_append, List.mem_append, List.mem_append,
      not_or, not_or, List.count_append, List.count_append, hminus, hminus']
    exact ⟨⟨hplus, by decide, hplus'⟩, by decide⟩

/-- Numbers of the grammar are numbers of the code. -/
theorem RangeText.signed {text : String} {range : Range} (h : RangeText Digits Digits text range) :
    RangeText PlusDigits SignedDigits text range := by
  cases h with
  | all => exact .all
  | one hnumber => exact .one (.inl hnumber)
  | @between first last start stop hstart hstop hlt =>
    refine .between ?_ ?_ hlt
    · cases start with
      | none => exact hstart
      | some n => exact .inl hstart
    · cases stop with
      | none => exact hstop
      | some n => exact .inl (.inl hstop)

/-- The text of the last partition of all is no other range. -/
theorem RangeText.eq_one {text : String} {range : Range} {n : ℕ}
    (h : RangeText PlusDigits SignedDigits text range) (hnumber : PlusDigits text n) :
    range = .one n := by
  cases h with
  | all => exact absurd hnumber (not_plusDigits_empty n)
  | one hother =>
    have hsame := (parseI32_eq_ok_iff.2 (Or.inl hother)).symm.trans
      (parseI32_eq_ok_iff.2 (Or.inl hnumber))
    rw [Except.ok.injEq, Int.ofNat_inj] at hsame
    rw [hsame]
  | between _ _ _ =>
    have hminus := hnumber.not_mem_minus
    simp at hminus

end Items

/-! ## Patterns -/

/-- `.*` stands for every topic, since a topic is one line. -/
def AnyTopic (compile : String → Except String (String → Bool)) : Prop :=
  ∃ pattern, topicPattern compile ".*" = .ok pattern ∧
    ∀ topic : String, '\n' ∉ topic.toList → pattern topic = true

section Patterns

variable {compile : String → Except String (String → Bool)}

theorem exists_topicPattern (hany : AnyTopic compile) {expression : String}
    (h : AcceptsTopic compile expression) :
    ∃ pattern, topicPattern compile (if expression = "" then ".*" else expression) = .ok pattern ∧
      ∀ topic : String, '\n' ∉ topic.toList →
        (pattern topic = true ↔ MatchesTopic compile expression topic) := by
  by_cases hempty : expression = ""
  · obtain ⟨pattern, hpattern, hall⟩ := hany
    refine ⟨pattern, by rw [if_pos hempty, hpattern], ?_⟩
    intro topic htopic
    exact iff_of_true (hall topic htopic) (.inl hempty)
  · obtain ⟨pattern, hpattern⟩ := h.resolve_left hempty
    refine ⟨pattern, by rw [if_neg hempty, hpattern], ?_⟩
    intro topic _
    refine ⟨fun h => .inr ⟨pattern, hpattern, h⟩, ?_⟩
    rintro (hnil | ⟨other, hother, hmatch⟩)
    · exact absurd hnil hempty
    · rw [hpattern, Except.ok.injEq] at hother
      rw [hother, hmatch]

/-- A pattern selects what the expression and the range of its item say. -/
def Selects (compile : String → Except String (String → Bool)) (pattern : TopicPartitionPattern)
    (expression : String) (range : Range) : Prop :=
  ∀ (topic : String) (partition : Int), '\n' ∉ topic.toList →
    (pattern.selects topic partition = true ↔
      MatchesTopic compile expression topic ∧ range.Contains partition)

theorem contains_iff {range : Range} {partition : Int} :
    (range.bounds.1.all (· ≤ partition) && range.bounds.2.all (partition < ·)) = true ↔
      range.Contains partition := by
  cases range with
  | all => simp [Range.bounds, Range.Contains]
  | one n =>
    simp only [Range.bounds, Range.Contains, Option.all_some, Bool.and_eq_true, decide_eq_true_eq]
    omega
  | between start stop => cases start <;> cases stop <;> simp [Range.bounds, Range.Contains]

/-- Every item of the grammar is read, with signs, except for the last partition of all. -/
theorem parseTopicPartition_of_itemText (hany : AnyTopic compile) {item expression : String}
    {range : Range} (h : ItemText compile PlusDigits SignedDigits item expression range)
    (hlast : range ≠ .one (2 ^ 31 - 1)) :
    ∃ pattern, parseTopicPartition compile item = .ok pattern ∧
      Selects compile pattern expression range := by
  obtain ⟨hexpression, haccepts, hrange⟩ := h.split
  obtain ⟨pattern, hpattern, hmatches⟩ := exists_topicPattern hany haccepts
  obtain ⟨hbounds, hincreasing⟩ := parsePartitionRange_of_rangeText hrange hlast
  refine ⟨⟨pattern, range.bounds.1, range.bounds.2⟩, ?_, ?_⟩
  · rw [Decreasing] at hincreasing
    rw [rangeOf] at hbounds
    simp only [parseTopicPartition, hexpression, hpattern, hbounds, ok_bind, failIf,
      hincreasing]
    rfl
  · intro topic partition htopic
    rw [← hmatches topic htopic, ← contains_iff, TopicPartitionPattern.selects, Bool.and_assoc,
      Bool.and_eq_true]

/-- What is read is an item of the grammar, with signs, and not the last partition of all. -/
theorem of_parseTopicPartition {item : String} {pattern : TopicPartitionPattern}
    (h : parseTopicPartition compile item = .ok pattern) :
    ∃ expression range, ItemText compile PlusDigits SignedDigits item expression range ∧
      range ≠ .one (2 ^ 31 - 1) := by
  simp only [parseTopicPartition, bind_eq_ok, failIf_eq_ok, pure_eq_ok] at h
  obtain ⟨pattern, hpattern, bounds, hbounds, _, hincreasing, _⟩ := h
  obtain ⟨range, hrange, hlast, _⟩ := of_parsePartitionRange hbounds hincreasing
  refine ⟨_, range, itemText_of_split not_plusDigits_empty rfl ?_ hrange, hlast⟩
  by_cases hempty : ((splitOnce item ':').getD (item, "")).1 = ""
  · exact .inl hempty
  · rw [if_neg hempty] at hpattern
    exact .inr ⟨pattern, hpattern⟩

end Patterns

/-! ## The theorem -/

section Theorem

variable (compile : String → Except String (String → Bool))

/-- Exactly the specifications are accepted whose items follow the grammar of the code. -/
theorem parseTopicPartitionPatterns_ok_iff (hany : AnyTopic compile) {value : String} :
    (∃ patterns, parseTopicPartitionPatterns compile value = .ok patterns) ↔
      AllItems compile PlusDigits SignedDigits value ∧
        ∀ item ∈ Reassign.splitJavaList value, ¬ PlusDigits (rangeOf item) (2 ^ 31 - 1) := by
  rw [parseTopicPartitionPatterns, exists_mapM_ok_iff]
  refine ⟨?_, ?_⟩
  · intro h
    refine ⟨?_, ?_⟩
    · intro item hitem
      obtain ⟨pattern, hpattern⟩ := h item hitem
      obtain ⟨expression, range, htext, _⟩ := of_parseTopicPartition hpattern
      exact ⟨expression, range, htext⟩
    · intro item hitem hlast
      obtain ⟨pattern, hpattern⟩ := h item hitem
      obtain ⟨expression, range, htext, hne⟩ := of_parseTopicPartition hpattern
      exact hne (htext.split.2.2.eq_one hlast)
  · intro h item hitem
    obtain ⟨hall, hlast⟩ := h
    obtain ⟨expression, range, htext⟩ := hall item hitem
    have hne : range ≠ .one (2 ^ 31 - 1) := by
      rintro rfl
      exact hlast item hitem htext.split.2.2.of_one
    obtain ⟨pattern, hpattern, _⟩ := parseTopicPartition_of_itemText hany htext hne
    exact ⟨pattern, hpattern⟩

variable {compile}

theorem ItemText.digits {item expression : String} {range : Range}
    (h : ItemText compile PlusDigits SignedDigits item expression range)
    (hsign : Signless (rangeOf item)) : ItemText compile Digits Digits item expression range := by
  obtain ⟨rfl, haccepts, hrange⟩ := h.split
  exact itemText_of_split not_digits_empty rfl haccepts (hrange.digits hsign)

theorem ItemText.signed {item expression : String} {range : Range}
    (h : ItemText compile Digits Digits item expression range) :
    ItemText compile PlusDigits SignedDigits item expression range := by
  obtain ⟨rfl, haccepts, hrange⟩ := h.split
  exact itemText_of_split not_plusDigits_empty rfl haccepts hrange.signed

/-- Where the items follow the grammar, the patterns select what the items say. -/
theorem exists_selects_iff (hany : AnyTopic compile) {value : String}
    (hitems : AllItems compile Digits Digits value) {patterns : List TopicPartitionPattern}
    (h : parseTopicPartitionPatterns compile value = .ok patterns) {topic : String}
    {partition : Int} (htopic : '\n' ∉ topic.toList) :
    (∃ pattern ∈ patterns, pattern.selects topic partition = true) ↔
      ∃ item ∈ Reassign.splitJavaList value, ∃ expression range,
        ItemText compile Digits Digits item expression range ∧
          MatchesTopic compile expression topic ∧ range.Contains partition := by
  have hselects : ∀ item pattern, parseTopicPartition compile item = .ok pattern →
      ∀ expression range, ItemText compile Digits Digits item expression range →
        Selects compile pattern expression range := by
    intro item pattern hpattern expression range htext
    obtain ⟨_, other, hother, hne⟩ := of_parseTopicPartition hpattern
    have hlast : range ≠ .one (2 ^ 31 - 1) := by
      rintro rfl
      exact hne (hother.split.2.2.eq_one htext.signed.split.2.2.of_one)
    obtain ⟨pattern', hpattern', hsel⟩ := parseTopicPartition_of_itemText hany htext.signed hlast
    rw [hpattern, Except.ok.injEq] at hpattern'
    exact hpattern' ▸ hsel
  refine ⟨?_, ?_⟩
  · intro ⟨pattern, hmem, hselected⟩
    obtain ⟨item, hitem, hpattern⟩ := (mem_mapM_ok h).1 hmem
    obtain ⟨expression, range, htext⟩ := hitems item hitem
    have hsel := hselects item pattern hpattern expression range htext topic partition htopic
    exact ⟨item, hitem, expression, range, htext, hsel.1 hselected⟩
  · intro ⟨item, hitem, expression, range, htext, hmatch⟩
    obtain ⟨pattern, hpattern⟩ := exists_mapM_ok_iff.1 ⟨patterns, h⟩ item hitem
    have hsel := hselects item pattern hpattern expression range htext topic partition htopic
    exact ⟨pattern, (mem_mapM_ok h).2 ⟨item, hitem, hpattern⟩, hsel.2 hmatch⟩

variable (compile)

/-- **When a specification selects what its grammar says.** No item that follows the grammar is the
last partition of all, and where all items follow it but for signs, and none is that partition,
there are no signs. -/
theorem selectsExactly_iff (hany : AnyTopic compile) (value : String) :
    SelectsExactly compile value ↔
      (AllItems compile Digits Digits value →
        ∀ item ∈ Reassign.splitJavaList value, ¬ Digits (rangeOf item) (2 ^ 31 - 1)) ∧
      (AllItems compile PlusDigits SignedDigits value →
        (∀ item ∈ Reassign.splitJavaList value, ¬ PlusDigits (rangeOf item) (2 ^ 31 - 1)) →
          ∀ item ∈ Reassign.splitJavaList value, Signless (rangeOf item)) := by
  have hok : (∃ patterns, parseTopicPartitionPatterns compile value = .ok patterns) ↔ _ :=
    parseTopicPartitionPatterns_ok_iff compile hany
  refine ⟨?_, ?_⟩
  · intro h
    obtain ⟨haccepted, _⟩ := h
    rw [hok] at haccepted
    refine ⟨?_, ?_⟩
    · intro hitems item hitem hlast
      exact (haccepted.2 hitems).2 item hitem (.inl hlast)
    · intro hsigned hlast item hitem
      obtain ⟨expression, range, htext⟩ := haccepted.1 ⟨hsigned, hlast⟩ item hitem
      exact htext.split.2.2.signless
  · intro h
    obtain ⟨hlast, hsigns⟩ := h
    have haccepted : (∃ patterns, parseTopicPartitionPatterns compile value = .ok patterns) ↔
        AllItems compile Digits Digits value := by
      rw [hok]
      refine ⟨?_, ?_⟩
      · intro h item hitem
        obtain ⟨hsigned, hne⟩ := h
        obtain ⟨expression, range, htext⟩ := hsigned item hitem
        exact ⟨expression, range, htext.digits (hsigns hsigned hne item hitem)⟩
      · intro hitems
        refine ⟨?_, ?_⟩
        · intro item hitem
          obtain ⟨expression, range, htext⟩ := hitems item hitem
          exact ⟨expression, range, htext.signed⟩
        · intro item hitem hnumber
          obtain ⟨expression, range, htext⟩ := hitems item hitem
          have hsign := htext.split.2.2.signless
          exact hlast hitems item hitem (hnumber.digits hsign.1)
    refine ⟨haccepted, ?_⟩
    intro patterns hpatterns topic partition htopic _
    exact exists_selects_iff hany (haccepted.1 ⟨patterns, hpatterns⟩) hpatterns htopic

end Theorem

/-- Expressions that are the name of a topic, or `.*`. -/
def compileName (expression : String) : Except String (String → Bool) :=
  if expression = "^(?:.*)$" then .ok fun topic => '\n' ∉ topic.toList
  else .ok fun topic => expression = "^(?:" ++ topic ++ ")$"

theorem anyTopic_compileName : AnyTopic compileName :=
  ⟨_, rfl, fun _ htopic => decide_eq_true htopic⟩

theorem selectsExactly_iff_ranges : SelectsExactly compileName "orders:2-5,:7,payments" :=
  (selectsExactly_iff compileName anyTopic_compileName "orders:2-5,:7,payments").2
    ⟨fun _ => by decide, fun _ _ => by decide⟩

/-- The last partition of all is refused. -/
theorem not_selectsExactly :
    ¬ ∀ compile value, AnyTopic compile → SelectsExactly compile value := by
  intro h
  have hlast : Digits "2147483647" (2 ^ 31 - 1) := by decide
  have hitems : Reassign.splitJavaList "orders:2147483647" = ["orders:2147483647"] := by decide
  have hall : AllItems compileName Digits Digits "orders:2147483647" := by
    have htext : "orders:2147483647" = "orders" ++ (":" ++ "2147483647") := by decide
    rw [AllItems, hitems, List.forall_mem_singleton, htext]
    exact ⟨_, _, .range (by decide) (.inr ⟨_, rfl⟩) (.one hlast)⟩
  obtain ⟨_, hrefused⟩ := (parseTopicPartitionPatterns_ok_iff compileName anyTopic_compileName).1
    ((h compileName "orders:2147483647" anyTopic_compileName).1.2 hall)
  rw [hitems, List.forall_mem_singleton] at hrefused
  exact hrefused (.inl hlast)

end KafkaCli.Offsets
