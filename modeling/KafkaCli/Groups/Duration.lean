import KafkaCli.Groups.ResetTarget

/-!
# ISO-8601 durations

`parse_iso8601_duration_millis` reads `--by-duration`. A duration (`IsDuration`) is `P` with a
number of days, a `T` with hours, minutes and seconds, or both, where a `T` is followed by one of
its components at least.

The parser takes the components off the text one after the other, and `Scanned` says which texts
it gets through. These are the durations, and the days with a `T` that nothing follows.

Main result: `parseIso8601DurationMillis_iff`.
-/

namespace KafkaCli.Groups

open Checked Decimal Text

/-! ## The grammar -/

/-- A component that may be left out: a number and its letter. -/
inductive Component (letter : Char) : String → Option Int → Prop
  | absent : Component letter "" none
  | present {digits : String} {amount : Int} (hparse : parseI64 digits = .ok amount) :
    Component letter (digits ++ String.singleton letter) (some amount)

structure DurationParts where
  days : Option Int := none
  hours : Option Int := none
  minutes : Option Int := none
  seconds : Option Int := none

def DurationParts.hasTime (parts : DurationParts) : Bool :=
  parts.hours.isSome || parts.minutes.isSome || parts.seconds.isSome

/-- The components of a time, in their order. -/
inductive TimeText : String → DurationParts → Prop
  | mk {hours minutes seconds : String} {parts : DurationParts}
    (hhours : Component 'H' hours parts.hours) (hminutes : Component 'M' minutes parts.minutes)
    (hseconds : Component 'S' seconds parts.seconds) :
    TimeText (hours ++ (minutes ++ seconds)) parts

/-- A duration: a date, or a time that may have a date in front of it. -/
inductive IsDuration : String → DurationParts → Prop
  | date {date : String} {days : Int} (hdays : Component 'D' date (some days)) :
    IsDuration ("P" ++ date) { days := some days }
  | time {date time : String} {parts : DurationParts} (hdays : Component 'D' date parts.days)
    (htext : TimeText time parts) (htime : parts.hasTime) :
    IsDuration ("P" ++ (date ++ (String.singleton 'T' ++ time))) parts

namespace DurationParts

variable (parts : DurationParts)

/-- The seconds of the days and the hours, and so on: the sums as they are made. -/
def throughDays : Int := parts.days.getD 0 * 86400
def throughHours : Int := parts.throughDays + parts.hours.getD 0 * 3600
def throughMinutes : Int := parts.throughHours + parts.minutes.getD 0 * 60
def total : Int := parts.throughMinutes + parts.seconds.getD 0 * 1

def millis : Int := parts.total * 1000

/-- The products and the sums are 64-bit integers, and the duration is not negative. -/
structure Fits : Prop where
  throughDays : Fits64 parts.throughDays
  hours : Fits64 (parts.hours.getD 0 * 3600)
  throughHours : Fits64 parts.throughHours
  minutes : Fits64 (parts.minutes.getD 0 * 60)
  throughMinutes : Fits64 parts.throughMinutes
  seconds : Fits64 (parts.seconds.getD 0 * 1)
  total : Fits64 parts.total
  nonneg : 0 ≤ parts.total
  millis : Fits64 parts.millis

end DurationParts

/-! ## Components -/

variable {letter : Char} {text : String} {amount : Option Int}

theorem Component.mem (h : Component letter text amount) {c : Char} (hc : c ∈ text.toList) :
    c = letter ∨ c.isDigit ∨ c = '+' ∨ c = '-' := by
  cases h with
  | absent => simp at hc
  | present hparse =>
    rw [String.toList_append, List.mem_append] at hc
    rcases hc with hc | hc
    · exact .inr (isDigit_of_parseSigned hparse c hc)
    · exact .inl (by simpa using hc)

/-- The character does not occur in a number. -/
def IsLetter (c : Char) : Prop := c.isDigit = false ∧ c ≠ '+' ∧ c ≠ '-'

instance (c : Char) : Decidable (IsLetter c) :=
  inferInstanceAs (Decidable (c.isDigit = false ∧ c ≠ '+' ∧ c ≠ '-'))

/-- The letters of the components do not occur in one another. -/
theorem Component.not_mem (h : Component letter text amount) {c : Char} (hne : c ≠ letter)
    (hletter : IsLetter c) : c ∉ text.toList := by
  intro hc
  rcases h.mem hc with heq | hdigit | heq | heq
  · exact hne heq
  · rw [hletter.1] at hdigit
    cases hdigit
  · exact hletter.2.1 heq
  · exact hletter.2.2 heq

theorem Component.eq_empty (h : Component letter text none) : text = "" := by
  cases h
  rfl

theorem Component.ne_empty {n : Int} (h : Component letter text (some n)) : text ≠ "" := by
  cases h with
  | present => simp

theorem durationSeconds_eq_ok {x y : Int} : durationSeconds x = .ok y ↔ Fits64 x ∧ x = y := by
  rw [durationSeconds, ← checked64_eq_some]
  cases checked64 x <;> simp

theorem parseDurationDays_eq_ok {n : Int} : parseDurationDays text = .ok n ↔
    ∃ amount, Component 'D' text amount ∧ amount.getD 0 = n := by
  refine ⟨?_, ?_⟩
  · intro h
    rw [parseDurationDays] at h
    by_cases hempty : text = ""
    · rw [if_pos hempty] at h
      cases h
      exact ⟨none, hempty ▸ .absent, rfl⟩
    · rw [if_neg hempty] at h
      cases hstrip : stripSuffix text "D" with
      | none =>
        rw [hstrip] at h
        cases h
      | some digits =>
        rw [hstrip] at h
        obtain rfl := stripSuffix_eq_some.1 hstrip
        exact ⟨some n, .present (mapError_eq_ok.1 h), rfl⟩
  · rintro ⟨amount, hcomponent, rfl⟩
    rw [parseDurationDays]
    cases hcomponent with
    | absent => rfl
    | @present digits amount hparse =>
      have hstrip : stripSuffix (digits ++ String.singleton 'D') "D" = some digits :=
        stripSuffix_eq_some.2 rfl
      rw [if_neg (Component.present hparse).ne_empty, hstrip]
      exact mapError_eq_ok.2 hparse

/-! ## The time -/

variable {state state' : DurationState} {unit : Int}

/-- One step takes a component off the text that is left, or leaves a text without its letter. -/
theorem parseDurationPart_eq_ok (hletter : IsLetter letter) (hfits : Fits64 state.totalSeconds) :
    parseDurationPart state (letter, unit) = .ok state' ↔
      ∃ text amount, Component letter text amount ∧ state.rest = text ++ state'.rest ∧
        (amount = none → letter ∉ state.rest.toList) ∧
        state'.hadTime = (state.hadTime || amount.isSome) ∧
        state'.totalSeconds = state.totalSeconds + amount.getD 0 * unit ∧
        Fits64 (amount.getD 0 * unit) ∧ Fits64 state'.totalSeconds := by
  rw [parseDurationPart]
  cases hsplit : splitOnce state.rest letter with
  | none =>
    have hmem := splitOnce_eq_none.1 hsplit
    refine ⟨?_, ?_⟩
    · rintro ⟨⟩
      exact ⟨"", none, .absent, by simp, fun _ => hmem, by simp, by simp,
        by simp [Fits64], hfits⟩
    · rintro ⟨text, amount, hcomponent, hrest, -, htime, htotal, -, -⟩
      cases hcomponent with
      | absent =>
        obtain ⟨rest', hadTime', total'⟩ := state'
        obtain ⟨rest, hadTime, total⟩ := state
        simp_all
      | present => exact absurd (by simp [hrest]) hmem
  | some pieces =>
    obtain ⟨digits, rest⟩ := pieces
    obtain ⟨hdigits, hrest⟩ := splitOnce_eq_some.1 hsplit
    simp only [bind_eq_ok, mapError_eq_ok, durationSeconds_eq_ok, pure_eq_ok]
    refine ⟨?_, ?_⟩
    · rintro ⟨n, hparse, _, ⟨hseconds, rfl⟩, _, ⟨htotal, rfl⟩, rfl⟩
      exact ⟨_, some n, .present hparse, by rw [hrest, String.append_assoc], by simp, by simp, rfl,
        hseconds, htotal⟩
    · rintro ⟨text, amount, hcomponent, hrest', hnone, htime, htotal, hseconds, hfits'⟩
      cases hcomponent with
      | absent => exact absurd (by simp [hrest]) (hnone rfl)
      | @present digits' n hparse =>
        have hdigits' : letter ∉ digits'.toList := fun hmem =>
          (isDigit_of_parseSigned hparse letter hmem).elim (by simp [hletter.1])
            (·.elim hletter.2.1 hletter.2.2)
        rw [String.append_assoc] at hrest'
        rw [splitOnce_eq_some.2 ⟨hdigits', hrest'⟩] at hsplit
        cases hsplit
        obtain ⟨rest', hadTime', total'⟩ := state'
        refine ⟨n, hparse, _, ⟨hseconds, rfl⟩, _, ⟨?_, rfl⟩, ?_⟩
        · rwa [htotal] at hfits'
        · simp_all

/-- What is left after the three steps is nothing exactly where the text is a time. -/
theorem foldlM_parseDurationPart {days : Option Int} {time : String}
    (hdays : Fits64 (days.getD 0 * 86400)) :
    ([('H', 3600), ('M', 60), ('S', 1)].foldlM parseDurationPart
        { rest := time, hadTime := false, totalSeconds := days.getD 0 * 86400 } = .ok state ∧
      state.rest = "") ↔
    ∃ parts : DurationParts, parts.days = days ∧ TimeText time parts ∧
      state = { rest := "", hadTime := parts.hasTime, totalSeconds := parts.total } ∧
      Fits64 (parts.hours.getD 0 * 3600) ∧ Fits64 parts.throughHours ∧
      Fits64 (parts.minutes.getD 0 * 60) ∧ Fits64 parts.throughMinutes ∧
      Fits64 (parts.seconds.getD 0 * 1) ∧ Fits64 parts.total := by
  refine ⟨?_, ?_⟩
  · rintro ⟨h, hend⟩
    simp only [List.foldlM_cons, List.foldlM_nil, bind_eq_ok, pure_eq_ok] at h
    obtain ⟨state₁, hhours, state₂, hminutes, state₃, hseconds, rfl⟩ := h
    obtain ⟨hours, h, hcomponent, hrest, -, htime, htotal, hproduct, hsum⟩ :=
      (parseDurationPart_eq_ok (by decide) hdays).1 hhours
    obtain ⟨minutes, m, hcomponent₂, hrest₂, -, htime₂, htotal₂, hproduct₂, hsum₂⟩ :=
      (parseDurationPart_eq_ok (by decide) hsum).1 hminutes
    obtain ⟨seconds, s, hcomponent₃, hrest₃, -, htime₃, htotal₃, hproduct₃, hsum₃⟩ :=
      (parseDurationPart_eq_ok (by decide) hsum₂).1 hseconds
    have htext : time = hours ++ (minutes ++ seconds) := by
      rw [hend, String.append_empty] at hrest₃
      rw [hrest₃] at hrest₂
      rw [hrest₂] at hrest
      exact hrest
    have hstate : state₃ = ⟨"", h.isSome || m.isSome || s.isSome,
        days.getD 0 * 86400 + h.getD 0 * 3600 + m.getD 0 * 60 + s.getD 0 * 1⟩ := by
      obtain ⟨rest, hadTime, totalSeconds⟩ := state₃
      rw [DurationState.mk.injEq]
      refine ⟨hend, htime₃.trans ?_, htotal₃.trans ?_⟩
      · rw [htime₂, htime, Bool.false_or]
      · rw [htotal₂, htotal]
    rw [htotal₂, htotal] at hsum₂
    rw [htotal₃, htotal₂, htotal] at hsum₃
    rw [htotal] at hsum
    exact ⟨⟨days, h, m, s⟩, rfl, htext ▸ .mk hcomponent hcomponent₂ hcomponent₃, hstate,
      hproduct, hsum, hproduct₂, hsum₂, hproduct₃, hsum₃⟩
  · rintro ⟨parts, rfl, htext, rfl, hproduct, hsum, hproduct₂, hsum₂, hproduct₃, hsum₃⟩
    obtain @⟨hours, minutes, seconds, _, hhours, hminutes, hseconds⟩ := htext
    refine ⟨?_, rfl⟩
    simp only [List.foldlM_cons, List.foldlM_nil, bind_eq_ok, pure_eq_ok]
    refine ⟨⟨minutes ++ seconds, parts.hours.isSome, parts.throughHours⟩, ?_,
      ⟨seconds, parts.hours.isSome || parts.minutes.isSome, parts.throughMinutes⟩, ?_,
      ⟨"", parts.hasTime, parts.total⟩, ?_, rfl⟩
    · refine (parseDurationPart_eq_ok (by decide) hdays).2
        ⟨_, parts.hours, hhours, rfl, fun hnone => ?_, by simp, rfl, hproduct, hsum⟩
      rw [hnone] at hhours
      have hmem : 'H' ∉ minutes.toList := hminutes.not_mem (by decide) (by decide)
      have hmem' : 'H' ∉ seconds.toList := hseconds.not_mem (by decide) (by decide)
      simp [hhours.eq_empty, hmem, hmem']
    · refine (parseDurationPart_eq_ok (by decide) hsum).2
        ⟨_, parts.minutes, hminutes, rfl, fun hnone => ?_, rfl, rfl, hproduct₂, hsum₂⟩
      rw [hnone] at hminutes
      have hmem : 'M' ∉ seconds.toList := hseconds.not_mem (by decide) (by decide)
      simp [hminutes.eq_empty, hmem]
    · refine (parseDurationPart_eq_ok (by decide) hsum₂).2
        ⟨_, parts.seconds, hseconds, by simp, fun hnone => ?_, rfl, rfl, hproduct₃, hsum₃⟩
      rw [hnone] at hseconds
      simp [hseconds.eq_empty]

/-! ## What the parser gets through -/

/-- A date, or a date and a time of which one has a component at least. -/
inductive Scanned : String → DurationParts → Prop
  | date {date : String} {days : Int} (hdays : Component 'D' date (some days)) :
    Scanned ("P" ++ date) { days := some days }
  | time {date time : String} {parts : DurationParts} (hdays : Component 'D' date parts.days)
    (htext : TimeText time parts) (hsome : parts.days.isSome ∨ parts.hasTime) :
    Scanned ("P" ++ (date ++ (String.singleton 'T' ++ time))) parts

/-- The parser behind the split at the `T`. -/
def parseDurationPieces (days time : String) : Result Int := do
  let seconds ← parseDurationDays days
  let totalSeconds ← durationSeconds (seconds * 86400)
  let state ← [('H', 3600), ('M', 60), ('S', 1)].foldlM parseDurationPart
    { rest := time, hadTime := false, totalSeconds }
  failIf (days = "" ∧ state.hadTime = false)
    (.usage "ISO-8601 duration must include a day or time component (for example PT0S or P0D)")
  failIf (state.rest ≠ "" ∨ state.totalSeconds < 0) (.usage "invalid ISO-8601 duration")
  durationSeconds (state.totalSeconds * 1000)

variable {value date time : String} {millis : Int}

theorem Component.eq_empty_iff (h : Component letter text amount) : text = "" ↔ amount = none := by
  cases h with
  | absent => simp
  | present hparse => simp

theorem parseDurationPieces_eq_ok : parseDurationPieces date time = .ok millis ↔
    ∃ parts : DurationParts, Component 'D' date parts.days ∧ TimeText time parts ∧
      (parts.days.isSome ∨ parts.hasTime) ∧ parts.Fits ∧ millis = parts.millis := by
  rw [parseDurationPieces]
  simp only [bind_eq_ok, failIf_eq_ok, parseDurationDays_eq_ok, durationSeconds_eq_ok]
  refine ⟨?_, ?_⟩
  · rintro ⟨_, ⟨days, hdays, rfl⟩, _, ⟨hfits, rfl⟩, state, hscan, -, hsome, -, hend, hmillis, rfl⟩
    obtain ⟨hrest, hnonneg⟩ := not_or.1 hend
    obtain ⟨parts, rfl, htext, rfl, hproduct, hsum, hproduct₂, hsum₂, hproduct₃, hsum₃⟩ :=
      (foldlM_parseDurationPart hfits).1 ⟨hscan, not_not.1 hrest⟩
    refine ⟨parts, hdays, htext, ?_, ⟨hfits, hproduct, hsum, hproduct₂, hsum₂, hproduct₃, hsum₃,
      Int.not_lt.1 hnonneg, hmillis⟩, rfl⟩
    rw [hdays.eq_empty_iff] at hsome
    cases hd : parts.days with
    | some days => exact .inl rfl
    | none => exact .inr (by simpa [hd] using hsome)
  · rintro ⟨parts, hdays, htext, hsome, hfits, rfl⟩
    obtain ⟨hscan, -⟩ := (foldlM_parseDurationPart hfits.throughDays).2
      ⟨parts, rfl, htext, rfl, hfits.hours, hfits.throughHours, hfits.minutes,
        hfits.throughMinutes, hfits.seconds, hfits.total⟩
    refine ⟨_, ⟨_, hdays, rfl⟩, _, ⟨hfits.throughDays, rfl⟩, _, hscan, (), ?_, (), ?_, hfits.millis,
      rfl⟩
    · rw [hdays.eq_empty_iff]
      rintro ⟨hnone, hnotime⟩
      simp [hnone, show parts.hasTime = false from hnotime] at hsome
    · simpa using hfits.nonneg

theorem parseIso8601DurationMillis_eq : parseIso8601DurationMillis value =
    (stripPrefix value "P").elim (.error (.usage "--by-duration must start with P")) fun value =>
      parseDurationPieces ((splitOnce value 'T').getD (value, "")).1
        ((splitOnce value 'T').getD (value, "")).2 := by
  rw [parseIso8601DurationMillis]
  cases stripPrefix value "P" <;> rfl

theorem TimeText.empty (days : Option Int) : TimeText "" { days } := by
  have htext : TimeText ("" ++ ("" ++ "")) { days } := .mk .absent .absent .absent
  simpa using htext

/-- A time without text has no components. -/
theorem TimeText.eq_of_empty {parts : DurationParts} (h : TimeText time parts)
    (hempty : time = "") : parts = { days := parts.days } := by
  obtain ⟨hhours, hminutes, hseconds⟩ := h
  obtain ⟨hempty, hempty'⟩ := String.append_eq_empty_iff.1 hempty
  obtain ⟨hempty', hempty''⟩ := String.append_eq_empty_iff.1 hempty'
  obtain ⟨days, h, m, s⟩ := parts
  rw [DurationParts.mk.injEq]
  exact ⟨rfl, hhours.eq_empty_iff.1 hempty, hminutes.eq_empty_iff.1 hempty',
    hseconds.eq_empty_iff.1 hempty''⟩

/-- **What is accepted**: the texts the parser gets through. -/
theorem parseIso8601DurationMillis_eq_ok : parseIso8601DurationMillis value = .ok millis ↔
    ∃ parts, Scanned value parts ∧ parts.Fits ∧ millis = parts.millis := by
  rw [parseIso8601DurationMillis_eq]
  refine ⟨?_, ?_⟩
  · intro h
    cases hstrip : stripPrefix value "P" with
    | none =>
      rw [hstrip] at h
      cases h
    | some rest =>
      obtain rfl := stripPrefix_eq_some.1 hstrip
      rw [hstrip, Option.elim_some, parseDurationPieces_eq_ok] at h
      obtain ⟨parts, hdays, htext, hsome, hfits, hmillis⟩ := h
      refine ⟨parts, ?_, hfits, hmillis⟩
      cases hsplit : splitOnce rest 'T' with
      | none =>
        rw [hsplit, Option.getD_none] at hdays htext
        have hparts := htext.eq_of_empty rfl
        cases hd : parts.days with
        | none =>
          rw [hparts, hd] at hsome
          simp [DurationParts.hasTime] at hsome
        | some days =>
          rw [hd] at hparts hdays
          rw [hparts]
          exact .date hdays
      | some pieces =>
        rw [hsplit, Option.getD_some] at hdays htext
        rw [(splitOnce_eq_some.1 hsplit).2]
        exact .time hdays htext hsome
  · rintro ⟨parts, hscanned, hfits, hmillis⟩
    cases hscanned with
    | @date date days hdays =>
      rw [stripPrefix_eq_some.2 rfl, Option.elim_some,
        splitOnce_eq_none.2 (hdays.not_mem (by decide) (by decide)), Option.getD_none,
        parseDurationPieces_eq_ok]
      exact ⟨_, hdays, .empty _, .inl rfl, hfits, hmillis⟩
    | time hdays htext hsome =>
      rw [stripPrefix_eq_some.2 rfl, Option.elim_some,
        splitOnce_append (hdays.not_mem (by decide) (by decide)), Option.getD_some,
        parseDurationPieces_eq_ok]
      exact ⟨parts, hdays, htext, hsome, hfits, hmillis⟩

/-! ## Main result -/

/-- A date with a `T` behind it that no component follows. -/
inductive EndsWithT : String → DurationParts → Prop
  | mk {digits : String} {days : Int} (hparse : parseI64 digits = .ok days) :
    EndsWithT ("P" ++ (digits ++ "DT")) { days := some days }

variable {parts parts' : DurationParts}

theorem TimeText.eq_empty (h : TimeText time parts) (htime : parts.hasTime = false) :
    time = "" := by
  obtain ⟨hhours, hminutes, hseconds⟩ := h
  simp only [DurationParts.hasTime, Bool.or_eq_false_iff, Option.isSome_eq_false_iff,
    Option.isNone_iff_eq_none] at htime
  obtain ⟨⟨hnone, hnone'⟩, hnone''⟩ := htime
  rw [hhours.eq_empty_iff.2 hnone, hminutes.eq_empty_iff.2 hnone', hseconds.eq_empty_iff.2 hnone'']
  rfl

theorem scanned_iff : Scanned value parts ↔ IsDuration value parts ∨ EndsWithT value parts := by
  refine ⟨?_, ?_⟩
  · rintro (hdays | ⟨hdays, htext, hsome⟩)
    · exact .inl (.date hdays)
    · cases htime : parts.hasTime with
      | true => exact .inl (.time hdays htext htime)
      | false =>
        obtain rfl := htext.eq_empty htime
        have hparts := htext.eq_of_empty rfl
        generalize hd : parts.days = days at hdays hparts hsome
        rw [hparts]
        cases hdays with
        | absent => simp [htime] at hsome
        | @present digits days hparse =>
          rw [String.append_empty, String.append_assoc]
          exact .inr (.mk hparse)
  · rintro ((hdays | ⟨hdays, htext, htime⟩) | @⟨digits, days, hparse⟩)
    · exact .date hdays
    · exact .time hdays htext (.inr htime)
    · have hscanned := Scanned.time (.present hparse) (TimeText.empty (some days)) (.inl rfl)
      rwa [String.append_empty, String.append_assoc] at hscanned

/-- What follows the `T` of a duration. -/
def textBehindT (value : String) : Option String :=
  (stripPrefix value "P").bind fun rest => (splitOnce rest 'T').map Prod.snd

theorem IsDuration.not_endsWithT (h : IsDuration value parts) : ¬ EndsWithT value parts' := by
  intro h'
  have hbehind' : textBehindT value = some "" := by
    obtain @⟨digits, days, hparse⟩ := h'
    have hdate : 'T' ∉ (digits ++ String.singleton 'D').toList :=
      (Component.present hparse).not_mem (by decide) (by decide)
    have hvalue : digits ++ "DT" =
        digits ++ String.singleton 'D' ++ (String.singleton 'T' ++ "") := by
      rw [String.append_assoc]
      rfl
    rw [textBehindT, stripPrefix_eq_some.2 rfl, Option.bind_some, hvalue, splitOnce_append hdate,
      Option.map_some]
  have hbehind : textBehindT value ≠ some "" := by
    obtain hdays | ⟨hdays, htext, htime⟩ := h
    · rw [textBehindT, stripPrefix_eq_some.2 rfl, Option.bind_some,
        splitOnce_eq_none.2 (hdays.not_mem (by decide) (by decide))]
      nofun
    · rw [textBehindT, stripPrefix_eq_some.2 rfl, Option.bind_some,
        splitOnce_append (hdays.not_mem (by decide) (by decide)), Option.map_some]
      intro hempty
      rw [htext.eq_of_empty (Option.some.inj hempty)] at htime
      cases htime
  exact hbehind hbehind'

theorem DurationParts.millis_eq (parts : DurationParts) : parts.millis =
    1000 * (86400 * parts.days.getD 0 + 3600 * parts.hours.getD 0 + 60 * parts.minutes.getD 0 +
      parts.seconds.getD 0) := by
  rw [millis, total, throughMinutes, throughHours, throughDays]
  omega

/-- Days on their own fit where their milliseconds do. -/
theorem DurationParts.fits_days {days : Int} :
    Fits { days := some days } ↔ 0 ≤ days ∧ days * 86400000 < 2 ^ 63 := by
  refine ⟨?_, ?_⟩
  · intro h
    have hnonneg := h.nonneg
    have hmillis := h.millis
    simp only [Fits64, millis_eq, total, throughMinutes, throughHours, throughDays,
      Option.getD_some, Option.getD_none] at hnonneg hmillis
    omega
  · rintro ⟨hnonneg, hmillis⟩
    constructor <;> simp only [Fits64, millis_eq, total, throughMinutes, throughHours, throughDays,
      Option.getD_some, Option.getD_none] <;> omega

/-- **The parser accepts exactly the durations**, and its result is exact, unless the text is a
date with a `T` that nothing follows, which is accepted as the date. -/
theorem parseIso8601DurationMillis_iff (value : String) :
    (∀ millis, parseIso8601DurationMillis value = .ok millis ↔
      ∃ parts, IsDuration value parts ∧ parts.Fits ∧ millis = 1000 * (86400 * parts.days.getD 0 +
        3600 * parts.hours.getD 0 + 60 * parts.minutes.getD 0 + parts.seconds.getD 0)) ↔
    ¬ ∃ digits days, value = "P" ++ (digits ++ "DT") ∧ parseI64 digits = .ok days ∧ 0 ≤ days ∧
      days * 86400000 < 2 ^ 63 := by
  simp only [parseIso8601DurationMillis_eq_ok, scanned_iff, ← DurationParts.millis_eq]
  refine ⟨?_, ?_⟩
  · rintro h ⟨digits, days, rfl, hparse, hfits⟩
    have hends : EndsWithT ("P" ++ (digits ++ "DT")) { days := some days } := .mk hparse
    obtain ⟨parts, hduration, -⟩ :=
      (h _).1 ⟨_, .inr hends, DurationParts.fits_days.2 hfits, rfl⟩
    exact hduration.not_endsWithT hends
  · intro hno millis
    refine ⟨?_, ?_⟩
    · rintro ⟨parts, hduration | @⟨digits, days, hparse⟩, hfits, hmillis⟩
      · exact ⟨parts, hduration, hfits, hmillis⟩
      · exact absurd ⟨digits, days, rfl, hparse, DurationParts.fits_days.1 hfits⟩ hno
    · rintro ⟨parts, hduration, hfits, hmillis⟩
      exact ⟨parts, .inl hduration, hfits, hmillis⟩

/-- The `T` at the end of `P1DT` is passed over, although no component follows it. -/
theorem parseIso8601DurationMillis_dangling :
    ¬ ∀ value millis, parseIso8601DurationMillis value = .ok millis ↔
      ∃ parts, IsDuration value parts ∧ parts.Fits ∧ millis = 1000 * (86400 * parts.days.getD 0 +
        3600 * parts.hours.getD 0 + 60 * parts.minutes.getD 0 + parts.seconds.getD 0) := by
  intro h
  obtain ⟨parts, hduration, -⟩ := (h "P1DT" 86400000).1 (by decide)
  have hends : EndsWithT ("P" ++ ("1" ++ "DT")) { days := some 1 } := .mk (by decide)
  exact hduration.not_endsWithT hends

end KafkaCli.Groups
