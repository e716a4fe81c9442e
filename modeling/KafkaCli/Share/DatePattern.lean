import KafkaCli.Lib.Replace
import KafkaCli.Lib.Text

/-!
# Times in the pattern of the user

The performance tool takes a date pattern of Java and prints times with `strftime`;
`java_date_pattern` translates the pattern by seven replacements, one after the other.

**Theorem (`formatSharePerfTime_eq_iff`).** A time is printed as Java prints it exactly under
`DatePattern.Supported`. Milliseconds are printed with a point in front of them, and the `m` that
the month leaves is taken for a half of the minutes behind it.

The letters of a month and of the minutes next to it are one `Chunk`. No replacement crosses the
seam of two chunks, so that the translation can be read off each of them.
-/

namespace KafkaCli.Share

open Text

/-! ## Printing a time -/

/-- The replacements of `java_date_pattern`, in their order. -/
def dateReplacements : List (String × String) :=
  [("yyyy", "%Y"), ("SSS", "%.3f"), ("MM", "%m"), ("dd", "%d"), ("HH", "%H"), ("mm", "%M"),
    ("ss", "%S")]

def javaDatePattern (pattern : String) : String :=
  dateReplacements.foldl (fun text rule => replace text rule.1 rule.2) pattern

example : javaDatePattern "MMmm" = "%%Mm" := by decide +kernel

/-- A time of the local time zone. -/
structure LocalTime where
  year : ℤ
  month : ℕ
  day : ℕ
  hour : ℕ
  minute : ℕ
  second : ℕ
  millisecond : ℕ
  deriving DecidableEq, Repr

def LocalTime.FourDigit (time : LocalTime) : Prop := 1000 ≤ time.year ∧ time.year ≤ 9999

instance (time : LocalTime) : Decidable time.FourDigit := inferInstanceAs (Decidable (_ ∧ _))

/-- A number with zeros in front of it. -/
def padded (width n : ℕ) : String := String.ofList ((Nat.toDigits 10 n).leftpad width '0')

/-- The directives of `strftime` in what patterns are translated to. -/
inductive Directive
  | year | month | day | hour | minute | second | fraction | percent
  deriving DecidableEq, Repr

def Directive.text : Directive → String
  | year => "%Y"
  | month => "%m"
  | day => "%d"
  | hour => "%H"
  | minute => "%M"
  | second => "%S"
  | fraction => "%.3f"
  | percent => "%%"

def Directive.printed (time : LocalTime) : Directive → String
  | year => padded 4 time.year.toNat
  | month => padded 2 time.month
  | day => padded 2 time.day
  | hour => padded 2 time.hour
  | minute => padded 2 time.minute
  | second => padded 2 time.second
  | fraction => "." ++ padded 3 time.millisecond
  | percent => "%"

/-- What `strftime` is relied on for: it prints its directives one after the other, and everything
else as it stands. -/
structure Strftime where
  format : LocalTime → String → String
  format_empty : ∀ time, format time "" = ""
  format_char : ∀ time c rest, c ≠ '%' →
    format time (String.singleton c ++ rest) = String.singleton c ++ format time rest
  format_directive : ∀ (time : LocalTime) (directive : Directive) (rest : String),
    time.FourDigit →
      format time (directive.text ++ rest) = directive.printed time ++ format time rest

/-- The time as the pattern has it; `localTime` is the conversion to the local time zone, which not
every number of milliseconds allows. -/
def formatSharePerfTime (strftime : Strftime) (localTime : ℤ → Option LocalTime)
    (timestampMs : ℤ) (pattern : String) : String :=
  match localTime timestampMs with
  | none => toString timestampMs
  | some value => strftime.format value (javaDatePattern pattern)

/-! ## Patterns of Java -/

inductive Token
  | year | month | day | hour | minute | second | millisecond
  deriving DecidableEq, Repr

def Token.text : Token → String
  | year => "yyyy"
  | month => "MM"
  | day => "dd"
  | hour => "HH"
  | minute => "mm"
  | second => "ss"
  | millisecond => "SSS"

def Token.field (time : LocalTime) : Token → ℕ
  | year => time.year.toNat
  | month => time.month
  | day => time.day
  | hour => time.hour
  | minute => time.minute
  | second => time.second
  | millisecond => time.millisecond

/-- A character that stands for itself. -/
def IsSeparator (c : Char) : Prop := ¬ c.isAlpha ∧ c ≠ '%' ∧ c ≠ '\''

instance (c : Char) : Decidable (IsSeparator c) := inferInstanceAs (Decidable (_ ∧ _))

inductive Piece
  | token (token : Token)
  | separator (c : { c : Char // IsSeparator c })
  deriving DecidableEq

def Piece.text : Piece → String
  | token t => t.text
  | separator c => String.singleton c

/-- A field is as wide as its token. -/
def Piece.rendered (time : LocalTime) : Piece → String
  | token t => padded t.text.length (t.field time)
  | separator c => String.singleton c

/-- Two pieces are the same token, and so together one longer field. -/
def Piece.Joins : Piece → Piece → Prop
  | token t, token u => t = u
  | _, _ => False

instance : ∀ p q : Piece, Decidable (p.Joins q)
  | .token t, .token u => inferInstanceAs (Decidable (t = u))
  | .token _, .separator _ => .isFalse id
  | .separator _, _ => .isFalse id

/-- A date pattern of Java, without text in quotes. -/
structure DatePattern where
  pieces : List Piece
  apart : pieces.IsChain fun p q => ¬ p.Joins q

namespace DatePattern

def text (pattern : DatePattern) : String := String.join (pattern.pieces.map Piece.text)

/-- The time as Java prints it. -/
def rendered (time : LocalTime) (pattern : DatePattern) : String :=
  String.join (pattern.pieces.map (Piece.rendered time))

/-- No milliseconds, and no month directly in front of minutes. -/
def Supported (pattern : DatePattern) : Prop :=
  .token .millisecond ∉ pattern.pieces ∧
    pattern.pieces.IsChain fun p q => ¬ (p = .token .month ∧ q = .token .minute)

end DatePattern

/-! ## Chunks -/

/-- A piece, or a month with the minutes directly behind it. -/
inductive Chunk
  | piece (p : Piece)
  | monthMinute
  deriving DecidableEq

namespace Chunk

def text : Chunk → String
  | piece p => p.text
  | monthMinute => "MMmm"

def rendered (time : LocalTime) : Chunk → String
  | piece p => p.rendered time
  | monthMinute => (Piece.token .month).rendered time ++ (Piece.token .minute).rendered time

/-- The token at the front. -/
def first : Chunk → Option Token
  | piece (.token t) => some t
  | piece (.separator _) => none
  | monthMinute => some .month

def last : Chunk → Option Token
  | piece (.token t) => some t
  | piece (.separator _) => none
  | monthMinute => some .minute

/-- What is printed of a chunk is what Java prints of it. -/
def Plain : Chunk → Prop
  | piece p => p ≠ .token .millisecond
  | monthMinute => False

/-- The second chunk can stand directly behind the first. -/
def Follows (c d : Chunk) : Prop :=
  (∀ t ∈ c.last, d.first ≠ some t) ∧ (c = .piece (.token .month) → d.first ≠ some .minute)

instance (c d : Chunk) : Decidable (c.Follows d) := inferInstanceAs (Decidable (_ ∧ _))

end Chunk

/-- The chunks of a pattern. -/
def chunks : List Piece → List Chunk
  | .token .month :: .token .minute :: pieces => .monthMinute :: chunks pieces
  | p :: pieces => .piece p :: chunks pieces
  | [] => []

theorem text_chunks (pieces : List Piece) :
    String.join ((chunks pieces).map Chunk.text) = String.join (pieces.map Piece.text) := by
  fun_induction chunks pieces with
  | case1 pieces ih =>
    simp only [List.map_cons, String.join_cons, ih, ← String.append_assoc]
    rfl
  | case2 p pieces _ ih => simp [ih, Chunk.text]
  | case3 => rfl

theorem rendered_chunks (time : LocalTime) (pieces : List Piece) :
    String.join ((chunks pieces).map (Chunk.rendered time)) =
      String.join (pieces.map (Piece.rendered time)) := by
  fun_induction chunks pieces with
  | case1 pieces ih =>
    simp only [List.map_cons, String.join_cons, ih, ← String.append_assoc, Chunk.rendered]
  | case2 p pieces _ ih => simp [ih, Chunk.rendered]
  | case3 => rfl

theorem first_chunks (pieces : List Piece) :
    (chunks pieces).head?.bind Chunk.first =
      pieces.head?.bind fun p => (Chunk.piece p).first := by
  fun_cases chunks pieces with
  | case1 pieces => rfl
  | case2 p pieces _ => rfl
  | case3 => rfl

/-- The front of the chunks is not a token that does not follow. -/
theorem first_ne {pieces : List Piece} {t : Token} (h : ∀ p ∈ pieces.head?, p ≠ .token t) :
    ∀ d ∈ (chunks pieces).head?, d.first ≠ some t := by
  intro d hd hfirst
  have hbind := first_chunks pieces
  rw [Option.mem_def.1 hd, Option.bind_some, hfirst] at hbind
  cases hhead : pieces.head? with
  | none => simp [hhead] at hbind
  | some p =>
    rw [hhead, Option.bind_some] at hbind
    cases p with
    | token u =>
      cases hbind
      exact h _ hhead rfl
    | separator c => cases hbind

/-- Chunks of a pattern follow each other. -/
theorem isChain_chunks {pieces : List Piece} (h : pieces.IsChain fun p q => ¬ p.Joins q) :
    (chunks pieces).IsChain Chunk.Follows := by
  fun_induction chunks pieces with
  | case1 pieces ih =>
    rw [List.isChain_cons, List.isChain_cons] at h
    refine List.isChain_cons.2 ⟨fun d hd => ⟨?_, nofun⟩, ih h.2.2⟩
    rintro _ ⟨⟩
    refine first_ne (fun p hp heq => ?_) d hd
    subst heq
    exact h.2.1 _ hp rfl
  | case2 p pieces hpair ih =>
    rw [List.isChain_cons] at h
    refine List.isChain_cons.2 ⟨fun d hd => ⟨?_, ?_⟩, ih h.2⟩
    · intro t hlast
      refine first_ne (fun q hq heq => ?_) d hd
      subst heq
      cases p with
      | token u =>
        cases hlast
        exact h.1 _ hq rfl
      | separator c => cases hlast
    · intro hmonth
      refine first_ne (fun q hq heq => ?_) d hd
      obtain ⟨rest, hrest⟩ : ∃ rest, pieces = q :: rest := List.head?_eq_some_iff.1 hq
      cases hmonth
      exact hpair rest rfl (heq ▸ hrest)
  | case3 => exact List.isChain_nil

/-- A pattern is supported where all its chunks are printed as they are in Java. -/
theorem supported_iff (pattern : DatePattern) :
    pattern.Supported ↔ ∀ c ∈ chunks pattern.pieces, c.Plain := by
  obtain ⟨pieces, hapart⟩ := pattern
  simp only [DatePattern.Supported]
  clear hapart
  fun_induction chunks pieces with
  | case1 pieces ih => simp [Chunk.Plain]
  | case2 p pieces hpair ih =>
    have hhead : ∀ q ∈ pieces.head?, ¬ (p = .token .month ∧ q = .token .minute) := by
      rintro q hq ⟨rfl, rfl⟩
      obtain ⟨rest, hrest⟩ := List.head?_eq_some_iff.1 hq
      exact hpair rest rfl hrest
    rw [List.forall_mem_cons, ← ih, List.mem_cons, not_or, List.isChain_cons]
    simp only [Chunk.Plain, ne_eq, eq_comm (a := p)]
    tauto
  | case3 => simp

/-! ## The translation of a chunk -/

def Token.directive : Token → Directive
  | year => .year
  | month => .month
  | day => .day
  | hour => .hour
  | minute => .minute
  | second => .second
  | millisecond => .fraction

def Chunk.translated : Chunk → String
  | piece (.token t) => t.directive.text
  | piece (.separator c) => String.singleton c
  | monthMinute => "%%Mm"

/-- The replacements on lists of characters. -/
def dateRules : List (List Char × List Char) :=
  dateReplacements.map fun rule => (rule.1.toList, rule.2.toList)

theorem toList_javaDatePattern (pattern : String) :
    (javaDatePattern pattern).toList = replaceAll dateRules pattern.toList := by
  rw [javaDatePattern, replaceAll, dateRules, List.foldl_map]
  generalize dateReplacements = rules
  induction rules generalizing pattern with
  | nil => rfl
  | cons rule rules ih =>
    rw [List.foldl_cons, List.foldl_cons, ih, replace, String.toList_ofList]

theorem dateRules_alpha : ∀ rule ∈ dateRules, rule.1 ≠ [] ∧ rule.2 ≠ [] ∧
    ∀ c ∈ rule.1, c.isAlpha := by
  decide +kernel

/-- No replacement finds a separator. -/
theorem untouched_separator (c : { c : Char // IsSeparator c }) :
    Untouched dateRules (String.singleton c).toList := by
  intro rule hrule
  obtain ⟨hne, _, halpha⟩ := dateRules_alpha rule hrule
  refine ⟨hne, fun x hx hmem => ?_⟩
  obtain rfl : x = c := by simpa using hx
  exact c.2.1 (halpha _ hmem)

theorem translated_chunk (c : Chunk) :
    replaceAll dateRules c.text.toList = c.translated.toList := by
  match c with
  | .piece (.token t) => cases t <;> decide +kernel
  | .piece (.separator c) => exact replaceAll_of_untouched (untouched_separator c)
  | .monthMinute => decide +kernel

/-- No replacement crosses the seam of two chunks that follow each other. -/
theorem apart_chunks {c d : Chunk} (h : c.Follows d) :
    Apart dateRules c.text.toList d.text.toList := by
  match c, d with
  | .piece (.separator c), _ => exact .of_left (untouched_separator c)
  | _, .piece (.separator d) => exact .of_right (untouched_separator d)
  | .piece (.token t), .piece (.token u) => cases t <;> cases u <;> revert h <;> decide +kernel
  | .piece (.token t), .monthMinute => cases t <;> revert h <;> decide +kernel
  | .monthMinute, .piece (.token u) => cases u <;> revert h <;> decide +kernel
  | .monthMinute, .monthMinute => decide +kernel

theorem text_ne_nil (c : Chunk) : c.text.toList ≠ [] := by
  match c with
  | .piece (.token t) => cases t <;> decide
  | .piece (.separator c) => simp [Chunk.text, Piece.text]
  | .monthMinute => decide

/-- **The translation of a pattern** is the one of its chunks. -/
theorem javaDatePattern_text (pattern : DatePattern) :
    javaDatePattern pattern.text =
      String.join ((chunks pattern.pieces).map Chunk.translated) := by
  have hchain : (chunks pattern.pieces).IsChain fun c d =>
      Apart dateRules c.text.toList d.text.toList :=
    (isChain_chunks pattern.apart).imp fun _ _ => apart_chunks
  have hrules : ∀ rule ∈ dateRules, rule.2 ≠ [] := fun rule hrule =>
    (dateRules_alpha rule hrule).2.1
  rw [← String.toList_inj, toList_javaDatePattern, DatePattern.text, ← text_chunks,
    String.toList_join, String.toList_join, List.flatMap_map, List.flatMap_map,
    replaceAll_flatMap hrules (fun c _ => text_ne_nil c) hchain]
  exact List.flatMap_congr fun c _ => translated_chunk c

/-! ## What is printed -/

def Chunk.printed (time : LocalTime) : Chunk → String
  | piece (.token t) => t.directive.printed time
  | piece (.separator c) => String.singleton c
  | monthMinute => "%Mm"

theorem format_chunk (strftime : Strftime) {time : LocalTime} (hyear : time.FourDigit)
    (c : Chunk) (rest : String) :
    strftime.format time (c.translated ++ rest) = c.printed time ++ strftime.format time rest := by
  match c with
  | .piece (.token t) => exact strftime.format_directive time t.directive rest hyear
  | .piece (.separator c) => exact strftime.format_char time c rest c.2.2.1
  | .monthMinute =>
    have htranslated : Chunk.monthMinute.translated ++ rest = Directive.percent.text ++
        (String.singleton 'M' ++ (String.singleton 'm' ++ rest)) := by
      rw [← String.append_assoc, ← String.append_assoc]
      rfl
    have hprinted : Chunk.monthMinute.printed time = Directive.percent.printed time ++
        (String.singleton 'M' ++ String.singleton 'm') := by
      show "%Mm" = "%" ++ (String.singleton 'M' ++ String.singleton 'm')
      decide
    rw [htranslated, strftime.format_directive _ _ _ hyear, strftime.format_char _ _ _ (by decide),
      strftime.format_char _ _ _ (by decide), hprinted, String.append_assoc, String.append_assoc]

theorem format_chunks (strftime : Strftime) {time : LocalTime} (hyear : time.FourDigit)
    (cs : List Chunk) : strftime.format time (String.join (cs.map Chunk.translated)) =
      String.join (cs.map (Chunk.printed time)) := by
  induction cs with
  | nil => exact strftime.format_empty time
  | cons c cs ih =>
    rw [List.map_cons, List.map_cons, String.join_cons, String.join_cons,
      format_chunk strftime hyear, ih]

theorem printed_of_plain (time : LocalTime) {c : Chunk} (h : c.Plain) :
    c.printed time = c.rendered time := by
  match c, h with
  | .piece (.token t), h =>
    cases t with
    | millisecond => exact absurd rfl h
    | _ => rfl
  | .piece (.separator c), _ => rfl

theorem isDigit_of_mem_padded {width n : ℕ} {c : Char} (h : c ∈ (padded width n).toList) :
    c.isDigit := by
  rw [padded, String.toList_ofList, List.leftpad, List.mem_append, List.mem_replicate] at h
  rcases h with ⟨_, rfl⟩ | h
  · decide
  · exact Nat.isDigit_of_mem_toDigits (by decide) (by decide) h

/-- A number begins with a digit. -/
theorem head?_padded (width n : ℕ) :
    ∃ c, (padded width n).toList.head? = some c ∧ c.isDigit := by
  have hne : (padded width n).toList ≠ [] := by
    rw [padded, String.toList_ofList, List.leftpad]
    exact List.append_ne_nil_of_right_ne_nil _ Nat.toDigits_ne_nil
  exact ⟨_, List.head?_eq_some_head hne, isDigit_of_mem_padded (List.head_mem hne)⟩

/-- Two texts begin with different characters. -/
def DifferAtFront (s t : String) : Prop :=
  ∃ c d, s.toList.head? = some c ∧ t.toList.head? = some d ∧ c ≠ d

theorem DifferAtFront.append {s t : String} (h : DifferAtFront s t) (s' t' : String) :
    s ++ s' ≠ t ++ t' := by
  obtain ⟨c, d, hc, hd, hne⟩ := h
  intro heq
  have hboth := (head?_append hc s').symm.trans (heq ▸ head?_append hd t')
  exact hne (Option.some.inj hboth)

/-- What is printed of another chunk does not begin with a digit. -/
theorem printed_of_not_plain (time : LocalTime) {c : Chunk} (h : ¬ c.Plain) :
    DifferAtFront (c.printed time) (c.rendered time) := by
  match c, h with
  | .piece (.token t), h =>
    have ht : t = .millisecond := by simpa [Chunk.Plain] using h
    subst ht
    obtain ⟨d, hd, hdigit⟩ := head?_padded 3 time.millisecond
    refine ⟨'.', d, head?_append (by decide) _, hd, fun hdot => ?_⟩
    exact absurd (hdot ▸ hdigit) (by decide)
  | .piece (.separator c), h => exact absurd nofun h
  | .monthMinute, _ =>
    obtain ⟨d, hd, hdigit⟩ := head?_padded 2 time.month
    have hpercent : ("%Mm" : String).toList.head? = some '%' := by decide
    refine ⟨'%', d, hpercent, head?_append hd _, fun heq => ?_⟩
    exact absurd (heq ▸ hdigit) (by decide)

/-- What is printed of some chunks is what Java prints of them exactly where all of them are
plain. -/
theorem printed_eq_rendered_iff (time : LocalTime) (cs : List Chunk) :
    String.join (cs.map (Chunk.printed time)) = String.join (cs.map (Chunk.rendered time)) ↔
      ∀ c ∈ cs, c.Plain := by
  induction cs with
  | nil => simp
  | cons c cs ih =>
    rw [List.map_cons, List.map_cons, String.join_cons, String.join_cons, List.forall_mem_cons]
    by_cases hc : c.Plain
    · rw [printed_of_plain time hc, String.append_right_inj, ih, and_iff_right hc]
    · exact ⟨fun h => absurd h ((printed_of_not_plain time hc).append _ _),
        fun h => absurd h.1 hc⟩

/-! ## The theorem -/

/-- A pattern prints a time as Java does. -/
theorem format_eq_rendered_iff (strftime : Strftime) {time : LocalTime} (hyear : time.FourDigit)
    (pattern : DatePattern) :
    strftime.format time (javaDatePattern pattern.text) = pattern.rendered time ↔
      pattern.Supported := by
  rw [javaDatePattern_text, format_chunks strftime hyear, DatePattern.rendered, ← rendered_chunks,
    printed_eq_rendered_iff, supported_iff]

/-- **When times are printed as Java prints them.** They are exactly in the supported patterns. -/
theorem formatSharePerfTime_eq_iff (strftime : Strftime) (localTime : ℤ → Option LocalTime)
    (timestampMs : ℤ) (time : LocalTime) (pattern : DatePattern)
    (htime : localTime timestampMs = some time) (hyear : time.FourDigit) :
    formatSharePerfTime strftime localTime timestampMs pattern.text = pattern.rendered time ↔
      pattern.Supported := by
  rw [formatSharePerfTime, htime]
  exact format_eq_rendered_iff strftime hyear pattern

/-! ## `strftime` as it is documented -/

def strftimeList (time : LocalTime) : List Char → List Char
  | [] => []
  | '%' :: 'Y' :: text => (Directive.year.printed time).toList ++ strftimeList time text
  | '%' :: 'm' :: text => (Directive.month.printed time).toList ++ strftimeList time text
  | '%' :: 'd' :: text => (Directive.day.printed time).toList ++ strftimeList time text
  | '%' :: 'H' :: text => (Directive.hour.printed time).toList ++ strftimeList time text
  | '%' :: 'M' :: text => (Directive.minute.printed time).toList ++ strftimeList time text
  | '%' :: 'S' :: text => (Directive.second.printed time).toList ++ strftimeList time text
  | '%' :: '.' :: '3' :: 'f' :: text =>
    (Directive.fraction.printed time).toList ++ strftimeList time text
  | '%' :: '%' :: text => (Directive.percent.printed time).toList ++ strftimeList time text
  | c :: text => c :: strftimeList time text

def documentedStrftime : Strftime where
  format time text := String.ofList (strftimeList time text.toList)
  format_empty _ := rfl
  format_char time c rest hc := by
    have hlist : (String.singleton c ++ rest).toList = c :: rest.toList := by simp
    rw [hlist, strftimeList] <;> simp_all
  format_directive time directive rest _ := by
    cases directive <;> simp [Directive.text, strftimeList]

/-- The first of January 2024, at midnight. -/
def newYear (timestampMs : ℤ) : Option LocalTime :=
  some { year := 2024, month := 1, day := 1, hour := 0, minute := 0, second := 0,
         millisecond := (timestampMs % 1000).toNat }

def datePattern : DatePattern where
  pieces := [.token .year, .separator ⟨'-', by decide⟩, .token .month, .token .day]
  apart := by decide

/-- The pattern of the tool, where the user gives none: `yyyy-MM-dd HH:mm:ss:SSS`. -/
def defaultPattern : DatePattern where
  pieces := [.token .year, .separator ⟨'-', by decide⟩, .token .month,
    .separator ⟨'-', by decide⟩, .token .day, .separator ⟨' ', by decide⟩, .token .hour,
    .separator ⟨':', by decide⟩, .token .minute, .separator ⟨':', by decide⟩, .token .second,
    .separator ⟨':', by decide⟩, .token .millisecond]
  apart := by decide

theorem formatSharePerfTime_eq_iff_date :
    formatSharePerfTime documentedStrftime newYear 7 datePattern.text =
      datePattern.rendered { year := 2024, month := 1, day := 1, hour := 0, minute := 0,
                             second := 0, millisecond := 7 } ↔ datePattern.Supported :=
  formatSharePerfTime_eq_iff documentedStrftime newYear 7 _ datePattern rfl (by decide)

/-- In the default pattern the milliseconds are printed as `:.007`. -/
theorem not_formatSharePerfTime_eq :
    ¬ ∀ (strftime : Strftime) (localTime : ℤ → Option LocalTime) (timestampMs : ℤ)
      (time : LocalTime) (pattern : DatePattern), localTime timestampMs = some time →
      time.FourDigit →
      formatSharePerfTime strftime localTime timestampMs pattern.text = pattern.rendered time := by
  intro hall
  have heq := hall documentedStrftime newYear 7 _ defaultPattern rfl (by decide)
  exact absurd heq (by decide +kernel)

end KafkaCli.Share
