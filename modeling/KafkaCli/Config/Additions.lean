import KafkaCli.Error
import KafkaCli.Lib.Checked
import KafkaCli.Lib.SortedMap
import KafkaCli.Lib.Text

/-!
# Added settings

`--add-config` takes settings as `key=value` or `key=[value]`, with commas between them. A text
within brackets is not cut. `parse_config_additions` cuts its arguments twice, at the commas and at
the first `=`, and keeps the last value of each key.

**Theorem (`parseConfigAdditions_inverts`).** Settings that are written so come back, sorted by
their keys, however they are spread over the arguments; and an argument whose brackets are nested,
unmatched or unclosed is an error.

Both cuts follow the brackets with `bracketStep`, so both accept exactly the texts that `brackets`
leaves outside of all brackets.
-/

namespace KafkaCli.Config

open Checked SortedMap Text

/-! ## The algorithm -/

/-- Whether the text is within brackets after a character. -/
def bracketStep (bracketed : Bool) : Char → Result Bool
  | '[' =>
    if bracketed then .error (.usage "nested config brackets are not supported") else .ok true
  | ']' => if bracketed then .ok false else .error (.usage "unmatched closing config bracket")
  | _ => .ok bracketed

/-- The character is a delimiter that is not within brackets. -/
def cutsAt (delimiter : Char) (bracketed : Bool) (c : Char) : Bool :=
  c ≠ '[' ∧ c ≠ ']' ∧ c = delimiter ∧ bracketed = false

/-- The text must not end within brackets. -/
def checkClosed (bracketed : Bool) : Result Unit :=
  failIf bracketed (.usage "unclosed config bracket")

/-- The loop of `split_outside_brackets`. -/
def cutFrom (delimiter : Char) : (bracketed : Bool) → List Char → Result (List (List Char))
  | bracketed, [] => do
    checkClosed bracketed
    return [[]]
  | bracketed, c :: cs => do
    let next ← bracketStep bracketed c
    let parts ← cutFrom delimiter next cs
    return if cutsAt delimiter bracketed c then [] :: parts else parts.modifyHead (c :: ·)

/-- Without the empty parts at the end. The first part stays. -/
def dropEmptyParts : List String → List String
  | [] => []
  | first :: rest => first :: rest.rdropWhile (· = "")

def splitOutsideBrackets (value : String) (delimiter : Char) : Result (List String) := do
  let parts ← cutFrom delimiter false value.toList
  return dropEmptyParts (parts.map String.ofList)

/-- The loop of `split_once_outside_brackets`. -/
def cutOnceFrom (delimiter : Char) :
    (bracketed : Bool) → List Char → Result (Option (List Char × List Char))
  | bracketed, [] => do
    checkClosed bracketed
    return none
  | bracketed, c :: cs =>
    if cutsAt delimiter bracketed c then .ok (some ([], cs))
    else do
      let next ← bracketStep bracketed c
      let parts ← cutOnceFrom delimiter next cs
      return parts.map fun (before, after) => (c :: before, after)

def splitOnceOutsideBrackets (value : String) (delimiter : Char) :
    Result (Option (String × String)) := do
  let parts ← cutOnceFrom delimiter false value.toList
  return parts.map fun (before, after) => (String.ofList before, String.ofList after)

/-- The text within brackets at its two ends, else the text. -/
def stripBrackets (value : String) : String :=
  ((stripPrefix value "[").bind (stripSuffix · "]")).getD value

/-- One entry of an argument. -/
def parseAddition (entry : String) : Result (String × String) := do
  let pair ← splitOnceOutsideBrackets entry '='
  match pair with
  | none => .error (.usage "all configs must use key=value or key=[value1,value2]")
  | some (key, value) => .ok (trim key, stripBrackets (trim value))

def parseAdditions (value : String) : Result (List (String × String)) := do
  let entries ← splitOutsideBrackets value ','
  entries.mapM parseAddition

def parseConfigAdditions (values : List String) : Result (List (String × String)) := do
  let additions ← values.mapM parseAdditions
  return (Std.TreeMap.ofList additions.flatten compare).toList

/-! ## Following the brackets -/

/-- Whether the text is within brackets after some characters. -/
def brackets (bracketed : Bool) (cs : List Char) : Result Bool := cs.foldlM bracketStep bracketed

/-- The character is no bracket. -/
def NoBracket (c : Char) : Prop := c ≠ '[' ∧ c ≠ ']'

theorem bracketStep_noBracket {c : Char} (hc : NoBracket c) (bracketed : Bool) :
    bracketStep bracketed c = .ok bracketed := by
  rw [bracketStep]
  · exact fun h => hc.1 h
  · exact fun h => hc.2 h

@[simp] theorem brackets_nil (bracketed : Bool) : brackets bracketed [] = .ok bracketed := rfl

theorem brackets_cons (bracketed : Bool) (c : Char) (cs : List Char) :
    brackets bracketed (c :: cs) = bracketStep bracketed c >>= fun next => brackets next cs :=
  List.foldlM_cons

theorem brackets_append (bracketed : Bool) (cs ds : List Char) :
    brackets bracketed (cs ++ ds) =
      brackets bracketed cs >>= fun next => brackets next ds :=
  List.foldlM_append

/-- Without a cut, the text is one part. -/
theorem cutFrom_of_no_cut {delimiter : Char} {cs : List Char} (h : delimiter ∉ cs)
    {bracketed : Bool} : cutFrom delimiter bracketed cs =
      brackets bracketed cs >>= fun last => checkClosed last >>= fun _ => .ok [cs] := by
  induction cs generalizing bracketed with
  | nil => rfl
  | cons c cs ih =>
    rw [List.mem_cons, not_or] at h
    have hcut : cutsAt delimiter bracketed c = false := by simp [cutsAt, Ne.symm h.1]
    rw [cutFrom, brackets_cons]
    cases bracketStep bracketed c with
    | error e => rfl
    | ok next =>
      rw [ok_bind, ok_bind, ih h.2, hcut]
      cases brackets next cs with
      | error e => rfl
      | ok last => cases last <;> rfl

/-- Characters that are neither brackets nor cuts belong to the first part. -/
theorem cutFrom_append {delimiter : Char} {bracketed : Bool} {cs : List Char}
    (h : ∀ c ∈ cs, NoBracket c ∧ cutsAt delimiter bracketed c = false) (ds : List Char) :
    cutFrom delimiter bracketed (cs ++ ds) =
      (cutFrom delimiter bracketed ds).map (·.modifyHead (cs ++ ·)) := by
  induction cs with
  | nil =>
    rw [List.nil_append]
    cases cutFrom delimiter bracketed ds with
    | error e => rfl
    | ok parts => exact congrArg Except.ok (congrFun List.modifyHead_id parts).symm
  | cons c cs ih =>
    rw [List.forall_mem_cons] at h
    rw [List.cons_append, cutFrom, bracketStep_noBracket h.1.1, ok_bind, ih h.2, h.1.2]
    cases cutFrom delimiter bracketed ds with
    | error e => rfl
    | ok parts => exact congrArg Except.ok (List.modifyHead_modifyHead ..)

/-- Text with a bracket in it, and no delimiter behind what is surely within it, is one part. -/
theorem cutFrom_bracketed {delimiter : Char} {before inside rest : List Char}
    {parts : List (List Char)} (hbefore : ∀ c ∈ before, NoBracket c ∧ c ≠ delimiter)
    (hinside : ∀ c ∈ inside, NoBracket c) (hrest : delimiter ∉ rest)
    (h : cutFrom delimiter false (before ++ '[' :: (inside ++ rest)) = .ok parts) :
    parts = [before ++ '[' :: (inside ++ rest)] := by
  have hopen : cutFrom delimiter false ('[' :: (inside ++ rest)) =
      (cutFrom delimiter true (inside ++ rest)).map (·.modifyHead ('[' :: ·)) := by
    rw [cutFrom, bracketStep, if_neg (by simp), ok_bind]
    cases cutFrom delimiter true (inside ++ rest) <;> rfl
  rw [cutFrom_append (fun c hc => ⟨(hbefore c hc).1, by simp [cutsAt, (hbefore c hc).2]⟩), hopen,
    cutFrom_append (fun c hc => ⟨hinside c hc, by simp [cutsAt]⟩), cutFrom_of_no_cut hrest] at h
  cases hlast : brackets true rest with
  | error e =>
    rw [hlast] at h
    cases h
  | ok last =>
    rw [hlast] at h
    cases last <;> cases h
    rfl

/-- What is one part stays one in front of a delimiter. -/
theorem cutFrom_delimiter {delimiter : Char} (hdelimiter : NoBracket delimiter) {bracketed : Bool}
    {piece : List Char} (h : cutFrom delimiter bracketed piece = .ok [piece]) (rest : List Char) :
    cutFrom delimiter bracketed (piece ++ delimiter :: rest) =
      (cutFrom delimiter false rest).map (piece :: ·) := by
  induction piece generalizing bracketed with
  | nil =>
    cases bracketed with
    | true => cases h
    | false =>
      have hcut : cutsAt delimiter false delimiter = true := by
        simp [cutsAt, hdelimiter.1, hdelimiter.2]
      rw [List.nil_append, cutFrom, bracketStep_noBracket hdelimiter, ok_bind, hcut]
      cases cutFrom delimiter false rest <;> rfl
  | cons c cs ih =>
    simp only [cutFrom, bind_eq_ok, pure_eq_ok] at h
    obtain ⟨next, hnext, parts, hparts, hpiece⟩ := h
    cases hcut : cutsAt delimiter bracketed c with
    | true => simp [hcut] at hpiece
    | false =>
      have hone : parts = [cs] := by
        cases parts with
        | nil => simp [hcut] at hpiece
        | cons part parts => simpa [hcut] using hpiece
      rw [List.cons_append, cutFrom, hnext, ok_bind, ih (hone ▸ hparts), hcut]
      cases cutFrom delimiter false rest <;> rfl

/-- The brackets of a text that is cut are closed. -/
theorem brackets_of_cutFrom {delimiter : Char} {bracketed : Bool} {cs : List Char}
    {parts : List (List Char)} (h : cutFrom delimiter bracketed cs = .ok parts) :
    brackets bracketed cs = .ok false := by
  induction cs generalizing bracketed parts with
  | nil =>
    cases bracketed with
    | true => cases h
    | false => rfl
  | cons c cs ih =>
    simp only [cutFrom, bind_eq_ok] at h
    obtain ⟨next, hnext, parts, hparts, _⟩ := h
    rw [brackets_cons, hnext, ok_bind, ih hparts]

/-! ## The grammar of parts -/

/-- A text without a delimiter outside of brackets, whose brackets are closed and not nested. The
flag says whether it starts within brackets. -/
inductive Whole (delimiter : Char) : Bool → List Char → Prop
  | nil : Whole delimiter false []
  | opening {cs : List Char} : Whole delimiter true cs → Whole delimiter false ('[' :: cs)
  | closing {cs : List Char} : Whole delimiter false cs → Whole delimiter true (']' :: cs)
  | outside {c : Char} {cs : List Char} :
    NoBracket c → c ≠ delimiter → Whole delimiter false cs → Whole delimiter false (c :: cs)
  | within {c : Char} {cs : List Char} :
    NoBracket c → Whole delimiter true cs → Whole delimiter true (c :: cs)

theorem Whole.append {delimiter : Char} {bracketed : Bool} {cs ds : List Char}
    (hcs : Whole delimiter bracketed cs) (hds : Whole delimiter false ds) :
    Whole delimiter bracketed (cs ++ ds) := by
  induction hcs with
  | nil => exact hds
  | opening _ ih => exact .opening ih
  | closing _ ih => exact .closing ih
  | outside hplain hne _ ih => exact .outside hplain hne ih
  | within hplain _ ih => exact .within hplain ih

theorem whole_of_plain {delimiter : Char} {cs : List Char}
    (h : ∀ c ∈ cs, NoBracket c ∧ c ≠ delimiter) : Whole delimiter false cs := by
  induction cs with
  | nil => exact .nil
  | cons c cs ih =>
    rw [List.forall_mem_cons] at h
    exact .outside h.1.1 h.1.2 (ih h.2)

theorem whole_enclosed {delimiter : Char} {cs : List Char} (h : ∀ c ∈ cs, NoBracket c) :
    Whole delimiter false ('[' :: (cs ++ [']'])) := by
  refine .opening ?_
  induction cs with
  | nil => exact .closing .nil
  | cons c cs ih =>
    rw [List.forall_mem_cons] at h
    exact .within h.1 (ih h.2)

/-- A whole text is one part. -/
theorem Whole.cutFrom {delimiter : Char} {bracketed : Bool} {cs : List Char}
    (h : Whole delimiter bracketed cs) : cutFrom delimiter bracketed cs = .ok [cs] := by
  induction h with
  | nil => rfl
  | opening _ ih =>
    rw [Config.cutFrom, bracketStep, if_neg (by simp), ok_bind, ih]
    rfl
  | closing _ ih =>
    rw [Config.cutFrom, bracketStep, if_pos rfl, ok_bind, ih]
    rfl
  | outside hplain hne _ ih =>
    rw [Config.cutFrom, bracketStep_noBracket hplain, ok_bind, ih]
    simp [cutsAt, hne]
  | within hplain _ ih =>
    rw [Config.cutFrom, bracketStep_noBracket hplain, ok_bind, ih]
    simp [cutsAt]

/-- A text in front of a whole one. -/
theorem whole_cons {delimiter : Char} {bracketed next : Bool} {c : Char} {cs : List Char}
    (hstep : bracketStep bracketed c = .ok next) (hcut : cutsAt delimiter bracketed c = false)
    (h : Whole delimiter next cs) : Whole delimiter bracketed (c :: cs) := by
  by_cases hopen : c = '['
  · subst hopen
    cases bracketed with
    | true => cases hstep
    | false =>
      cases hstep
      exact .opening h
  · by_cases hclose : c = ']'
    · subst hclose
      cases bracketed with
      | true =>
        cases hstep
        exact .closing h
      | false => cases hstep
    · have hplain : NoBracket c := ⟨hopen, hclose⟩
      rw [bracketStep_noBracket hplain] at hstep
      cases hstep
      cases bracketed with
      | true => exact .within hplain h
      | false => exact .outside hplain (by simpa [cutsAt, hopen, hclose] using hcut) h

/-- **The parts of a text** are whole, and the delimiters stand between them. -/
theorem whole_of_cutFrom {delimiter : Char} {bracketed : Bool} {cs : List Char}
    {parts : List (List Char)} (h : cutFrom delimiter bracketed cs = .ok parts) :
    ∃ first rest, parts = first :: rest ∧ Whole delimiter bracketed first ∧
      (∀ part ∈ rest, Whole delimiter false part) ∧
      cs = first ++ rest.flatMap (delimiter :: ·) := by
  induction cs generalizing bracketed parts with
  | nil =>
    cases bracketed with
    | true => cases h
    | false =>
      cases h
      exact ⟨[], [], rfl, .nil, by simp, rfl⟩
  | cons c cs ih =>
    simp only [cutFrom, bind_eq_ok, pure_eq_ok] at h
    obtain ⟨next, hnext, parts', hparts, rfl⟩ := h
    obtain ⟨first, rest, rfl, hfirst, hrest, hcs⟩ := ih hparts
    cases hcut : cutsAt delimiter bracketed c with
    | true =>
      have hc := hcut
      simp only [cutsAt, decide_eq_true_eq] at hc
      obtain ⟨hopen, hclose, rfl, rfl⟩ := hc
      rw [bracketStep_noBracket ⟨hopen, hclose⟩] at hnext
      cases hnext
      exact ⟨[], first :: rest, rfl, .nil, List.forall_mem_cons.2 ⟨hfirst, hrest⟩, by simp [hcs]⟩
    | false => exact ⟨c :: first, rest, rfl, whole_cons hnext hcut hfirst, hrest, by simp [hcs]⟩

/-- A delimiter behind a whole text is the first one outside of brackets. -/
theorem Whole.cutOnceFrom {delimiter : Char} (hdelimiter : NoBracket delimiter) {bracketed : Bool}
    {cs : List Char} (h : Whole delimiter bracketed cs) (ds : List Char) :
    cutOnceFrom delimiter bracketed (cs ++ delimiter :: ds) = .ok (some (cs, ds)) := by
  induction h with
  | nil =>
    have hcut : cutsAt delimiter false delimiter = true := by
      simp [cutsAt, hdelimiter.1, hdelimiter.2]
    rw [List.nil_append, Config.cutOnceFrom, if_pos hcut]
  | opening _ ih =>
    rw [List.cons_append, Config.cutOnceFrom, if_neg (by simp [cutsAt]), bracketStep,
      if_neg (by simp), ok_bind, ih]
    rfl
  | closing _ ih =>
    rw [List.cons_append, Config.cutOnceFrom, if_neg (by simp [cutsAt]), bracketStep, if_pos rfl,
      ok_bind, ih]
    rfl
  | outside hplain hne _ ih =>
    rw [List.cons_append, Config.cutOnceFrom, if_neg (by simp [cutsAt, hne]),
      bracketStep_noBracket hplain, ok_bind, ih]
    rfl
  | within hplain _ ih =>
    rw [List.cons_append, Config.cutOnceFrom, if_neg (by simp [cutsAt]),
      bracketStep_noBracket hplain, ok_bind, ih]
    rfl

/-- What is cut once is whole up to the first delimiter. -/
theorem whole_of_cutOnceFrom {delimiter : Char} {bracketed : Bool} {cs before after : List Char}
    (h : cutOnceFrom delimiter bracketed cs = .ok (some (before, after))) :
    Whole delimiter bracketed before ∧ cs = before ++ delimiter :: after := by
  induction cs generalizing bracketed before with
  | nil => cases bracketed <;> cases h
  | cons c cs ih =>
    rw [cutOnceFrom] at h
    split_ifs at h with hcut
    · simp only [cutsAt, decide_eq_true_eq] at hcut
      obtain ⟨_, _, rfl, rfl⟩ := hcut
      cases h
      exact ⟨.nil, rfl⟩
    · simp only [bind_eq_ok, pure_eq_ok] at h
      obtain ⟨next, hnext, parts, hparts, hmap⟩ := h
      cases parts with
      | none => cases hmap
      | some pair =>
        obtain ⟨x, y⟩ := pair
        cases hmap
        obtain ⟨hwhole, rfl⟩ := ih hparts
        exact ⟨whole_cons hnext (by simpa using hcut) hwhole, rfl⟩

/-! ## The text of settings -/

/-- A setting whose text can be told apart from what stands around it. -/
structure AddedConfig where
  key : String
  value : String
  key_ne : key ≠ ""
  key_trimmed : trim key = key
  key_plain : ∀ c ∈ key.toList, c ∉ [',', '=', '[', ']']
  value_plain : ∀ c ∈ value.toList, c ∉ ['[', ']']

/-- A setting as it is written: in brackets, unless it is read as it is. -/
def AddedConfig.render (config : AddedConfig) : String :=
  if ',' ∉ config.value.toList ∧ trim config.value = config.value then
    config.key ++ ("=" ++ config.value)
  else config.key ++ ("=" ++ ("[" ++ (config.value ++ "]")))

def AddedConfig.pair (config : AddedConfig) : String × String := (config.key, config.value)

/-- An argument of `--add-config`: one setting or more, with commas between them. -/
structure Argument where
  configs : List AddedConfig
  configs_ne : configs ≠ []

def Argument.render (argument : Argument) : String :=
  ",".intercalate (argument.configs.map AddedConfig.render)

/-- The settings of some arguments. -/
def pairsOf (arguments : List Argument) : List (String × String) :=
  arguments.flatMap fun argument => argument.configs.map AddedConfig.pair

theorem AddedConfig.plain_key (config : AddedConfig) :
    ∀ c ∈ config.key.toList, NoBracket c ∧ c ≠ ',' ∧ c ≠ '=' := by
  intro c hc
  have h := config.key_plain c hc
  simp only [List.mem_cons, List.not_mem_nil, or_false, not_or] at h
  exact ⟨⟨h.2.2.1, h.2.2.2⟩, h.1, h.2.1⟩

theorem AddedConfig.plain_value (config : AddedConfig) :
    ∀ c ∈ config.value.toList, NoBracket c := by
  intro c hc
  have h := config.value_plain c hc
  simpa [NoBracket] using h

theorem AddedConfig.whole (config : AddedConfig) : Whole ',' false config.render.toList := by
  have hkey : Whole ',' false (config.key.toList ++ ['=']) := by
    refine whole_of_plain ?_
    intro c hc
    rw [List.mem_append, List.mem_singleton] at hc
    rcases hc with hc | rfl
    · exact ⟨(config.plain_key c hc).1, (config.plain_key c hc).2.1⟩
    · simp [NoBracket]
  rw [AddedConfig.render]
  split_ifs with hbare
  · have hlist : (config.key ++ ("=" ++ config.value)).toList =
        (config.key.toList ++ ['=']) ++ config.value.toList := by simp
    rw [hlist]
    refine hkey.append (whole_of_plain ?_)
    intro c hc
    exact ⟨config.plain_value c hc, fun heq => hbare.1 (heq ▸ hc)⟩
  · have hlist : (config.key ++ ("=" ++ ("[" ++ (config.value ++ "]")))).toList =
        (config.key.toList ++ ['=']) ++ '[' :: (config.value.toList ++ [']']) := by simp
    rw [hlist]
    exact hkey.append (whole_enclosed config.plain_value)

/-- Whole texts are found between the delimiters. -/
theorem splitOutsideBrackets_intercalate {parts : List String} (hne : parts ≠ [])
    (hparts : ∀ part ∈ parts, Whole ',' false part.toList ∧ part ≠ "") :
    splitOutsideBrackets (",".intercalate parts) ',' = .ok parts := by
  have hcut : cutFrom ',' false (",".intercalate parts).toList =
      .ok (parts.map String.toList) := by
    induction parts with
    | nil => exact absurd rfl hne
    | cons part rest ih =>
      rw [List.forall_mem_cons] at hparts
      cases rest with
      | nil => exact hparts.1.1.cutFrom
      | cons next rest =>
        have hlist : (",".intercalate (part :: next :: rest)).toList =
            part.toList ++ ',' :: (",".intercalate (next :: rest)).toList := by
          rw [String.intercalate_cons_cons]
          simp
        rw [hlist, cutFrom_delimiter (by simp [NoBracket]) hparts.1.1.cutFrom,
          ih (List.cons_ne_nil _ _) hparts.2]
        rfl
  have hdrop : dropEmptyParts parts = parts := by
    cases parts with
    | nil => rfl
    | cons first rest =>
      refine congrArg (first :: ·) (List.rdropWhile_eq_self_iff.2 ?_)
      intro hrest
      have hlast := (hparts _ (List.mem_cons_of_mem _ (List.getLast_mem hrest))).2
      simp [hlast]
  have hmap : (parts.map String.toList).map String.ofList = parts := by
    simp [List.map_map, Function.comp_def]
  rw [splitOutsideBrackets, hcut, ok_bind, hmap, hdrop]
  rfl

theorem stripBrackets_enclosed (value : String) :
    stripBrackets ("[" ++ (value ++ "]")) = value := by
  have hopened : stripPrefix ("[" ++ (value ++ "]")) "[" = some (value ++ "]") :=
    stripPrefix_eq_some.2 rfl
  have hsuffix : stripSuffix (value ++ "]") "]" = some value := stripSuffix_eq_some.2 rfl
  rw [stripBrackets, hopened, Option.bind_some, hsuffix, Option.getD_some]

theorem trim_enclosed (value : String) :
    trim ("[" ++ (value ++ "]")) = "[" ++ (value ++ "]") := by
  have hlist : ("[" ++ (value ++ "]")).toList = ('[' :: value.toList) ++ [']'] := by simp
  refine trim_of_ends ?_ ?_
  · rw [hlist]
    simp [isWhiteSpace]
  · rw [hlist, List.getLast?_concat]
    simp [isWhiteSpace]

/-- A text that does not start with a bracket is not in brackets. -/
theorem stripBrackets_eq_self {value : String} (h : '[' ∉ value.toList.head?) :
    stripBrackets value = value := by
  have hopened : stripPrefix value "[" = none := by
    cases hstrip : stripPrefix value "[" with
    | none => rfl
    | some rest =>
      rw [stripPrefix_eq_some.1 hstrip] at h
      simp at h
  rw [stripBrackets, hopened, Option.bind_none, Option.getD_none]

/-- The text behind a key is cut off at the `=` between them. -/
theorem parseAddition_eq {key value : String} (hkey : Whole '=' false key.toList) :
    parseAddition (key ++ ("=" ++ value)) = .ok (trim key, stripBrackets (trim value)) := by
  have hlist : (key ++ ("=" ++ value)).toList = key.toList ++ '=' :: value.toList := by simp
  rw [parseAddition, splitOnceOutsideBrackets, hlist, hkey.cutOnceFrom (by simp [NoBracket])]
  simp only [ok_bind, Option.map_some, String.ofList_toList]
  rfl

/-- A setting is read as it was written. -/
theorem parseAddition_render (config : AddedConfig) :
    parseAddition config.render = .ok config.pair := by
  have hkey : Whole '=' false config.key.toList := whole_of_plain fun c hc =>
    ⟨(config.plain_key c hc).1, (config.plain_key c hc).2.2⟩
  rw [AddedConfig.render]
  split_ifs with hbare
  · have hhead : '[' ∉ config.value.toList.head? := fun hmem =>
      (config.plain_value '[' (List.mem_of_mem_head? hmem)).1 rfl
    rw [parseAddition_eq hkey, config.key_trimmed, hbare.2, stripBrackets_eq_self hhead]
    rfl
  · rw [parseAddition_eq hkey, config.key_trimmed, trim_enclosed, stripBrackets_enclosed]
    rfl

theorem AddedConfig.render_ne (config : AddedConfig) : config.render ≠ "" := by
  rw [AddedConfig.render]
  split_ifs <;> simp [config.key_ne]

/-- The settings of an argument are read as they were written. -/
theorem parseAdditions_render (argument : Argument) :
    parseAdditions argument.render = .ok (argument.configs.map AddedConfig.pair) := by
  have hparts : ∀ part ∈ argument.configs.map AddedConfig.render,
      Whole ',' false part.toList ∧ part ≠ "" := by
    rw [List.forall_mem_map]
    intro config _
    exact ⟨config.whole, config.render_ne⟩
  rw [parseAdditions, Argument.render, splitOutsideBrackets_intercalate
    (by simpa using argument.configs_ne) hparts, ok_bind]
  refine mapM_ok_of_forall₂ (List.forall₂_map_left_iff.2 (List.forall₂_map_right_iff.2 ?_))
  exact List.forall₂_same.2 fun config _ => parseAddition_render config

/-! ## The grammar of an argument -/

/-- A setting as it stands in an argument. -/
def settingText (setting : String × String) : String := setting.1 ++ ("=" ++ setting.2)

/-- A setting as it is read. -/
def readSetting (setting : String × String) : String × String :=
  (trim setting.1, stripBrackets (trim setting.2))

/-- The settings stand in the argument, with commas between them. No comma in one of them and no
`=` in a key is outside of brackets. -/
structure ListsSettings (argument : String) (settings : List (String × String)) : Prop where
  text : argument = ",".intercalate (settings.map settingText)
  ne : settings ≠ []
  keys : ∀ setting ∈ settings, Whole '=' false setting.1.toList
  whole : ∀ setting ∈ settings, Whole ',' false (settingText setting).toList

/-- An entry is read as a setting that stands in it. -/
theorem of_parseAddition {entry : String} {addition : String × String}
    (h : parseAddition entry = .ok addition) :
    ∃ setting : String × String, entry = settingText setting ∧ addition = readSetting setting ∧
      Whole '=' false setting.1.toList := by
  simp only [parseAddition, splitOnceOutsideBrackets, bind_eq_ok, pure_eq_ok] at h
  obtain ⟨pair, ⟨parts, hparts, rfl⟩, h⟩ := h
  cases parts with
  | none => cases h
  | some parts =>
    obtain ⟨before, after⟩ := parts
    cases h
    obtain ⟨hwhole, hentry⟩ := whole_of_cutOnceFrom hparts
    refine ⟨(String.ofList before, String.ofList after), ?_, rfl, by simpa using hwhole⟩
    rw [settingText, ← String.toList_inj, hentry]
    simp

/-- Entries are read as the settings that stand in them. -/
theorem of_mapM_parseAddition {entries : List String} {additions : List (String × String)}
    (h : entries.mapM parseAddition = .ok additions) :
    ∃ settings : List (String × String), entries = settings.map settingText ∧
      additions = settings.map readSetting ∧
      ∀ setting ∈ settings, Whole '=' false setting.1.toList := by
  induction forall₂_of_mapM_ok h with
  | nil => exact ⟨[], rfl, rfl, by simp⟩
  | cons hentry hentries ih =>
    obtain ⟨setting, rfl, rfl, hkey⟩ := of_parseAddition hentry
    obtain ⟨settings, rfl, rfl, hkeys⟩ := ih (mapM_ok_of_forall₂ hentries)
    exact ⟨setting :: settings, rfl, rfl, List.forall_mem_cons.2 ⟨hkey, hkeys⟩⟩

theorem toList_intercalate_cons (part : String) (rest : List String) :
    (",".intercalate (part :: rest)).toList =
      part.toList ++ rest.flatMap fun next => ',' :: next.toList := by
  induction rest generalizing part with
  | nil => simp
  | cons next rest ih =>
    rw [String.intercalate_cons_cons, String.toList_append, String.toList_append, ih]
    simp

/-- Without a delimiter at the end of the text no part is dropped. -/
theorem dropEmptyParts_eq_self {parts : List String}
    (h : (",".intercalate parts).toList.getLast? ≠ some ',') : dropEmptyParts parts = parts := by
  cases parts with
  | nil => rfl
  | cons first rest =>
    refine congrArg (first :: ·) (List.rdropWhile_eq_self_iff.2 ?_)
    intro hrest
    by_contra hempty
    rw [decide_eq_true_eq] at hempty
    refine h ?_
    rw [toList_intercalate_cons, ← List.dropLast_concat_getLast hrest, hempty, List.flatMap_append,
      ← List.append_assoc]
    exact List.getLast?_concat

/-- **What is read from an argument**, if it does not end in a comma. -/
theorem parseAdditions_eq_ok {argument : String} {additions : List (String × String)}
    (hlast : argument.toList.getLast? ≠ some ',') :
    parseAdditions argument = .ok additions ↔
      ∃ settings, ListsSettings argument settings ∧ additions = settings.map readSetting := by
  refine ⟨?_, ?_⟩
  · intro h
    simp only [parseAdditions, splitOutsideBrackets, bind_eq_ok, pure_eq_ok] at h
    obtain ⟨entries, ⟨parts, hparts, rfl⟩, hadditions⟩ := h
    obtain ⟨first, rest, rfl, hfirst, hrest, hlist⟩ := whole_of_cutFrom hparts
    have htext : argument = ",".intercalate ((first :: rest).map String.ofList) := by
      rw [← String.toList_inj, List.map_cons, toList_intercalate_cons, hlist]
      simp [List.flatMap_map]
    have hwhole : ∀ part ∈ (first :: rest).map String.ofList, Whole ',' false part.toList := by
      simpa using ⟨hfirst, hrest⟩
    rw [dropEmptyParts_eq_self (htext ▸ hlast)] at hadditions
    obtain ⟨settings, hsettings, rfl, hkeys⟩ := of_mapM_parseAddition hadditions
    rw [hsettings] at htext hwhole
    have hne : settings ≠ [] := by
      rintro rfl
      cases hsettings
    exact ⟨settings, ⟨htext, hne, hkeys, fun setting hsetting =>
      hwhole _ (List.mem_map_of_mem hsetting)⟩, rfl⟩
  · rintro ⟨settings, hsettings, rfl⟩
    have hparts : ∀ part ∈ settings.map settingText,
        Whole ',' false part.toList ∧ part ≠ "" := by
      rw [List.forall_mem_map]
      intro setting hsetting
      exact ⟨hsettings.whole setting hsetting, by simp [settingText]⟩
    rw [parseAdditions, hsettings.text, splitOutsideBrackets_intercalate
      (by simpa using hsettings.ne) hparts, ok_bind]
    refine mapM_ok_of_forall₂ (List.forall₂_map_left_iff.2 (List.forall₂_map_right_iff.2 ?_))
    exact List.forall₂_same.2 fun setting hsetting =>
      parseAddition_eq (hsettings.keys setting hsetting)

/-! ## Brackets that are no brackets -/

/-- A bracket is opened within brackets. -/
def Nested (s : String) : Prop :=
  ∃ before between after, s.toList = before ++ '[' :: (between ++ '[' :: after) ∧ ']' ∉ between

/-- A bracket is closed that was not opened, at all or since the last one was closed. -/
def Unmatched (s : String) : Prop :=
  ∃ before between after, s.toList = before ++ (between ++ ']' :: after) ∧ '[' ∉ between ∧
    (before = [] ∨ before.getLast? = some ']')

/-- A bracket is not closed. -/
def Unclosed (s : String) : Prop := ∃ before after, s.toList = before ++ '[' :: after ∧ ']' ∉ after

/-- Within brackets that nothing closes. -/
theorem brackets_not_closed {cs : List Char} (h : ']' ∉ cs) {last : Bool}
    (hlast : brackets true cs = .ok last) : last = true := by
  induction cs with
  | nil =>
    cases hlast
    rfl
  | cons c cs ih =>
    rw [List.mem_cons, not_or] at h
    rw [brackets_cons, bind_eq_ok] at hlast
    obtain ⟨next, hnext, hlast⟩ := hlast
    by_cases hopen : c = '['
    · subst hopen
      cases hnext
    · rw [bracketStep_noBracket ⟨hopen, Ne.symm h.1⟩] at hnext
      cases hnext
      exact ih h.2 hlast

/-- Outside of brackets where none is opened. -/
theorem brackets_not_opened {cs : List Char} (h : '[' ∉ cs) {last : Bool}
    (hlast : brackets false cs = .ok last) : last = false := by
  induction cs with
  | nil =>
    cases hlast
    rfl
  | cons c cs ih =>
    rw [List.mem_cons, not_or] at h
    rw [brackets_cons, bind_eq_ok] at hlast
    obtain ⟨next, hnext, hlast⟩ := hlast
    by_cases hclose : c = ']'
    · subst hclose
      cases hnext
    · rw [bracketStep_noBracket ⟨Ne.symm h.1, hclose⟩] at hnext
      cases hnext
      exact ih h.2 hlast

/-- An opening bracket is followed by text within brackets. -/
theorem brackets_open {bracketed : Bool} {cs : List Char} {last : Bool}
    (h : brackets bracketed ('[' :: cs) = .ok last) : brackets true cs = .ok last := by
  rw [brackets_cons] at h
  cases bracketed with
  | true => cases h
  | false => exact h

/-- Brackets that do not match are found. -/
theorem not_closed_of_mismatch {s : String} (h : Nested s ∨ Unmatched s ∨ Unclosed s) :
    brackets false s.toList ≠ .ok false := by
  intro hclosed
  rcases h with ⟨before, between, after, hs, hbetween⟩ |
    ⟨before, between, after, hs, hbetween, hbefore⟩ | ⟨before, after, hs, hafter⟩
  · rw [hs, brackets_append, bind_eq_ok] at hclosed
    obtain ⟨next, _, hclosed⟩ := hclosed
    have hwithin := brackets_open hclosed
    rw [brackets_append, bind_eq_ok] at hwithin
    obtain ⟨last, hlast, hafter⟩ := hwithin
    rw [brackets_not_closed hbetween hlast] at hafter
    cases hafter
  · rw [hs, brackets_append, bind_eq_ok] at hclosed
    obtain ⟨next, hnext, hclosed⟩ := hclosed
    have hout : next = false := by
      rcases hbefore with rfl | hbefore
      · cases hnext
        rfl
      · obtain ⟨front, rfl⟩ := List.getLast?_eq_some_iff.1 hbefore
        rw [brackets_append, bind_eq_ok] at hnext
        obtain ⟨last, _, hnext⟩ := hnext
        cases last with
        | true =>
          cases hnext
          rfl
        | false => cases hnext
    rw [hout, brackets_append, bind_eq_ok] at hclosed
    obtain ⟨last, hlast, hafter⟩ := hclosed
    rw [brackets_not_opened hbetween hlast] at hafter
    cases hafter
  · rw [hs, brackets_append, bind_eq_ok] at hclosed
    obtain ⟨next, _, hclosed⟩ := hclosed
    have hlast := brackets_not_closed hafter (brackets_open hclosed)
    cases hlast

/-- What is read has its brackets closed. -/
theorem brackets_of_parseAdditions {value : String} {additions : List (String × String)}
    (h : parseAdditions value = .ok additions) : brackets false value.toList = .ok false := by
  simp only [parseAdditions, splitOutsideBrackets, bind_eq_ok] at h
  obtain ⟨_, ⟨parts, hparts, _⟩, _⟩ := h
  exact brackets_of_cutFrom hparts

/-! ## The theorem -/

/-- **Added settings come back.** The settings of some arguments are listed by their keys; and
brackets that are nested, unmatched or unclosed are an error, whatever else is in the arguments. -/
theorem parseConfigAdditions_inverts :
    (∀ arguments : List Argument, ((pairsOf arguments).map Prod.fst).Nodup →
      ∃ configs, parseConfigAdditions (arguments.map Argument.render) = .ok configs ∧
        configs.Perm (pairsOf arguments) ∧ Increasing compare configs) ∧
    ∀ values : List String, (∃ value ∈ values, Nested value ∨ Unmatched value ∨ Unclosed value) →
      ∃ error, parseConfigAdditions values = .error error := by
  refine ⟨?_, ?_⟩
  · intro arguments hkeys
    have hread : (arguments.map Argument.render).mapM parseAdditions =
        .ok (arguments.map fun argument => argument.configs.map AddedConfig.pair) := by
      refine mapM_ok_of_forall₂ (List.forall₂_map_left_iff.2 (List.forall₂_map_right_iff.2 ?_))
      exact List.forall₂_same.2 fun argument _ => parseAdditions_render argument
    have hflat : (arguments.map fun argument => argument.configs.map AddedConfig.pair).flatten =
        pairsOf arguments := List.flatMap_def.symm
    have hdistinct : (pairsOf arguments).Pairwise fun a b => ¬ compare a.1 b.1 = .eq := by
      refine (List.pairwise_map.1 hkeys).imp ?_
      intro a b hne heq
      exact hne (Std.LawfulEqCmp.eq_of_compare heq)
    refine ⟨_, ?_, toList_ofList_perm hdistinct, increasing_toList _⟩
    rw [parseConfigAdditions, hread, ok_bind, hflat]
    rfl
  · intro values ⟨value, hvalue, hmismatch⟩
    cases hparse : parseConfigAdditions values with
    | error e => exact ⟨e, rfl⟩
    | ok configs =>
      simp only [parseConfigAdditions, bind_eq_ok] at hparse
      obtain ⟨additions, hadditions, _⟩ := hparse
      obtain ⟨read, hread⟩ := exists_mapM_ok_iff.1 ⟨additions, hadditions⟩ value hvalue
      exact absurd (brackets_of_parseAdditions hread) (not_closed_of_mismatch hmismatch)

end KafkaCli.Config
