import Mathlib.Data.List.DropRight

/-!
# Text

The operations on text of a standard library, as functions of the characters: trimming, ASCII
case, prefixes and suffixes, splitting at a character, lines, and UTF-8.

* `trim_trim`, `trim_append` — trimming twice, and trimming what has a solid start.
* `splitOnce_append`, `splitOnceText_eq_some` — the first occurrence of a separator.
* `SplitsAt.intercalate` — splitting undoes joining.
* `lines_unlines` — lines that were written one after the other are read back.
-/

namespace KafkaCli.Text

/-! ## Trimming -/

section TrimList

variable {α : Type*} (p : α → Bool) (l : List α)

/-- Drop the elements with `p` from both ends. -/
def trimList : List α := (l.dropWhile p).rdropWhile p

theorem dropWhile_trimList : (trimList p l).dropWhile p = trimList p l := by
  cases htrim : trimList p l with
  | nil => rfl
  | cons x xs =>
    obtain ⟨rest, hrest⟩ : x :: xs <+: l.dropWhile p := htrim ▸ List.rdropWhile_prefix p _
    have hne : l.dropWhile p ≠ [] := by simp [← hrest]
    have hhead := List.head_dropWhile_not p hne
    simp only [← hrest, List.cons_append, List.head_cons] at hhead
    simp [hhead]

theorem trimList_trimList : trimList p (trimList p l) = trimList p l := by
  conv_lhs => rw [trimList, dropWhile_trimList, trimList]
  exact List.rdropWhile_idempotent p _

/-- What starts and ends with elements that stay is only trimmed behind it. -/
theorem trimList_append {start : List α} (hhead : ∀ h : start ≠ [], p (start.head h) = false)
    (hlast : ∀ h : start ≠ [], p (start.getLast h) = false) (hne : start ≠ []) :
    trimList p (start ++ l) = start ++ l.rdropWhile p := by
  have hdrop : (start ++ l).dropWhile p = start ++ l := by
    cases start with
    | nil => exact absurd rfl hne
    | cons x xs => simp [show p x = false from hhead hne]
  rw [trimList, hdrop]
  induction l using List.reverseRecOn with
  | nil =>
    rw [List.append_nil, List.rdropWhile_nil, List.append_nil, List.rdropWhile_eq_self_iff]
    intro h
    simp [hlast h]
  | append_singleton l x ih =>
    rw [← List.append_assoc]
    cases hx : p x with
    | false => rw [List.rdropWhile_concat_neg _ _ _ (by simp [hx]),
        List.rdropWhile_concat_neg _ _ _ (by simp [hx]), List.append_assoc]
    | true =>
      rw [List.rdropWhile_concat_pos _ _ _ hx, List.rdropWhile_concat_pos _ _ _ hx, ih]
      cases start with
      | nil => exact absurd rfl hne
      | cons x xs => simp [show p x = false from hhead hne]

theorem trimList_concat {x : α} (hx : p x = true) : trimList p (l ++ [x]) = trimList p l := by
  rw [trimList, List.dropWhile_append]
  split_ifs with hempty
  · rw [List.isEmpty_iff] at hempty
    simp [trimList, hempty, hx]
  · rw [List.rdropWhile_concat_pos _ _ _ hx, trimList]

/-- Trimming what is trimmed behind already. -/
theorem trimList_rdropWhile : trimList p (l.rdropWhile p) = trimList p l := by
  induction l using List.reverseRecOn with
  | nil => rfl
  | append_singleton l x ih =>
    cases hx : p x with
    | false => rw [List.rdropWhile_concat_neg _ _ _ (by simp [hx])]
    | true => rw [List.rdropWhile_concat_pos _ _ _ hx, ih, trimList_concat p l hx]

end TrimList

/-- The characters with the Unicode property `White_Space`. -/
def isWhiteSpace (c : Char) : Bool :=
  (0x9 ≤ c.toNat && c.toNat ≤ 0xD) || c.toNat = 0x20 || c.toNat = 0x85 || c.toNat = 0xA0 ||
    c.toNat = 0x1680 || (0x2000 ≤ c.toNat && c.toNat ≤ 0x200A) || c.toNat = 0x2028 ||
    c.toNat = 0x2029 || c.toNat = 0x202F || c.toNat = 0x205F || c.toNat = 0x3000

/-- The text without white space at its ends. -/
def trim (s : String) : String := String.ofList (trimList isWhiteSpace s.toList)

@[simp] theorem trim_trim (s : String) : trim (trim s) = trim s := by
  simp [trim, trimList_trimList]

theorem mem_of_mem_trim {s : String} {c : Char} (h : c ∈ (trim s).toList) : c ∈ s.toList := by
  rw [trim, String.toList_ofList] at h
  exact (List.dropWhile_suffix _).mem ((List.rdropWhile_prefix _ _).mem h)

/-- A text with solid ends is not trimmed. -/
theorem trim_of_ends {s : String} (hfirst : ∀ c ∈ s.toList.head?, isWhiteSpace c = false)
    (hlast : ∀ c ∈ s.toList.getLast?, isWhiteSpace c = false) : trim s = s := by
  have hdrop : s.toList.dropWhile isWhiteSpace = s.toList := by
    cases hs : s.toList with
    | nil => rfl
    | cons c cs => simp [hfirst c (by simp [hs])]
  have hrdrop : s.toList.rdropWhile isWhiteSpace = s.toList :=
    List.rdropWhile_eq_self_iff.2 fun hne => by simp [hlast _ (List.getLast_mem_getLast? hne)]
  rw [trim, trimList, hdrop, hrdrop, String.ofList_toList]

/-- A text without white space is not trimmed. -/
theorem trim_eq_self {s : String} (h : ∀ c ∈ s.toList, isWhiteSpace c = false) : trim s = s :=
  trim_of_ends (fun c hc => h c (List.mem_of_mem_head? hc))
    fun c hc => h c (List.mem_of_getLast? hc)

/-- The text without some characters at its ends. -/
def trimMatches (s : String) (chars : List Char) : String :=
  String.ofList (trimList (· ∈ chars) s.toList)

/-- Whether all characters of a text are of one kind is decided along the text. -/
instance decidableForallChar {p : Char → Prop} [DecidablePred p] (cs : List Char) :
    Decidable (∀ c ∈ cs, p c) := List.decidableBAll p cs

/-! ## Case, prefixes and suffixes -/

/-- ASCII letters in lower case, other characters as they are. -/
def toAsciiLowercase (s : String) : String := String.ofList (s.toList.map Char.toLower)

/-- ASCII letters in upper case, other characters as they are. -/
def toAsciiUppercase (s : String) : String := String.ofList (s.toList.map Char.toUpper)

/-- The text starts with the characters of `pre`. -/
def startsWith (s pre : String) : Bool := pre.toList.isPrefixOf s.toList

/-- The text ends with the characters of `suf`. -/
def endsWith (s suf : String) : Bool := suf.toList.isSuffixOf s.toList

/-- What follows `pre`, where the text starts with it. -/
def stripPrefix (s pre : String) : Option String :=
  if startsWith s pre then some (String.ofList (s.toList.drop pre.toList.length)) else none

/-- What precedes `suf`, where the text ends with it. -/
def stripSuffix (s suf : String) : Option String :=
  if endsWith s suf then some (String.ofList (s.toList.take (s.toList.length - suf.toList.length)))
  else none

theorem stripPrefix_eq_some {s pre rest : String} :
    stripPrefix s pre = some rest ↔ s = pre ++ rest := by
  rw [stripPrefix, startsWith]
  by_cases h : pre.toList <+: s.toList
  · obtain ⟨tail, htail⟩ := h
    rw [if_pos (List.isPrefixOf_iff_prefix.2 ⟨tail, htail⟩), ← htail, List.drop_left,
      Option.some.injEq, ← String.toList_inj, ← String.toList_inj, String.toList_append, ← htail]
    simp
  · rw [if_neg (by simpa [List.isPrefixOf_iff_prefix] using h)]
    refine iff_of_false (by simp) ?_
    rintro rfl
    exact h (by simp)

theorem stripSuffix_eq_some {s suf rest : String} :
    stripSuffix s suf = some rest ↔ s = rest ++ suf := by
  rw [stripSuffix, endsWith]
  by_cases h : suf.toList <:+ s.toList
  · obtain ⟨front, hfront⟩ := h
    rw [if_pos (List.isSuffixOf_iff_suffix.2 ⟨front, hfront⟩), ← hfront, List.length_append,
      Nat.add_sub_cancel, List.take_left,
      Option.some.injEq, ← String.toList_inj, ← String.toList_inj, String.toList_append, ← hfront]
    simp
  · rw [if_neg (by simpa [List.isSuffixOf_iff_suffix] using h)]
    refine iff_of_false (by simp) ?_
    rintro rfl
    exact h (by simp)

/-- Trimming what has a solid start: only the end is trimmed. -/
theorem trim_append (start : String) (hne : start.toList ≠ [])
    (hhead : isWhiteSpace (start.toList.head hne) = false)
    (hlast : isWhiteSpace (start.toList.getLast hne) = false) (s : String) :
    ∃ rest, trim (start ++ s) = start ++ rest ∧ trim rest = trim s := by
  refine ⟨String.ofList (s.toList.rdropWhile isWhiteSpace), ?_, ?_⟩
  · rw [trim, String.toList_append,
      trimList_append isWhiteSpace s.toList (fun _ => hhead) (fun _ => hlast) hne]
    rw [String.ofList_append, String.ofList_toList]
  · rw [trim, trim, String.toList_ofList, trimList_rdropWhile]

theorem head?_append {s : String} {c : Char} (h : s.toList.head? = some c) (t : String) :
    (s ++ t).toList.head? = some c := by
  rw [String.toList_append, List.head?_append, h]
  rfl

/-! ## Splitting -/

/-- The pieces between the occurrences of a character; one more than there are occurrences. -/
def split (s : String) (sep : Char) : List String := (s.toList.splitOn sep).map String.ofList

/-- The pieces around the first occurrence of a character. -/
def splitOnce (s : String) (sep : Char) : Option (String × String) :=
  if sep ∈ s.toList then
    let before := s.toList.takeWhile (· ≠ sep)
    some (String.ofList before, String.ofList (s.toList.drop (before.length + 1)))
  else none

/-- The pieces around the last occurrence of a character. -/
def rsplitOnce (s : String) (sep : Char) : Option (String × String) :=
  if sep ∈ s.toList then
    let after := s.toList.reverse.takeWhile (· ≠ sep)
    some (String.ofList (s.toList.take (s.toList.length - (after.length + 1))),
      String.ofList after.reverse)
  else none

/-- The characters around the first occurrence of others. -/
def splitOnceList (pat : List Char) : List Char → Option (List Char × List Char)
  | [] => if pat = [] then some ([], []) else none
  | c :: cs =>
    if pat.isPrefixOf (c :: cs) then some ([], (c :: cs).drop pat.length)
    else (splitOnceList pat cs).map fun (before, after) => (c :: before, after)

/-- The pieces around the first occurrence of a text. -/
def splitOnceText (s pat : String) : Option (String × String) :=
  (splitOnceList pat.toList s.toList).map fun (before, after) =>
    (String.ofList before, String.ofList after)

theorem split_ne_nil (s : String) (sep : Char) : split s sep ≠ [] := by
  simp [split, List.splitOn_ne_nil]

/-- No piece has a separator. -/
theorem not_mem_of_mem_split {s piece : String} {sep : Char} (h : piece ∈ split s sep) :
    sep ∉ piece.toList := by
  have hlist : ∀ cs : List Char, ∀ ds ∈ cs.splitOn sep, sep ∉ ds := by
    intro cs
    induction cs with
    | nil => simp
    | cons c cs ih =>
      rw [List.splitOn_cons_eq_if_modifyHead]
      split_ifs with hc
      · simpa using ih
      · cases hsplit : cs.splitOn sep with
        | nil => exact absurd hsplit (List.splitOn_ne_nil sep cs)
        | cons first rest =>
          rw [hsplit, List.forall_mem_cons] at ih
          have hne : sep ≠ c := fun heq => hc (by simp [heq])
          rw [List.modifyHead_cons, List.forall_mem_cons]
          exact ⟨List.not_mem_cons_of_ne_of_not_mem hne ih.1, ih.2⟩
  rw [split, List.mem_map] at h
  obtain ⟨ds, hds, rfl⟩ := h
  simpa using hlist s.toList ds hds

/-- The first piece is the one in front of the first separator. -/
theorem split_append_cons {piece : String} {sep : Char} (h : sep ∉ piece.toList) (s : String) :
    split (piece ++ (String.singleton sep ++ s)) sep = piece :: split s sep := by
  have hlist : (piece ++ (String.singleton sep ++ s)).toList =
      piece.toList ++ sep :: s.toList := by simp
  rw [split, hlist, List.splitOn_append_cons_self_of_not_mem h, List.map_cons,
    String.ofList_toList, ← split]

/-- The first separator is the one behind a piece that has none. -/
theorem splitOnce_append {key : String} {sep : Char} (hkey : sep ∉ key.toList) (value : String) :
    splitOnce (key ++ (String.singleton sep ++ value)) sep = some (key, value) := by
  have hall : ∀ c ∈ key.toList, (decide (c ≠ sep)) = true := by
    intro c hc
    have hne : c ≠ sep := fun heq => hkey (heq ▸ hc)
    simpa using hne
  have htake : (key.toList ++ sep :: value.toList).takeWhile (· ≠ sep) = key.toList := by
    rw [List.takeWhile_append_of_pos hall]
    simp
  have hlist : (key ++ (String.singleton sep ++ value)).toList =
      key.toList ++ sep :: value.toList := by
    simp
  rw [splitOnce, hlist, if_pos (by simp), htake]
  simp

theorem splitOnce_eq_none {s : String} {sep : Char} : splitOnce s sep = none ↔ sep ∉ s.toList := by
  rw [splitOnce]
  by_cases h : sep ∈ s.toList
  · simp [h]
  · simp [h]

/-- The last separator is the one in front of a piece that has none. -/
theorem rsplitOnce_append (front : String) {sep : Char} {back : String}
    (hback : sep ∉ back.toList) :
    rsplitOnce (front ++ (String.singleton sep ++ back)) sep = some (front, back) := by
  have hall : ∀ c ∈ back.toList.reverse, (decide (c ≠ sep)) = true := by
    intro c hc
    have hne : c ≠ sep := fun heq => hback (heq ▸ List.mem_reverse.1 hc)
    simpa using hne
  have hlist : (front ++ (String.singleton sep ++ back)).toList =
      front.toList ++ sep :: back.toList := by simp
  have htake : (front.toList ++ sep :: back.toList).reverse.takeWhile (· ≠ sep) =
      back.toList.reverse := by
    rw [List.reverse_append, List.reverse_cons, List.append_assoc,
      List.takeWhile_append_of_pos hall]
    simp
  rw [rsplitOnce, hlist, if_pos (by simp), htake]
  simp

/-- The pieces are those around the first separator. -/
theorem splitOnce_eq_some {s : String} {sep : Char} {before after : String} :
    splitOnce s sep = some (before, after) ↔
      sep ∉ before.toList ∧ s = before ++ (String.singleton sep ++ after) := by
  refine ⟨?_, ?_⟩
  · intro h
    by_cases hmem : sep ∈ s.toList
    · obtain ⟨front, back, hlist, hfront⟩ := List.eq_append_cons_of_mem hmem
      have hs : s = String.ofList front ++ (String.singleton sep ++ String.ofList back) := by
        rw [← String.toList_inj, hlist]
        simp
      rw [hs, splitOnce_append (by simpa using hfront)] at h
      cases h
      exact ⟨by simpa using hfront, hs⟩
    · rw [splitOnce_eq_none.2 hmem] at h
      cases h
  · rintro ⟨hbefore, rfl⟩
    exact splitOnce_append hbefore after

/-! ## The first occurrence of a text -/

/-- The text `pat` occurs in the text `s`, after `n` of its characters. -/
def OccursAt (pat s : String) (n : ℕ) : Prop := pat.toList <+: s.toList.drop n

instance (pat s : String) (n : ℕ) : Decidable (OccursAt pat s n) :=
  inferInstanceAs (Decidable (_ <+: _))

theorem splitOnceList_eq_some {pat cs before after : List Char} :
    splitOnceList pat cs = some (before, after) ↔
      cs = before ++ (pat ++ after) ∧ ∀ n < before.length, ¬ pat <+: cs.drop n := by
  induction cs generalizing before with
  | nil =>
    rw [splitOnceList]
    split_ifs with hpat
    · subst hpat
      simp only [Option.some.injEq, Prod.mk.injEq, List.nil_append]
      refine ⟨?_, ?_⟩
      · rintro ⟨rfl, rfl⟩
        simp
      · intro ⟨hnil, _⟩
        obtain ⟨hbefore, hafter⟩ := List.append_eq_nil_iff.1 hnil.symm
        exact ⟨hbefore.symm, hafter.symm⟩
    · refine iff_of_false (by simp) ?_
      intro ⟨hnil, _⟩
      exact hpat (List.append_eq_nil_iff.1 (List.append_eq_nil_iff.1 hnil.symm).2).1
  | cons c cs ih =>
    rw [splitOnceList]
    split_ifs with hpre
    · obtain ⟨tail, htail⟩ := List.isPrefixOf_iff_prefix.1 hpre
      rw [← htail, List.drop_left, Option.some.injEq, Prod.mk.injEq]
      refine ⟨?_, ?_⟩
      · rintro ⟨rfl, rfl⟩
        simp
      · intro ⟨hcs, hfirst⟩
        cases before with
        | nil => exact ⟨rfl, List.append_cancel_left hcs⟩
        | cons _ _ => exact absurd ⟨tail, rfl⟩ (hfirst 0 (by simp))
    · have hhead : ¬ pat <+: c :: cs := fun h => hpre (List.isPrefixOf_iff_prefix.2 h)
      cases before with
      | nil =>
        refine iff_of_false (by simp) ?_
        intro ⟨hcs, _⟩
        exact hhead ⟨after, hcs.symm⟩
      | cons b before =>
        have hmap : ((splitOnceList pat cs).map fun (x, y) => (c :: x, y)) =
            some (b :: before, after) ↔ c = b ∧ splitOnceList pat cs = some (before, after) := by
          cases splitOnceList pat cs with
          | none => simp
          | some pieces =>
            obtain ⟨x, y⟩ := pieces
            simp [and_assoc]
        rw [hmap, ih, List.cons_append, List.cons.injEq, and_assoc, List.length_cons,
          Nat.forall_lt_succ_left]
        simp only [List.drop_zero, List.drop_succ_cons, hhead, not_false_eq_true, true_and]

/-- **The first occurrence.** The pieces are those around an occurrence before which none starts. -/
theorem splitOnceText_eq_some {s pat before after : String} :
    splitOnceText s pat = some (before, after) ↔
      s = before ++ (pat ++ after) ∧ ∀ n < before.toList.length, ¬ OccursAt pat s n := by
  have hlist : splitOnceText s pat = some (before, after) ↔
      splitOnceList pat.toList s.toList = some (before.toList, after.toList) := by
    rw [splitOnceText]
    cases splitOnceList pat.toList s.toList with
    | none => simp
    | some pieces =>
      obtain ⟨x, y⟩ := pieces
      simp [← String.toList_inj]
  rw [hlist, splitOnceList_eq_some, ← String.toList_inj, String.toList_append,
    String.toList_append]
  rfl

theorem splitOnceList_eq_none {pat cs : List Char} :
    splitOnceList pat cs = none ↔ ¬ pat <:+: cs := by
  refine ⟨?_, ?_⟩
  · rintro hnone ⟨before, after, hcs⟩
    induction cs generalizing before with
    | nil =>
      rw [List.append_assoc, List.append_eq_nil_iff, List.append_eq_nil_iff] at hcs
      simp [splitOnceList, hcs.2.1] at hnone
    | cons c cs ih =>
      rw [splitOnceList] at hnone
      split_ifs at hnone with hpre
      rw [Option.map_eq_none_iff] at hnone
      cases before with
      | nil => exact hpre (List.isPrefixOf_iff_prefix.2 ⟨after, by simpa using hcs⟩)
      | cons _ before =>
        rw [List.cons_append, List.cons_append, List.cons.injEq] at hcs
        exact ih hnone before hcs.2
  · intro hinfix
    cases hsplit : splitOnceList pat cs with
    | none => rfl
    | some pieces =>
      obtain ⟨before, after⟩ := pieces
      refine absurd ⟨before, after, ?_⟩ hinfix
      rw [(splitOnceList_eq_some.1 hsplit).1, List.append_assoc]

theorem splitOnceText_eq_none {s pat : String} :
    splitOnceText s pat = none ↔ ¬ pat.toList <:+: s.toList := by
  rw [splitOnceText, Option.map_eq_none_iff, splitOnceList_eq_none]

/-- A function splits at a text: at its first occurrence, and again in what follows. -/
structure SplitsAt (sep : String) (pieces : String → List String) : Prop where
  whole : ∀ s, splitOnceText s sep = none → pieces s = [s]
  first : ∀ s before after, splitOnceText s sep = some (before, after) →
    pieces s = before :: pieces after

/-- Where the pieces are put together, the separator occurs first where it was put, in front of
every piece and in none of the last one. -/
def Separable (sep : String) : List String → Prop
  | [] => True
  | [piece] => ¬ sep.toList <:+: piece.toList
  | piece :: next :: rest =>
    (∀ n < piece.toList.length, ¬ OccursAt sep (sep.intercalate (piece :: next :: rest)) n) ∧
      Separable sep (next :: rest)

instance decidableSeparable (sep : String) : ∀ pieces, Decidable (Separable sep pieces)
  | [] => .isTrue trivial
  | [piece] => inferInstanceAs (Decidable (¬ sep.toList <:+: piece.toList))
  | _ :: next :: rest => @instDecidableAnd _ _ _ (decidableSeparable sep (next :: rest))

/-- The empty text separates nothing: it is in every piece. -/
theorem Separable.ne_empty {sep : String} {pieces : List String} (hne : pieces ≠ [])
    (h : Separable sep pieces) : sep ≠ "" := by
  rintro rfl
  induction pieces with
  | nil => exact hne rfl
  | cons piece rest ih =>
    cases rest with
    | nil => exact h List.nil_infix
    | cons next rest => exact ih (List.cons_ne_nil _ _) h.2

/-- **Splitting undoes joining.** -/
theorem SplitsAt.intercalate {sep : String} {split : String → List String}
    (h : SplitsAt sep split) {pieces : List String} (hne : pieces ≠ [])
    (hsep : Separable sep pieces) : split (sep.intercalate pieces) = pieces := by
  induction pieces with
  | nil => exact absurd rfl hne
  | cons piece rest ih =>
    cases rest with
    | nil =>
      rw [String.intercalate_singleton]
      exact h.whole piece (splitOnceText_eq_none.2 hsep)
    | cons next rest =>
      have hfirst : splitOnceText (sep.intercalate (piece :: next :: rest)) sep =
          some (piece, sep.intercalate (next :: rest)) := by
        refine splitOnceText_eq_some.2 ⟨?_, hsep.1⟩
        rw [String.intercalate_cons_cons, String.append_assoc]
      rw [h.first _ _ _ hfirst, ih (List.cons_ne_nil _ _) hsep.2]

/-- The pieces between the occurrences of a text, up to `fuel` of them. -/
def splitTextFrom (sep : String) : (fuel : ℕ) → String → List String
  | 0, s => [s]
  | fuel + 1, s =>
    match splitOnceText s sep with
    | none => [s]
    | some (before, after) => before :: splitTextFrom sep fuel after

/-- The pieces between the occurrences of a text. -/
def splitText (sep s : String) : List String := splitTextFrom sep s.toList.length s

/-- What follows a separator is shorter. -/
theorem length_of_splitOnceText {s sep before after : String} (hne : sep ≠ "")
    (h : splitOnceText s sep = some (before, after)) : after.toList.length < s.toList.length := by
  have hpos : 0 < sep.toList.length := by
    rw [List.length_pos_iff]
    simpa using hne
  rw [(splitOnceText_eq_some.1 h).1, String.toList_append, String.toList_append,
    List.length_append, List.length_append]
  omega

/-- With fuel for every character the pieces are all of them. -/
theorem splitTextFrom_eq {sep : String} (hne : sep ≠ "") {fuel fuel' : ℕ} {s : String}
    (hfuel : s.toList.length ≤ fuel) (hfuel' : s.toList.length ≤ fuel') :
    splitTextFrom sep fuel s = splitTextFrom sep fuel' s := by
  induction fuel generalizing fuel' s with
  | zero =>
    cases fuel' with
    | zero => rfl
    | succ fuel' =>
      rw [splitTextFrom, splitTextFrom]
      cases hsplit : splitOnceText s sep with
      | none => rfl
      | some pieces =>
        have hlt := length_of_splitOnceText hne hsplit
        omega
  | succ fuel ih =>
    rw [splitTextFrom]
    cases hsplit : splitOnceText s sep with
    | none => cases fuel' <;> simp [splitTextFrom, hsplit]
    | some pieces =>
      obtain ⟨before, after⟩ := pieces
      have hlt := length_of_splitOnceText hne hsplit
      cases fuel' with
      | zero => omega
      | succ fuel' =>
        simp only [splitTextFrom, hsplit]
        exact congrArg (before :: ·) (ih (by omega) (by omega))

theorem splitsAt_splitText {sep : String} (hne : sep ≠ "") : SplitsAt sep (splitText sep) where
  whole s hsplit := by
    rw [splitText]
    cases s.toList.length <;> simp [splitTextFrom, hsplit]
  first s before after hsplit := by
    have hlt := length_of_splitOnceText hne hsplit
    rw [splitText, splitText, splitTextFrom_eq hne (Nat.le_refl _) (Nat.le_succ _)]
    simp only [splitTextFrom, hsplit]
    rw [splitTextFrom_eq hne (by omega) (Nat.le_refl _)]

/-! ## Lines -/

/-- The line without the carriage return at its end. -/
def stripCr (line : String) : String :=
  if endsWith line "\r" then String.ofList line.toList.dropLast else line

/-- The lines of a text. A line feed ends a line; a carriage return before it is dropped. -/
def lines (s : String) : List String :=
  let pieces := split s '\n'
  pieces.dropLast.map stripCr ++ (if pieces.getLast? = some "" then [] else pieces.getLast?.toList)

/-- Lines written one after the other, each with a line feed. -/
def unlines : List String → String
  | [] => ""
  | line :: rest => line ++ ("\n" ++ unlines rest)

/-- What is in front of a line feed is split on its own. -/
theorem lines_append (s t : String) :
    lines (s ++ ("\n" ++ t)) = (split s '\n').map stripCr ++ lines t := by
  have hlist : (s ++ ("\n" ++ t)).toList = s.toList ++ '\n' :: t.toList := by simp
  have hsplit : split (s ++ ("\n" ++ t)) '\n' = split s '\n' ++ split t '\n' := by
    rw [split, hlist, List.splitOn_append_cons_self, List.map_append, ← split, ← split]
  have hne := split_ne_nil t '\n'
  rw [lines, lines, hsplit, List.dropLast_append_of_ne_nil hne, List.map_append,
    List.getLast?_append_of_ne_nil _ hne, List.append_assoc]

theorem lines_unlines (ls : List String) :
    lines (unlines ls) = ls.flatMap fun line => (split line '\n').map stripCr := by
  induction ls with
  | nil => decide
  | cons line rest ih => rw [unlines, lines_append, ih, List.flatMap_cons]

theorem split_eq_singleton {s : String} {sep : Char} (h : sep ∉ s.toList) : split s sep = [s] := by
  rw [split, List.splitOn_eq_singleton h, List.map_singleton, String.ofList_toList]

theorem splitOn_append {cs : List Char} {sep : Char} (h : sep ∉ cs) (ds : List Char) :
    (cs ++ ds).splitOn sep = (ds.splitOn sep).modifyHead (cs ++ ·) := by
  induction cs with
  | nil => exact (congrFun List.modifyHead_id _).symm
  | cons c cs ih =>
    obtain ⟨hc, hcs⟩ := not_or.1 fun hmem => h (List.mem_cons.2 hmem)
    rw [List.cons_append, List.splitOn_cons_eq_if_modifyHead, if_neg (by simpa using Ne.symm hc),
      ih hcs, List.modifyHead_modifyHead]
    rfl

/-- What has no separator belongs to the first piece. -/
theorem split_append {s : String} {sep : Char} (h : sep ∉ s.toList) (t : String) :
    ∃ piece rest, split t sep = piece :: rest ∧ split (s ++ t) sep = (s ++ piece) :: rest := by
  cases hsplit : t.toList.splitOn sep with
  | nil => exact absurd hsplit (List.splitOn_ne_nil sep t.toList)
  | cons piece rest =>
    refine ⟨String.ofList piece, rest.map String.ofList, ?_, ?_⟩
    · rw [split, hsplit, List.map_cons]
    · rw [split, String.toList_append, splitOn_append h, hsplit, List.modifyHead_cons,
        List.map_cons, String.ofList_append, String.ofList_toList]

theorem mem_of_mem_stripCr {line : String} {c : Char} (h : c ∈ (stripCr line).toList) :
    c ∈ line.toList := by
  unfold stripCr at h
  split_ifs at h
  · rw [String.toList_ofList] at h
    exact List.dropLast_subset _ h
  · exact h

theorem trim_stripCr (line : String) : trim (stripCr line) = trim line := by
  unfold stripCr
  split_ifs with hcr
  · obtain ⟨start, hstart⟩ := List.isSuffixOf_iff_suffix.1 hcr
    have hline : line.toList = start ++ ['\r'] := hstart.symm
    rw [trim, trim, String.toList_ofList, hline, List.dropLast_concat,
      trimList_concat isWhiteSpace start (by decide)]
  · rfl

/-! ## UTF-8 -/

def encodeUtf8 (s : String) : List UInt8 := s.toByteArray.data.toList

def decodeUtf8 (bytes : List UInt8) : Option String := String.fromUTF8? ⟨bytes.toArray⟩

theorem decodeUtf8_encodeUtf8 (s : String) : decodeUtf8 (encodeUtf8 s) = some s := by
  have hbytes : (⟨(encodeUtf8 s).toArray⟩ : ByteArray) = s.toByteArray := by
    rw [encodeUtf8, Array.toArray_toList]
  rw [decodeUtf8, hbytes, String.fromUTF8?, dif_pos s.isValidUTF8]
  rfl

/-- The ranges of the bytes that follow a first byte, none for one that starts no character. -/
def utf8Tails (first : UInt8) : List (UInt8 × UInt8) :=
  if 0xC2 ≤ first ∧ first ≤ 0xDF then [(0x80, 0xBF)]
  else if first = 0xE0 then [(0xA0, 0xBF), (0x80, 0xBF)]
  else if first = 0xED then [(0x80, 0x9F), (0x80, 0xBF)]
  else if 0xE1 ≤ first ∧ first ≤ 0xEF then [(0x80, 0xBF), (0x80, 0xBF)]
  else if first = 0xF0 then [(0x90, 0xBF), (0x80, 0xBF), (0x80, 0xBF)]
  else if 0xF1 ≤ first ∧ first ≤ 0xF3 then [(0x80, 0xBF), (0x80, 0xBF), (0x80, 0xBF)]
  else if first = 0xF4 then [(0x80, 0x8F), (0x80, 0xBF), (0x80, 0xBF)]
  else []

/-- Where the first character that is none starts, and how many bytes were wrong, none where the
text ends within a character. `seen` bytes of the character at `index` were fine, and `tails`
are still to come. -/
def utf8Fault : (index seen : Nat) → (tails : List (UInt8 × UInt8)) → List UInt8 →
    Option (Nat × Option Nat)
  | _, _, [], [] => none
  | index, _, _ :: _, [] => some (index, none)
  | index, _, [], byte :: rest =>
    if byte < 0x80 then utf8Fault (index + 1) 0 [] rest
    else match utf8Tails byte with
      | [] => some (index, some 1)
      | tails => utf8Fault index 1 tails rest
  | index, seen, (low, high) :: tails, byte :: rest =>
    if low ≤ byte ∧ byte ≤ high then
      match tails with
      | [] => utf8Fault (index + seen + 1) 0 [] rest
      | tails => utf8Fault index (seen + 1) tails rest
    else some (index, some seen)

/-- What the standard library says about bytes that are not UTF-8. -/
def utf8Error (bytes : List UInt8) : String :=
  match utf8Fault 0 0 [] bytes with
  | some (index, some length) =>
    s!"invalid utf-8 sequence of {length} bytes from index {index}"
  | some (index, none) => s!"incomplete utf-8 byte sequence from index {index}"
  | none => ""

/-- The text of some bytes, or what is wrong with them. -/
def fromUtf8 (bytes : List UInt8) : Except String String :=
  match decodeUtf8 bytes with
  | some text => .ok text
  | none => .error (utf8Error bytes)

theorem fromUtf8_encodeUtf8 (s : String) : fromUtf8 (encodeUtf8 s) = .ok s := by
  rw [fromUtf8, decodeUtf8_encodeUtf8]

/-- The text of some bytes where each fault, up to `fuel` of them, is a replacement character. -/
def replaceFaults : (fuel : Nat) → List UInt8 → String
  | 0, _ => ""
  | fuel + 1, bytes =>
    match utf8Fault 0 0 [] bytes with
    | none => (decodeUtf8 bytes).getD ""
    | some (index, length) =>
      let rest := bytes.drop (index + length.getD bytes.length)
      (decodeUtf8 (bytes.take index)).getD "" ++ "\uFFFD" ++ replaceFaults fuel rest

/-- The text of some bytes, whatever they are. -/
def fromUtf8Lossy (bytes : List UInt8) : String :=
  (decodeUtf8 bytes).getD (replaceFaults (bytes.length + 1) bytes)

theorem fromUtf8Lossy_encodeUtf8 (s : String) : fromUtf8Lossy (encodeUtf8 s) = s := by
  rw [fromUtf8Lossy, decodeUtf8_encodeUtf8, Option.getD_some]

theorem length_encodeUtf8 (s : String) : (encodeUtf8 s).length = s.utf8ByteSize := by
  rw [encodeUtf8, Array.length_toList]
  rfl

end KafkaCli.Text
