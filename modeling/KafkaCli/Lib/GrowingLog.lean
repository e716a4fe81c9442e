import Mathlib.Algebra.Order.Group.Int
import Mathlib.Data.List.Forall2
import Mathlib.Data.List.Infix

/-!
# Growing logs

A log is a list of entries with increasing keys, to which entries are appended. Several logs are
compared from a key on, a few entries of each at a time, and the key up to which they have been
compared moves behind the last entry that was.

* `segment_append`, `segment_since` — the entries up to a key, and those up to a later one.
* `segment_of_initial` — what has been compared is not changed by what is appended.
* `forall₂_segment_step` — logs that agree up to a key and in some entries from there on agree up
  to the key behind these entries.
-/

namespace KafkaCli.GrowingLog

variable {α : Type*} (key : α → Int)

/-- The keys of a log increase. -/
def Increasing (log : List α) : Prop := log.Pairwise fun a b => key a < key b

/-- The entries from one key on and before another one. -/
def segment (log : List α) (low high : Int) : List α :=
  log.filter fun entry => low ≤ key entry ∧ key entry < high

/-- The entries from a key on. -/
def since (log : List α) (low : Int) : List α := log.dropWhile fun entry => key entry < low

variable {key} {log log' : List α} {low mid high : Int}

theorem Increasing.of_initial (h : Increasing key log') (hinitial : log <+: log') :
    Increasing key log := h.sublist hinitial.sublist

@[simp] theorem segment_self : segment key log low low = [] := by
  rw [segment, List.filter_eq_nil_iff]
  intro entry _
  simp only [decide_eq_true_eq, not_and, not_lt]
  exact id

@[simp] theorem segment_cons_of_lt {a : α} (h : key a < low) :
    segment key (a :: log) low high = segment key log low high := by
  rw [segment, List.filter_cons_of_neg (by simp [not_le.2 h])]
  rfl

theorem segment_cons_of_mem {a : α} (hlow : low ≤ key a) (hhigh : key a < high) :
    segment key (a :: log) low high = a :: segment key log low high := by
  rw [segment, List.filter_cons_of_pos (by simp [hlow, hhigh])]
  rfl

/-- Nothing comes before a key that the first entry has reached. -/
theorem segment_eq_nil (h : ∀ entry ∈ log, high ≤ key entry) : segment key log low high = [] := by
  rw [segment, List.filter_eq_nil_iff]
  intro entry hentry
  have := h entry hentry
  simp only [decide_eq_true_eq, not_and, not_lt]
  omega

/-- The entries before a later key follow those before an earlier one. -/
theorem segment_append (h : Increasing key log) (hlow : low ≤ mid) (hhigh : mid ≤ high) :
    segment key log low high = segment key log low mid ++ segment key log mid high := by
  induction log with
  | nil => rfl
  | cons a log ih =>
    obtain ⟨hhead, htail⟩ := List.pairwise_cons.1 h
    rcases lt_or_ge (key a) mid with hmid | hmid
    · rw [segment_cons_of_lt hmid]
      rcases lt_or_ge (key a) low with hbefore | hafter
      · rw [segment_cons_of_lt hbefore, segment_cons_of_lt hbefore, ih htail]
      · rw [segment_cons_of_mem hafter hmid, segment_cons_of_mem hafter (by omega), ih htail,
          List.cons_append]
    · -- From here on every key is past `mid`.
      have hnone : segment key (a :: log) low mid = [] := by
        refine segment_eq_nil (List.forall_mem_cons.2 ⟨hmid, fun entry hentry => ?_⟩)
        exact hmid.trans (hhead entry hentry).le
      rw [hnone, List.nil_append, segment, segment]
      refine List.filter_congr fun entry hentry => ?_
      have hpast : mid ≤ key entry := by
        rcases List.mem_cons.1 hentry with rfl | hmem
        · exact hmid
        · exact hmid.trans (hhead entry hmem).le
      simp [hpast, hlow.trans hpast]

theorem since_eq_filter (h : Increasing key log) :
    since key log low = log.filter fun entry => low ≤ key entry := by
  induction log with
  | nil => rfl
  | cons a log ih =>
    obtain ⟨hhead, htail⟩ := List.pairwise_cons.1 h
    rcases lt_or_ge (key a) low with hlt | hle
    · rw [since, List.dropWhile_cons_of_pos (by simpa using hlt),
        List.filter_cons_of_neg (by simpa using hlt)]
      exact ih htail
    · rw [since, List.dropWhile_cons_of_neg (by simpa using hle),
        List.filter_cons_of_pos (by simpa using hle)]
      refine congrArg (a :: ·) (List.filter_eq_self.2 fun entry hentry => ?_).symm
      simpa using hle.trans (hhead entry hentry).le

theorem mem_since (h : Increasing key log) {entry : α} :
    entry ∈ since key log low ↔ entry ∈ log ∧ low ≤ key entry := by
  simp [since_eq_filter h]

theorem Increasing.since (h : Increasing key log) (low : Int) :
    Increasing key (since key log low) := h.sublist (List.dropWhile_suffix _).sublist

/-- The entries up to one of them are the first ones. -/
theorem filter_le_eq_take (h : Increasing key log) {i : Nat} {entry : α}
    (hentry : log[i]? = some entry) :
    (log.filter fun other => key other < key entry + 1) = log.take (i + 1) := by
  induction log generalizing i with
  | nil => simp at hentry
  | cons a log ih =>
    obtain ⟨hhead, htail⟩ := List.pairwise_cons.1 h
    cases i with
    | zero =>
      obtain rfl : a = entry := by simpa using hentry
      have hnone : (log.filter fun other => key other < key a + 1) = [] := by
        rw [List.filter_eq_nil_iff]
        intro other hother
        have := hhead other hother
        simp only [decide_eq_true_eq, not_lt]
        omega
      rw [List.filter_cons_of_pos (by simp), hnone]
      rfl
    | succ i =>
      rw [List.getElem?_cons_succ] at hentry
      have hlt := hhead entry (List.mem_of_getElem? hentry)
      rw [List.filter_cons_of_pos (by simpa using hlt.trans (Int.lt_succ _)), ih htail hentry]
      rfl

/-- The first entries from a key on reach up to behind the last of them. -/
theorem segment_since (h : Increasing key log) {i : Nat} {entry : α}
    (hentry : (since key log low)[i]? = some entry) :
    segment key log low (key entry + 1) = (since key log low).take (i + 1) := by
  rw [← filter_le_eq_take (h.since low) hentry, since_eq_filter h, List.filter_filter, segment]
  refine List.filter_congr fun other _ => ?_
  rw [Bool.decide_and, Bool.and_comm]

/-- What lies before the key behind an entry is not changed by what is appended. -/
theorem segment_of_initial (h : Increasing key log') (hinitial : log <+: log')
    (hend : high ≤ low ∨ ∃ entry ∈ log, high ≤ key entry + 1) :
    segment key log' low high = segment key log low high := by
  obtain ⟨appended, rfl⟩ := hinitial
  rw [segment, List.filter_append, ← segment]
  refine (congrArg _ ?_).trans (List.append_nil _)
  rw [List.filter_eq_nil_iff]
  intro later hlater
  simp only [decide_eq_true_eq, not_and, not_lt]
  intro hlow
  rcases hend with hempty | ⟨entry, hentry, hle⟩
  · exact hempty.trans hlow
  · have := (List.pairwise_append.1 h).2.2 entry hentry later hlater
    omega

/-- **One step of the comparison.** Two logs that agree up to a key, and in the entries from there
on that have been compared, agree up to the key behind the last of these. -/
theorem forall₂_segment_step {R : α → α → Prop} {i : Nat} {entry entry' : α}
    (h : Increasing key log) (h' : Increasing key log') (hlow : low ≤ mid)
    (hbefore : List.Forall₂ R (segment key log low mid) (segment key log' low mid))
    (hentry : (since key log mid)[i]? = some entry)
    (hentry' : (since key log' mid)[i]? = some entry') (hkey : key entry = key entry')
    (hnew : List.Forall₂ R ((since key log mid).take (i + 1)) ((since key log' mid).take (i + 1))) :
    List.Forall₂ R (segment key log low (key entry + 1))
      (segment key log' low (key entry + 1)) := by
  have hmid : mid ≤ key entry + 1 :=
    ((mem_since h).1 (List.mem_of_getElem? hentry)).2.trans (Int.lt_succ _).le
  rw [segment_append h hlow hmid, segment_append h' hlow hmid, segment_since h hentry, hkey,
    segment_since h' hentry']
  exact List.rel_append hbefore hnew

end KafkaCli.GrowingLog
