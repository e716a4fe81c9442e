import Std.Data.TreeMap.Lemmas

/-!
# A map for each file

A sorted map of sorted maps keeps the values of some keys apart by file. What is noted of a file,
one entry after the other, is listed of it exactly where no key is noted with two values
(`lookup_reverse_iff`), whatever is noted of other files in between.
-/

namespace KafkaCli.NestedMap

variable {α β κ : Type} {cmp : α → α → Ordering} {cmp' : κ → κ → Ordering}

/-- No key has two values. -/
def SingleValued (entries : List (α × β)) : Prop :=
  ∀ key value value', (key, value) ∈ entries → (key, value') ∈ entries → value = value'

/-- The last value of each key is its only one exactly where no key has two. -/
theorem lookup_reverse_iff [BEq α] [LawfulBEq α] {entries : List (α × β)} :
    (∀ key value, entries.reverse.lookup key = some value ↔ (key, value) ∈ entries) ↔
      SingleValued entries := by
  constructor
  · intro h key value value' hvalue hvalue'
    exact Option.some.inj (((h key value).2 hvalue).symm.trans ((h key value').2 hvalue'))
  · intro h key value
    have hmem : ∀ {value'}, entries.reverse.lookup key = some value' → (key, value') ∈ entries := by
      intro value' hlookup
      obtain ⟨before, after, hsplit, _⟩ := List.lookup_eq_some_iff.1 hlookup
      rw [← List.mem_reverse, hsplit]
      simp
    refine ⟨hmem, fun hvalue => ?_⟩
    obtain ⟨value', hlookup⟩ : ∃ value', entries.reverse.lookup key = some value' := by
      rw [← Option.isSome_iff_exists, List.lookup_isSome_iff]
      exact ⟨(key, value), List.mem_reverse.2 hvalue, beq_self_eq_true key⟩
    rw [hlookup, h key value value' hvalue (hmem hlookup)]

/-! ## Notes -/

/-- An entry more in the map of a file. -/
def note (maps : Std.TreeMap κ (Std.TreeMap α β cmp) cmp') (file : κ) (entry : α × β) :
    Std.TreeMap κ (Std.TreeMap α β cmp) cmp' :=
  maps.insert file ((maps.getD file ∅).insert entry.1 entry.2)

/-- The entries of a list more in the map of a file. -/
def noteAll (maps : Std.TreeMap κ (Std.TreeMap α β cmp) cmp') (file : κ)
    (entries : List (α × β)) : Std.TreeMap κ (Std.TreeMap α β cmp) cmp' :=
  entries.foldl (fun maps entry => note maps file entry) maps

theorem noteAll_append (maps : Std.TreeMap κ (Std.TreeMap α β cmp) cmp') (file : κ)
    (entries entries' : List (α × β)) :
    noteAll maps file (entries ++ entries') = noteAll (noteAll maps file entries) file entries' :=
  List.foldl_append

/-- An entry is listed for a file. -/
def Listed (maps : Std.TreeMap κ (Std.TreeMap α β cmp) cmp') (file : κ) (entry : α × β) : Prop :=
  ∃ map, (file, map) ∈ maps.toList ∧ entry ∈ map.toList

/-- The value of a key in the map of a file. -/
def valueIn (maps : Std.TreeMap κ (Std.TreeMap α β cmp) cmp') (file : κ) (key : α) : Option β :=
  maps[file]?.bind (·[key]?)

variable [Std.TransCmp cmp'] {maps : Std.TreeMap κ (Std.TreeMap α β cmp) cmp'} {file file' : κ}

theorem listed_iff [Std.LawfulEqCmp cmp'] [Std.TransCmp cmp] [Std.LawfulEqCmp cmp] {entry : α × β} :
    Listed maps file entry ↔ valueIn maps file entry.1 = some entry.2 := by
  rw [valueIn, Option.bind_eq_some_iff]
  have hentry : ∀ map : Std.TreeMap α β cmp,
      entry ∈ map.toList ↔ map[entry.1]? = some entry.2 := fun _ =>
    Std.TreeMap.mem_toList_iff_getElem?_eq_some
  simp only [Listed, Std.TreeMap.mem_toList_iff_getElem?_eq_some, hentry]

theorem valueIn_note_of_ne [Std.LawfulEqCmp cmp'] (h : file' ≠ file) (entry : α × β) :
    valueIn (note maps file entry) file' = valueIn maps file' := by
  funext key
  rw [valueIn, note, Std.TreeMap.getElem?_insert, if_neg, valueIn]
  exact fun heq => h (Std.LawfulEqCmp.eq_of_compare heq).symm

theorem valueIn_noteAll_of_ne [Std.LawfulEqCmp cmp'] (h : file' ≠ file) (entries : List (α × β)) :
    valueIn (noteAll maps file entries) file' = valueIn maps file' := by
  induction entries generalizing maps with
  | nil => rfl
  | cons entry entries ih => exact ih.trans (valueIn_note_of_ne h entry)

/-! ## The part of a file -/

/-- Of two maps the first has what `before` had, except that of `file` it has what the other has,
which has nothing else. -/
structure OwnPart (file : κ) (before maps own : Std.TreeMap κ (Std.TreeMap α β cmp) cmp') :
    Prop where
  same : maps[file]? = own[file]?
  others : ∀ other, other ≠ file → maps[other]? = before[other]? ∧ own[other]? = none

theorem OwnPart.refl (file : κ) {maps : Std.TreeMap κ (Std.TreeMap α β cmp) cmp'}
    (h : maps[file]? = none) : OwnPart file maps maps ∅ :=
  ⟨by simp [h], fun _ _ => ⟨rfl, by simp⟩⟩

/-- What is noted of the file is noted in both. -/
theorem OwnPart.note [Std.LawfulEqCmp cmp']
    {before maps own : Std.TreeMap κ (Std.TreeMap α β cmp) cmp'} (h : OwnPart file before maps own)
    (entry : α × β) :
    OwnPart file before (NestedMap.note maps file entry) (NestedMap.note own file entry) := by
  have hget : maps.getD file ∅ = own.getD file ∅ := by
    rw [Std.TreeMap.getD_eq_getD_getElem?, h.same, ← Std.TreeMap.getD_eq_getD_getElem?]
  refine ⟨?_, fun other hother => ?_⟩
  · rw [NestedMap.note, NestedMap.note, Std.TreeMap.getElem?_insert_self,
      Std.TreeMap.getElem?_insert_self, hget]
  · have hne : ¬ cmp' file other = .eq := fun heq =>
      hother (Std.LawfulEqCmp.eq_of_compare heq).symm
    rw [NestedMap.note, NestedMap.note, Std.TreeMap.getElem?_insert, Std.TreeMap.getElem?_insert,
      if_neg hne, if_neg hne]
    exact h.others other hother

omit [Std.TransCmp cmp'] in
/-- The maps have the entries from before and those of the file, of which nothing was there. -/
theorem OwnPart.getElem?_eq_some {before maps own : Std.TreeMap κ (Std.TreeMap α β cmp) cmp'}
    (h : OwnPart file before maps own) (hnone : before[file]? = none) {other : κ}
    {map : Std.TreeMap α β cmp} :
    maps[other]? = some map ↔ before[other]? = some map ∨ own[other]? = some map := by
  by_cases hother : other = file
  · rw [hother, h.same, hnone]
    simp
  · obtain ⟨hmaps, hown⟩ := h.others other hother
    rw [hmaps, hown]
    simp


/-- What is listed is what was listed before and what is listed of the file. -/
theorem OwnPart.perm_toList [Std.LawfulEqCmp cmp']
    {before maps own : Std.TreeMap κ (Std.TreeMap α β cmp) cmp'}
    (h : OwnPart file before maps own) (hnone : before[file]? = none) :
    maps.toList.Perm (before.toList ++ own.toList) := by
  have hnodup : ∀ map : Std.TreeMap κ (Std.TreeMap α β cmp) cmp', map.toList.Nodup := fun map =>
    (Std.TreeMap.distinct_keys_toList (t := map)).imp fun hne heq => by
      subst heq
      exact hne Std.ReflCmp.compare_self
  refine (List.perm_ext_iff_of_nodup (hnodup maps) (List.nodup_append.2
    ⟨hnodup before, hnodup own, ?_⟩)).2 ?_
  · rintro ⟨other, map⟩ hbefore entry hown rfl
    have hother := Std.TreeMap.mem_toList_iff_getElem?_eq_some.1 hbefore
    have hfound := Std.TreeMap.mem_toList_iff_getElem?_eq_some.1 hown
    by_cases heq : other = file
    · rw [heq, hnone] at hother
      cases hother
    · rw [(h.others other heq).2] at hfound
      cases hfound
  · rintro ⟨other, map⟩
    rw [List.mem_append]
    simp only [Std.TreeMap.mem_toList_iff_getElem?_eq_some]
    exact h.getElem?_eq_some hnone

/-! ## The values after notes -/

variable [Std.TransCmp cmp] [Std.LawfulEqCmp cmp]

theorem valueIn_note_self [BEq α] [LawfulBEq α] (entry : α × β) (key : α) :
    valueIn (note maps file entry) file key =
      if key == entry.1 then some entry.2 else valueIn maps file key := by
  rw [valueIn, note, Std.TreeMap.getElem?_insert_self, Option.bind_some,
    Std.TreeMap.getElem?_insert]
  by_cases hkey : key = entry.1
  · simp [hkey]
  · have hcmp : ¬ cmp entry.1 key = .eq := fun heq =>
      hkey (Std.LawfulEqCmp.eq_of_compare heq).symm
    rw [if_neg hcmp, if_neg (by simpa using hkey), valueIn, Std.TreeMap.getD_eq_getD_getElem?]
    cases maps[file]? <;> simp

theorem valueIn_noteAll_self [BEq α] [LawfulBEq α] (entries : List (α × β)) (key : α) :
    valueIn (noteAll maps file entries) file key =
      (entries.reverse.lookup key).or (valueIn maps file key) := by
  induction entries generalizing maps with
  | nil => rfl
  | cons entry entries ih =>
    obtain ⟨key', value⟩ := entry
    have hrest : valueIn (noteAll maps file ((key', value) :: entries)) file key = _ := ih
    rw [hrest, valueIn_note_self, List.reverse_cons, List.lookup_append, Option.or_assoc]
    congr 1
    rw [List.lookup_cons, List.lookup_nil]
    by_cases hkey : key = key'
    · simp [hkey]
    · simp [beq_false_of_ne hkey]

end KafkaCli.NestedMap
