import Std.Data.TreeMap.Lemmas
import Mathlib.Data.List.Nodup
import Mathlib.Data.List.Perm.Basic

/-!
# Lists that pass through a sorted map

A sorted map keeps one value for each key, the last one, and lists them by their keys. So a list
comes back from a map unchanged exactly when its keys increase strictly.
-/

namespace KafkaCli.SortedMap

/-- Pairs are ordered by their first components, and then by the second ones. -/
instance instOrdProd {α β : Type} [Ord α] [Ord β] : Ord (α × β) := lexOrd

variable {α β : Type} {cmp : α → α → Ordering}

/-- Keys increase strictly. -/
def Increasing (cmp : α → α → Ordering) (l : List (α × β)) : Prop :=
  l.Pairwise fun a b => cmp a.1 b.1 = .lt

instance (l : List (α × β)) : Decidable (Increasing cmp l) :=
  inferInstanceAs (Decidable (l.Pairwise fun a b => cmp a.1 b.1 = .lt))

variable {l l' : List (α × β)}

/-- Strictly increasing keys are distinct. -/
theorem Increasing.distinct (h : Increasing cmp l) :
    l.Pairwise fun a b => ¬ cmp a.1 b.1 = .eq := by
  refine h.imp ?_
  intro a b hab
  simp [hab]

variable [Std.TransCmp cmp]

theorem increasing_toList (map : Std.TreeMap α β cmp) : Increasing cmp map.toList :=
  Std.TreeMap.ordered_keys_toList

theorem not_lt_self (a : α) : ¬ cmp a a = .lt := by
  have hself : cmp a a = .eq := Std.ReflCmp.compare_self
  simp [hself]

theorem Increasing.nodup (h : Increasing cmp l) : l.Nodup := by
  refine h.imp ?_
  intro a b hab heq
  subst heq
  exact not_lt_self a.1 hab

/-- Two lists of the same entries with increasing keys are the same. -/
theorem Increasing.eq_of_mem_iff (h : Increasing cmp l) (h' : Increasing cmp l')
    (hmem : ∀ entry, entry ∈ l ↔ entry ∈ l') : l = l' := by
  refine List.Perm.eq_of_pairwise ?_ h h' ((List.perm_ext_iff_of_nodup h.nodup h'.nodup).2 hmem)
  intro a b _ _ hab hba
  exact absurd (Std.TransCmp.lt_trans hab hba) (not_lt_self a.1)

/-- A map from a list with distinct keys has the values of the list. -/
theorem getElem?_ofList_eq_some [Std.LawfulEqCmp cmp]
    (hdistinct : l.Pairwise fun a b => ¬ cmp a.1 b.1 = .eq) {key : α} {value : β} :
    (Std.TreeMap.ofList l cmp)[key]? = some value ↔ (key, value) ∈ l := by
  classical
  have hget : ∀ v, (key, v) ∈ l → (Std.TreeMap.ofList l cmp)[key]? = some v := fun v hmem =>
    Std.TreeMap.getElem?_ofList_of_mem Std.ReflCmp.compare_self hdistinct hmem
  refine ⟨?_, hget value⟩
  intro hvalue
  have hmem : key ∈ Std.TreeMap.ofList l cmp := by
    rw [Std.TreeMap.mem_iff_isSome_getElem?, hvalue]
    rfl
  rw [Std.TreeMap.mem_ofList, List.contains_iff_mem] at hmem
  obtain ⟨⟨key', v⟩, hentry, hkey⟩ := List.mem_map.1 hmem
  subst hkey
  rw [hget v hentry, Option.some.injEq] at hvalue
  rwa [← hvalue]

/-- A list with distinct keys comes back from a map sorted. -/
theorem toList_ofList_perm [Std.LawfulEqCmp cmp]
    (hdistinct : l.Pairwise fun a b => ¬ cmp a.1 b.1 = .eq) :
    (Std.TreeMap.ofList l cmp).toList.Perm l := by
  have hnodup : l.Nodup := by
    refine hdistinct.imp ?_
    intro a b hab heq
    subst heq
    exact hab Std.ReflCmp.compare_self
  refine (List.perm_ext_iff_of_nodup (increasing_toList _).nodup hnodup).2 ?_
  intro ⟨key, value⟩
  rw [Std.TreeMap.mem_toList_iff_getElem?_eq_some, getElem?_ofList_eq_some hdistinct]

/-- **A list survives a sorted map** exactly when its keys increase strictly. -/
theorem toList_ofList_eq_iff [Std.LawfulEqCmp cmp] :
    (Std.TreeMap.ofList l cmp).toList = l ↔ Increasing cmp l := by
  refine ⟨?_, ?_⟩
  · intro h
    rw [← h]
    exact increasing_toList _
  · intro h
    refine (increasing_toList _).eq_of_mem_iff h ?_
    intro ⟨key, value⟩
    rw [Std.TreeMap.mem_toList_iff_getElem?_eq_some, getElem?_ofList_eq_some h.distinct]

/-- A map from a list has the last value of a key. -/
theorem getElem?_ofList_eq_lookup [BEq α] [LawfulBEq α] [Std.LawfulEqCmp cmp]
    (entries : List (α × β)) (key : α) :
    (Std.TreeMap.ofList entries cmp)[key]? = entries.reverse.lookup key := by
  classical
  rw [Std.TreeMap.ofList_eq_insertMany_empty, Std.TreeMap.getElem?_insertMany_list,
    Std.TreeMap.getElem?_emptyc, Option.or_none, List.findSomeRev?_eq_findSome?_reverse,
    List.lookup_eq_findSome?]
  congr 1
  funext entry
  by_cases h : entry.1 = key
  · simp [h]
  · simp [h, Ne.symm h]

/-- A map with the values that some of the elements of a list have, by the keys of the elements. -/
theorem getElem?_ofList_filterMap [Std.LawfulEqCmp cmp] {ι : Type} {key : ι → α}
    {value : ι → Option β} {elements : List ι}
    (hdistinct : (elements.map key).Nodup) {x : ι} (hx : x ∈ elements) :
    (Std.TreeMap.ofList (elements.filterMap fun x => (value x).map fun v => (key x, v)) cmp)[key x]? =
      value x := by
  have hinj : ∀ y ∈ elements, key y = key x → y = x := fun y hy hkey =>
    List.inj_on_of_nodup_map hdistinct hy hx hkey
  have hpairs : (elements.filterMap fun x => (value x).map fun v => (key x, v)).Pairwise
      fun a b => ¬ cmp a.1 b.1 = .eq := by
    rw [List.pairwise_filterMap]
    refine (List.pairwise_map.1 hdistinct).imp ?_
    intro y z hne a ha b hb heq
    obtain ⟨_, -, rfl⟩ := Option.map_eq_some_iff.1 ha
    obtain ⟨_, -, rfl⟩ := Option.map_eq_some_iff.1 hb
    exact hne (Std.LawfulEqCmp.eq_of_compare heq)
  refine Option.ext fun v => ?_
  rw [getElem?_ofList_eq_some hpairs]
  simp only [List.mem_filterMap, Option.map_eq_some_iff, Prod.mk.injEq]
  constructor
  · intro ⟨y, hy, w, hw, hkey, heq⟩
    rw [← hinj y hy hkey, hw, heq]
  · intro hv
    exact ⟨x, hx, v, hv, rfl, rfl⟩

/-- What holds after a fold whose steps each add something to what held before. -/
theorem foldl_iff {ι σ : Type} {P : σ → Prop} {Q : ι → Prop} {f : σ → ι → σ}
    (hf : ∀ s x, P (f s x) ↔ P s ∨ Q x) (l : List ι) (s : σ) :
    P (l.foldl f s) ↔ P s ∨ ∃ x ∈ l, Q x := by
  induction l generalizing s with
  | nil => simp
  | cons x l ih =>
    rw [List.foldl_cons, ih, hf, or_assoc]
    simp

end KafkaCli.SortedMap
