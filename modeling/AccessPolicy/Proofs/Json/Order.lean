import AccessPolicy.Json.Basic

namespace AccessPolicy.Json

/-- Orders members by their keys alone. -/
def keyLe (a b : String × Value) : Bool :=
  a.1 ≤ b.1

/-- Drops the members whose key the member before them has. -/
def dropRepeated (members : List (String × Value)) : List (String × Value) :=
  members.foldr (fun m rest => m :: rest.dropWhile fun o => o.1 = m.1) []

theorem sortMembers_eq (members : List (String × Value)) :
    sortMembers members = dropRepeated (members.mergeSort keyLe) := rfl

theorem dropRepeated_cons (m : String × Value) (members : List (String × Value)) :
    dropRepeated (m :: members) = m :: (dropRepeated members).dropWhile fun o => o.1 = m.1 := rfl

theorem keyLe_trans (a b c : String × Value) (hab : keyLe a b) (hbc : keyLe b c) : keyLe a c := by
  simp only [keyLe, decide_eq_true_eq] at *
  exact String.le_trans hab hbc

theorem keyLe_total (a b : String × Value) : keyLe a b || keyLe b a := by
  simp only [keyLe, Bool.or_eq_true, decide_eq_true_eq]
  exact String.le_total a.1 b.1

theorem lookup_eq_head?_filter (key : String) (members : List (String × Value)) :
    members.lookup key = (members.filter fun m => m.1 = key).head?.map Prod.snd := by
  induction members with
  | nil => rfl
  | cons m members ih =>
    obtain ⟨first, v⟩ := m
    by_cases hkey : first = key
    · simp [hkey]
    · have hne : (key == first) = false := beq_eq_false_iff_ne.2 (Ne.symm hkey)
      rw [List.lookup_cons, hne, List.filter_cons_of_neg (by simpa using hkey)]
      exact ih

/-- Sorting is stable: the members of one key keep their order. -/
theorem filter_mergeSort (key : String) (members : List (String × Value)) :
    (members.mergeSort keyLe).filter (fun m => m.1 = key) =
      members.filter fun m => m.1 = key := by
  have hpairwise : (members.filter fun m => m.1 = key).Pairwise fun a b => keyLe a b := by
    rw [List.pairwise_iff_forall_sublist]
    intro a b hsub
    have ha : a.1 = key := by simpa using (List.mem_filter.1 (hsub.subset (by simp))).2
    have hb : b.1 = key := by simpa using (List.mem_filter.1 (hsub.subset (by simp))).2
    simp [keyLe, ha, hb]
  have hsub := List.sublist_mergeSort keyLe_trans keyLe_total hpairwise List.filter_sublist
  have hfiltered := hsub.filter fun m => decide (m.1 = key)
  rw [List.filter_filter] at hfiltered
  simp only [Bool.and_self] at hfiltered
  have hperm := (List.mergeSort_perm members keyLe).filter fun m => decide (m.1 = key)
  exact (hfiltered.eq_of_length hperm.length_eq.symm).symm

theorem lookup_dropWhile {key other : String} (h : other ≠ key) (members : List (String × Value)) :
    (members.dropWhile fun m => m.1 = other).lookup key = members.lookup key := by
  induction members with
  | nil => rfl
  | cons m members ih =>
    obtain ⟨first, v⟩ := m
    by_cases hkey : first = other
    · have hne : (key == first) = false := beq_eq_false_iff_ne.2 (by rw [hkey]; exact Ne.symm h)
      rw [List.dropWhile_cons_of_pos (by simpa using hkey), List.lookup_cons, hne]
      exact ih
    · rw [List.dropWhile_cons_of_neg (by simpa using hkey)]

theorem lookup_dropRepeated (key : String) (members : List (String × Value)) :
    (dropRepeated members).lookup key = members.lookup key := by
  induction members with
  | nil => rfl
  | cons m members ih =>
    rw [dropRepeated_cons, List.lookup_cons, List.lookup_cons]
    split
    · rfl
    · next hne =>
      rw [lookup_dropWhile (Ne.symm (beq_eq_false_iff_ne.1 hne)), ih]

/-- Sorted members answer every look-up like the members themselves. -/
theorem lookup_sortMembers (key : String) (members : List (String × Value)) :
    (sortMembers members).lookup key = members.lookup key := by
  rw [sortMembers_eq, lookup_dropRepeated, lookup_eq_head?_filter, filter_mergeSort,
    ← lookup_eq_head?_filter]

theorem dropRepeated_sublist (members : List (String × Value)) :
    (dropRepeated members).Sublist members := by
  induction members with
  | nil => exact List.Sublist.slnil
  | cons m members ih =>
    rw [dropRepeated_cons]
    exact ((List.dropWhile_sublist _).trans ih).cons_cons m

theorem mem_of_mem_sortMembers {m : String × Value} {members : List (String × Value)}
    (h : m ∈ sortMembers members) : m ∈ members :=
  (List.mergeSort_perm members keyLe).subset ((dropRepeated_sublist _).subset h)

theorem mem_of_lookup {key : String} {v : α} {members : List (String × α)}
    (h : members.lookup key = some v) : (key, v) ∈ members := by
  obtain ⟨before, after, rfl, _⟩ := List.lookup_eq_some_iff.1 h
  simp

theorem dropRepeated_of_nodup {members : List (String × Value)}
    (h : (members.map Prod.fst).Nodup) : dropRepeated members = members := by
  induction members with
  | nil => rfl
  | cons m members ih =>
    rw [List.map_cons, List.nodup_cons] at h
    rw [dropRepeated_cons, ih h.2]
    cases members with
    | nil => rfl
    | cons o members =>
      have hne : o.1 ≠ m.1 := by
        intro heq
        exact h.1 (by simp [heq])
      rw [List.dropWhile_cons_of_neg (by simpa using hne)]

/-- Members with different keys are only put in another order. -/
theorem sortMembers_perm {members : List (String × Value)} (h : (members.map Prod.fst).Nodup) :
    (sortMembers members).Perm members := by
  have hperm := List.mergeSort_perm members keyLe
  rw [sortMembers_eq, dropRepeated_of_nodup ((hperm.map Prod.fst).nodup_iff.2 h)]
  exact hperm

end AccessPolicy.Json
