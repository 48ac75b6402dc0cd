import AccessPolicy.Version.Basic

namespace AccessPolicy.Version

/-- Comparison component by component, as numbers. -/
inductive Precedes : Version → Version → Prop
  /-- A proper beginning comes before what goes on. -/
  | beginning (shared : List UInt64) (c : UInt64) (rest : List UInt64) :
      Precedes ⟨shared⟩ ⟨shared ++ c :: rest⟩
  | component (shared : List UInt64) {c d : UInt64} (h : c.toNat < d.toNat)
      (restOfFirst restOfSecond : List UInt64) :
      Precedes ⟨shared ++ c :: restOfFirst⟩ ⟨shared ++ d :: restOfSecond⟩

theorem Precedes.cons {v w : Version} (c : UInt64) (h : v.Precedes w) :
    Precedes ⟨c :: v.components⟩ ⟨c :: w.components⟩ := by
  cases h with
  | beginning shared d rest => exact .beginning (c :: shared) d rest
  | component shared h restOfFirst restOfSecond =>
    exact .component (c :: shared) h restOfFirst restOfSecond

theorem precedes_of_components_lt {cs ds : List UInt64} (h : cs < ds) :
    Precedes ⟨cs⟩ ⟨ds⟩ := by
  induction cs generalizing ds with
  | nil =>
    cases ds with
    | nil => exact absurd h (List.lt_irrefl [])
    | cons d ds => exact .beginning [] d ds
  | cons c cs ih =>
    cases ds with
    | nil => exact absurd h (List.not_lt_nil _)
    | cons d ds =>
      obtain hlt | ⟨rfl, hrest⟩ := List.cons_lt_cons_iff.1 h
      · exact .component [] (UInt64.lt_iff_toNat_lt.1 hlt) cs ds
      · exact (ih hrest).cons c

theorem lt_of_precedes {v w : Version} (h : v.Precedes w) : v < w := by
  cases h with
  | beginning shared c rest =>
    have hlt : shared ++ [] < shared ++ c :: rest := List.append_left_lt (List.nil_lt_cons c rest)
    rwa [List.append_nil] at hlt
  | component shared h restOfFirst restOfSecond =>
    exact List.append_left_lt (List.cons_lt_cons_iff.2 (.inl (UInt64.lt_iff_toNat_lt.2 h)))

theorem lt_iff_precedes {v w : Version} : v < w ↔ v.Precedes w :=
  ⟨precedes_of_components_lt, lt_of_precedes⟩

protected theorem lt_trans {u v w : Version} (huv : u < v) (hvw : v < w) : u < w :=
  List.lt_trans huv hvw

protected theorem lt_asymm {v w : Version} (h : v < w) : ¬w < v :=
  List.lt_asymm h

theorem not_lt_iff {v w : Version} : ¬v < w ↔ w = v ∨ w < v := by
  constructor
  · intro h
    obtain hlt | heq := List.le_iff_lt_or_eq.1 (List.not_lt.1 h)
    · exact .inr hlt
    · exact .inl (congrArg Version.mk heq)
  · rintro (rfl | hlt)
    · exact List.lt_irrefl w.components
    · exact Version.lt_asymm hlt

theorem lt_of_lt_of_not_lt {u v w : Version} (huv : u < v) (hwv : ¬w < v) : u < w := by
  obtain rfl | hvw := not_lt_iff.1 hwv
  · exact huv
  · exact Version.lt_trans huv hvw

theorem lt_of_not_lt_of_lt {u v w : Version} (hvu : ¬v < u) (hvw : v < w) : u < w := by
  obtain rfl | huv := not_lt_iff.1 hvu
  · exact hvw
  · exact Version.lt_trans huv hvw

theorem le_iff {v w : Version} : v ≤ w ↔ v = w ∨ v.Precedes w := by
  rw [← lt_iff_precedes]
  constructor
  · intro h
    obtain hlt | heq := List.le_iff_lt_or_eq.1 h
    · exact .inr hlt
    · exact .inl (congrArg Version.mk heq)
  · rintro (rfl | hlt)
    · exact List.le_refl v.components
    · exact List.le_of_lt hlt

/-- No version stands behind one that it precedes. -/
def Ordered (vs : List Version) : Prop :=
  vs.Pairwise fun v w => v = w ∨ v.Precedes w

theorem sort_perm (vs : List Version) : (sort vs).Perm vs :=
  List.mergeSort_perm vs _

theorem ordered_sort (vs : List Version) : Ordered (sort vs) := by
  have htrans (u v w : Version) (huv : decide (u ≤ v)) (hvw : decide (v ≤ w)) : decide (u ≤ w) :=
    decide_eq_true (List.le_trans (of_decide_eq_true huv) (of_decide_eq_true hvw))
  have htotal (v w : Version) : decide (v ≤ w) || decide (w ≤ v) := by
    rw [Bool.or_eq_true, decide_eq_true_iff, decide_eq_true_iff]
    exact List.le_total v.components w.components
  have hsorted := List.pairwise_mergeSort htrans htotal vs
  exact hsorted.imp fun h => le_iff.1 (of_decide_eq_true h)

/-- There is one way only to put versions in order. -/
theorem Ordered.eq_of_perm {vs ws : List Version} (hv : Ordered vs) (hw : Ordered ws)
    (h : vs.Perm ws) : vs = ws := by
  refine h.eq_of_pairwise (fun v w _ _ hvw hwv => ?_) hv hw
  obtain heq | hlt := hvw
  · exact heq
  · obtain heq | hgt := hwv
    · exact heq.symm
    · exact absurd (lt_of_precedes hgt) (Version.lt_asymm (lt_of_precedes hlt))

/-- Sorting does not depend on the order in which versions come. -/
theorem sort_eq_of_perm {vs ws : List Version} (h : vs.Perm ws) : sort vs = sort ws :=
  (ordered_sort vs).eq_of_perm (ordered_sort ws)
    ((sort_perm vs).trans (h.trans (sort_perm ws).symm))

end AccessPolicy.Version
