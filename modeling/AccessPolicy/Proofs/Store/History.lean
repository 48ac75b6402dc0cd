import Mathlib.Data.List.Nodup
import AccessPolicy.Ending
import AccessPolicy.Proofs.Version.Order
import AccessPolicy.Store

namespace AccessPolicy

theorem eraseDups_concat [BEq α] [LawfulBEq α] [DecidableEq α] (as : List α) (a : α) :
    (as ++ [a]).eraseDups = if a ∈ as then as.eraseDups else as.eraseDups ++ [a] := by
  by_cases hmem : a ∈ as
  · simp [List.eraseDups_append, List.removeAll, hmem]
  · simp [List.eraseDups_append, List.removeAll, List.eraseDups_cons, hmem]

theorem eraseDups_eq_nil_iff [BEq α] {as : List α} : as.eraseDups = [] ↔ as = [] := by
  cases as <;> simp [List.eraseDups_cons]

theorem newest?_eq_none_iff {es : List (Version × α)} : newest? es = none ↔ es = [] := by
  cases es with
  | nil => simp [newest?]
  | cons e es =>
    simp only [newest?, reduceCtorEq, iff_false]
    split
    · simp
    · split <;> simp

theorem newest?_cons_eq_some {e f : Version × α} {es : List (Version × α)}
    (h : newest? (e :: es) = some f) :
    (f = e ∧ ∀ g, newest? es = some g → g.1 < e.1) ∨ (newest? es = some f ∧ ¬f.1 < e.1) := by
  simp only [newest?] at h
  split at h
  · next hrest =>
    obtain rfl : e = f := Option.some.inj h
    exact .inl ⟨rfl, fun g hg => by rw [hrest] at hg; cases hg⟩
  · next f' hrest =>
    split at h
    · next hlt =>
      obtain rfl : e = f := Option.some.inj h
      refine .inl ⟨rfl, fun g hg => ?_⟩
      obtain rfl : f' = g := Option.some.inj (hrest.symm.trans hg)
      exact hlt
    · next hnot =>
      obtain rfl : f' = f := Option.some.inj h
      exact .inr ⟨hrest, hnot⟩

theorem mem_of_newest? {es : List (Version × α)} {e : Version × α} (h : newest? es = some e) :
    e ∈ es := by
  induction es with
  | nil => cases h
  | cons first es ih =>
    obtain ⟨rfl, -⟩ | ⟨hrest, -⟩ := newest?_cons_eq_some h
    · exact List.mem_cons_self
    · exact List.mem_cons_of_mem first (ih hrest)

theorem not_lt_of_newest? {es : List (Version × α)} {e f : Version × α} (h : newest? es = some e)
    (hf : f ∈ es) : ¬e.1 < f.1 := by
  induction es generalizing e with
  | nil => cases hf
  | cons first es ih =>
    obtain ⟨rfl, hbelow⟩ | ⟨hrest, hnot⟩ := newest?_cons_eq_some h
    · obtain rfl | hf := List.mem_cons.1 hf
      · exact List.lt_irrefl _
      · cases hrest : newest? es with
        | none =>
          rw [newest?_eq_none_iff.1 hrest] at hf
          cases hf
        | some g =>
          intro hlt
          exact ih hrest hf (Version.lt_trans (hbelow g hrest) hlt)
    · obtain rfl | hf := List.mem_cons.1 hf
      · exact hnot
      · exact ih hrest hf

/-- Among different versions there is only one that no other one exceeds. -/
theorem newest?_eq_some_iff {es : List (Version × α)} (hdistinct : (es.map Prod.fst).Nodup)
    {e : Version × α} : newest? es = some e ↔ e ∈ es ∧ ∀ f ∈ es, ¬e.1 < f.1 := by
  constructor
  · intro h
    exact ⟨mem_of_newest? h, fun f hf => not_lt_of_newest? h hf⟩
  · rintro ⟨he, hgreatest⟩
    cases hnewest : newest? es with
    | none =>
      rw [newest?_eq_none_iff.1 hnewest] at he
      cases he
    | some f =>
      have hf := mem_of_newest? hnewest
      have hsame : f.1 = e.1 := by
        obtain heq | hlt := Version.not_lt_iff.1 (not_lt_of_newest? hnewest he)
        · exact heq.symm
        · exact absurd hlt (hgreatest f hf)
      exact congrArg some (List.inj_on_of_nodup_map hdistinct hf he hsame)

theorem fst_shelve (id : String) (v : Version) (a : α)
    (shelves : List (String × List (Version × α))) :
    (shelve id v a shelves).map Prod.fst =
      if id ∈ shelves.map Prod.fst then shelves.map Prod.fst else shelves.map Prod.fst ++ [id] := by
  induction shelves with
  | nil => rfl
  | cons shelf rest ih =>
    obtain ⟨other, versions⟩ := shelf
    by_cases hother : other = id
    · simp [shelve, hother]
    · simp only [shelve, if_neg hother, List.map_cons, ih, List.mem_cons, Ne.symm hother, false_or]
      split <;> rfl

/-- How many versions there are after one was put in another one's place, or added. -/
theorem length_filter_append {es : List (Version × α)} (hdistinct : (es.map Prod.fst).Nodup)
    (v : Version) (a : α) :
    (es.filter (fun e => e.1 ≠ v) ++ [(v, a)]).length =
      if v ∈ es.map Prod.fst then es.length else es.length + 1 := by
  have hcount : es.countP (fun e => e.1 = v) = if v ∈ es.map Prod.fst then 1 else 0 := by
    rw [← hdistinct.count, List.count, List.countP_map]
    exact List.countP_congr fun e _ => by simp
  have hsplit := List.length_eq_countP_add_countP (fun e : Version × α => e.1 = v) (l := es)
  have hkept : (es.filter fun e => e.1 ≠ v).length + es.countP (fun e => e.1 = v) = es.length := by
    rw [← List.countP_eq_length_filter]
    simpa [Nat.add_comm] using hsplit.symm
  rw [List.length_append, List.length_singleton]
  by_cases hmem : v ∈ es.map Prod.fst
  · rw [if_pos hmem] at hcount ⊢
    omega
  · rw [if_neg hmem] at hcount ⊢
    omega

theorem length_flatMap_shelve (id : String) (v : Version) (a : α)
    (shelves : List (String × List (Version × α)))
    (hdistinct : (((shelves.lookup id).getD []).map Prod.fst).Nodup) :
    ((shelve id v a shelves).flatMap Prod.snd).length =
      if v ∈ ((shelves.lookup id).getD []).map Prod.fst then (shelves.flatMap Prod.snd).length
      else (shelves.flatMap Prod.snd).length + 1 := by
  induction shelves with
  | nil => simp [shelve]
  | cons shelf rest ih =>
    obtain ⟨other, versions⟩ := shelf
    by_cases hother : other = id
    · subst hother
      simp only [List.lookup_cons, beq_self_eq_true, Option.getD_some] at hdistinct ⊢
      have hlength := length_filter_append hdistinct v a
      simp only [shelve, reduceIte, List.flatMap_cons, List.length_append] at hlength ⊢
      rw [hlength]
      split <;> omega
    · have hne : (id == other) = false := beq_eq_false_iff_ne.2 (Ne.symm hother)
      simp only [List.lookup_cons, hne] at hdistinct ⊢
      simp only [shelve, if_neg hother, List.flatMap_cons, List.length_append, ih hdistinct]
      split <;> omega

namespace PolicyStore

variable {R X : Type}

/-- The identifier and the version number under which an artifact is stored, if it can be. -/
def key? (a : Artifact R X) : Option (String × Version) :=
  (Version.parse a.version).toOption.map (a.id, ·)

/-- What the successful ones of some insertions were stored under. -/
def keys (history : List (Artifact R X)) : List (String × Version) :=
  history.filterMap key?

/-- The last artifact inserted under an identifier and a version number. -/
def lastInserted (history : List (Artifact R X)) (id : String) (v : Version) :
    Option (Artifact R X) :=
  (history.filter fun a => key? a = some (id, v)).getLast?

/-- Without a pattern every version is accepted. -/
def Accepts (pattern : Option VersionPattern) (v : Version) : Prop :=
  ∀ p, pattern = some p → p.accepts v

/-- Of what was inserted last under each version number, the artifact with the greatest one that
the pattern accepts. -/
def IsAnswer (history : List (Artifact R X)) (id : String) (pattern : Option VersionPattern)
    (a : Artifact R X) : Prop :=
  ∃ v, lastInserted history id v = some a ∧ Accepts pattern v ∧
    ∀ w b, lastInserted history id w = some b → Accepts pattern w → w = v ∨ w.Precedes v

/-- The store after an insertion, whether it succeeds or fails. -/
def afterInsert (s : PolicyStore R X) (a : Artifact R X) : PolicyStore R X :=
  endState (insert a s)

/-- The store after a sequence of insertions. -/
def stored (history : List (Artifact R X)) : PolicyStore R X :=
  history.foldl afterInsert empty

theorem key?_eq_some_iff {a : Artifact R X} {id : String} {v : Version} :
    key? a = some (id, v) ↔ a.id = id ∧ Version.parse a.version = .ok v := by
  cases hversion : Version.parse a.version <;> simp [key?, hversion, Except.toOption]

theorem key?_of_lastInserted {history : List (Artifact R X)} {a : Artifact R X} {id : String}
    {v : Version} (h : lastInserted history id v = some a) : key? a = some (id, v) :=
  of_decide_eq_true (List.mem_filter.1 (List.mem_of_getLast? h)).2

theorem lastInserted_concat (history : List (Artifact R X)) (a : Artifact R X) (id : String)
    (v : Version) :
    lastInserted (history ++ [a]) id v =
      if key? a = some (id, v) then some a else lastInserted history id v := by
  by_cases hkey : key? a = some (id, v)
  · simp [lastInserted, List.filter_append, hkey]
  · simp [lastInserted, List.filter_append, hkey]

theorem keys_concat_none {a : Artifact R X} (hkey : key? a = none) (history : List (Artifact R X)) :
    keys (history ++ [a]) = keys history := by
  simp [keys, hkey]

theorem keys_concat_some {a : Artifact R X} {id : String} {v : Version}
    (hkey : key? a = some (id, v)) (history : List (Artifact R X)) :
    keys (history ++ [a]) = keys history ++ [(id, v)] := by
  simp [keys, hkey]

theorem mem_keys_iff {history : List (Artifact R X)} {id : String} {v : Version} :
    (id, v) ∈ keys history ↔ ∃ a, lastInserted history id v = some a := by
  rw [← Option.isSome_iff_exists, lastInserted, List.getLast?_isSome, Ne,
    List.filter_eq_nil_iff]
  simp [keys]

theorem insert_of_parse_error {a : Artifact R X} {e : VersionError}
    (he : Version.parse a.version = .error e) (s : PolicyStore R X) :
    insert a s = .error (.invalidVersion e) s := by
  simp only [insert, he]

theorem insert_of_parse_ok {a : Artifact R X} {v : Version}
    (hversion : Version.parse a.version = .ok v) (s : PolicyStore R X) :
    insert a s = .ok () ⟨shelve a.id v a s.shelves⟩ := by
  simp only [insert, hversion]

theorem shelves_insert {s t : PolicyStore R X} {a : Artifact R X} {v : Version}
    (hversion : Version.parse a.version = .ok v) (hinsert : insert a s = .ok () t) :
    t.shelves = shelve a.id v a s.shelves := by
  simp only [insert, hversion] at hinsert
  cases hinsert
  rfl

theorem ids_insert {s t : PolicyStore R X} {a : Artifact R X} {v : Version}
    (hversion : Version.parse a.version = .ok v) (hinsert : insert a s = .ok () t) :
    t.ids = if a.id ∈ s.ids then s.ids else s.ids ++ [a.id] := by
  rw [ids, shelves_insert hversion hinsert, fst_shelve]
  rfl

theorem size_insert {s t : PolicyStore R X} {a : Artifact R X} {v : Version}
    (hversion : Version.parse a.version = .ok v) (hinsert : insert a s = .ok () t)
    (hdistinct : ((s.versions a.id).map Prod.fst).Nodup) :
    t.size = if v ∈ (s.versions a.id).map Prod.fst then s.size else s.size + 1 := by
  rw [size, shelves_insert hversion hinsert, length_flatMap_shelve a.id v a s.shelves hdistinct]
  rfl

/-- The store holds what was inserted last under each identifier and version number, and no more. -/
structure Keeps (s : PolicyStore R X) (history : List (Artifact R X)) : Prop where
  ids : s.ids = ((keys history).map Prod.fst).eraseDups
  distinct (id : String) : ((s.versions id).map Prod.fst).Nodup
  mem_versions (id : String) (v : Version) (a : Artifact R X) :
    (v, a) ∈ s.versions id ↔ lastInserted history id v = some a
  size : s.size = (keys history).eraseDups.length

theorem keeps_empty : (empty : PolicyStore R X).Keeps [] where
  ids := rfl
  distinct _ := List.nodup_nil
  mem_versions _ _ _ := by simp [empty, versions, lastInserted]
  size := rfl

namespace Keeps

variable {s t : PolicyStore R X} {history : List (Artifact R X)} {a : Artifact R X} {v : Version}

theorem mem_fst_versions (h : s.Keeps history) (id : String) (v : Version) :
    v ∈ (s.versions id).map Prod.fst ↔ (id, v) ∈ keys history := by
  simp [mem_keys_iff, h.mem_versions]

/-- An insertion that is refused is no loss: it does not count in the history either. -/
theorem refused (h : s.Keeps history) (hkey : key? a = none) : s.Keeps (history ++ [a]) where
  ids := by rw [keys_concat_none hkey, h.ids]
  distinct := h.distinct
  mem_versions id v b := by
    rw [lastInserted_concat, if_neg (by simp [hkey]), h.mem_versions]
  size := by rw [keys_concat_none hkey, h.size]

theorem inserted (h : s.Keeps history) (hversion : Version.parse a.version = .ok v)
    (hinsert : insert a s = .ok () t) : t.Keeps (history ++ [a]) := by
  have hkey : key? a = some (a.id, v) := key?_eq_some_iff.2 ⟨rfl, hversion⟩
  have hversions := versions_insert hversion hinsert
  refine ⟨?_, fun id => ?_, fun id w b => ?_, ?_⟩
  · rw [keys_concat_some hkey, List.map_append, List.map_singleton, eraseDups_concat,
      ids_insert hversion hinsert, h.ids]
    simp only [List.mem_eraseDups]
  · rw [hversions]
    split
    · -- The version is removed before it is added, so it is there once.
      rw [List.map_append, List.map_singleton, List.nodup_append]
      refine ⟨(h.distinct id).sublist (List.filter_sublist.map Prod.fst), List.nodup_singleton v, ?_⟩
      simp
    · exact h.distinct id
  · rw [hversions, lastInserted_concat, hkey]
    split
    · next hid =>
      subst hid
      by_cases hsame : v = w
      · subst hsame
        simp [eq_comm]
      · simp [hsame, Ne.symm hsame, h.mem_versions]
    · next hid => simp [Ne.symm hid, h.mem_versions]
  · rw [keys_concat_some hkey, eraseDups_concat, size_insert hversion hinsert (h.distinct a.id),
      h.size]
    simp only [h.mem_fst_versions]
    split <;> simp

/-- What one insertion does, whether it succeeds or not. -/
theorem afterInsert (h : s.Keeps history) (a : Artifact R X) :
    (s.afterInsert a).Keeps (history ++ [a]) := by
  cases hversion : Version.parse a.version with
  | error e =>
    have hkey : key? a = none := by simp [key?, hversion, Except.toOption]
    rw [PolicyStore.afterInsert, insert_of_parse_error hversion]
    exact h.refused hkey
  | ok v =>
    have hinsert := insert_of_parse_ok hversion s
    rw [PolicyStore.afterInsert, hinsert]
    exact h.inserted hversion hinsert

theorem foldl (h : s.Keeps history) (as : List (Artifact R X)) :
    (as.foldl PolicyStore.afterInsert s).Keeps (history ++ as) := by
  induction as generalizing s history with
  | nil => simpa using h
  | cons a as ih => simpa using ih (h.afterInsert a)

end Keeps

theorem keeps_stored (history : List (Artifact R X)) : (stored history).Keeps history :=
  keeps_empty.foldl history

theorem accepts_iff {pattern : Option VersionPattern} {v : Version} :
    (pattern.all fun p => p.accepts v) = true ↔ Accepts pattern v := by
  cases pattern <;> simp [Accepts]

/-- The versions of an identifier that the pattern accepts. -/
def candidates (s : PolicyStore R X) (id : String) (pattern : Option VersionPattern) :
    List (Version × Artifact R X) :=
  (s.versions id).filter fun e => pattern.all fun p => p.accepts e.1

theorem resolve_eq_ok_iff_newest? {s : PolicyStore R X} {id : String}
    {pattern : Option VersionPattern} {a : Artifact R X} :
    s.resolve id pattern = .ok a ↔ ∃ v, newest? (s.candidates id pattern) = some (v, a) := by
  simp only [resolve, candidates]
  split
  · next v b hnewest => simp [hnewest]
  · next hnewest => simp [hnewest]

theorem resolve_cases (s : PolicyStore R X) (id : String) (pattern : Option VersionPattern) :
    (∃ a, s.resolve id pattern = .ok a) ∨
      s.resolve id pattern = .error (.notFound id (pattern.map VersionPattern.source)) := by
  simp only [resolve]
  split
  · next v a _ => exact .inl ⟨a, rfl⟩
  · exact .inr rfl

theorem Keeps.mem_candidates {s : PolicyStore R X} {history : List (Artifact R X)}
    (h : s.Keeps history) {id : String} {pattern : Option VersionPattern} {v : Version}
    {a : Artifact R X} :
    (v, a) ∈ s.candidates id pattern ↔ lastInserted history id v = some a ∧ Accepts pattern v := by
  rw [candidates, List.mem_filter, accepts_iff, h.mem_versions]

theorem Keeps.resolve_eq_ok_iff {s : PolicyStore R X} {history : List (Artifact R X)}
    (h : s.Keeps history) {id : String} {pattern : Option VersionPattern} {a : Artifact R X} :
    s.resolve id pattern = .ok a ↔ IsAnswer history id pattern a := by
  have hdistinct : ((s.candidates id pattern).map Prod.fst).Nodup :=
    (h.distinct id).sublist (List.filter_sublist.map Prod.fst)
  have hbelow (v w : Version) : ¬v < w ↔ w = v ∨ w.Precedes v := by
    rw [Version.not_lt_iff, Version.lt_iff_precedes]
  simp only [resolve_eq_ok_iff_newest?, newest?_eq_some_iff hdistinct, Prod.forall,
    h.mem_candidates, IsAnswer, and_assoc, and_imp, hbelow]

theorem resolve_eq_notFound_iff (s : PolicyStore R X) (id : String)
    (pattern : Option VersionPattern) :
    s.resolve id pattern = .error (.notFound id (pattern.map VersionPattern.source)) ↔
      ∀ a, s.resolve id pattern ≠ .ok a := by
  obtain ⟨a, ha⟩ | h := s.resolve_cases id pattern
  · simp [ha]
  · simp [h]

theorem contains_iff {s : PolicyStore R X} {id : String} : s.contains id ↔ id ∈ s.ids := by
  simp [contains, ids, List.lookup_isSome_iff]

theorem isEmpty_iff {s : PolicyStore R X} : s.isEmpty ↔ s.ids = [] := by
  simp [isEmpty, ids]

theorem lastInserted_append (earlier later : List (Artifact R X)) (id : String) (v : Version) :
    lastInserted (earlier ++ later) id v =
      (lastInserted later id v).or (lastInserted earlier id v) := by
  rw [lastInserted, List.filter_append, List.getLast?_append]
  rfl

theorem length_filter_key_le {as : List (Artifact R X)} (hkeys : (keys as).Nodup)
    (k : String × Version) : (as.filter fun a => key? a = some k).length ≤ 1 := by
  have hcount := List.nodup_iff_count_le_one.1 hkeys k
  rw [keys, List.count_filterMap] at hcount
  rw [← List.countP_eq_length_filter]
  refine Nat.le_trans (Nat.le_of_eq (List.countP_congr fun a _ => ?_)) hcount
  simp

theorem lastInserted_perm {as bs : List (Artifact R X)} (hperm : as.Perm bs)
    (hkeys : (keys as).Nodup) (id : String) (v : Version) :
    lastInserted as id v = lastInserted bs id v := by
  have hfilter := hperm.filter fun a => key? a = some (id, v)
  have hlength := length_filter_key_le hkeys (id, v)
  unfold lastInserted
  -- At most one of them has this key, so there is nothing to put in another order.
  obtain hzero | hone := Nat.le_one_iff_eq_zero_or_eq_one.1 hlength
  · rw [List.length_eq_zero_iff] at hzero
    rw [hzero] at hfilter ⊢
    rw [hfilter.nil_eq]
  · obtain ⟨a, ha⟩ := List.length_eq_one_iff.1 hone
    rw [ha] at hfilter ⊢
    rw [List.singleton_perm.1 hfilter]

theorem resolve_congr {history other : List (Artifact R X)}
    (h : ∀ id v, lastInserted history id v = lastInserted other id v) (id : String)
    (pattern : Option VersionPattern) :
    (stored history).resolve id pattern = (stored other).resolve id pattern := by
  have hok (a : Artifact R X) :
      (stored history).resolve id pattern = .ok a ↔ (stored other).resolve id pattern = .ok a := by
    simp only [(keeps_stored history).resolve_eq_ok_iff, (keeps_stored other).resolve_eq_ok_iff,
      IsAnswer, h]
  obtain ⟨a, ha⟩ | hnone := (stored history).resolve_cases id pattern
  · rw [ha, (hok a).1 ha]
  · rw [hnone, eq_comm, resolve_eq_notFound_iff]
    intro a ha
    rw [(hok a).2 ha] at hnone
    cases hnone

/-- Every answer of a store is determined by the sequence of insertions, failed ones included. An
identifier is resolved to the artifact with the greatest accepted version of those inserted last,
and to none if there is no such artifact. An insertion without a version number changes nothing.
The store counts different pairs of identifier and version number and lists identifiers in the
order of first insertion, and the order of insertions under different pairs does not matter. -/
theorem stored_answers_history (history : List (Artifact R X)) :
    (∀ id pattern a,
      (stored history).resolve id pattern = .ok a ↔ IsAnswer history id pattern a) ∧
    (∀ id pattern, (¬∃ a, IsAnswer history id pattern a) →
      (stored history).resolve id pattern =
        .error (.notFound id (pattern.map VersionPattern.source))) ∧
    (∀ a e, Version.parse a.version = .error e →
      insert a (stored history) = .error (.invalidVersion e) (stored history) ∧
        stored (history ++ [a]) = stored history) ∧
    (stored history).size = (keys history).eraseDups.length ∧
    (∀ id, (stored history).contains id ↔ ∃ v, (id, v) ∈ keys history) ∧
    ((stored history).isEmpty ↔ (stored history).size = 0) ∧
    (stored history).ids = ((keys history).map Prod.fst).eraseDups ∧
    (∀ as bs, as.Perm bs → (keys as).Nodup → ∀ id pattern,
      (stored (history ++ as)).resolve id pattern =
        (stored (history ++ bs)).resolve id pattern) := by
  have hkeeps := keeps_stored history
  refine ⟨fun id pattern a => hkeeps.resolve_eq_ok_iff, fun id pattern hnone => ?_, fun a e he => ?_,
    hkeeps.size, fun id => ?_, ?_, hkeeps.ids, fun as bs hperm hkeys => ?_⟩
  · rw [resolve_eq_notFound_iff]
    intro a ha
    exact hnone ⟨a, hkeeps.resolve_eq_ok_iff.1 ha⟩
  · have hinsert := insert_of_parse_error he (stored history)
    refine ⟨hinsert, ?_⟩
    calc stored (history ++ [a])
        = (stored history).afterInsert a := List.foldl_concat _ _ _ _
      _ = stored history := congrArg endState hinsert
  · simp [contains_iff, hkeeps.ids]
  · rw [isEmpty_iff, hkeeps.ids, hkeeps.size, List.length_eq_zero_iff, eraseDups_eq_nil_iff,
      eraseDups_eq_nil_iff, List.map_eq_nil_iff]
  · refine resolve_congr fun id v => ?_
    rw [lastInserted_append, lastInserted_append, lastInserted_perm hperm hkeys]

end PolicyStore

end AccessPolicy
