import AccessPolicy.Proofs.Version.Language
import AccessPolicy.Proofs.Version.Order

namespace AccessPolicy.Version

/-- The leftmost token that is not a numeral. -/
def FirstFault (ts : List (List Char)) (t : List Char) : Prop :=
  ∃ before after, ts = before ++ t :: after ∧ (∀ u ∈ before, Text.IsNumeral u) ∧ ¬Text.IsNumeral t

variable {s : String}

/-- The components of a version are the values of its tokens. -/
theorem parse_eq_ok_iff {v : Version} :
    parse s = .ok v ↔ s ≠ "" ∧ (∀ t ∈ tokens s, Text.IsNumeral t) ∧
      List.Forall₂ (fun t n => Text.value t = n.toNat) (tokens s) v.components := by
  rw [← List.forall₂_and_left]
  unfold parse
  by_cases hempty : s = ""
  · simp [hempty]
  · rw [if_neg (by simpa using hempty), map_eq_ok_iff, splitDots_eq_tokens]
    simp only [mapM_eq_ok_iff, parseComponent_eq_ok_iff, ne_eq, hempty, not_false_eq_true, true_and]
    constructor
    · rintro ⟨ns, hread, rfl⟩
      exact hread
    · exact fun hread => ⟨v.components, hread, rfl⟩

theorem parse_eq_error_iff {e : VersionError} :
    parse s = .error e ↔ (s = "" ∧ e = .invalidFormat s) ∨
      (s ≠ "" ∧ ∃ t, FirstFault (tokens s) t ∧ e = .invalidComponent (String.ofList t)) := by
  have hread (t : List Char) : (∃ n, parseComponent t = .ok n) ↔ Text.IsNumeral t := by
    rw [← not_iff_not, ← Text.word?_eq_none_iff, parseComponent]
    cases Text.word? t <;> simp
  unfold parse
  by_cases hempty : s = ""
  · subst hempty
    rw [if_pos (by rfl), Except.error.injEq]
    simp only [true_and, ne_eq, not_true, false_and, or_false]
    exact eq_comm
  · rw [if_neg (by simpa using hempty), map_eq_error_iff, splitDots_eq_tokens, mapM_eq_error_iff]
    simp only [hread, parseComponent_eq_error_iff, hempty, false_and, false_or, ne_eq,
      not_false_eq_true, true_and]
    constructor
    · rintro ⟨before, t, after, hsplit, hbefore, hfault, rfl⟩
      exact ⟨t, ⟨before, after, hsplit, hbefore, hfault⟩, rfl⟩
    · rintro ⟨t, ⟨before, after, hsplit, hbefore, hfault⟩, rfl⟩
      exact ⟨before, t, after, hsplit, hbefore, hfault, rfl⟩

theorem exists_parse_eq_ok_iff :
    (∃ v, parse s = .ok v) ↔ s ≠ "" ∧ ∀ t ∈ tokens s, Text.IsNumeral t := by
  constructor
  · rintro ⟨v, hv⟩
    obtain ⟨hne, hnumerals, -⟩ := parse_eq_ok_iff.1 hv
    exact ⟨hne, hnumerals⟩
  · rintro ⟨hne, hnumerals⟩
    cases hparse : parse s with
    | ok v => exact ⟨v, rfl⟩
    | error e =>
      obtain ⟨hempty, -⟩ | ⟨-, t, ⟨before, after, hsplit, -, hfault⟩, -⟩ :=
        parse_eq_error_iff.1 hparse
      · exact absurd hempty hne
      · exact absurd (hnumerals t (by simp [hsplit])) hfault

/-- The text without the zeros that its numbers do not need. -/
def normalText (s : String) : String :=
  ".".intercalate ((tokens s).map fun t => String.ofList (Text.trimZeros t))

theorem map_digits_eq {ts : List (List Char)} {ns : List UInt64}
    (hnumerals : ∀ t ∈ ts, Text.IsNumeral t)
    (h : List.Forall₂ (fun t n => Text.value t = n.toNat) ts ns) :
    ns.map Text.digits = ts.map Text.trimZeros := by
  induction h with
  | nil => rfl
  | cons hvalue _ ih =>
    obtain ⟨hfirst, hrest⟩ := List.forall_mem_cons.1 hnumerals
    rw [List.map_cons, List.map_cons, hfirst.digits_eq hvalue, ih hrest]

theorem display_of_parse {v : Version} (h : parse s = .ok v) : v.display = normalText s := by
  obtain ⟨-, hnumerals, hvalues⟩ := parse_eq_ok_iff.1 h
  have hdigits := congrArg (List.map String.ofList) (map_digits_eq hnumerals hvalues)
  rw [List.map_map, List.map_map] at hdigits
  exact congrArg ".".intercalate hdigits

/-- A version with a component is read back from what it is shown as. -/
theorem parse_display {v : Version} (h : v.components ≠ []) : parse v.display = .ok v := by
  have htokens := VersionPattern.tokens_display h
  refine parse_eq_ok_iff.2 ⟨fun hempty => ?_, ?_, ?_⟩
  · exact (VersionPattern.parse_eq_ok_iff.1 (VersionPattern.parse_display h)).1 hempty
  · rw [htokens, List.forall_mem_map]
    exact fun n _ => Text.isNumeral_digits n
  · rw [htokens, List.forall₂_map_left_iff, List.forall₂_same]
    exact fun n _ => (Text.word?_eq_some_iff.1 (Text.word?_digits n)).2

theorem components_ne_nil_of_parse {v : Version} (h : parse s = .ok v) : v.components ≠ [] := by
  obtain ⟨-, -, hvalues⟩ := parse_eq_ok_iff.1 h
  intro hnil
  rw [hnil, List.forall₂_nil_right_iff] at hvalues
  exact List.splitOn_ne_nil '.' s.toList hvalues

/-- Versions that are shown as the same text are the same. -/
theorem eq_of_display_eq {v w : Version} (hv : v.components ≠ []) (hw : w.components ≠ [])
    (h : v.display = w.display) : v = w := by
  have hparse := parse_display hv
  rw [h, parse_display hw] at hparse
  exact (Except.ok.inj hparse).symm

/-- Versions are read, shown and compared by their numbers. A text is a version if it is not empty
and each of its tokens is a numeral; otherwise the empty text is reported as such and any other by
its leftmost token that is none. A version that was read is shown as its text without needless
zeros, so two texts are the same version exactly if they are the same without these. Every version
with a component is read back from what it is shown as. Sorting keeps the versions, puts each before
those that it precedes, and gives the same for every order that they are given in. -/
theorem text_and_order :
    (∀ s : String,
      ((∃ v, parse s = .ok v) ↔ s ≠ "" ∧ ∀ t ∈ tokens s, Text.IsNumeral t) ∧
      (∀ e, parse s = .error e ↔ (s = "" ∧ e = .invalidFormat s) ∨
        (s ≠ "" ∧ ∃ t, FirstFault (tokens s) t ∧ e = .invalidComponent (String.ofList t))) ∧
      ∀ v, parse s = .ok v → v.display = normalText s) ∧
    (∀ (s t : String) (v w : Version), parse s = .ok v → parse t = .ok w →
      (v = w ↔ normalText s = normalText t)) ∧
    (∀ v : Version, v.components ≠ [] → parse v.display = .ok v) ∧
    ∀ vs : List Version, (sort vs).Perm vs ∧ Ordered (sort vs) ∧
      ∀ ws : List Version, ws.Perm vs → sort ws = sort vs := by
  refine ⟨fun s => ⟨exists_parse_eq_ok_iff, fun e => parse_eq_error_iff, fun v => display_of_parse⟩,
    fun s t v w hs ht => ?_, fun v => parse_display,
    fun vs => ⟨sort_perm vs, ordered_sort vs, fun ws => sort_eq_of_perm⟩⟩
  rw [← display_of_parse hs, ← display_of_parse ht]
  exact ⟨congrArg display, eq_of_display_eq (components_ne_nil_of_parse hs)
    (components_ne_nil_of_parse ht)⟩

/-- Zeros in front, however many, do not make another version; the greatest component is that of a
word. -/
theorem text_and_order_zeros :
    parse "01.018446744073709551615" = .ok ⟨[1, 18446744073709551615]⟩ ∧
      display ⟨[1, 18446744073709551615]⟩ = "1.18446744073709551615" ∧
      parse "1.18446744073709551615" = .ok ⟨[1, 18446744073709551615]⟩ := by
  have hpadded : parse "01.018446744073709551615" = .ok ⟨[1, 18446744073709551615]⟩ := by
    decide +kernel
  have hshown := (text_and_order.1 "01.018446744073709551615").2.2 _ hpadded
  have hnormal : normalText "01.018446744073709551615" = "1.18446744073709551615" := by
    decide +kernel
  have hagain := text_and_order.2.2.1 ⟨[1, 18446744073709551615]⟩ (by decide)
  rw [hshown, hnormal] at hagain
  exact ⟨hpadded, hshown.trans hnormal, hagain⟩

end AccessPolicy.Version
