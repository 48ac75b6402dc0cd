import AccessPolicy.Proofs.Text.Numeral
import AccessPolicy.Proofs.Version.Pattern
import Mathlib.Data.List.Forall2

namespace AccessPolicy

/-- The tokens of a text are what stands between its dots. -/
abbrev tokens (s : String) : List (List Char) :=
  s.toList.splitOn '.'

theorem splitDots_eq_tokens (s : String) : splitDots s.toList = tokens s :=
  Text.splitOn_eq_list_splitOn '.' s.toList

theorem Text.IsNumeral.ne_star {t : List Char} (h : IsNumeral t) : t ≠ ['*'] := by
  rintro rfl
  cases h.digits '*' (List.mem_singleton_self _)

theorem Text.IsNumeral.ne_plus {t : List Char} (h : IsNumeral t) : t ≠ ['+'] := by
  rintro rfl
  cases h.digits '+' (List.mem_singleton_self _)

theorem parseComponent_eq_ok_iff {t : List Char} {n : UInt64} :
    parseComponent t = .ok n ↔ Text.IsNumeral t ∧ Text.value t = n.toNat := by
  rw [← Text.word?_eq_some_iff, parseComponent]
  cases Text.word? t <;> simp

theorem parseComponent_eq_error_iff {t : List Char} {e : VersionError} :
    parseComponent t = .error e ↔ ¬Text.IsNumeral t ∧ e = .invalidComponent (String.ofList t) := by
  rw [← Text.word?_eq_none_iff, parseComponent]
  cases Text.word? t <;> simp [eq_comm]

namespace VersionPattern

/-- What may stand as a token of a pattern; the plus sign only as the last one. -/
inductive Admissible (isLast : Bool) : List Char → Prop
  | star : Admissible isLast ['*']
  | plus (h : isLast) : Admissible isLast ['+']
  | numeral {t : List Char} (h : Text.IsNumeral t) : Admissible isLast t

/-- Every token may stand where it stands. -/
def Wellformed (ts : List (List Char)) : Prop :=
  ∀ before t after, ts = before ++ t :: after → Admissible after.isEmpty t

/-- The leftmost token that may not stand where it stands. -/
def FirstFault (ts : List (List Char)) (t : List Char) : Prop :=
  ∃ before after, ts = before ++ t :: after ∧ (∀ u ∈ before, Admissible false u) ∧
    ¬Admissible after.isEmpty t

/-- How a token that may not stand where it stands is reported. -/
def blame (source : String) (t : List Char) : VersionError :=
  if t = ['+'] then .misplacedWildcard source else .invalidComponent (String.ofList t)

theorem wellformed_nil : Wellformed [] := by
  intro before t after h
  cases before <;> cases h

theorem wellformed_cons_iff {t : List Char} {ts : List (List Char)} :
    Wellformed (t :: ts) ↔ Admissible ts.isEmpty t ∧ Wellformed ts := by
  constructor
  · intro h
    exact ⟨h [] t ts rfl, fun before u after hsplit => h (t :: before) u after (by simp [hsplit])⟩
  · rintro ⟨hfirst, hrest⟩ before u after hsplit
    cases before with
    | nil =>
      obtain ⟨rfl, rfl⟩ := List.cons.inj hsplit
      exact hfirst
    | cons b before => exact hrest before u after (List.cons.inj hsplit).2

theorem firstFault_cons_iff {t u : List Char} {ts : List (List Char)} :
    FirstFault (t :: ts) u ↔
      (u = t ∧ ¬Admissible ts.isEmpty t) ∨ (Admissible false t ∧ FirstFault ts u) := by
  constructor
  · rintro ⟨before, after, hsplit, hbefore, hfault⟩
    cases before with
    | nil =>
      obtain ⟨rfl, rfl⟩ := List.cons.inj hsplit
      exact .inl ⟨rfl, hfault⟩
    | cons b before =>
      obtain ⟨rfl, hrest⟩ := List.cons.inj hsplit
      obtain ⟨hfirst, hbefore⟩ := List.forall_mem_cons.1 hbefore
      exact .inr ⟨hfirst, before, after, hrest, hbefore, hfault⟩
  · rintro (⟨rfl, hfault⟩ | ⟨hfirst, before, after, rfl, hbefore, hfault⟩)
    · exact ⟨[], ts, rfl, List.forall_mem_nil _, hfault⟩
    · exact ⟨t :: before, after, rfl, List.forall_mem_cons.2 ⟨hfirst, hbefore⟩, hfault⟩

theorem not_firstFault_nil {u : List Char} : ¬FirstFault [] u := by
  rintro ⟨before, after, h, -⟩
  cases before <;> cases h

/-- The part of a pattern that a token is read as. -/
inductive ReadAs : List Char → PatternPart → Prop
  | star : ReadAs ['*'] .anyOne
  | plus : ReadAs ['+'] .anyRest
  | numeral {t : List Char} {n : UInt64} (h : Text.IsNumeral t) (hvalue : Text.value t = n.toNat) :
      ReadAs t (.exact n)

section

variable {source : String} {isLast : Bool} {t : List Char}

theorem parsePart_eq_ok_iff {p : PatternPart} :
    parsePart source isLast t = .ok p ↔ Admissible isLast t ∧ ReadAs t p := by
  unfold parsePart
  split
  · constructor
    · intro h
      cases h
      exact ⟨.star, .star⟩
    · rintro ⟨-, hread⟩
      cases hread with
      | star => rfl
      | numeral h => exact absurd rfl h.ne_star
  · cases isLast with
    | true =>
      constructor
      · intro h
        cases h
        exact ⟨.plus rfl, .plus⟩
      · rintro ⟨-, hread⟩
        cases hread with
        | plus => rfl
        | numeral h => exact absurd rfl h.ne_plus
    | false =>
      constructor
      · intro h
        cases h
      · rintro ⟨hadmissible, -⟩
        cases hadmissible with
        | plus h => cases h
        | numeral h => exact absurd rfl h.ne_plus
  · next hstar hplus =>
    constructor
    · intro h
      obtain ⟨n, hn, rfl⟩ := map_eq_ok_iff.1 h
      obtain ⟨hnumeral, hvalue⟩ := parseComponent_eq_ok_iff.1 hn
      exact ⟨.numeral hnumeral, .numeral hnumeral hvalue⟩
    · rintro ⟨-, hread⟩
      cases hread with
      | star => exact absurd rfl hstar
      | plus => exact absurd rfl hplus
      | numeral h hvalue => exact map_eq_ok_iff.2 ⟨_, parseComponent_eq_ok_iff.2 ⟨h, hvalue⟩, rfl⟩

theorem parsePart_eq_error_iff {e : VersionError} :
    parsePart source isLast t = .error e ↔ ¬Admissible isLast t ∧ e = blame source t := by
  unfold parsePart blame
  split
  · simp [Admissible.star]
  · cases isLast with
    | true => simp [Admissible.plus]
    | false =>
      have hnot : ¬Admissible false ['+'] := by
        intro h
        cases h with
        | plus h => cases h
        | numeral h => exact h.ne_plus rfl
      simp [hnot, eq_comm]
  · next hstar hplus =>
    have hadmissible : Admissible isLast t ↔ Text.IsNumeral t := by
      refine ⟨fun h => ?_, .numeral⟩
      cases h with
      | star => exact absurd rfl hstar
      | plus => exact absurd rfl hplus
      | numeral h => exact h
    rw [map_eq_error_iff, parseComponent_eq_error_iff, hadmissible, if_neg hplus]

/-- A token may stand as soon as it may stand before others. -/
theorem Admissible.last (h : Admissible false t) (isLast : Bool) : Admissible isLast t := by
  cases h with
  | star => exact .star
  | plus h => cases h
  | numeral h => exact .numeral h

variable {ts : List (List Char)}

/-- Tokens are read as parts exactly if each may stand where it stands. -/
theorem parseParts_eq_ok_iff {ps : List PatternPart} :
    parseParts source ts = .ok ps ↔ Wellformed ts ∧ List.Forall₂ ReadAs ts ps := by
  induction ts generalizing ps with
  | nil => cases ps <;> simp [parseParts, wellformed_nil]
  | cons t ts ih =>
    rw [parseParts, wellformed_cons_iff]
    constructor
    · intro h
      obtain ⟨p, hfirst, h⟩ := bind_eq_ok_iff.1 h
      obtain ⟨rest, hrest, h⟩ := bind_eq_ok_iff.1 h
      obtain rfl : p :: rest = ps := Except.ok.inj h
      obtain ⟨hadmissible, hread⟩ := parsePart_eq_ok_iff.1 hfirst
      obtain ⟨hwellformed, hreads⟩ := ih.1 hrest
      exact ⟨⟨hadmissible, hwellformed⟩, .cons hread hreads⟩
    · rintro ⟨⟨hadmissible, hwellformed⟩, hreads⟩
      cases hreads with
      | cons hread hreads =>
        exact bind_eq_ok_iff.2 ⟨_, parsePart_eq_ok_iff.2 ⟨hadmissible, hread⟩,
          bind_eq_ok_iff.2 ⟨_, ih.2 ⟨hwellformed, hreads⟩, rfl⟩⟩

/-- Reading fails with the leftmost token that may not stand where it stands. -/
theorem parseParts_eq_error_iff {e : VersionError} :
    parseParts source ts = .error e ↔ ∃ t, FirstFault ts t ∧ e = blame source t := by
  induction ts with
  | nil => simp [parseParts, not_firstFault_nil]
  | cons t ts ih =>
    rw [parseParts]
    constructor
    · intro h
      obtain hfirst | ⟨p, hfirst, h⟩ := bind_eq_error_iff.1 h
      · obtain ⟨hfault, rfl⟩ := parsePart_eq_error_iff.1 hfirst
        exact ⟨t, firstFault_cons_iff.2 (.inl ⟨rfl, hfault⟩), rfl⟩
      · obtain hrest | ⟨rest, -, h⟩ := bind_eq_error_iff.1 h
        · obtain ⟨u, hfault, rfl⟩ := ih.1 hrest
          have hmore : ts.isEmpty = false := by
            cases ts with
            | nil => exact absurd hfault not_firstFault_nil
            | cons => rfl
          have hadmissible := (parsePart_eq_ok_iff.1 hfirst).1
          rw [hmore] at hadmissible
          exact ⟨u, firstFault_cons_iff.2 (.inr ⟨hadmissible, hfault⟩), rfl⟩
        · cases h
    · rintro ⟨u, hfault, rfl⟩
      obtain ⟨rfl, hfault⟩ | ⟨hadmissible, hfault⟩ := firstFault_cons_iff.1 hfault
      · exact bind_eq_error_iff.2 (.inl (parsePart_eq_error_iff.2 ⟨hfault, rfl⟩))
      · have hrest := ih.2 ⟨u, hfault, rfl⟩
        cases hpart : parsePart source ts.isEmpty t with
        | ok p => exact bind_eq_error_iff.2 (.inr ⟨p, rfl, bind_eq_error_iff.2 (.inl hrest)⟩)
        | error e => exact absurd (hadmissible.last _) (parsePart_eq_error_iff.1 hpart).1

end

/-- A token other than a plus sign describes a component: any one, or the one of its value. -/
def Describes (t : List Char) (c : UInt64) : Prop :=
  t = ['*'] ∨ Text.value t = c.toNat

/-- Each token describes the component at its position, as far as there is one. -/
def DescribesAll (ts : List (List Char)) (cs : List UInt64) : Prop :=
  ∀ (i : Nat) t c, ts[i]? = some t → cs[i]? = some c → Describes t c

/-- The tokens before a trailing plus sign. -/
def stem (ts : List (List Char)) : List (List Char) :=
  if ts.getLast? = some ['+'] then ts.dropLast else ts

/-- The version has as many components as there are tokens, or, where a plus sign is the last one,
at least as many as there are tokens before it, and each of the tokens describes its component. -/
def Selects (ts : List (List Char)) (v : Version) : Prop :=
  (if ts.getLast? = some ['+'] then ts.length - 1 ≤ v.components.length
    else v.components.length = ts.length) ∧
  DescribesAll (stem ts) v.components

theorem describesAll_nil (cs : List UInt64) : DescribesAll [] cs := by
  intro i t c h
  cases h

theorem describesAll_cons_iff {t : List Char} {ts : List (List Char)} {c : UInt64}
    {cs : List UInt64} :
    DescribesAll (t :: ts) (c :: cs) ↔ Describes t c ∧ DescribesAll ts cs := by
  constructor
  · intro h
    exact ⟨h 0 t c rfl rfl, fun i => h (i + 1)⟩
  · rintro ⟨hfirst, hrest⟩ (_ | i) u d hu hd
    · obtain rfl := Option.some.inj hu
      obtain rfl := Option.some.inj hd
      exact hfirst
    · exact hrest i u d hu hd

theorem ReadAs.acceptsComponents_cons_iff {t : List Char} {p : PatternPart} (h : ReadAs t p)
    (hplus : t ≠ ['+']) {ps : List PatternPart} {c : UInt64} {cs : List UInt64} :
    acceptsComponents (p :: ps) (c :: cs) ↔ Describes t c ∧ acceptsComponents ps cs := by
  cases h with
  | star => simp [acceptsComponents, Describes]
  | plus => exact absurd rfl hplus
  | @numeral t n hnumeral hvalue =>
    simp [acceptsComponents, Describes, hnumeral.ne_star, hvalue, UInt64.toNat_inj]

theorem ReadAs.not_acceptsComponents_nil {t : List Char} {p : PatternPart} (h : ReadAs t p)
    (hplus : t ≠ ['+']) (ps : List PatternPart) : ¬acceptsComponents (p :: ps) [] := by
  cases h with
  | plus => exact absurd rfl hplus
  | _ => exact Bool.false_ne_true

/-- Tokens other than a plus sign take one component each, and leave the others to what stands
behind them. -/
theorem acceptsComponents_append_iff {us : List (List Char)} {qs : List PatternPart}
    (h : List.Forall₂ ReadAs us qs) (hplus : ['+'] ∉ us) (tail : List PatternPart)
    (cs : List UInt64) :
    acceptsComponents (qs ++ tail) cs ↔ us.length ≤ cs.length ∧ DescribesAll us cs ∧
      acceptsComponents tail (cs.drop us.length) := by
  induction h generalizing cs with
  | nil => simp [describesAll_nil]
  | @cons t q us qs hread _ ih =>
    rw [List.mem_cons, not_or] at hplus
    obtain ⟨hfirst, hrest⟩ := hplus
    cases cs with
    | nil => simpa using hread.not_acceptsComponents_nil (Ne.symm hfirst) (qs ++ tail)
    | cons c cs =>
      rw [List.cons_append, hread.acceptsComponents_cons_iff (Ne.symm hfirst), ih hrest,
        describesAll_cons_iff]
      simp [and_left_comm, and_assoc]

theorem Wellformed.plus_notMem {us : List (List Char)} {t : List Char}
    (h : Wellformed (us ++ [t])) : ['+'] ∉ us := by
  intro hmem
  obtain ⟨before, after, rfl⟩ := List.append_of_mem hmem
  have hadmissible := h before ['+'] (after ++ [t]) (by simp)
  rw [List.isEmpty_eq_false_iff.2 (by simp)] at hadmissible
  cases hadmissible with
  | plus h => cases h
  | numeral h => exact h.ne_plus rfl

/-- The parts that tokens are read as accept what the tokens select. -/
theorem acceptsComponents_iff_selects {ts : List (List Char)} {ps : List PatternPart}
    (hwellformed : Wellformed ts) (h : List.Forall₂ ReadAs ts ps) (v : Version) :
    acceptsComponents ps v.components ↔ Selects ts v := by
  obtain rfl | ⟨us, t, rfl⟩ := List.eq_nil_or_concat ts
  · cases h
    simp [acceptsComponents, Selects, stem, describesAll_nil]
  · rw [List.concat_eq_append] at *
    have hfront := hwellformed.plus_notMem
    by_cases hplus : t = ['+']
    · subst hplus
      have hus := List.forall₂_take us.length h
      have hlast := List.forall₂_drop us.length h
      rw [List.take_left] at hus
      rw [List.drop_left] at hlast
      obtain ⟨q, hq⟩ : ∃ q, ps.drop us.length = [q] := List.length_eq_one_iff.1 hlast.length_eq.symm
      rw [hq] at hlast
      obtain rfl : q = .anyRest := by
        cases hlast with
        | cons hread _ =>
          cases hread with
          | plus => rfl
          | numeral h => exact absurd rfl h.ne_plus
      rw [← List.take_append_drop us.length ps, hq, acceptsComponents_append_iff hus hfront]
      simp [Selects, stem, acceptsComponents]
    · -- No token is a plus sign, so all of them are taken one component each.
      have hall : ['+'] ∉ us ++ [t] := by simpa [hfront] using Ne.symm hplus
      rw [← List.append_nil ps, acceptsComponents_append_iff h hall]
      simp only [Selects, stem, acceptsComponents, List.getLast?_append, List.getLast?_singleton,
        Option.some_or, Option.some.injEq, hplus, if_false, List.isEmpty_iff, List.drop_eq_nil_iff]
      constructor
      · rintro ⟨hle, hdescribes, hge⟩
        exact ⟨Nat.le_antisymm hge hle, hdescribes⟩
      · rintro ⟨hlength, hdescribes⟩
        exact ⟨Nat.le_of_eq hlength.symm, hdescribes, Nat.le_of_eq hlength⟩

variable {s : String}

theorem parse_eq_ok_iff {p : VersionPattern} :
    parse s = .ok p ↔ s ≠ "" ∧ Wellformed (tokens s) ∧ p.source = s ∧
      List.Forall₂ ReadAs (tokens s) p.parts := by
  unfold parse
  by_cases hempty : s = ""
  · simp [hempty]
  · rw [if_neg (by simpa using hempty), map_eq_ok_iff, splitDots_eq_tokens]
    simp only [ne_eq, hempty, not_false_eq_true, true_and]
    constructor
    · rintro ⟨parts, hparts, rfl⟩
      obtain ⟨hwellformed, hread⟩ := parseParts_eq_ok_iff.1 hparts
      exact ⟨hwellformed, rfl, hread⟩
    · rintro ⟨hwellformed, rfl, hread⟩
      exact ⟨p.parts, parseParts_eq_ok_iff.2 ⟨hwellformed, hread⟩, rfl⟩

theorem parse_eq_error_iff {e : VersionError} :
    parse s = .error e ↔ (s = "" ∧ e = .invalidFormat s) ∨
      (s ≠ "" ∧ ∃ t, FirstFault (tokens s) t ∧ e = blame s t) := by
  unfold parse
  by_cases hempty : s = ""
  · subst hempty
    rw [if_pos (by rfl), Except.error.injEq]
    simp only [true_and, ne_eq, not_true, false_and, or_false]
    exact eq_comm
  · rw [if_neg (by simpa using hempty), map_eq_error_iff, splitDots_eq_tokens,
      parseParts_eq_error_iff]
    simp [hempty]

/-- Tokens can be read as parts if each may stand where it stands. -/
theorem exists_parse_eq_ok_iff :
    (∃ p, parse s = .ok p) ↔ s ≠ "" ∧ Wellformed (tokens s) := by
  constructor
  · rintro ⟨p, hp⟩
    obtain ⟨hne, hwellformed, -⟩ := parse_eq_ok_iff.1 hp
    exact ⟨hne, hwellformed⟩
  · rintro ⟨hne, hwellformed⟩
    cases hparse : parse s with
    | ok p => exact ⟨p, rfl⟩
    | error e =>
      obtain ⟨hempty, -⟩ | ⟨-, t, ⟨before, after, hsplit, -, hfault⟩, -⟩ :=
        parse_eq_error_iff.1 hparse
      · exact absurd hempty hne
      · exact absurd (hwellformed before t after hsplit) hfault

theorem accepts_iff_selects {p : VersionPattern} (h : parse s = .ok p) (v : Version) :
    p.accepts v ↔ Selects (tokens s) v := by
  obtain ⟨-, hwellformed, -, hread⟩ := parse_eq_ok_iff.1 h
  exact acceptsComponents_iff_selects hwellformed hread v

/-- The tokens of a shown version are the digits of its components. -/
theorem tokens_display {v : Version} (h : v.components ≠ []) :
    tokens v.display = v.components.map Text.digits := by
  have hdots : ∀ ds ∈ v.components.map Text.digits, '.' ∉ ds := by
    intro ds hds hdot
    obtain ⟨n, -, rfl⟩ := List.mem_map.1 hds
    cases (Text.isNumeral_digits n).digits '.' hdot
  have htext : v.display.toList = ['.'].intercalate (v.components.map Text.digits) := by
    simp [Version.display, String.toList_intercalate, Text.numeral, Function.comp_def]
  rw [tokens, htext, List.splitOn_intercalate '.' hdots (by simpa using h)]

/-- The text of a version is the pattern for that version. -/
theorem parse_display {v : Version} (h : v.components ≠ []) :
    parse v.display = .ok (exact v) := by
  have htokens := tokens_display h
  have hread : List.Forall₂ ReadAs (tokens v.display) (exact v).parts := by
    rw [htokens, exact, List.forall₂_map_left_iff, List.forall₂_map_right_iff, List.forall₂_same]
    intro n _
    obtain ⟨hnumeral, hvalue⟩ := Text.word?_eq_some_iff.1 (Text.word?_digits n)
    exact .numeral hnumeral hvalue
  refine parse_eq_ok_iff.2 ⟨?_, ?_, rfl, hread⟩
  · intro hempty
    rw [hempty] at htokens
    obtain ⟨n, rest, hcomponents⟩ := List.exists_cons_of_ne_nil h
    rw [hcomponents] at htokens
    exact (Text.isNumeral_digits n).ne_nil (List.cons.inj htokens).1.symm
  · intro before t after hsplit
    have hmem : t ∈ tokens v.display := by simp [hsplit]
    rw [htokens] at hmem
    obtain ⟨n, -, rfl⟩ := List.mem_map.1 hmem
    exact .numeral (Text.isNumeral_digits n)

/-- Patterns select exactly their language. A text is a pattern if it is not empty and each token
may stand where it stands; otherwise the empty text is reported as such and any other by its
leftmost token that may not stand there. A pattern accepts the versions that its tokens select. What
a version is shown as is the pattern for it, which accepts that version alone. -/
theorem selects_language :
    (∀ s : String,
      ((∃ p, parse s = .ok p) ↔ s ≠ "" ∧ Wellformed (tokens s)) ∧
      (∀ e, parse s = .error e ↔ (s = "" ∧ e = .invalidFormat s) ∨
        (s ≠ "" ∧ ∃ t, FirstFault (tokens s) t ∧ e = blame s t)) ∧
      ∀ p, parse s = .ok p → ∀ v, p.accepts v ↔ Selects (tokens s) v) ∧
    ∀ v : Version, v.components ≠ [] →
      parse v.display = .ok (exact v) ∧ ∀ w, (exact v).accepts w ↔ w = v :=
  ⟨fun _ => ⟨exists_parse_eq_ok_iff, fun _ => parse_eq_error_iff, fun _ h => accepts_iff_selects h⟩,
    fun v h => ⟨parse_display h, fun _ => (pins_exact v).accepts_iff⟩⟩

/-- Behind a plus sign nothing is needed, and a component may be as large as a word. -/
theorem selects_language_widest :
    (∃ p, parse "1.*.+" = .ok p ∧ Selects (tokens "1.*.+") ⟨[1, 7]⟩ ∧
      ¬Selects (tokens "1.*.+") ⟨[1]⟩) ∧
    parse (Version.display ⟨[18446744073709551615]⟩) = .ok (exact ⟨[18446744073709551615]⟩) := by
  have hparse : parse "1.*.+" = .ok ⟨"1.*.+", [.exact 1, .anyOne, .anyRest]⟩ := by decide +kernel
  have haccepts := (selects_language.1 "1.*.+").2.2 _ hparse
  exact ⟨⟨_, hparse, (haccepts _).1 rfl, fun h => Bool.false_ne_true ((haccepts _).2 h)⟩,
    (selects_language.2 ⟨[18446744073709551615]⟩ (by decide)).1⟩

end VersionPattern

end AccessPolicy
