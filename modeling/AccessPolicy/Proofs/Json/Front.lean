import AccessPolicy.Proofs.Json.Nesting
import AccessPolicy.Proofs.Json.Tokens

namespace AccessPolicy.Json

namespace Number

variable {minus : Bool} {s : Scaled} {cs rest : List Char} {n : Number}

/-- A run of digits ends where it ended as long as something stands behind it. -/
theorem digitRun_append {ds after : List Char} (h : digitRun cs = (ds, after)) (hafter : after ≠ [])
    (more : List Char) : digitRun (cs ++ more) = (ds, after ++ more) := by
  obtain ⟨rfl, rfl⟩ := Prod.mk.inj h
  have hlength : (cs.takeWhile Char.isDigit).length ≠ cs.length := by
    have hrun := length_digitRun cs
    have hpos := List.length_pos_iff.2 hafter
    simp only [digitRun] at hrun
    omega
  simp [digitRun, List.takeWhile_append, List.dropWhile_append, hlength, hafter]

theorem readPower_append {down : Bool} (h : readPower minus down s cs = some (n, rest))
    (hrest : rest ≠ []) (more : List Char) :
    readPower minus down s (cs ++ more) = some (n, rest ++ more) := by
  rcases hrun : digitRun cs with ⟨ds, after⟩
  -- The digits are followed by what is left over, whatever number they make.
  have hafter : rest = after := by
    unfold readPower at h
    grind [Option.map_eq_some_iff]
  subst hafter
  have hlonger := digitRun_append hrun hrest more
  unfold readPower at h ⊢
  rw [hrun] at h
  rw [hlonger]
  cases ds with
  | nil => cases h
  | cons d ds =>
    dsimp only at h ⊢
    split at h
    · split at h
      · cases h
      · next hsmall =>
        obtain ⟨rfl, -⟩ := Prod.mk.inj (Option.some.inj h)
        rw [if_neg hsmall]
    · obtain ⟨x, hx, hn⟩ := Option.map_eq_some_iff.1 h
      obtain ⟨rfl, -⟩ := Prod.mk.inj hn
      rw [hx, Option.map_some]

theorem readExponent_append (h : readExponent minus s cs = some (n, rest))
    (hrest : rest ≠ []) (more : List Char) :
    readExponent minus s (cs ++ more) = some (n, rest ++ more) := by
  unfold readExponent at h
  split at h
  · exact readPower_append h hrest more
  · exact readPower_append h hrest more
  · next hplus hminus =>
    have hsame := readPower_append h hrest more
    cases cs with
    | nil => cases h
    | cons c cs =>
      rw [List.cons_append] at hsame ⊢
      rw [readExponent]
      · exact hsame
      · rintro _ ⟨⟩
        exact hplus cs rfl
      · rintro _ ⟨⟩
        exact hminus cs rfl

theorem finish_append (h : finish minus s cs = some (n, rest))
    (hrest : rest ≠ []) (more : List Char) :
    finish minus s (cs ++ more) = some (n, rest ++ more) := by
  unfold finish at h
  split at h
  · exact readExponent_append h hrest more
  · exact readExponent_append h hrest more
  · next hlower hupper =>
    obtain ⟨x, hx, hn⟩ := Option.map_eq_some_iff.1 h
    obtain ⟨rfl, rfl⟩ := Prod.mk.inj hn
    cases cs with
    | nil => exact absurd rfl hrest
    | cons c cs =>
      rw [List.cons_append, finish, hx, Option.map_some]
      · rintro _ ⟨⟩
        exact hlower cs rfl
      · rintro _ ⟨⟩
        exact hupper cs rfl

theorem ne_nil_of_finish (h : finish minus s cs = some (n, rest)) (hrest : rest ≠ []) : cs ≠ [] := by
  rintro rfl
  have hlength := length_le_of_finish h
  exact hrest (List.eq_nil_of_length_eq_zero (Nat.le_zero.1 hlength))

theorem readFraction_append (h : readFraction minus s cs = some (n, rest))
    (hrest : rest ≠ []) (more : List Char) :
    readFraction minus s (cs ++ more) = some (n, rest ++ more) := by
  rcases hrun : digitRun cs with ⟨ds, after⟩
  unfold readFraction at h ⊢
  rw [hrun] at h
  cases ds with
  | nil => cases h
  | cons d ds =>
    rw [digitRun_append hrun (ne_nil_of_finish h hrest)]
    exact finish_append h hrest more

theorem readUnsigned_append (h : readUnsigned minus cs = some (n, rest))
    (hrest : rest ≠ []) (more : List Char) :
    readUnsigned minus (cs ++ more) = some (n, rest ++ more) := by
  rcases hrun : digitRun cs with ⟨ds, after⟩
  unfold readUnsigned at h
  rw [hrun] at h
  split at h
  · cases h
  · cases h
  · next ds after hne hzero hsame =>
    obtain ⟨rfl, rfl⟩ := Prod.mk.inj hsame
    have hafter : after ≠ [] := by
      rintro rfl
      dsimp only at h
      split at h
      · obtain ⟨rfl⟩ := (Prod.mk.inj (Option.some.inj h)).2
        exact hrest rfl
      · exact ne_nil_of_finish h hrest rfl
    unfold readUnsigned
    rw [digitRun_append hrun hafter]
    split
    · next heq => exact absurd (Prod.mk.inj heq).1 hne
    · next heq => exact absurd (Prod.mk.inj heq).1 (hzero _ _)
    · next heq =>
      obtain ⟨rfl, rfl⟩ := Prod.mk.inj heq
      dsimp only at h ⊢
      split at h
      · exact readFraction_append h hrest more
      · exact readExponent_append h hrest more
      · exact readExponent_append h hrest more
      · next hpoint hlower hupper =>
        obtain ⟨c, after, rfl⟩ := List.exists_cons_of_ne_nil hafter
        split
        · next heq =>
          obtain ⟨rfl, -⟩ := List.cons.inj heq
          exact absurd rfl (hpoint after)
        · next heq =>
          obtain ⟨rfl, -⟩ := List.cons.inj heq
          exact absurd rfl (hlower after)
        · next heq =>
          obtain ⟨rfl, -⟩ := List.cons.inj heq
          exact absurd rfl (hupper after)
        · split at h
          · next hall =>
            obtain ⟨rfl, rfl⟩ := Prod.mk.inj (Option.some.inj h)
            rw [if_pos hall]
          · next hleft =>
            rw [if_neg hleft]
            exact finish_append h hrest more

theorem read_append (h : read cs = some (n, rest))
    (hrest : rest ≠ []) (more : List Char) :
    read (cs ++ more) = some (n, rest ++ more) := by
  unfold read at h
  split at h
  · exact readUnsigned_append h hrest more
  · next hminus =>
    cases cs with
    | nil => cases h
    | cons c cs =>
      have hsame := readUnsigned_append h hrest more
      rw [List.cons_append] at hsame ⊢
      rw [read]
      · exact hsame
      · rintro _ ⟨⟩
        exact hminus cs rfl

end Number

theorem readString_append {done cs rest : List Char} {s : String}
    (h : readString done cs = some (s, rest)) (more : List Char) :
    readString done (cs ++ more) = some (s, rest ++ more) := by
  fun_induction readString done cs with
  | case1 => cases h
  | case2 =>
    obtain ⟨rfl, rfl⟩ := Prod.mk.inj (Option.some.inj h)
    simp [readString]
  | case3 => cases h
  | case4 => cases h
  | case5 _ _ _ _ _ _ _ _ _ _ _ _ _ _ _ _ ih => simp_all [readString]
  | case6 => cases h
  | case7 => cases h
  | case8 => cases h
  | case9 _ _ _ _ _ _ _ _ _ _ ih => simp_all [readString]
  | case10 => cases h
  | case11 done c rest e hescape hplain ih =>
    rw [List.cons_append, List.cons_append, readString, hplain]
    · exact ih h
    · rintro _ _ _ _ _ rfl
      cases hplain
  | case12 => cases h
  | case13 _ _ _ _ _ _ _ ih => simp_all [readString]

theorem dropWord_append {word cs rest : List Char} (h : dropWord word cs = some rest)
    (more : List Char) : dropWord word (cs ++ more) = some (rest ++ more) := by
  fun_induction dropWord word cs with
  | case1 cs =>
    obtain rfl := Option.some.inj h
    rfl
  | case2 ws c cs ih =>
    rw [List.cons_append, dropWord, if_pos rfl]
    exact ih h
  | case3 => cases h
  | case4 => cases h

/-- What is cut off the front is cut off a longer text as well, except that a number needs something
behind it that shows where it ends. -/
theorem Token.cut_append {c : Char} {cs rest : List Char} {t : Token}
    (h : cut c cs = some (t, rest)) (hend : rest ≠ [] ∨ ∀ n, t ≠ .number n) (more : List Char) :
    cut c (cs ++ more) = some (t, rest ++ more) := by
  unfold cut at h ⊢
  split at h
  case h_7 =>
    obtain ⟨⟨s, after⟩, hread, heq⟩ := Option.map_eq_some_iff.1 h
    cases heq
    simp [readString_append hread]
  case h_8 | h_9 | h_10 =>
    obtain ⟨_, hdrop, heq⟩ := Option.map_eq_some_iff.1 h
    cases heq
    simp [dropWord_append hdrop]
  case h_11 =>
    obtain ⟨⟨n, after⟩, hread, heq⟩ := Option.map_eq_some_iff.1 h
    cases heq
    have hafter : rest ≠ [] := hend.resolve_right fun hnumber => hnumber n rfl
    have hmore := Number.read_append hread hafter more
    rw [List.cons_append] at hmore
    rw [hmore]
    rfl
  all_goals
    cases h
    rfl

theorem scanOnto_append {done : List Token} {cs : List Char}
    (h : (scanOnto done cs).getLast? = some .closeObject) (more : List Char) :
    scanOnto done (cs ++ more) = scanOnto (scanOnto done cs).reverse more := by
  fun_induction scanOnto done cs with
  | case1 done => rw [List.nil_append, List.reverse_reverse]
  | case2 done c cs hspace ih =>
    rw [List.cons_append, scanOnto, if_pos hspace, ih h]
  | case3 done c cs hspace hcut => simp at h
  | case4 done c cs hspace t rest hcut ih =>
    -- A token that the text ends with is the bracket, so a number has something behind it.
    have hend : rest ≠ [] ∨ ∀ n, t ≠ .number n := by
      by_cases hrest : rest = []
      · subst hrest
        obtain rfl : t = .closeObject := by simpa [scanOnto] using h
        exact .inr fun n hn => by cases hn
      · exact .inl hrest
    rw [List.cons_append, scanOnto_cut hspace (Token.cut_append hcut hend more), ih h]

theorem scan_append {cs : List Char} (h : (scan cs).getLast? = some .closeObject)
    (more : List Char) : scan (cs ++ more) = scan cs ++ scan more := by
  rw [scan, scanOnto_append h, scanOnto_eq_append, List.reverse_reverse]
  rfl

namespace Reader

theorem eq_of_deliver_eq_done {v w : Value} {frames : List Frame}
    (h : deliver v frames = ⟨[], .done w⟩) : v = w := by
  obtain _ | ⟨_ | _, outer⟩ := frames
  · obtain ⟨-, hdone⟩ := Reader.mk.inj h
    exact Stage.done.inj hdone
  · cases h
  · cases h

/-- The first token of a value is not the last one of an object. -/
theorem beginValue_ne_done {limit : Nat} {frames : List Frame} {t : Token}
    {members : List (String × Value)} :
    beginValue limit frames t ≠ some ⟨[], .done (.object members)⟩ := by
  intro h
  cases t with
  | null => cases eq_of_deliver_eq_done (Option.some.inj h)
  | bool b => cases eq_of_deliver_eq_done (Option.some.inj h)
  | number n => cases eq_of_deliver_eq_done (Option.some.inj h)
  | string text => cases eq_of_deliver_eq_done (Option.some.inj h)
  | openArray =>
    simp only [beginValue] at h
    split at h <;> cases h
  | openObject =>
    simp only [beginValue] at h
    split at h <;> cases h
  | _ => cases h

theorem eq_closeObject_of_step {limit : Nat} {r : Reader} {t : Token}
    {members : List (String × Value)}
    (h : step limit r t = some ⟨[], .done (.object members)⟩) : t = .closeObject := by
  obtain ⟨frames, stage⟩ := r
  cases stage with
  | value => exact absurd h beginValue_ne_done
  | firstItem =>
    by_cases ht : t = .closeArray
    · subst ht
      cases eq_of_deliver_eq_done (Option.some.inj h)
    · rw [step_firstItem ht] at h
      exact absurd h beginValue_ne_done
  | key ms closable =>
    cases t with
    | closeObject => rfl
    | _ => cases closable <;> cases h
  | colon ms key => cases t <;> cases h
  | nextItem items =>
    cases t with
    | closeArray => cases eq_of_deliver_eq_done (Option.some.inj h)
    | _ => cases h
  | nextMember ms =>
    cases t with
    | closeObject => rfl
    | _ => cases h
  | done v => cases h

/-- An object ends with its bracket. -/
theorem getLast?_of_run {limit : Nat} {tokens : List Token} {members : List (String × Value)}
    (h : (run limit start tokens).bind value? = some (.object members)) :
    tokens.getLast? = some .closeObject := by
  obtain ⟨s, hrun, hvalue⟩ := Option.bind_eq_some_iff.1 h
  obtain rfl := eq_done_of_value? hvalue
  obtain rfl | ⟨front, t, rfl⟩ := List.eq_nil_or_concat tokens
  · cases hrun
  · rw [run, List.concat_eq_append, List.foldlM_append] at hrun
    obtain ⟨r, -, hlast⟩ := Option.bind_eq_some_iff.1 hrun
    obtain ⟨q, hstep, hsame⟩ := Option.bind_eq_some_iff.1 hlast
    obtain rfl := Option.some.inj hsame
    rw [eq_closeObject_of_step hstep, List.concat_eq_append, List.getLast?_concat]

end Reader

theorem deepest_le_append (opened : Nat) (tokens more : List Token) :
    deepest opened tokens ≤ deepest opened (tokens ++ more) := by
  induction tokens generalizing opened with
  | nil => exact le_deepest opened more
  | cons t ts ih =>
    have hrest := ih (t.openAfter opened)
    simp only [List.cons_append, deepest]
    omega

section

variable {bytes : List UInt8} {cs : List Char} {members : List (String × Value)}
  (hdecode : Text.Utf8.decode bytes = (cs, [])) (hread : read cs = some (.object members))

include hdecode hread

theorem depth_le_nesting_of_read :
    (Value.object members).depth ≤ nesting bytes ∧ nesting bytes ≤ Reader.maxDepth := by
  rw [nesting, hdecode]
  exact Reader.depth_le_of_run hread

/-- The text of an object is nested no deeper than any text that begins with it. -/
theorem nesting_le_append (more : List UInt8) : nesting bytes ≤ nesting (bytes ++ more) := by
  obtain ⟨tail, htail⟩ := Text.Utf8.exists_decode_append hdecode more
  rw [nesting, nesting, hdecode, htail, scan_append (Reader.getLast?_of_run hread)]
  exact deepest_le_append 0 _ _

end

end AccessPolicy.Json
