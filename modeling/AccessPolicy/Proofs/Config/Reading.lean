import AccessPolicy.Proofs.Config.Decoding
import AccessPolicy.Proofs.Json.Syntax
import Mathlib.Data.List.Induction

namespace AccessPolicy.ConfigReader

open Json

namespace Draft

/-- Whether the one draft becomes the other when the value is taken for the setting. -/
def Takes (d : Draft) : Setting → Value → Draft → Prop
  | .constructor, v, e => ∃ text, string v = .ok text ∧ { d with constructor := some text } = e
  | .resolution, v, e => ∃ m, ResolutionMode.decode v = .ok m ∧ { d with resolution := some m } = e
  | .maxDocumentBytes, v, e => ∃ n, word v = .ok n ∧ { d with maxDocumentBytes := some n } = e

theorem rel_none_iff {r : α → β → Prop} {b? : Option β} :
    Option.Rel r none b? ↔ b?.isSome = false := by
  cases b? with
  | none => exact iff_of_true .none rfl
  | some b => exact iff_of_false nofun nofun

theorem gets_none_iff {d : Draft} {s : Setting} : d.Gets s none ↔ d.has s = false := by
  cases s <;> exact rel_none_iff

theorem Takes.gets {d e : Draft} {s : Setting} {v : Value} (h : d.Takes s v e) :
    e.Gets s (some v) := by
  cases s <;> obtain ⟨a, hdecode, rfl⟩ := h <;> exact .some hdecode

/-- Taking a value changes no other setting. -/
theorem Takes.gets_of_ne {d e : Draft} {s t : Setting} {v : Value} {given : Option Value}
    (h : d.Takes s v e) (hne : t ≠ s) : e.Gets t given ↔ d.Gets t given := by
  cases s <;> obtain ⟨a, -, rfl⟩ := h <;> cases t <;> first | exact absurd rfl hne | exact Iff.rfl

theorem exists_takes {e : Draft} {s : Setting} {v : Value} (h : e.Gets s (some v)) :
    ∃ d : Draft, d.has s = false ∧ d.Takes s v e := by
  obtain ⟨constructor?, resolution?, bytes?⟩ := e
  cases s with
  | constructor =>
    obtain hdecode | _ := h
    exact ⟨⟨none, resolution?, bytes?⟩, rfl, _, hdecode, rfl⟩
  | resolution =>
    obtain hdecode | _ := h
    exact ⟨⟨constructor?, none, bytes?⟩, rfl, _, hdecode, rfl⟩
  | maxDocumentBytes =>
    obtain hdecode | _ := h
    exact ⟨⟨constructor?, resolution?, none⟩, rfl, _, hdecode, rfl⟩

/-- The draft has what the settings that were given decode to, each of them given once. -/
structure Holds (d : Draft) (given : List (Setting × Value)) : Prop where
  once : (given.map Prod.fst).Nodup
  gets : ∀ s, d.Gets s (given.lookup s)

theorem holds_nil_iff {d : Draft} : d.Holds [] ↔ d = .empty := by
  constructor
  · rintro ⟨-, h⟩
    obtain ⟨constructor?, resolution?, bytes?⟩ := d
    obtain _ | _ := h .constructor
    obtain _ | _ := h .resolution
    obtain _ | _ := h .maxDocumentBytes
    rfl
  · rintro rfl
    exact ⟨List.nodup_nil, fun s => gets_none_iff.2 (by cases s <;> rfl)⟩

theorem lookup_given_eq_none_iff {given : List (Setting × Value)} {s : Setting} :
    given.lookup s = none ↔ s ∉ given.map Prod.fst := by
  simp only [List.lookup_eq_none_iff, List.mem_map, bne_iff_ne, not_exists, not_and, ne_eq]
  exact forall₂_congr fun g _ => not_congr eq_comm

/-- A draft has no more than what was given. -/
theorem Holds.has_eq_false_iff {d : Draft} {given : List (Setting × Value)} (h : d.Holds given)
    {s : Setting} : d.has s = false ↔ s ∉ given.map Prod.fst := by
  rw [(h.gets s).has, Option.isSome_eq_false_iff, Option.isNone_iff_eq_none,
    lookup_given_eq_none_iff]

theorem holds_cons_iff {e : Draft} {s : Setting} {v : Value} {given : List (Setting × Value)} :
    e.Holds ((s, v) :: given) ↔ ∃ d : Draft, d.Holds given ∧ d.has s = false ∧ d.Takes s v e := by
  constructor
  · rintro ⟨honce, hgets⟩
    rw [List.map_cons, List.nodup_cons] at honce
    obtain ⟨d, hhas, htakes⟩ := exists_takes (by simpa using hgets s)
    refine ⟨d, ⟨honce.2, fun t => ?_⟩, hhas, htakes⟩
    by_cases ht : t = s
    · subst ht
      rw [lookup_given_eq_none_iff.2 honce.1]
      exact gets_none_iff.2 hhas
    · have hother := hgets t
      rw [List.lookup_cons, beq_eq_false_iff_ne.2 ht] at hother
      exact (htakes.gets_of_ne ht).1 hother
  · rintro ⟨d, hholds, hhas, htakes⟩
    refine ⟨List.nodup_cons.2 ⟨hholds.has_eq_false_iff.1 hhas, hholds.once⟩, fun t => ?_⟩
    by_cases ht : t = s
    · subst ht
      simpa using htakes.gets
    · rw [List.lookup_cons, beq_eq_false_iff_ne.2 ht]
      exact (htakes.gets_of_ne ht).2 (hholds.gets t)

/-- The settings that were given as the members of an object. -/
def members (given : List (Setting × Value)) : List (String × Value) :=
  given.map fun g => (g.1.field, g.2)

theorem members_cons (g : Setting × Value) (given : List (Setting × Value)) :
    members (g :: given) = (g.1.field, g.2) :: members given := rfl

/-- Whether the value gives the draft: as an object of settings, of which the latest stands first in
`given`, or as an array of the first settings. -/
inductive FilledBy (d : Draft) : Value → Prop
  | object {given : List (Setting × Value)} : d.Holds given →
    FilledBy d (.object (members given).reverse)
  | array {items : List Value} : items.length ≤ Setting.all.length →
    d.Holds (Setting.all.zip items).reverse → FilledBy d (.array items)

end Draft

theorem zip_concat {as : List α} {bs : List β} {a : α} (h : as[bs.length]? = some a) (b : β) :
    as.zip (bs ++ [b]) = as.zip bs ++ [(a, b)] := by
  induction bs generalizing as with
  | nil =>
    cases as with
    | nil => cases h
    | cons c as =>
      obtain rfl := Option.some.inj h
      simp
  | cons c bs ih =>
    cases as with
    | nil => cases h
    | cons d as =>
      rw [List.cons_append, List.zip_cons_cons, ih h, List.zip_cons_cons, List.cons_append]

theorem map_fst_zip_eq_take (as : List α) (bs : List β) :
    (as.zip bs).map Prod.fst = as.take bs.length := by
  induction as generalizing bs with
  | nil => simp
  | cons a as ih =>
    cases bs with
    | nil => rfl
    | cons b bs => simp [ih]

theorem nodup_zip (items : List Value) : ((Setting.all.zip items).map Prod.fst).Nodup := by
  have hall : Setting.all.Nodup := by decide
  rw [map_fst_zip_eq_take]
  exact hall.sublist (List.take_sublist _ _)

theorem next?_eq {n : Nat} {s : Setting} (h : Setting.all[n]? = some s) :
    next? s = Setting.all[n + 1]? := by
  rcases n with _ | _ | _ | n
  all_goals simp_all [Setting.all]
  all_goals subst h; rfl

/-- The settings of an array are given in order, so that the next one has not been given. -/
theorem Draft.Holds.has_eq_false {d : Draft} {items : List Value} {s : Setting}
    (h : d.Holds (Setting.all.zip items).reverse) (hs : Setting.all[items.length]? = some s) :
    d.has s = false := by
  have hnodup := nodup_zip (items ++ [.null])
  rw [zip_concat hs, List.map_append, List.nodup_append] at hnodup
  rw [h.has_eq_false_iff, List.map_reverse, List.mem_reverse]
  exact fun hmem => hnodup.2.2 s hmem s List.mem_cons_self rfl

/-- The tokens lead up to the value of a setting that has not been given. -/
inductive Awaits (d : Draft) : Form → Setting → List Token → Prop
  | member {s : Setting} {given : List (Setting × Value)} : d.Holds given → d.has s = false →
    Awaits d .object s (Value.openMembers (Draft.members given) ++ [.string s.field, .colon])
  | item {s : Setting} {items : List Value} : d.Holds (Setting.all.zip items).reverse →
    Setting.all[items.length]? = some s → Awaits d .array s (Value.openItems items.reverse)

theorem Awaits.has_eq_false {d : Draft} {form : Form} {s : Setting} {before : List Token}
    (h : Awaits d form s before) : d.has s = false := by
  cases h with
  | member _ hhas => exact hhas
  | item hholds hs => exact hholds.has_eq_false hs

/-- The tokens are those that have brought the reader to its state. -/
inductive State.Read : State → List Token → Prop
  | start : Read start []
  | firstKey : Read ⟨.empty, .key true⟩ [.openObject]
  | key {d : Draft} {given : List (Setting × Value)} : d.Holds given →
    Read ⟨d, .key false⟩ (Value.openMembers (Draft.members given))
  | colon {d : Draft} {given : List (Setting × Value)} {s : Setting} : d.Holds given →
    d.has s = false →
    Read ⟨d, .colon s⟩ (Value.openMembers (Draft.members given) ++ [.string s.field])
  | firstItem : Read ⟨.empty, .firstItem⟩ [.openArray]
  | value {d : Draft} {form : Form} {s : Setting} {before : List Token} :
    Awaits d form s before → Read ⟨d, .value form s⟩ before
  | modeName {d : Draft} {form : Form} {before : List Token} :
    Awaits d form .resolution before → Read ⟨d, .modeName form⟩ (before ++ [.openObject])
  | modeColon {d : Draft} {form : Form} {before : List Token} {name : String} {m : ResolutionMode} :
    Awaits d form .resolution before → pick ResolutionMode.table name = .ok m →
    Read ⟨d, .modeColon form m⟩ (before ++ [.openObject, .string name])
  | modePayload {d : Draft} {form : Form} {before : List Token} {name : String}
    {m : ResolutionMode} :
    Awaits d form .resolution before → pick ResolutionMode.table name = .ok m →
    Read ⟨d, .modePayload form m⟩ (before ++ [.openObject, .string name, .colon])
  | modeEnd {d : Draft} {form : Form} {before : List Token} {name : String} {m : ResolutionMode} :
    Awaits d form .resolution before → pick ResolutionMode.table name = .ok m →
    Read ⟨d, .modeEnd form m⟩ (before ++ [.openObject, .string name, .colon, .null])
  | afterMember {d : Draft} {given : List (Setting × Value)} {s : Setting} {v : Value} :
    d.Holds ((s, v) :: given) →
    Read ⟨d, .afterMember⟩
      (Value.openMembers (Draft.members given) ++ .string s.field :: .colon :: v.tokens)
  | afterItem {d : Draft} {items : List Value} {s : Setting} {v : Value} :
    Setting.all[items.length]? = some s → d.Holds (Setting.all.zip (items ++ [v])).reverse →
    Read ⟨d, .afterItem s⟩ (Value.openItems items.reverse ++ v.tokens)
  | done {d : Draft} {v : Value} : d.FilledBy v → Read ⟨d, .done⟩ v.tokens

/-- Behind the value that was awaited the draft has it. -/
theorem read_of_takes {d e : Draft} {form : Form} {s : Setting} {before : List Token} {v : Value}
    (h : Awaits d form s before) (htakes : d.Takes s v e) :
    State.Read ⟨e, after form s⟩ (before ++ v.tokens) := by
  cases h with
  | member hholds hhas =>
    rw [List.append_assoc]
    exact .afterMember (Draft.holds_cons_iff.2 ⟨d, hholds, hhas, htakes⟩)
  | item hholds hs =>
    refine .afterItem hs ?_
    rw [zip_concat hs, List.reverse_concat, Draft.holds_cons_iff]
    exact ⟨d, hholds, hholds.has_eq_false hs, htakes⟩

theorem leaf_eq_ok_iff {decode : Decoder α} {t : Token} {a : α} :
    leaf decode t = .ok a ↔ ∃ v, t.beginning? = some v ∧ decode v = .ok a := by
  unfold leaf
  cases t.beginning? with
  | none => simp
  | some v => cases hdecode : decode v <;> simp [hdecode]

theorem leaf_string_eq_ok_iff {t : Token} {text : String} :
    leaf string t = .ok text ↔ t = .string text := by
  simp only [leaf_eq_ok_iff, string_eq_ok_iff]
  cases t <;> simp [Token.beginning?]

theorem leaf_word_eq_ok_iff {t : Token} {n : UInt64} :
    leaf word t = .ok n ↔ t = .number (.natural n) := by
  simp only [leaf_eq_ok_iff, word_eq_ok_iff]
  cases t <;> simp [Token.beginning?]

theorem modeNamed_eq_ok_iff {name : String} {m : ResolutionMode} :
    modeNamed name = .ok m ↔ pick ResolutionMode.table name = .ok m := by
  unfold modeNamed
  cases pick ResolutionMode.table name <;> simp

theorem read_of_value {d : Draft} {form : Form} {s : Setting} {before : List Token} {t : Token}
    {state : State} (hawaits : Awaits d form s before) (h : value d form s t = .ok state) :
    state.Read (before ++ [t]) := by
  cases s with
  | constructor =>
    obtain ⟨text, hleaf, rfl⟩ := map_eq_ok_iff.1 h
    obtain rfl := leaf_string_eq_ok_iff.1 hleaf
    exact read_of_takes hawaits (v := .string text) ⟨text, rfl, rfl⟩
  | maxDocumentBytes =>
    obtain ⟨n, hleaf, rfl⟩ := map_eq_ok_iff.1 h
    obtain rfl := leaf_word_eq_ok_iff.1 hleaf
    exact read_of_takes hawaits (v := .number (.natural n)) ⟨n, rfl, rfl⟩
  | resolution =>
    cases t with
    | string name =>
      obtain ⟨m, hname, rfl⟩ := map_eq_ok_iff.1 h
      exact read_of_takes hawaits (v := .string name) ⟨m, modeNamed_eq_ok_iff.1 hname, rfl⟩
    | openObject =>
      obtain rfl := Except.ok.inj h
      exact .modeName hawaits
    | _ => cases h

theorem key_eq_ok_iff {d : Draft} {name : String} {state : State} :
    key d name = .ok state ↔
      ∃ s : Setting, name = s.field ∧ d.has s = false ∧ ⟨d, .colon s⟩ = state := by
  unfold key
  cases hname : Setting.ofField? name with
  | none =>
    refine iff_of_false nofun ?_
    rintro ⟨s, rfl, -⟩
    rw [Setting.ofField?_eq_some_iff.2 rfl] at hname
    cases hname
  | some s =>
    obtain rfl := Setting.ofField?_eq_some_iff.1 hname
    cases hhas : d.has s <;> simp [Setting.field_injective.eq_iff, hhas]

/-- A step reads its token. -/
theorem read_of_step {state next : State} {tokens : List Token} {t : Token}
    (hread : state.Read tokens) (h : step state t = .ok next) : next.Read (tokens ++ [t]) := by
  cases hread with
  | start =>
    cases t with
    | openObject => exact Except.ok.inj h ▸ .firstKey
    | openArray => exact Except.ok.inj h ▸ .firstItem
    | _ => cases h
  | firstKey =>
    cases t with
    | string name =>
      obtain ⟨s, rfl, hhas, rfl⟩ := key_eq_ok_iff.1 h
      exact .colon (Draft.holds_nil_iff.2 rfl) hhas
    | closeObject => exact Except.ok.inj h ▸ .done (.object (Draft.holds_nil_iff.2 rfl))
    | _ => cases h
  | key hholds =>
    cases t with
    | string name =>
      obtain ⟨s, rfl, hhas, rfl⟩ := key_eq_ok_iff.1 h
      exact .colon hholds hhas
    | _ => cases h
  | colon hholds hhas =>
    cases t with
    | colon =>
      obtain rfl := Except.ok.inj h
      have hread := State.Read.value (.member hholds hhas)
      simpa using hread
    | _ => cases h
  | firstItem =>
    have hnil : Draft.empty.Holds (Setting.all.zip []).reverse := Draft.holds_nil_iff.2 rfl
    by_cases ht : t = .closeArray
    · subst ht
      exact Except.ok.inj h ▸ .done (.array (Nat.zero_le _) hnil)
    · have hvalue : value .empty .array .constructor t = .ok next := by
        cases t with
        | closeArray => exact absurd rfl ht
        | _ => exact h
      exact read_of_value (.item hnil rfl) hvalue
  | value hawaits => exact read_of_value hawaits h
  | modeName hawaits =>
    cases t with
    | string name =>
      obtain ⟨m, hname, rfl⟩ := map_eq_ok_iff.1 h
      rw [List.append_assoc]
      exact .modeColon hawaits (modeNamed_eq_ok_iff.1 hname)
    | _ => cases h
  | modeColon hawaits hname =>
    cases t with
    | colon =>
      obtain rfl := Except.ok.inj h
      rw [List.append_assoc]
      exact .modePayload hawaits hname
    | _ => cases h
  | modePayload hawaits hname =>
    cases t with
    | null =>
      obtain rfl := Except.ok.inj h
      rw [List.append_assoc]
      exact .modeEnd hawaits hname
    | _ => cases h
  | modeEnd hawaits hname =>
    cases t with
    | closeObject =>
      obtain rfl := Except.ok.inj h
      rw [List.append_assoc]
      exact read_of_takes hawaits (v := .object [(_, .null)])
        ⟨_, named_eq_ok_iff.2 ⟨_, hname, .inr rfl⟩, rfl⟩
    | _ => cases h
  | afterMember hholds =>
    cases t with
    | comma =>
      obtain rfl := Except.ok.inj h
      have hread := State.Read.key hholds
      simpa [Draft.members, Value.openMembers] using hread
    | closeObject =>
      obtain rfl := Except.ok.inj h
      have hread := State.Read.done (.object hholds)
      simpa [Draft.members, Value.tokens_object_append, Value.memberTokens] using hread
    | _ => cases h
  | @afterItem d items s v hs hholds =>
    have hlength : (items ++ [v]).length = items.length + 1 := by simp
    cases t with
    | comma =>
      have hnext := next?_eq hs
      rw [← hlength] at hnext
      simp only [step, hnext] at h
      cases hlater : Setting.all[(items ++ [v]).length]? with
      | none =>
        rw [hlater] at h
        cases h
      | some t =>
        rw [hlater] at h
        obtain rfl := Except.ok.inj h
        have hread := State.Read.value (.item hholds hlater)
        simpa [Value.openItems] using hread
    | closeArray =>
      obtain rfl := Except.ok.inj h
      have hle : (items ++ [v]).length ≤ Setting.all.length := by
        obtain ⟨hlt, -⟩ := List.getElem?_eq_some_iff.1 hs
        rw [hlength]
        exact hlt
      have hread := State.Read.done (.array hle hholds)
      have htokens := Value.tokens_array_append items.reverse [] v
      rw [List.reverse_reverse] at htokens
      rw [htokens, Value.itemTokens] at hread
      rwa [List.append_assoc]
    | _ => cases h
  | done hfilled => cases h

/-- Where the reader comes by a list of tokens. -/
def run (state : State) (tokens : List Token) : Except ReadError State :=
  tokens.foldlM step state

theorem read_of_run {state last : State} {before tokens : List Token} (hread : state.Read before)
    (h : run state tokens = .ok last) : last.Read (before ++ tokens) := by
  induction tokens generalizing state before with
  | nil =>
    obtain rfl : state = last := Except.ok.inj h
    rwa [List.append_nil]
  | cons t ts ih =>
    rw [run, List.foldlM_cons] at h
    obtain ⟨next, hstep, hrest⟩ := bind_eq_ok_iff.1 h
    have hlast := ih (read_of_step hread hstep) hrest
    rwa [List.append_assoc] at hlast

theorem run_cons {state next : State} {t : Token} (h : step state t = .ok next)
    (tokens : List Token) : run state (t :: tokens) = run next tokens := by
  rw [run, List.foldlM_cons, h]
  rfl

theorem run_append {state next : State} {tokens : List Token} (h : run state tokens = .ok next)
    (more : List Token) : run state (tokens ++ more) = run next more := by
  rw [run] at h
  rw [run, List.foldlM_append, h]
  rfl

theorem run_value {d e : Draft} {s : Setting} {v : Value} (h : d.Takes s v e) (form : Form) :
    run ⟨d, .value form s⟩ v.tokens = .ok ⟨e, after form s⟩ := by
  cases s with
  | constructor =>
    obtain ⟨text, hdecode, rfl⟩ := h
    obtain rfl := string_eq_ok_iff.1 hdecode
    rfl
  | maxDocumentBytes =>
    obtain ⟨n, hdecode, rfl⟩ := h
    obtain rfl := word_eq_ok_iff.1 hdecode
    rfl
  | resolution =>
    obtain ⟨m, hdecode, rfl⟩ := h
    obtain ⟨name, hname, rfl | rfl⟩ := named_eq_ok_iff.1 hdecode
    · have hstep : step ⟨d, .value form .resolution⟩ (.string name) =
        .ok ⟨{ d with resolution := some m }, after form .resolution⟩ := by
        simp [step, value, modeNamed_eq_ok_iff.2 hname, Except.map]
      rw [Value.tokens, run_cons hstep]
      rfl
    · have hstep : step ⟨d, .modeName form⟩ (.string name) = .ok ⟨d, .modeColon form m⟩ := by
        simp [step, modeNamed_eq_ok_iff.2 hname, Except.map]
      rw [Value.tokens, List.cons_append, run_cons rfl, List.cons_append, run_cons hstep]
      rfl

/-- Where the first item of an array may stand, a value is read as the first setting. -/
theorem run_firstItem (d : Draft) (v : Value) :
    run ⟨d, .firstItem⟩ v.tokens = run ⟨d, .value .array .constructor⟩ v.tokens := by
  rcases v with _ | _ | _ | _ | (_ | ⟨v, vs⟩) | (_ | ⟨⟨key, v⟩, ms⟩) <;> rfl

theorem run_key {d e : Draft} {s : Setting} {v : Value} (hhas : d.has s = false)
    (htakes : d.Takes s v e) (closable : Bool) :
    run ⟨d, .key closable⟩ (.string s.field :: .colon :: v.tokens) = .ok ⟨e, .afterMember⟩ := by
  have hkey : step ⟨d, .key closable⟩ (.string s.field) = .ok ⟨d, .colon s⟩ :=
    key_eq_ok_iff.2 ⟨s, rfl, hhas, rfl⟩
  rw [run_cons hkey, run_cons rfl]
  exact run_value htakes .object

theorem run_members {e : Draft} {s : Setting} {v : Value} {given : List (Setting × Value)}
    (h : e.Holds ((s, v) :: given)) :
    run start (Value.openMembers (Draft.members given) ++ .string s.field :: .colon :: v.tokens) =
      .ok ⟨e, .afterMember⟩ := by
  induction given generalizing e s v with
  | nil =>
    obtain ⟨d, hholds, hhas, htakes⟩ := Draft.holds_cons_iff.1 h
    obtain rfl := Draft.holds_nil_iff.1 hholds
    exact run_key hhas htakes true
  | cons g given ih =>
    obtain ⟨d, hholds, hhas, htakes⟩ := Draft.holds_cons_iff.1 h
    have hbefore := ih hholds
    have hkey := run_key hhas htakes false
    rw [Draft.members_cons, Value.openMembers, ← List.append_assoc, List.append_assoc,
      run_append hbefore]
    exact (run_cons rfl _).trans hkey

theorem run_items {e : Draft} {items : List Value} {s : Setting} {v : Value}
    (hs : Setting.all[items.length]? = some s)
    (h : e.Holds (Setting.all.zip (items ++ [v])).reverse) :
    run start (Value.openItems items.reverse ++ v.tokens) = .ok ⟨e, .afterItem s⟩ := by
  induction items using List.reverseRecOn generalizing e s v with
  | nil =>
    obtain rfl : Setting.constructor = s := Option.some.inj hs
    obtain ⟨d, hholds, -, htakes⟩ := Draft.holds_cons_iff.1 h
    obtain rfl := Draft.holds_nil_iff.1 hholds
    have hfirst := run_firstItem .empty v
    rw [run_value htakes] at hfirst
    exact hfirst
  | append_singleton items u ih =>
    rw [zip_concat hs, List.reverse_concat] at h
    obtain ⟨d, hholds, -, htakes⟩ := Draft.holds_cons_iff.1 h
    obtain ⟨hlt, -⟩ := List.getElem?_eq_some_iff.1 hs
    have hbelow : items.length < Setting.all.length := by
      rw [List.length_append] at hlt
      omega
    have hu := List.getElem?_eq_getElem hbelow
    have hbefore := ih hu hholds
    have hcomma : step ⟨d, .afterItem Setting.all[items.length]⟩ .comma =
        .ok ⟨d, .value .array s⟩ := by
      rw [List.length_append, List.length_singleton] at hs
      simp only [step, next?_eq hu, hs]
    rw [List.reverse_append, List.reverse_singleton, List.singleton_append, Value.openItems,
      List.append_assoc, List.append_assoc, ← List.append_assoc, run_append hbefore,
      List.singleton_append, run_cons hcomma]
    exact run_value htakes .array

theorem run_tokens {d : Draft} {v : Value} (h : d.FilledBy v) :
    run start v.tokens = .ok ⟨d, .done⟩ := by
  cases h with
  | @object given hholds =>
    cases given with
    | nil =>
      obtain rfl := Draft.holds_nil_iff.1 hholds
      rfl
    | cons g given =>
      have hmembers := run_members hholds
      rw [Draft.members_cons, List.reverse_cons, Value.tokens_object_append, Value.memberTokens,
        ← List.append_assoc, run_append hmembers]
      rfl
  | @array items hle hholds =>
    induction items using List.reverseRecOn with
    | nil =>
      obtain rfl := Draft.holds_nil_iff.1 hholds
      rfl
    | append_singleton items v _ =>
      rw [List.length_append, List.length_singleton] at hle
      have hitems := run_items (List.getElem?_eq_getElem hle) hholds
      have htokens := Value.tokens_array_append items.reverse [] v
      rw [List.reverse_reverse] at htokens
      rw [htokens, Value.itemTokens, ← List.append_assoc, run_append hitems]
      rfl

/-- A text is read exactly if it spells a value that gives each setting at most once. -/
theorem read_eq_ok_iff {cs : List Char} {c : FactoryConfig} :
    read cs = .ok c ↔ ∃ (v : Value) (d : Draft), v.SpelledBy cs ∧ d.FilledBy v ∧ d.toConfig = c := by
  constructor
  · intro h
    obtain ⟨last, hrun, hfinish⟩ := bind_eq_ok_iff.1 h
    have hread := read_of_run .start hrun
    rw [List.nil_append] at hread
    obtain ⟨d, stage⟩ := last
    cases stage with
    | done =>
      generalize htokens : scan cs = tokens at hread
      cases hread with
      | done hfilled => exact ⟨_, d, htokens, hfilled, Except.ok.inj hfinish⟩
    | _ => cases hfinish
  · rintro ⟨v, d, hspells, hfilled, rfl⟩
    have hrun := run_tokens hfilled
    rw [← hspells, run] at hrun
    rw [read, hrun]
    rfl

end AccessPolicy.ConfigReader
