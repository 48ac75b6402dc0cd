import AccessPolicy.Proofs.Except
import AccessPolicy.Proofs.Factory.Requests
import Mathlib.Data.List.Nodup

namespace AccessPolicy

variable {R X σ : Type}

namespace Catalog

/-- The catalog that holds each of the constructors under its own name, in their order. -/
def holding (ks : List (Constructor R X σ)) : Catalog R X σ :=
  ⟨ks.map fun k => (k.name, k)⟩

theorem add_holding (ks : List (Constructor R X σ)) (k : Constructor R X σ) :
    (holding ks).add k = holding (ks ++ [k]) := by
  simp [holding, add]

/-- The entries are complete constructors under their own names, and no name stands twice. -/
structure Sound (c : Catalog R X σ) : Prop where
  complete : ∀ name k, (name, k) ∈ c.entries → k.Complete
  ownName : ∀ name k, (name, k) ∈ c.entries → name = k.name
  nodup : c.names.Nodup

theorem sound_empty : (empty : Catalog R X σ).Sound where
  complete _ _ h := by cases h
  ownName _ _ h := by cases h
  nodup := List.nodup_nil

theorem sound_withStandard [DecidableEq R] (sur : Surroundings R X σ) (c : StandardConstructor) :
    (withStandard sur c).Sound where
  complete name k h := by
    obtain ⟨rfl, rfl⟩ := Prod.mk.inj (List.mem_singleton.1 h)
    exact Constructor.complete_toConstructor sur c
  ownName name k h := by
    obtain ⟨rfl, rfl⟩ := Prod.mk.inj (List.mem_singleton.1 h)
    rfl
  nodup := List.nodup_singleton _

theorem Sound.add {c : Catalog R X σ} {k : Constructor R X σ} (hc : c.Sound)
    (hfree : k.name ∉ c.names) (hk : k.Complete) : (c.add k).Sound := by
  have hmem : ∀ e ∈ (c.add k).entries, e ∈ c.entries ∨ e = (k.name, k) := fun e h => by
    simpa [Catalog.add] using h
  have hnames : (c.add k).names = c.names ++ [k.name] := by simp [Catalog.add, names]
  refine ⟨fun name l h => ?_, fun name l h => ?_, ?_⟩
  · obtain h | h := hmem _ h
    · exact hc.complete name l h
    · cases h
      exact hk
  · obtain h | h := hmem _ h
    · exact hc.ownName name l h
    · cases h
      rfl
  · rw [hnames]
    exact hc.nodup.append (List.nodup_singleton _) (by simpa using hfree)

theorem mem_of_get {c : Catalog R X σ} {name : String} {k : Constructor R X σ}
    (h : c.get name = .ok k) : (name, k) ∈ c.entries := by
  unfold get at h
  cases hlookup : c.entries.lookup name <;> rw [hlookup] at h <;> cases h
  obtain ⟨_, _, hentries, -⟩ := List.lookup_eq_some_iff.1 hlookup
  rw [hentries]
  exact List.mem_append_right _ List.mem_cons_self

theorem name_mem_of_get {c : Catalog R X σ} {name : String} {k : Constructor R X σ}
    (h : c.get name = .ok k) : name ∈ c.names :=
  List.mem_map_of_mem (mem_of_get h)

theorem get_eq_error_iff {c : Catalog R X σ} {name : String} {e : LoadError} :
    c.get name = .error e ↔ name ∉ c.names ∧ e = ⟨name⟩ := by
  have hnone : c.entries.lookup name = none ↔ name ∉ c.names := by
    rw [List.lookup_eq_none_iff]
    constructor
    · intro h hmem
      obtain ⟨p, hp, rfl⟩ := List.mem_map.1 hmem
      exact bne_iff_ne.1 (h p hp) rfl
    · intro h p hp
      exact bne_iff_ne.2 fun heq => h (heq ▸ List.mem_map_of_mem hp)
  unfold get
  cases hlookup : c.entries.lookup name with
  | none => simp [hnone.1 hlookup, eq_comm]
  | some k =>
    have hmem : name ∈ c.names := by
      by_contra h
      rw [hnone.2 h] at hlookup
      cases hlookup
    simp [hmem]

/-- The catalogs that registrations make of the first ones, whatever comes of each registration, and
the constructors that they hold in the order of registration. -/
inductive Built [DecidableEq R] (sur : Surroundings R X σ) :
    List (Constructor R X σ) → Catalog R X σ → Prop
  | empty : Built sur [] .empty
  | withStandard (c : StandardConstructor) : Built sur [c.toConstructor sur] (.withStandard sur c)
  | registered {ks : List (Constructor R X σ)} {c d : Catalog R X σ} {k : Constructor R X σ}
      (hc : Built sur ks c) (hk : register k c = .ok () d) : Built sur (ks ++ [k]) d
  | refused {ks : List (Constructor R X σ)} {c d : Catalog R X σ} {k : Constructor R X σ}
      {e : ConfigurationError} (hc : Built sur ks c) (hk : register k c = .error e d) :
      Built sur ks d

theorem register_eq_ok_iff {c d : Catalog R X σ} {k : Constructor R X σ} :
    register k c = .ok () d ↔ k.name ∉ c.names ∧ k.Complete ∧ d = c.add k := by
  rw [register_eq]
  by_cases htaken : k.name ∈ c.names
  · simp [htaken]
  · by_cases hk : k.Complete <;> simp [htaken, hk, eq_comm]

theorem eq_of_register_eq_error {c d : Catalog R X σ} {k : Constructor R X σ}
    {e : ConfigurationError} (h : register k c = .error e d) : d = c := by
  rw [register_eq] at h
  by_cases htaken : k.name ∈ c.names
  · rw [if_pos htaken] at h
    cases h
    rfl
  · by_cases hk : k.Complete
    · rw [if_neg htaken, if_pos hk] at h
      cases h
    · rw [if_neg htaken, if_neg hk] at h
      cases h
      rfl

/-- Such a catalog is sound, and it holds the constructors whose registration succeeded. -/
theorem Built.sound [DecidableEq R] {sur : Surroundings R X σ} {ks : List (Constructor R X σ)}
    {c : Catalog R X σ} (h : Built sur ks c) : c.Sound ∧ c = holding ks := by
  induction h with
  | empty => exact ⟨sound_empty, rfl⟩
  | withStandard c => exact ⟨sound_withStandard sur c, rfl⟩
  | registered _ hk ih =>
    obtain ⟨hsound, rfl⟩ := ih
    obtain ⟨hfree, hcomplete, rfl⟩ := register_eq_ok_iff.1 hk
    exact ⟨hsound.add hfree hcomplete, add_holding _ _⟩
  | refused _ hk ih =>
    obtain rfl := eq_of_register_eq_error hk
    exact ih

end Catalog

namespace Factory

/-- The catalog is sound, and the active constructor is complete. -/
structure Sound (f : Factory R X σ) : Prop where
  active : f.active.Complete
  catalog : f.catalog.Sound

/-- The factories that there are to begin with, and the constructors that their catalogs hold in the
order of registration. -/
inductive SetUp [DecidableEq R] (sur : Surroundings R X σ) :
    List (Constructor R X σ) → Factory R X σ → Prop
  | new : SetUp sur [StandardConstructor.default.toConstructor sur] (.new sur)
  | ofConfig {config : FactoryConfig} {f : Factory R X σ} (hf : ofConfig sur config = .ok f) :
      SetUp sur [(StandardConstructor.ofConfig config).toConstructor sur] f
  | withCatalog {ks : List (Constructor R X σ)} {c : Catalog R X σ} {name : String}
      {f : Factory R X σ} (hc : c.Built sur ks) (hf : withCatalog c name = .ok f) : SetUp sur ks f

theorem withCatalog_eq_ok_iff {c : Catalog R X σ} {name : String} {f : Factory R X σ} :
    withCatalog c name = .ok f ↔ ∃ k, c.get name = .ok k ∧ f = ⟨c, k⟩ := by
  unfold withCatalog
  cases c.get name <;> simp [Except.map, eq_comm]

theorem sound_of_withCatalog {c : Catalog R X σ} {name : String} {f : Factory R X σ}
    (hc : c.Sound) (h : withCatalog c name = .ok f) : f.Sound ∧ f.catalog = c := by
  obtain ⟨k, hget, rfl⟩ := withCatalog_eq_ok_iff.1 h
  exact ⟨⟨hc.complete name k (Catalog.mem_of_get hget), hc⟩, rfl⟩

theorem withCatalog_of_ofConfig [DecidableEq R] {sur : Surroundings R X σ} {config : FactoryConfig}
    {f : Factory R X σ} (h : ofConfig sur config = .ok f) :
    withCatalog (.withStandard sur (.ofConfig config)) config.constructor = .ok f := by
  obtain ⟨_, -, hf⟩ := bind_eq_ok_iff.1 h
  exact mapError_eq_ok_iff.1 hf

/-- Whatever name the configuration gives, only the standard constructor is there. -/
theorem active_of_ofConfig [DecidableEq R] {sur : Surroundings R X σ} {config : FactoryConfig}
    {f : Factory R X σ} (h : ofConfig sur config = .ok f) :
    f.active = (StandardConstructor.ofConfig config).toConstructor sur := by
  obtain ⟨k, hget, rfl⟩ := withCatalog_eq_ok_iff.1 (withCatalog_of_ofConfig h)
  exact congrArg Prod.snd (List.mem_singleton.1 (Catalog.mem_of_get hget))

theorem SetUp.sound [DecidableEq R] {sur : Surroundings R X σ} {ks : List (Constructor R X σ)}
    {f : Factory R X σ} (h : SetUp sur ks f) : f.Sound ∧ f.catalog = .holding ks := by
  cases h with
  | new =>
    exact ⟨⟨Constructor.complete_toConstructor sur _, Catalog.sound_withStandard sur _⟩, rfl⟩
  | ofConfig hf =>
    exact sound_of_withCatalog (Catalog.sound_withStandard sur _) (withCatalog_of_ofConfig hf)
  | withCatalog hc hf =>
    obtain ⟨hsound, rfl⟩ := hc.sound
    exact sound_of_withCatalog hsound hf

/-- Why a factory refuses a request, if it does. A name that is taken comes before capabilities that
are missing, and all of these are named. -/
def objection (f : Factory R X σ) : Request (Constructor R X σ) R → Option FactoryError
  | .register k =>
    if k.name ∈ f.catalog.names then some (.configuration (.alreadyRegistered k.name))
    else if k.Complete then none
    else some (.configuration (.missingCapabilities k.name k.lacking))
  | .activate k =>
    if k.Complete then none
    else some (.configuration (.missingCapabilities k.name k.lacking))
  | .activateByName name => if name ∈ f.catalog.names then none else some (.load ⟨name⟩)
  | .create _ _ => none

/-- How a request bears on a factory: what it is refused for, and what of the factory it leaves
alone. -/
structure Orderly (f : Factory R X σ) (r : Request (Constructor R X σ) R) (outcome : Outcome R X)
    (f' : Factory R X σ) : Prop where
  refusal : outcome.refusal? = f.objection r
  unchanged : outcome.IsError → f' = f
  entries : f.catalog.entries <+: f'.catalog.entries
  register : ∀ k, r = .register k → f'.active = f.active
  activate : ∀ k, r = .activate k → f'.catalog = f.catalog
  activateByName : ∀ name, r = .activateByName name → f'.catalog = f.catalog
  create : ∀ order resolver, r = .create order resolver → f' = f

variable {f f' : Factory R X σ} {r : Request (Constructor R X σ) R} {outcome : Outcome R X}

theorem Serves.unchanged (h : f.Serves r outcome f') (herror : outcome.IsError) : f' = f := by
  cases h with
  | registered _ _ => exact herror.elim
  | activated _ => exact herror.elim
  | activatedByName _ _ => exact herror.elim
  | _ => rfl

theorem Serves.entries (h : f.Serves r outcome f') : f.catalog.entries <+: f'.catalog.entries := by
  cases h with
  | registered _ _ => exact List.prefix_append _ _
  | _ => exact List.prefix_rfl

/-- What is found in the catalog has been checked when it was registered. -/
theorem Sound.refusal (hf : f.Sound) (h : f.Serves r outcome f') :
    outcome.refusal? = f.objection r := by
  cases h with
  | nameTaken htaken => simp [Outcome.refusal?, objection, htaken]
  | incomplete hfree hk => simp [Outcome.refusal?, objection, hfree, hk]
  | registered hfree hk => simp [Outcome.refusal?, objection, hfree, hk]
  | unfit hk => simp [Outcome.refusal?, objection, hk]
  | activated hk => simp [Outcome.refusal?, objection, hk]
  | unknown hget =>
    obtain ⟨hfree, rfl⟩ := Catalog.get_eq_error_iff.1 hget
    simp [Outcome.refusal?, objection, hfree]
  | unfitByName hget hk => exact absurd (hf.catalog.complete _ _ (Catalog.mem_of_get hget)) hk
  | activatedByName hget _ =>
    simp [Outcome.refusal?, objection, Catalog.name_mem_of_get hget]
  | made a => rfl
  | failed e => rfl

theorem Sound.orderly (hf : f.Sound) (h : f.Serves r outcome f') : f.Orderly r outcome f' where
  refusal := hf.refusal h
  unchanged := h.unchanged
  entries := h.entries
  register _ hr := by subst hr; cases h <;> rfl
  activate _ hr := by subst hr; cases h <;> rfl
  activateByName _ hr := by subst hr; cases h <;> rfl
  create _ _ hr := by subst hr; cases h <;> rfl

theorem Sound.serves (hf : f.Sound) (h : f.Serves r outcome f') : f'.Sound := by
  cases h with
  | registered hfree hk => exact ⟨hf.active, hf.catalog.add hfree hk⟩
  | activated hk => exact ⟨hk, hf.catalog⟩
  | activatedByName _ hk => exact ⟨hk, hf.catalog⟩
  | _ => exact hf

end Factory

/-- The constructor that was registered, if one was. -/
def Served.registered? : Served (Constructor R X σ) R X → Option (Constructor R X σ)
  | (.register k, .done) => some k
  | _ => none

theorem Factory.Serves.catalog {f f' : Factory R X σ} {r : Request (Constructor R X σ) R}
    {outcome : Outcome R X} {ks : List (Constructor R X σ)} (h : f.Serves r outcome f')
    (hf : f.catalog = .holding ks) :
    f'.catalog = .holding (ks ++ (Served.registered? (r, outcome)).toList) := by
  cases h with
  | registered _ _ => exact (congrArg (Catalog.add · _) hf).trans (Catalog.add_holding _ _)
  | _ => exact hf.trans (by simp [Served.registered?])

namespace Workshop

theorem sound_serveAll {w : Workshop R X σ} {ks : List (Constructor R X σ)}
    (hw : w.factory.Sound) (hks : w.factory.catalog = .holding ks)
    (rs : List (Request (Constructor R X σ) R)) :
    (w.serveAll rs).2.factory.Sound ∧ (w.serveAll rs).2.factory.catalog =
      .holding (ks ++ (w.serveAll rs).1.filterMap Served.registered?) := by
  induction rs generalizing w ks with
  | nil => exact ⟨hw, by simpa [serveAll] using hks⟩
  | cons r rest ih =>
    have hstep := w.serves_serve r
    obtain ⟨hsound, hcatalog⟩ := ih (hw.serves hstep) (hstep.catalog hks)
    refine ⟨hsound, hcatalog.trans ?_⟩
    rw [serveAll]
    cases hregistered : Served.registered? (r, (w.serve r).1) <;> simp [hregistered]

/-- Whatever a factory has been asked for, its active constructor and those in its catalog are
complete, and the catalog holds those it held to begin with and those that have been registered,
each under its own name, no name twice, in the order of registration. Whatever it is asked for next,
a refusal is for the first reason there is and, like any other error, changes nothing, a
registration leaves the active constructor as it is, and an activation leaves the catalog. -/
theorem serveAll_keeps_registry [DecidableEq R] {sur : Surroundings R X σ}
    {ks : List (Constructor R X σ)} {f : Factory R X σ} (hf : Factory.SetUp sur ks f)
    (world : World R X σ) (rs : List (Request (Constructor R X σ) R)) :
    let (record, w) := serveAll ⟨f, world⟩ rs
    w.factory.Sound ∧
      w.factory.catalog = .holding (ks ++ record.filterMap Served.registered?) ∧
      ∀ r, w.factory.Orderly r (w.serve r).1 (w.serve r).2.factory := by
  obtain ⟨hsound, hcatalog⟩ := hf.sound
  obtain ⟨hlast, hheld⟩ := sound_serveAll (w := ⟨f, world⟩) hsound hcatalog rs
  exact ⟨hlast, hheld, fun r => hlast.orderly (serves_serve _ r)⟩

/-- A constructor that never succeeds. -/
def failingConstructor (capabilities : CapabilitySet) : Constructor Unit Empty Unit where
  name := "partner"
  capabilities
  construct _ := throw (.io .notFound)

/-- Resolvers that are never asked. -/
def idleSurroundings : Surroundings Unit Empty Unit where
  lookUp _ id _ := throw (.notFound id none)
  decide x _ _ := x.elim

/-- A complete constructor is registered beside the standard one, and selected. An incomplete one of
the same name is then refused, first for its name and then for what it lacks. -/
theorem serveAll_keeps_registry_partner :
    let partner := failingConstructor .full
    let draft := failingConstructor ⟨true, false, false⟩
    let ks := [StandardConstructor.default.toConstructor idleSurroundings, partner]
    let (record, w) := serveAll ⟨⟨.holding ks, partner⟩, .new ()⟩
      [.register draft, .activate draft, .activateByName standardName]
    Factory.SetUp idleSurroundings ks ⟨.holding ks, partner⟩ ∧
      record.map (fun served => served.2.refusal?) =
        [some (.configuration (.alreadyRegistered "partner")),
          some (.configuration (.missingCapabilities "partner" [.withResolver, .inferred])), none] ∧
      w.factory.active.name = standardName ∧ w.factory.Sound ∧ w.factory.catalog = .holding ks := by
  have hregister : Catalog.register (failingConstructor .full)
      (.withStandard idleSurroundings .default) = .ok () _ :=
    Catalog.register_eq_ok_iff.2 ⟨by decide, by decide, rfl⟩
  have hsetUp := Factory.SetUp.withCatalog (.registered (.withStandard .default) hregister)
    (rfl : Factory.withCatalog _ "partner" = .ok _)
  obtain ⟨hsound, hcatalog, -⟩ := serveAll_keeps_registry hsetUp (.new ())
    [.register (failingConstructor ⟨true, false, false⟩),
      .activate (failingConstructor ⟨true, false, false⟩), .activateByName standardName]
  exact ⟨hsetUp, rfl, rfl, hsound, hcatalog⟩

end Workshop

end AccessPolicy
