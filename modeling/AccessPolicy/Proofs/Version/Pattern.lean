import AccessPolicy.Proofs.Except
import AccessPolicy.Version.Pattern

namespace AccessPolicy

/-- A component of a version is no wildcard. -/
theorem parsePart_of_parseComponent {part : List Char} {n : UInt64}
    (h : parseComponent part = .ok n) (source : String) (isLast : Bool) :
    parsePart source isLast part = .ok (.exact n) := by
  unfold parsePart
  split
  · cases h
  · cases h
  · rw [h]
    rfl

theorem parseParts_of_mapM {parts : List (List Char)} {ns : List UInt64}
    (h : parts.mapM parseComponent = .ok ns) (source : String) :
    parseParts source parts = .ok (ns.map .exact) := by
  induction parts generalizing ns with
  | nil =>
    cases h
    rfl
  | cons part rest ih =>
    rw [List.mapM_cons] at h
    obtain ⟨n, hpart, h⟩ := bind_eq_ok_iff.1 h
    obtain ⟨others, hrest, h⟩ := bind_eq_ok_iff.1 h
    obtain rfl : n :: others = ns := Except.ok.inj h
    rw [parseParts, parsePart_of_parseComponent hpart, ih hrest]
    rfl

theorem acceptsComponents_exact_iff {cs ds : List UInt64} :
    acceptsComponents (cs.map .exact) ds ↔ cs = ds := by
  induction cs generalizing ds with
  | nil => cases ds <;> simp [acceptsComponents]
  | cons c cs ih =>
    cases ds with
    | nil => simp [acceptsComponents]
    | cons d ds => simp [acceptsComponents, ih]

namespace VersionPattern

/-- The parts of the pattern are the components of the version. -/
def Pins (p : VersionPattern) (v : Version) : Prop :=
  p.parts = v.components.map .exact

theorem pins_exact (v : Version) : (exact v).Pins v :=
  rfl

/-- The text of a version is also a pattern. -/
theorem exists_pins_of_parse {s : String} {v : Version} (h : Version.parse s = .ok v) :
    ∃ p, parse s = .ok p ∧ p.Pins v := by
  refine ⟨⟨s, v.components.map .exact⟩, ?_, rfl⟩
  unfold Version.parse at h
  unfold parse
  by_cases hempty : s.isEmpty
  · rw [if_pos hempty] at h
    cases h
  · rw [if_neg hempty] at h ⊢
    obtain ⟨ns, hcomponents, rfl⟩ := map_eq_ok_iff.1 h
    rw [parseParts_of_mapM hcomponents]
    rfl

/-- A pattern whose parts are the components of a version accepts that version alone. -/
theorem Pins.accepts_iff {p : VersionPattern} {v w : Version} (h : p.Pins v) :
    p.accepts w ↔ w = v := by
  rw [accepts, h, acceptsComponents_exact_iff, eq_comm]
  exact ⟨congrArg Version.mk, congrArg Version.components⟩

end VersionPattern

end AccessPolicy
