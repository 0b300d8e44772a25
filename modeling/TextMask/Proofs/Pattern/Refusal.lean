import TextMask.Proofs.Pattern.Acceptance

/-!
# Refused patterns

A pattern without a normal form is refused for a fault that stands at some place of it. The two
passes over a pattern, brackets first and symbols after them, both know where they are.

* `Part.position_of_readFrom`, `Entry.position_of_read`: the faults of the two passes;
* `exists_position_of_normalize`: a refused pattern is told with the place of its fault.
-/

namespace TextMask

/-- A fault of the brackets has a position. -/
theorem Part.position_of_readFrom {position : Nat} {group : Option OpenGroup} {gs : List Glyph}
    {fault : PatternFault} (h : readFrom position group gs = .error fault) :
    ∃ k, fault.position = some k := by
  fun_induction readFrom position group gs with
  | case1 => cases h
  | case2 position group =>
    obtain rfl := Except.error.inj h
    exact ⟨group.position, rfl⟩
  | case3 position g rest after group b =>
    obtain rfl := Except.error.inj h
    exact ⟨position, rfl⟩
  | case4 position g rest after b hb ih => exact ih h
  | case5 position g rest after b =>
    obtain rfl := Except.error.inj h
    exact ⟨position, rfl⟩
  | case6 position g rest after group hno hb ih => exact ih (Except.map_eq_error_iff.mp h)
  | case7 position g rest after group b =>
    obtain rfl := Except.error.inj h
    exact ⟨position, rfl⟩
  | case8 position g rest after hc ho ih => exact ih (Except.map_eq_error_iff.mp h)
  | case9 position g rest after group hc ho ih => exact ih h

/-- A fault of the symbols has a position. -/
theorem Entry.position_of_read {position : Nat} {body : List Glyph} {fault : PatternFault}
    (h : read position body = .error fault) : ∃ k, fault.position = some k := by
  fun_induction read position body with
  | case1 => cases h
  | case2 position c rest e hc ih => exact ih (Except.map_eq_error_iff.mp h)
  | case3 position c rest hc =>
    obtain rfl := Except.error.inj h
    exact ⟨position, rfl⟩
  | case4 position g rest hg =>
    obtain rfl := Except.error.inj h
    exact ⟨position, rfl⟩

theorem Part.position_of_normalize {part : Part} {fault : PatternFault}
    (h : part.normalize = .error fault) : ∃ k, fault.position = some k := by
  cases part with
  | free g => cases h
  | fixed body => cases h
  | value start body => exact Entry.position_of_read (Except.map_eq_error_iff.mp h)

/-- **A refused pattern is told with the place of its fault.** -/
theorem exists_position_of_normalize {p : Text} {e : FormatError} (h : normalize p = .error e) :
    e.pattern = p ∧ ∃ k, e.position = some k := by
  obtain ⟨fault, hfault, rfl⟩ := Except.mapError_eq_error_iff.mp h
  refine ⟨rfl, ?_⟩
  show ∃ k, fault.position = some k
  rcases Except.bind_eq_error_iff.mp hfault with hread | ⟨parts, -, hrest⟩
  · exact Part.position_of_readFrom hread
  · rcases Except.bind_eq_error_iff.mp hrest with hnormal | ⟨texts, -, hpure⟩
    · obtain ⟨part, -, hpart⟩ := Except.exists_of_mapM_eq_error hnormal
      exact Part.position_of_normalize hpart
    · cases hpure

end TextMask
