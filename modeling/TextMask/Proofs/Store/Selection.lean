import TextMask.Proofs.Store.Desk

/-!
# Which candidate is picked

Whatever requests a desk has served, picking from one of its stores gives what freshly compiled
masks would give: the first candidate of the highest affinity, or the error of the first candidate
that is malformed.

* `Store.Reachable`: a store of a desk that has served some requests;
* `Sound.contains_pick`: which formats a store holds after picking;
* `pick_first_argmax`: the law of picking.
-/

namespace TextMask

namespace Store

variable {s : Store} {next : Serial} {primary : Text} {affine : List Text}

/-- A store that a desk may come to have, with the serial number that is free then. -/
def Reachable (s : Store) (next : Serial) : Prop :=
  ∃ policy history choice, (Desk.after policy history).store choice = s ∧
    (Desk.after policy history).next = next

theorem Reachable.sound (h : s.Reachable next) : s.Sound next := by
  obtain ⟨policy, history, choice, rfl, rfl⟩ := h
  exact (Desk.sound_after policy history).stores choice

/-- A store holds the candidates that were asked for, beside what it held. -/
theorem Sound.contains_pick (h : s.Sound next) (t : CaretText) (autocomplete : Bool)
    (primary : Text) (affine : List Text) (format : Text) :
    (s.pick next t autocomplete primary affine).store.contains format = true ↔
      s.contains format = true ∨ IsFormat format ∧ format ∈ asked (primary :: affine) := by
  have hstore : (s.pick next t autocomplete primary affine).store =
      (s.lookUp next (primary :: affine)).store := by
    rw [(h.pick t autocomplete primary affine).1]
  rw [hstore]
  exact h.contains_lookUp (primary :: affine) format

end Store

/-- **Selection is a first argmax that no cache shows in.** Let any store that a desk may come to
have pick from a primary format and a list of affine ones.

If all candidates compile, then the mask and the result of the answer are, of those that freshly
compiled masks with the weights of the store would give, the first of the highest affinity
(`List.argmax`), and the store holds all candidates afterwards, and beside them what it held. The
same mask is picked wherever the caret stands and whether or not literals are completed. With the
standard weights, if some candidate scores the text by its whole length, then the answer without
completion is the text itself.

Otherwise the answer is the error of the first candidate that is malformed, and the candidates
before it are added to the store. -/
theorem pick_first_argmax {s : Store} {next : Serial} (h : s.Reachable next) (t : CaretText)
    (autocomplete : Bool) (primary : Text) (affine : List Text) :
    ((∀ f ∈ primary :: affine, IsFormat f) →
      ∃ results picked,
        (primary :: affine).mapM (Mask.fresh s.weights t autocomplete) = .ok results ∧
        (s.pick next t autocomplete primary affine).answer = .ok picked ∧
        results.argmax (fun r => r.2.affinity) = some (picked.stored.mask, picked.result) ∧
        (∀ f, (s.pick next t autocomplete primary affine).store.contains f = true ↔
          s.contains f = true ∨ f ∈ primary :: affine) ∧
        (∀ t' autocomplete', t.chars = t'.chars →
          ∃ picked', (s.pick next t' autocomplete' primary affine).answer = .ok picked' ∧
            picked'.stored = picked.stored) ∧
        (s.weights = {} → (∃ r ∈ results, r.2.affinity = t.chars.length) →
          ∃ picked', (s.pick next t false primary affine).answer = .ok picked' ∧
            picked'.result.formatted.chars = t.chars)) ∧
    ∀ before f after e, primary :: affine = before ++ f :: after → (∀ g ∈ before, IsFormat g) →
      Chain.compile f = .error e →
        (s.pick next t autocomplete primary affine).answer = .error (.format e) ∧
        ∀ g, (s.pick next t autocomplete primary affine).store.contains g = true ↔
          s.contains g = true ∨ g ∈ before := by
  have hs := h.sound
  constructor
  · intro hformats
    have hasked : asked (primary :: affine) = primary :: affine := asked_eq_self hformats
    obtain ⟨results, picked, hresults, hanswer, hmax⟩ := hs.pick_of_formats hformats t autocomplete
    refine ⟨results, picked, hresults, hanswer, hmax, ?_, ?_, ?_⟩
    · intro f
      rw [hs.contains_pick, hasked]
      exact or_congr_right (and_iff_right_of_imp (hformats f))
    · intro t' autocomplete' hc
      obtain ⟨-, picked', -, hanswer', -⟩ := hs.pick_of_formats hformats t' autocomplete'
      exact ⟨picked', hanswer', hs.pick_congr hc hanswer hanswer'⟩
    · rintro hw ⟨r, hr, hexact⟩
      obtain ⟨f, hf, hfresh⟩ := (Except.mem_iff_of_mapM_eq_ok hresults).mp hr
      obtain ⟨-, picked', -, hanswer', -⟩ := hs.pick_of_formats hformats t false
      exact ⟨picked', hanswer', hs.pick_exact hw hformats hf hfresh hexact hanswer'⟩
  · intro before f after e hsplit hbefore he
    refine ⟨hs.pick_of_malformed hsplit hbefore he t autocomplete, fun g => ?_⟩
    have hmalformed := not_isFormat_of_error he
    rw [hs.contains_pick, hsplit, asked_append hbefore, asked_of_malformed hmalformed]
    refine or_congr_right ⟨?_, fun hg => ⟨hbefore g hg, List.mem_append_left _ hg⟩⟩
    rintro ⟨hformat, hg⟩
    rcases List.mem_append.mp hg with hg | hg
    · exact hg
    · rw [List.mem_singleton.mp hg] at hformat
      exact absurd hformat hmalformed

/-- A store that holds the mask of one digit picks the mask of two digits for two digits, which
stay as they are, and holds both masks then. A candidate with a letter in a value group makes it
fail. -/
theorem pick_first_argmax_digits :
    ∃ (s : Store) (next : Serial), s.Reachable next ∧ s.contains ['[', '0', ']'] = true ∧
      (∃ picked,
        (s.pick next (.atEnd ['1', '2']) false ['[', '0', ']'] [['[', '0', '0', ']']]).answer =
          .ok picked ∧
        picked.result.formatted.chars = ['1', '2']) ∧
      (s.pick next (.atEnd ['1', '2']) false ['[', '0', ']'] [['[', '0', '0', ']']]).store.contains
        ['[', '0', '0', ']'] = true ∧
      (s.pick next (.atEnd ['1', '2']) false ['[', '0', ']'] [['[', 'x', ']']]).answer =
        .error (.format ⟨['[', 'x', ']'], .unsupported 'x' (some 1)⟩) := by
  have hone : IsFormat ['[', '0', ']'] := ⟨_, rfl⟩
  have htwo : IsFormat ['[', '0', '0', ']'] := ⟨_, rfl⟩
  have hformats : ∀ f ∈ [['[', '0', ']'], ['[', '0', '0', ']']], IsFormat f := by
    simp [hone, htwo]
  have hreachable : Store.Reachable
      ((Desk.after .standard [(.own, .get ['[', '0', ']'])]).store .own) 1 :=
    ⟨_, _, _, rfl, rfl⟩
  obtain ⟨hpicked, -⟩ := pick_first_argmax hreachable (.atEnd ['1', '2']) false ['[', '0', ']']
    [['[', '0', '0', ']']]
  obtain ⟨results, -, hresults, -, -, hcontains, -, hexact⟩ := hpicked hformats
  obtain ⟨-, hmalformed⟩ := pick_first_argmax hreachable (.atEnd ['1', '2']) false ['[', '0', ']']
    [['[', 'x', ']']]
  have hfits : ∃ r ∈ results, r.2.affinity = 2 :=
    ⟨_, (Except.mem_iff_of_mapM_eq_ok hresults).mpr ⟨['[', '0', '0', ']'], by simp, rfl⟩, rfl⟩
  refine ⟨_, 1, hreachable, rfl, hexact rfl hfits, (hcontains _).mpr (Or.inr (by simp)), ?_⟩
  exact (hmalformed [['[', '0', ']']] _ [] _ rfl (by simp [hone]) rfl).1

end TextMask
