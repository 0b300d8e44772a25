import Mathlib.Data.Int.ConditionallyCompleteOrder
import Mathlib.Data.List.MinMax
import Mathlib.Order.ConditionallyCompleteLattice.Basic
import TextMask.Proofs.Mask.Affinity
import TextMask.Proofs.Store.Lookup

/-!
# Picking the best candidate

Picking asks a store for the candidates, as `Store.lookUp` does, applies the masks that it gets and
keeps the first one of the highest affinity, which `List.argmax` finds.

* `Picked.argmax_append`: keeping the better one of two, over and over, leaves the first maximum;
* `Mask.fresh`: what a freshly compiled mask makes of a text;
* `Lookup.tried`: what the mask of a lookup makes of a text, which is the same
  (`Lookup.Right.fresh`);
* `Sound.pick`: picking changes the store and the log as the lookups of the candidates do, and
  answers with the first maximum among what they make of the text.
-/

namespace TextMask

/-! ### First maxima -/

/-- The first maximum among the images is the image of the first maximum. -/
theorem argmax_map {α β : Type} (score : β → Int) (f : α → β) (l : List α) :
    (l.map f).argmax score = (l.argmax fun a => score (f a)).map f := by
  induction l using List.reverseRecOn with
  | nil => rfl
  | append_singleton l a ih =>
    rw [List.map_append, List.map_singleton, List.argmax_concat, List.argmax_concat, ih]
    cases l.argmax fun a => score (f a) with
    | none => rfl
    | some b =>
      by_cases hlt : score (f b) < score (f a)
      · simp [hlt]
      · simp [hlt]

/-- The affinity of what was picked. -/
def Picked.affinity (p : Picked) : Int := p.result.affinity

/-- **Keeping the better one of two**, over and over, leaves the first maximum. -/
theorem Picked.argmax_append {seen : List Picked} {best : Picked}
    (h : seen.argmax Picked.affinity = some best) (picks : List Picked) :
    (seen ++ picks).argmax Picked.affinity = some (picks.foldl Picked.best best) := by
  induction picks generalizing seen best with
  | nil =>
    rw [List.append_nil]
    exact h
  | cons p picks ih =>
    have hstep : (seen ++ [p]).argmax Picked.affinity = some (best.best p) := by
      rw [List.argmax_concat, h, Picked.best]
      by_cases hlt : best.result.affinity < p.result.affinity
      · simp [Picked.affinity, hlt]
      · simp [Picked.affinity, hlt]
    have hpicks := ih hstep
    rw [List.append_assoc] at hpicks
    exact hpicks

/-! ### What the mask of a lookup makes of a text -/

/-- What a freshly compiled mask makes of a text. -/
def Mask.fresh (w : Weights) (t : CaretText) (autocomplete : Bool) (format : Text) :
    Except StoreError (Mask × Result) := do
  let mask ← (Mask.compile format w).mapError .format
  let result ← (mask.apply t autocomplete).mapError .run
  return (mask, result)

/-- What was picked, without the serial number. -/
def Picked.view (p : Picked) : Mask × Result := (p.stored.mask, p.result)

variable {t t' : CaretText} {autocomplete autocomplete' : Bool} {w : Weights}

namespace Mask

variable {format : Text}

theorem fresh_eq_ok_iff {m : Mask} {r : Result} :
    Mask.fresh w t autocomplete format = .ok (m, r) ↔
      Mask.compile format w = .ok m ∧ m.apply t autocomplete = .ok r := by
  constructor
  · intro h
    obtain ⟨m', hm, hrest⟩ := Except.bind_eq_ok_iff.mp h
    obtain ⟨r', hr, hpure⟩ := Except.bind_eq_ok_iff.mp hrest
    cases hpure
    exact ⟨Except.mapError_eq_ok_iff.mp hm, Except.mapError_eq_ok_iff.mp hr⟩
  · rintro ⟨hm, hr⟩
    exact Except.bind_eq_ok_iff.mpr ⟨m, Except.mapError_eq_ok_iff.mpr hm,
      Except.bind_eq_ok_iff.mpr ⟨r, Except.mapError_eq_ok_iff.mpr hr, rfl⟩⟩

theorem fresh_of_malformed {e : FormatError} (h : Chain.compile format = .error e) :
    Mask.fresh w t autocomplete format = .error (.format e) := by
  rw [Mask.fresh, Mask.compile_eq_error_iff.mpr h]
  rfl

theorem fresh_of_isFormat (h : IsFormat format) (w : Weights) (t : CaretText)
    (autocomplete : Bool) : ∃ result, Mask.fresh w t autocomplete format = .ok result := by
  obtain ⟨m, hm⟩ := (isFormat_iff w).mp h
  obtain ⟨r, hr⟩ := Mask.exists_apply hm t autocomplete
  exact ⟨(m, r), fresh_eq_ok_iff.mpr ⟨hm, hr⟩⟩

theorem mapM_fresh_of_formats {formats : List Text} (h : ∀ f ∈ formats, IsFormat f) (w : Weights)
    (t : CaretText) (autocomplete : Bool) :
    ∃ results, formats.mapM (Mask.fresh w t autocomplete) = .ok results := by
  cases hm : formats.mapM (Mask.fresh w t autocomplete) with
  | ok results => exact ⟨results, rfl⟩
  | error e =>
    obtain ⟨f, hf, hfail⟩ := Except.exists_of_mapM_eq_error hm
    obtain ⟨result, hresult⟩ := fresh_of_isFormat (h f hf) w t autocomplete
    rw [hresult] at hfail
    cases hfail

theorem mapM_fresh_of_malformed {before : List Text} {e : FormatError}
    (h : ∀ f ∈ before, IsFormat f) (he : Chain.compile format = .error e) (after : List Text)
    (w : Weights) (t : CaretText) (autocomplete : Bool) :
    (before ++ format :: after).mapM (Mask.fresh w t autocomplete) = .error (.format e) := by
  obtain ⟨results, hresults⟩ := mapM_fresh_of_formats h w t autocomplete
  rw [List.mapM_append, hresults, List.mapM_cons, fresh_of_malformed he]
  rfl

/-- Formats behind a malformed one are not asked for, and do not matter. -/
theorem mapM_fresh_asked (formats : List Text) (w : Weights) (t : CaretText)
    (autocomplete : Bool) :
    (asked formats).mapM (Mask.fresh w t autocomplete) =
      formats.mapM (Mask.fresh w t autocomplete) := by
  induction formats with
  | nil => rfl
  | cons format rest ih =>
    cases hc : Chain.compile format with
    | ok chain => rw [asked_cons ⟨chain, hc⟩, List.mapM_cons, List.mapM_cons, ih]
    | error e =>
      rw [asked_of_malformed (not_isFormat_of_error hc), List.mapM_cons, List.mapM_cons,
        fresh_of_malformed hc]
      rfl

end Mask

namespace Lookup

variable {l : Lookup} {s : Store} {x : StoredMask} {e : FormatError}

/-- What the mask of a lookup makes of a text. -/
def tried (t : CaretText) (autocomplete : Bool) (l : Lookup) : Except StoreError Picked := do
  let stored ← l.answer.mapError .format
  let result ← (stored.mask.apply t autocomplete).mapError .run
  return ⟨stored, result⟩

theorem tried_of_ok {r : Result} (h : l.answer = .ok x) (hr : x.mask.apply t autocomplete = .ok r) :
    l.tried t autocomplete = .ok ⟨x, r⟩ := by
  rw [tried, h]
  show (x.mask.apply t autocomplete).mapError StoreError.run >>= _ = _
  rw [hr]
  rfl

theorem tried_of_error (h : l.answer = .error e) :
    l.tried t autocomplete = .error (.format e) := by
  rw [tried, h]
  rfl

/-- The text is formatted unless the format is malformed. -/
theorem Right.tried (h : l.Right w s) (t : CaretText) (autocomplete : Bool) :
    (∃ x r, l.answer = .ok x ∧ x.mask.apply t autocomplete = .ok r ∧
      l.tried t autocomplete = .ok ⟨x, r⟩) ∨
    ∃ e, l.answer = .error e ∧ l.tried t autocomplete = .error (.format e) := by
  rcases h with ⟨x, hx, hcompile, -⟩ | ⟨e, he, -⟩
  · obtain ⟨r, hr⟩ := Mask.exists_apply hcompile t autocomplete
    exact Or.inl ⟨x, r, hx, hr, tried_of_ok hx hr⟩
  · exact Or.inr ⟨e, he, tried_of_error he⟩

/-- **What a store holds is as good as new.** -/
theorem Right.fresh (h : l.Right w s) (t : CaretText) (autocomplete : Bool) :
    Mask.fresh w t autocomplete l.format = (l.tried t autocomplete).map Picked.view := by
  rcases h with ⟨x, hx, hcompile, -⟩ | ⟨e, he, hcompile⟩
  · obtain ⟨r, hr⟩ := Mask.exists_apply hcompile t autocomplete
    rw [tried_of_ok hx hr, Mask.fresh_eq_ok_iff.mpr ⟨hcompile, hr⟩]
    rfl
  · rw [tried_of_error he, Mask.fresh_of_malformed (Mask.compile_eq_error_iff.mp hcompile)]
    rfl

theorem mapM_fresh {lookups : List Lookup} (h : ∀ l ∈ lookups, l.Right w s) (t : CaretText)
    (autocomplete : Bool) :
    (lookups.map (·.format)).mapM (Mask.fresh w t autocomplete) =
      (lookups.mapM (Lookup.tried t autocomplete)).map (·.map Picked.view) := by
  induction lookups with
  | nil => rfl
  | cons l lookups ih =>
    obtain ⟨hl, hlookups⟩ := List.forall_mem_cons.mp h
    rw [List.map_cons, List.mapM_cons, List.mapM_cons, hl.fresh t autocomplete, ih hlookups]
    cases l.tried t autocomplete with
    | error e => rfl
    | ok p =>
      cases lookups.mapM (Lookup.tried t autocomplete) with
      | error e => rfl
      | ok picks => rfl

end Lookup

/-- The mask that was picked, with its score. -/
def Picked.score (p : Picked) : StoredMask × Int := (p.stored, p.affinity)

/-- Lookups score a text alike wherever its caret stands and whether or not it is completed. -/
theorem Lookup.scores_congr {s : Store} {lookups : List Lookup} {picks picks' : List Picked}
    (h : ∀ l ∈ lookups, l.Right w s) (hc : t.chars = t'.chars)
    (hp : lookups.mapM (Lookup.tried t autocomplete) = .ok picks)
    (hp' : lookups.mapM (Lookup.tried t' autocomplete') = .ok picks') :
    picks'.map Picked.score = picks.map Picked.score := by
  induction lookups generalizing picks picks' with
  | nil =>
    cases hp
    cases hp'
    rfl
  | cons l lookups ih =>
    obtain ⟨hl, hlookups⟩ := List.forall_mem_cons.mp h
    rw [List.mapM_cons] at hp hp'
    obtain ⟨p, hfirst, hrest⟩ := Except.bind_eq_ok_iff.mp hp
    obtain ⟨p', hfirst', hrest'⟩ := Except.bind_eq_ok_iff.mp hp'
    obtain ⟨later, hlater, hpicks⟩ := Except.bind_eq_ok_iff.mp hrest
    obtain ⟨later', hlater', hpicks'⟩ := Except.bind_eq_ok_iff.mp hrest'
    cases hpicks
    cases hpicks'
    have hscore : p'.score = p.score := by
      rcases hl with ⟨x, hx, hcompile, -⟩ | ⟨e, he, -⟩
      · obtain ⟨r, hr⟩ := Mask.exists_apply hcompile t autocomplete
        obtain ⟨r', hr'⟩ := Mask.exists_apply hcompile t' autocomplete'
        obtain rfl := Except.ok.inj ((Lookup.tried_of_ok hx hr).symm.trans hfirst)
        obtain rfl := Except.ok.inj ((Lookup.tried_of_ok hx hr').symm.trans hfirst')
        exact congrArg (x, ·) (Mask.affinity_congr (Mask.regular_of_compile hcompile) hc hr hr')
      · cases (Lookup.tried_of_error he).symm.trans hfirst
    rw [List.map_cons, List.map_cons, hscore, ih hlookups hlater hlater']

/-! ### Requests for formatted text -/

namespace Store

variable {s : Store} {next : Serial}

theorem format_eq (s : Store) (next : Serial) (format : Text) (t : CaretText)
    (autocomplete : Bool) :
    s.format next format t autocomplete =
      { s.get next format with
        answer := Lookup.tried t autocomplete ⟨format, (s.get next format).answer⟩ } := rfl

/-- Trying candidates after the best one so far changes the store and the log as their lookups do,
and keeps the better one of two, over and over. -/
theorem Sound.pickAfter_eq (h : s.Sound next) (t : CaretText) (autocomplete : Bool) (best : Picked)
    (candidates : List Text) :
    s.pickAfter next t autocomplete best candidates =
      { s.lookUp next candidates with
        answer := ((s.lookUp next candidates).answer.mapM (Lookup.tried t autocomplete)).map
          (·.foldl Picked.best best) } := by
  induction candidates generalizing s next best with
  | nil => rfl
  | cons candidate rest ih =>
    rcases h.get candidate with ⟨x, new, hgets⟩ | ⟨e, -, hget⟩
    · have hanswer := hgets.answer
      obtain ⟨r, hr⟩ := Mask.exists_apply hgets.compile t autocomplete
      have htried := Lookup.tried_of_ok (l := ⟨candidate, .ok x⟩) rfl hr
      rw [lookUp_of_ok hanswer, pickAfter, format_eq, hanswer]
      simp only [htried, ih (h.sound_get candidate), List.mapM_cons]
      cases ((s.get next candidate).store.lookUp (s.get next candidate).next rest).answer.mapM
        (Lookup.tried t autocomplete) with
      | error e => rfl
      | ok picks => rfl
    · have hanswer : (s.get next candidate).answer = .error e := by rw [hget]
      rw [lookUp_of_error hanswer, pickAfter, format_eq, hanswer]
      rfl

/-- **Picking** changes the store and the log as the lookups of the candidates do. It answers with
the first maximum among what the lookups make of the text, or with the first failure. -/
theorem Sound.pick (h : s.Sound next) (t : CaretText) (autocomplete : Bool) (primary : Text)
    (affine : List Text) :
    s.pick next t autocomplete primary affine =
      { s.lookUp next (primary :: affine) with
        answer := (s.pick next t autocomplete primary affine).answer } ∧
    ((∃ picks picked,
        (s.lookUp next (primary :: affine)).answer.mapM (Lookup.tried t autocomplete) =
          .ok picks ∧
        (s.pick next t autocomplete primary affine).answer = .ok picked ∧
        picks.argmax Picked.affinity = some picked) ∨
      ∃ e, (s.lookUp next (primary :: affine)).answer.mapM (Lookup.tried t autocomplete) =
          .error e ∧
        (s.pick next t autocomplete primary affine).answer = .error e) := by
  rcases h.get primary with ⟨x, new, hgets⟩ | ⟨e, -, hget⟩
  · have hanswer := hgets.answer
    obtain ⟨r, hr⟩ := Mask.exists_apply hgets.compile t autocomplete
    have htried := Lookup.tried_of_ok (l := ⟨primary, .ok x⟩) rfl hr
    have hlater := (h.sound_get primary).pickAfter_eq t autocomplete ⟨x, r⟩ affine
    rw [lookUp_of_ok hanswer, Store.pick, format_eq, hanswer]
    simp only [htried, hlater, List.mapM_cons, true_and]
    cases ((s.get next primary).store.lookUp (s.get next primary).next affine).answer.mapM
      (Lookup.tried t autocomplete) with
    | error e => exact Or.inr ⟨e, rfl, rfl⟩
    | ok picks =>
      exact Or.inl ⟨⟨x, r⟩ :: picks, _, rfl, rfl, Picked.argmax_append List.argmax_singleton picks⟩
  · have hanswer : (s.get next primary).answer = .error e := by rw [hget]
    rw [lookUp_of_error hanswer, Store.pick, format_eq, hanswer]
    exact ⟨rfl, Or.inr ⟨.format e, rfl, rfl⟩⟩

/-- A request for formatted text succeeds with an answer of its lookups, if they all succeed, and
else fails as one of them does. -/
def Decided (lookups : List Lookup) (answer : Except StoreError Picked) : Prop :=
  (∃ p, answer = .ok p ∧ (∃ l ∈ lookups, l.answer = .ok p.stored) ∧
    ∀ l ∈ lookups, ∃ x, l.answer = .ok x) ∨
  ∃ e, answer = .error (.format e) ∧ ∃ l ∈ lookups, l.answer = .error e

theorem Sound.decided_pick (h : s.Sound next) (t : CaretText) (autocomplete : Bool)
    (primary : Text) (affine : List Text) :
    Decided (s.lookUp next (primary :: affine)).answer
      (s.pick next t autocomplete primary affine).answer := by
  have hright := h.right_lookUp (primary :: affine)
  obtain ⟨-, ⟨picks, picked, hpicks, hanswer, hmax⟩ | ⟨e, he, hanswer⟩⟩ :=
    h.pick t autocomplete primary affine
  · refine Or.inl ⟨picked, hanswer, ?_, fun l hl => ?_⟩
    · obtain ⟨l, hl, hpicked⟩ := (Except.mem_iff_of_mapM_eq_ok hpicks).mp (List.argmax_mem hmax)
      refine ⟨l, hl, ?_⟩
      rcases (hright l hl).tried t autocomplete with ⟨x, r, hx, -, htried⟩ | ⟨e, -, htried⟩
      · obtain rfl := Except.ok.inj (htried.symm.trans hpicked)
        exact hx
      · cases htried.symm.trans hpicked
    · obtain ⟨p, hp⟩ := Except.exists_of_mapM_eq_ok hpicks l hl
      rcases (hright l hl).tried t autocomplete with ⟨x, r, hx, -, -⟩ | ⟨e, -, htried⟩
      · exact ⟨x, hx⟩
      · cases htried.symm.trans hp
  · obtain ⟨l, hl, hfail⟩ := Except.exists_of_mapM_eq_error he
    rcases (hright l hl).tried t autocomplete with ⟨x, r, -, -, htried⟩ | ⟨e', he', htried⟩
    · cases htried.symm.trans hfail
    · obtain rfl := Except.error.inj (htried.symm.trans hfail)
      exact Or.inr ⟨e', hanswer, l, hl, he'⟩

theorem Sound.decided_format (h : s.Sound next) (format : Text) (t : CaretText)
    (autocomplete : Bool) :
    Decided (s.lookUp next [format]).answer (s.format next format t autocomplete).answer := by
  have hl : ⟨format, (s.get next format).answer⟩ ∈ (s.lookUp next [format]).answer := by
    rw [lookUp_singleton]
    exact List.mem_singleton_self _
  have hanswer : (s.format next format t autocomplete).answer =
      Lookup.tried t autocomplete ⟨format, (s.get next format).answer⟩ := rfl
  rw [hanswer]
  rcases (h.right_lookUp [format] _ hl).tried t autocomplete with
    ⟨x, r, hx, -, htried⟩ | ⟨e, he, htried⟩
  · refine Or.inl ⟨⟨x, r⟩, htried, ⟨_, hl, hx⟩, fun l hl' => ?_⟩
    rw [lookUp_singleton] at hl'
    obtain rfl := List.mem_singleton.mp hl'
    exact ⟨x, hx⟩
  · exact Or.inr ⟨e, htried, _, hl, he⟩

variable {primary : Text} {affine : List Text}

/-- **Picking is as good as new**: the answer is the first maximum among what freshly compiled
masks make of the text, or the first failure, whatever the store holds. -/
theorem Sound.pick_fresh (h : s.Sound next) (t : CaretText) (autocomplete : Bool) (primary : Text)
    (affine : List Text) :
    (∃ results picked,
      (primary :: affine).mapM (Mask.fresh s.weights t autocomplete) = .ok results ∧
      (s.pick next t autocomplete primary affine).answer = .ok picked ∧
      results.argmax (fun r => r.2.affinity) = some picked.view) ∨
    ∃ e, (primary :: affine).mapM (Mask.fresh s.weights t autocomplete) = .error e ∧
      (s.pick next t autocomplete primary affine).answer = .error e := by
  have hfresh : (primary :: affine).mapM (Mask.fresh s.weights t autocomplete) =
      ((s.lookUp next (primary :: affine)).answer.mapM (Lookup.tried t autocomplete)).map
        (·.map Picked.view) := by
    rw [← Mask.mapM_fresh_asked, ← h.formats_lookUp, Lookup.mapM_fresh (h.right_lookUp _)]
  obtain ⟨-, ⟨picks, picked, hpicks, hanswer, hmax⟩ | ⟨e, he, hanswer⟩⟩ :=
    h.pick t autocomplete primary affine
  · refine Or.inl ⟨picks.map Picked.view, picked, ?_, hanswer, ?_⟩
    · rw [hfresh, hpicks]
      rfl
    · rw [argmax_map]
      show (picks.argmax Picked.affinity).map Picked.view = _
      rw [hmax]
      rfl
  · refine Or.inr ⟨e, ?_, hanswer⟩
    rw [hfresh, he]
    rfl

/-- **Candidates that compile** are picked from. -/
theorem Sound.pick_of_formats (h : s.Sound next)
    (hformats : ∀ f ∈ primary :: affine, IsFormat f) (t : CaretText) (autocomplete : Bool) :
    ∃ results picked,
      (primary :: affine).mapM (Mask.fresh s.weights t autocomplete) = .ok results ∧
      (s.pick next t autocomplete primary affine).answer = .ok picked ∧
      results.argmax (fun r => r.2.affinity) = some picked.view := by
  rcases h.pick_fresh t autocomplete primary affine with hpicked | ⟨e, he, -⟩
  · exact hpicked
  · obtain ⟨results, hresults⟩ := Mask.mapM_fresh_of_formats hformats s.weights t autocomplete
    rw [hresults] at he
    cases he

/-- **A malformed candidate** makes picking fail, with the error of the first one. -/
theorem Sound.pick_of_malformed (h : s.Sound next) {before after : List Text} {f : Text}
    {e : FormatError} (hsplit : primary :: affine = before ++ f :: after)
    (hbefore : ∀ g ∈ before, IsFormat g) (he : Chain.compile f = .error e) (t : CaretText)
    (autocomplete : Bool) :
    (s.pick next t autocomplete primary affine).answer = .error (.format e) := by
  have hfail := Mask.mapM_fresh_of_malformed hbefore he after s.weights t autocomplete
  rw [← hsplit] at hfail
  rcases h.pick_fresh t autocomplete primary affine with
    ⟨results, -, hresults, -⟩ | ⟨e', he', hanswer⟩
  · rw [hresults] at hfail
    cases hfail
  · obtain rfl := Except.error.inj (he'.symm.trans hfail)
    exact hanswer

/-- **The choice is blind** to the caret and to completion. -/
theorem Sound.pick_congr (h : s.Sound next) (hc : t.chars = t'.chars) {picked picked' : Picked}
    (hp : (s.pick next t autocomplete primary affine).answer = .ok picked)
    (hp' : (s.pick next t' autocomplete' primary affine).answer = .ok picked') :
    picked'.stored = picked.stored := by
  have hright := h.right_lookUp (primary :: affine)
  obtain ⟨-, ⟨picks, p, hpicks, hanswer, hmax⟩ | ⟨e, -, hanswer⟩⟩ :=
    h.pick t autocomplete primary affine
  · obtain rfl := Except.ok.inj (hanswer.symm.trans hp)
    obtain ⟨-, ⟨picks', p', hpicks', hanswer', hmax'⟩ | ⟨e, -, hanswer'⟩⟩ :=
      h.pick t' autocomplete' primary affine
    · obtain rfl := Except.ok.inj (hanswer'.symm.trans hp')
      have hscores := Lookup.scores_congr hright hc hpicks hpicks'
      have hfirst (picks : List Picked) : (picks.map Picked.score).argmax (·.2) =
          (picks.argmax Picked.affinity).map Picked.score := argmax_map _ _ _
      have hsame : some p'.score = some p.score := by
        rw [← Option.map_some, ← hmax', ← hfirst, hscores, hfirst, hmax]
        rfl
      exact congrArg Prod.fst (Option.some.inj hsame)
    · cases hanswer'.symm.trans hp'
  · cases hanswer.symm.trans hp

/-- **A text of full affinity stays as it is**: if some candidate scores it by its whole length,
then the one that is picked formats it to itself, if nothing is completed. -/
theorem Sound.pick_exact (h : s.Sound next) (hw : s.weights = {})
    (hformats : ∀ f ∈ primary :: affine, IsFormat f) {f : Text} (hf : f ∈ primary :: affine)
    {m : Mask} {r : Result} (hr : Mask.fresh s.weights t autocomplete f = .ok (m, r))
    (hexact : r.affinity = t.chars.length) {picked : Picked}
    (hpicked : (s.pick next t false primary affine).answer = .ok picked) :
    picked.result.formatted.chars = t.chars := by
  obtain ⟨results, p, hresults, hanswer, hmax⟩ := h.pick_of_formats hformats t false
  obtain rfl := Except.ok.inj (hanswer.symm.trans hpicked)
  obtain ⟨g, -, hg⟩ := (Except.mem_iff_of_mapM_eq_ok hresults).mp (List.argmax_mem hmax)
  obtain ⟨hcompile, hp⟩ := Mask.fresh_eq_ok_iff.mp hg
  obtain ⟨hcompile', hr⟩ := Mask.fresh_eq_ok_iff.mp hr
  have hreg := Mask.regular_of_compile hcompile
  have hweights : p.stored.mask.weights = {} := (Mask.compile_eq_ok_iff.mp hcompile).2.2.trans hw
  have hle : p.result.affinity ≤ t.chars.length := by
    obtain ⟨run, -, hrun, -⟩ := hreg.run t false
    exact (Mask.affinity_standard hreg hweights hrun hp).1
  have hge : (t.chars.length : Int) ≤ p.result.affinity := by
    obtain ⟨r₀, hr₀⟩ := Mask.exists_apply hcompile' t false
    have hmem := (Except.mem_iff_of_mapM_eq_ok hresults).mpr
      ⟨f, hf, Mask.fresh_eq_ok_iff.mpr ⟨hcompile', hr₀⟩⟩
    have haffinity := Mask.affinity_congr (Mask.regular_of_compile hcompile') rfl hr hr₀
    rw [← hexact, ← haffinity]
    exact List.le_of_mem_argmax (f := fun r : Mask × Result => r.2.affinity) hmem hmax
  obtain ⟨r₀, hr₀, hchars⟩ := Mask.formatted_of_exact hreg hweights hp (le_antisymm hle hge)
  obtain rfl := Except.ok.inj (hr₀.symm.trans hp)
  exact hchars

end Store

end TextMask
