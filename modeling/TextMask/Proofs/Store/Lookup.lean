import Mathlib.Data.List.Nodup
import Mathlib.Data.List.Range
import TextMask.Proofs.Chain.Regular
import TextMask.Proofs.Failure
import TextMask.Store.Basic

/-!
# Looking formats up

A store that was filled by asking for formats holds what compiling them gives. So its answers do
not depend on what it holds, and asking for formats adds masks with new serial numbers to it and
changes nothing else.

* `Store.Sound`: a store whose masks are compiled from their formats, with serial numbers that were
  issued before;
* `Store.Gets`, `Sound.get`: what asking such a store for one format does;
* `Store.Adds`: a store with new masks;
* `asked`: the formats that are asked for when several are, up to the first one that is malformed;
* `Lookup`, `Store.lookUp`: asking for several formats, with the answers;
* `Store.Finds`, `Sound.lookUp`: what asking for several formats does;
* `Sound.contains_lookUp`: which formats the store holds afterwards.
-/

namespace TextMask

/-- A text that compiles. -/
def IsFormat (format : Text) : Prop := ∃ chain, Chain.compile format = .ok chain

/-- Whether a text compiles does not depend on weights. -/
theorem isFormat_iff {format : Text} (w : Weights) :
    IsFormat format ↔ ∃ m, Mask.compile format w = .ok m := by
  constructor
  · rintro ⟨chain, hchain⟩
    exact ⟨⟨format, w, chain⟩, Mask.compile_eq_ok_iff.mpr ⟨hchain, rfl, rfl⟩⟩
  · rintro ⟨m, hm⟩
    exact ⟨m.chain, (Mask.compile_eq_ok_iff.mp hm).1⟩

theorem not_isFormat_of_error {format : Text} {e : FormatError}
    (h : Chain.compile format = .error e) : ¬ IsFormat format := by
  rintro ⟨chain, hchain⟩
  rw [hchain] at h
  cases h

namespace Store

variable {s s' : Store} {next next' : Serial} {format : Text} {x : StoredMask}

/-! ### Sound stores -/

/-- A store whose masks are what their formats compile to, each with a serial number of its own that
was issued before the next one. -/
structure Sound (s : Store) (next : Serial) : Prop where
  compiled : ∀ x ∈ s.masks, Mask.compile x.mask.format s.weights = .ok x.mask
  issued : ∀ x ∈ s.masks, x.serial < next
  distinct : ∀ x ∈ s.masks, ∀ y ∈ s.masks, x.serial = y.serial → x = y

theorem sound_empty (w : Weights) (next : Serial) : (empty w).Sound next where
  compiled := List.forall_mem_nil _
  issued := List.forall_mem_nil _
  distinct := List.forall_mem_nil _

theorem sound_clear (s : Store) (next : Serial) : s.clear.Sound next := sound_empty s.weights next

theorem Sound.mono (h : s.Sound next) (hle : next ≤ next') : s.Sound next' where
  compiled := h.compiled
  issued x hx := (h.issued x hx).trans_le hle
  distinct := h.distinct

theorem find?_eq_some (h : s.find? format = some x) : x ∈ s.masks ∧ x.mask.format = format := by
  refine ⟨List.mem_of_find?_eq_some h, ?_⟩
  have hformat := List.find?_some (p := fun x : StoredMask => x.mask.format == format) h
  exact beq_iff_eq.mp hformat

theorem contains_iff : s.contains format = true ↔ ∃ x ∈ s.masks, x.mask.format = format := by
  simp [contains, find?]

theorem contains_of_find? (h : s.find? format = some x) : s.contains format = true := by
  rw [contains, h]
  rfl

/-- What a store holds is a compiled mask. -/
theorem Sound.compile_of_find? (h : s.Sound next) (hx : s.find? format = some x) :
    Mask.compile format s.weights = .ok x.mask := by
  obtain ⟨hmem, rfl⟩ := find?_eq_some hx
  exact h.compiled x hmem

/-! ### New masks -/

/-- The store with new masks behind those that it holds, which are numbered on from the next free
serial number. -/
structure Adds (s : Store) (next : Serial) (new : List StoredMask) (s' : Store) (next' : Serial) :
    Prop where
  store : s' = { s with masks := s.masks ++ new }
  serials : new.map (·.serial) = List.range' next new.length
  next : next' = next + new.length

theorem Adds.refl (s : Store) (next : Serial) : s.Adds next [] s next where
  store := by simp
  serials := rfl
  next := rfl

theorem Adds.trans {s'' : Store} {next'' : Serial} {new new' : List StoredMask}
    (h : s.Adds next new s' next') (h' : s'.Adds next' new' s'' next'') :
    s.Adds next (new ++ new') s'' next'' where
  store := by rw [h'.store, h.store, List.append_assoc]
  serials := by
    rw [List.map_append, h.serials, h'.serials, h.next, List.length_append,
      List.range'_append_1]
  next := by rw [h'.next, h.next, List.length_append, Nat.add_assoc]

variable {new : List StoredMask}

theorem Adds.next_le (h : s.Adds next new s' next') : next ≤ next' := by
  rw [h.next]
  exact Nat.le_add_right _ _

/-- What is held stays. -/
theorem Adds.find? (h : s.Adds next new s' next') (hx : s.find? format = some x) :
    s'.find? format = some x := by
  have hx' : s.masks.find? (·.mask.format == format) = some x := hx
  rw [h.store]
  show (s.masks ++ new).find? (·.mask.format == format) = some x
  rw [List.find?_append, hx', Option.some_or]

/-- New masks have new serial numbers. -/
theorem Adds.serial_mem (h : s.Adds next new s' next') (hx : x ∈ new) :
    next ≤ x.serial ∧ x.serial < next' := by
  have hserial := List.mem_map_of_mem (f := StoredMask.serial) hx
  rw [h.serials, List.mem_range'_1] at hserial
  rw [h.next]
  exact hserial

theorem Adds.mem_iff (h : s.Adds next new s' next') : x ∈ s'.masks ↔ x ∈ s.masks ∨ x ∈ new := by
  rw [h.store]
  exact List.mem_append

/-- A sound store with new masks that were compiled with its weights is sound. -/
theorem Adds.sound (h : s.Adds next new s' next') (hs : s.Sound next)
    (hnew : ∀ x ∈ new, Mask.compile x.mask.format s.weights = .ok x.mask) : s'.Sound next' := by
  have hweights : s'.weights = s.weights := by rw [h.store]
  have hold (x : StoredMask) (hx : x ∈ s.masks) : x.serial < next := hs.issued x hx
  have hinjective : ∀ x ∈ new, ∀ y ∈ new, x.serial = y.serial → x = y := by
    have hnodup : (new.map (·.serial)).Nodup := by
      rw [h.serials]
      exact List.nodup_range'
    intro x hx y hy hxy
    exact List.inj_on_of_nodup_map hnodup hx hy hxy
  refine ⟨fun x hx => ?_, fun x hx => ?_, fun x hx y hy hxy => ?_⟩
  · rw [hweights]
    rcases h.mem_iff.mp hx with hx | hx
    · exact hs.compiled x hx
    · exact hnew x hx
  · rcases h.mem_iff.mp hx with hx | hx
    · exact (hold x hx).trans_le h.next_le
    · exact (h.serial_mem hx).2
  · rcases h.mem_iff.mp hx with hx | hx
    · rcases h.mem_iff.mp hy with hy | hy
      · exact hs.distinct x hx y hy hxy
      · have hle := (h.serial_mem hy).1
        exact absurd (hold x hx) (hxy ▸ hle).not_gt
    · rcases h.mem_iff.mp hy with hy | hy
      · have hle := (h.serial_mem hx).1
        exact absurd (hold y hy) (hxy ▸ hle).not_gt
      · exact hinjective x hx y hy hxy

/-! ### Asking for one format -/

theorem get_of_find? (h : s.find? format = some x) :
    s.get next format = ⟨.ok x, s, next, []⟩ := by
  rw [get, h]

theorem get_of_new {m : Mask} (h : s.find? format = none)
    (hm : Mask.compile format s.weights = .ok m) :
    s.get next format =
      ⟨.ok ⟨next, m⟩, { s with masks := s.masks ++ [⟨next, m⟩] }, next + 1, [.ofMask m]⟩ := by
  simp only [get, h, hm]

theorem get_of_malformed {e : FormatError} (h : s.find? format = none)
    (he : Mask.compile format s.weights = .error e) :
    s.get next format = ⟨.error e, s, next, [.formatError e]⟩ := by
  simp only [get, h, he]

/-- What a store that finds the mask of a format serves: the mask is compiled from the format, and
the store holds it then; it was held before, or it is new and logged. -/
structure Gets (s : Store) (next : Serial) (format : Text) (x : StoredMask) (new : List StoredMask)
    (served : Served (Except FormatError StoredMask)) : Prop where
  answer : served.answer = .ok x
  compile : Mask.compile format s.weights = .ok x.mask
  adds : s.Adds next new served.store served.next
  held : served.store.find? format = some x
  only : ∀ y ∈ new, y = x
  log : served.log = new.map fun y => .ofMask y.mask

/-- **Asking for one format.** A sound store finds the mask of a format. If the format is malformed,
then this is logged and the store stays as it was. -/
theorem Sound.get (h : s.Sound next) (format : Text) :
    (∃ x new, s.Gets next format x new (s.get next format)) ∨
    ∃ e, Mask.compile format s.weights = .error e ∧
      s.get next format = ⟨.error e, s, next, [.formatError e]⟩ := by
  cases hfind : s.find? format with
  | some x =>
    refine Or.inl ⟨x, [], ?_⟩
    rw [get_of_find? hfind]
    exact ⟨rfl, h.compile_of_find? hfind, .refl s next, hfind, List.forall_mem_nil _, rfl⟩
  | none =>
    cases hm : Mask.compile format s.weights with
    | error e => exact Or.inr ⟨e, rfl, get_of_malformed hfind hm⟩
    | ok m =>
      refine Or.inl ⟨⟨next, m⟩, [⟨next, m⟩], ?_⟩
      rw [get_of_new hfind hm]
      have hformat : (m.format == format) = true :=
        beq_iff_eq.mpr (Mask.compile_eq_ok_iff.mp hm).2.1
      refine ⟨rfl, hm, ⟨rfl, rfl, rfl⟩, ?_, fun y hy => List.mem_singleton.mp hy, rfl⟩
      have hfind' : s.masks.find? (·.mask.format == format) = none := hfind
      show (s.masks ++ [(⟨next, m⟩ : StoredMask)]).find? (fun x => x.mask.format == format) = _
      rw [List.find?_append, hfind', Option.none_or]
      exact List.find?_cons_of_pos hformat

theorem Sound.sound_get (h : s.Sound next) (format : Text) :
    (s.get next format).store.Sound (s.get next format).next := by
  rcases h.get format with ⟨x, new, hgets⟩ | ⟨e, -, hget⟩
  · refine hgets.adds.sound h fun y hy => ?_
    rw [hgets.only y hy, (find?_eq_some hgets.held).2]
    exact hgets.compile
  · rw [hget]
    exact h

end Store

/-! ### Asking for several formats -/

/-- The formats that are asked for, one after the other, when several are: the first one that is
malformed is the last one. -/
def asked : List Text → List Text
  | [] => []
  | format :: rest =>
    match Chain.compile format with
    | .ok _ => format :: asked rest
    | .error _ => [format]

theorem asked_cons {format : Text} (h : IsFormat format) (rest : List Text) :
    asked (format :: rest) = format :: asked rest := by
  obtain ⟨chain, hchain⟩ := h
  simp only [asked, hchain]

theorem asked_of_malformed {format : Text} (h : ¬ IsFormat format) (rest : List Text) :
    asked (format :: rest) = [format] := by
  cases hc : Chain.compile format with
  | ok chain => exact absurd ⟨chain, hc⟩ h
  | error e => simp only [asked, hc]

theorem asked_append {before : List Text} (h : ∀ f ∈ before, IsFormat f) (rest : List Text) :
    asked (before ++ rest) = before ++ asked rest := by
  induction before with
  | nil => rfl
  | cons format before ih =>
    obtain ⟨hformat, hbefore⟩ := List.forall_mem_cons.mp h
    rw [List.cons_append, asked_cons hformat, ih hbefore, List.cons_append]

theorem asked_eq_self {formats : List Text} (h : ∀ f ∈ formats, IsFormat f) :
    asked formats = formats := by
  have happend := asked_append h []
  rw [List.append_nil] at happend
  rw [happend]
  exact List.append_nil _

/-- A format that a store was asked for, and the answer. -/
structure Lookup where
  format : Text
  answer : Except FormatError StoredMask

namespace Lookup

/-- The error of a lookup that failed. -/
def error? (l : Lookup) : Option FormatError :=
  match l.answer with
  | .ok _ => none
  | .error e => some e

/-- A lookup whose answer is what compiling gives; a mask of the answer is held by the store. -/
def Right (w : Weights) (s : Store) (l : Lookup) : Prop :=
  (∃ x, l.answer = .ok x ∧ Mask.compile l.format w = .ok x.mask ∧ s.find? l.format = some x) ∨
    ∃ e, l.answer = .error e ∧ Mask.compile l.format w = .error e

end Lookup

namespace Store

variable {s s' : Store} {next next' : Serial} {format : Text} {x : StoredMask}
  {new : List StoredMask}

/-- Asks for formats one after the other, up to the first one that is malformed. -/
def lookUp (s : Store) (next : Serial) : List Text → Served (List Lookup)
  | [] => ⟨[], s, next, []⟩
  | format :: rest =>
    let got := s.get next format
    match got.answer with
    | .error _ => { got with answer := [⟨format, got.answer⟩] }
    | .ok _ =>
      let later := got.store.lookUp got.next rest
      { later with answer := ⟨format, got.answer⟩ :: later.answer, log := got.log ++ later.log }

theorem lookUp_of_error {rest : List Text} {e : FormatError}
    (h : (s.get next format).answer = .error e) :
    s.lookUp next (format :: rest) =
      { s.get next format with answer := [⟨format, .error e⟩] } := by
  simp only [lookUp, h]

theorem lookUp_of_ok {rest : List Text} (h : (s.get next format).answer = .ok x) :
    s.lookUp next (format :: rest) =
      let later := (s.get next format).store.lookUp (s.get next format).next rest
      { later with
        answer := ⟨format, .ok x⟩ :: later.answer
        log := (s.get next format).log ++ later.log } := by
  simp only [lookUp, h]

theorem lookUp_singleton (s : Store) (next : Serial) (format : Text) :
    s.lookUp next [format] =
      { s.get next format with answer := [⟨format, (s.get next format).answer⟩] } := by
  cases h : (s.get next format).answer with
  | error e => rw [lookUp_of_error h]
  | ok x =>
    rw [lookUp_of_ok h]
    simp [lookUp]

/-- The lookups are those of the formats that are asked for. -/
theorem Sound.formats_lookUp (h : s.Sound next) (formats : List Text) :
    (s.lookUp next formats).answer.map (·.format) = asked formats := by
  induction formats generalizing s next with
  | nil => rfl
  | cons format rest ih =>
    rcases h.get format with ⟨x, new, hgets⟩ | ⟨e, he, hget⟩
    · rw [asked_cons ((isFormat_iff s.weights).mpr ⟨_, hgets.compile⟩),
        ← ih (h.sound_get format), lookUp_of_ok hgets.answer]
      rfl
    · have hanswer : (s.get next format).answer = .error e := by rw [hget]
      rw [asked_of_malformed (not_isFormat_of_error (Mask.compile_eq_error_iff.mp he)),
        lookUp_of_error hanswer]
      rfl

/-- What a sound store serves that is asked for several formats: it has new masks and is still
sound, each lookup is right, the new masks are answers, and the log has an event for each of them
and for each format that turned out malformed. -/
structure Finds (s : Store) (next : Serial) (new : List StoredMask)
    (served : Served (List Lookup)) : Prop where
  adds : s.Adds next new served.store served.next
  sound : served.store.Sound served.next
  right : ∀ l ∈ served.answer, l.Right s.weights served.store
  answers : ∀ x ∈ new, ⟨x.mask.format, .ok x⟩ ∈ served.answer
  log : served.log = (new.map fun x => .ofMask x.mask) ++
    (served.answer.filterMap Lookup.error?).map .formatError

/-- **Asking for several formats** adds new masks to a sound store. -/
theorem Sound.lookUp (h : s.Sound next) (formats : List Text) :
    ∃ new, s.Finds next new (s.lookUp next formats) := by
  induction formats generalizing s next with
  | nil => exact ⟨[], .refl s next, h, List.forall_mem_nil _, List.forall_mem_nil _, rfl⟩
  | cons format rest ih =>
    rcases h.get format with ⟨x, new, hgets⟩ | ⟨e, he, hget⟩
    · obtain ⟨new', hrest⟩ := ih (h.sound_get format)
      have hformat : x.mask.format = format := (find?_eq_some hgets.held).2
      have hweights : (s.get next format).store.weights = s.weights := by rw [hgets.adds.store]
      have hright := hrest.right
      rw [hweights] at hright
      rw [lookUp_of_ok hgets.answer]
      refine ⟨new ++ new', hgets.adds.trans hrest.adds, hrest.sound, ?_, ?_, ?_⟩
      · have hheld := hrest.adds.find? hgets.held
        exact List.forall_mem_cons.mpr ⟨Or.inl ⟨x, rfl, hgets.compile, hheld⟩, hright⟩
      · intro y hy
        rcases List.mem_append.mp hy with hy | hy
        · rw [hgets.only y hy, hformat]
          exact List.mem_cons_self
        · exact List.mem_cons_of_mem _ (hrest.answers y hy)
      · show (s.get next format).log ++ _ = _
        rw [hgets.log, hrest.log, List.map_append, List.append_assoc]
        rfl
    · have hanswer : (s.get next format).answer = .error e := by rw [hget]
      rw [lookUp_of_error hanswer, hget]
      refine ⟨[], .refl s next, h, ?_, List.forall_mem_nil _, rfl⟩
      intro l hl
      obtain rfl := List.mem_singleton.mp hl
      exact Or.inr ⟨e, rfl, he⟩

theorem Sound.right_lookUp (h : s.Sound next) (formats : List Text) :
    ∀ l ∈ (s.lookUp next formats).answer,
      l.Right s.weights (s.lookUp next formats).store := by
  obtain ⟨new, hfinds⟩ := h.lookUp formats
  exact hfinds.right

/-- Which formats a store holds after it was asked for some. -/
theorem Sound.contains_lookUp (h : s.Sound next) (formats : List Text) (format : Text) :
    (s.lookUp next formats).store.contains format = true ↔
      s.contains format = true ∨ IsFormat format ∧ format ∈ asked formats := by
  obtain ⟨new, hfinds⟩ := h.lookUp formats
  rw [← h.formats_lookUp]
  constructor
  · intro hc
    obtain ⟨x, hx, rfl⟩ := contains_iff.mp hc
    rcases hfinds.adds.mem_iff.mp hx with hx | hx
    · exact Or.inl (contains_iff.mpr ⟨x, hx, rfl⟩)
    · have hl := hfinds.answers x hx
      rcases hfinds.right _ hl with ⟨y, -, hcompile, -⟩ | ⟨e, he, -⟩
      · exact Or.inr ⟨(isFormat_iff s.weights).mpr ⟨_, hcompile⟩,
          List.mem_map_of_mem (f := Lookup.format) hl⟩
      · cases he
  · rintro (hc | ⟨hformat, hasked⟩)
    · obtain ⟨x, hx, hxformat⟩ := contains_iff.mp hc
      exact contains_iff.mpr ⟨x, hfinds.adds.mem_iff.mpr (Or.inl hx), hxformat⟩
    · obtain ⟨l, hl, rfl⟩ := List.mem_map.mp hasked
      rcases hfinds.right l hl with ⟨x, -, -, hfind⟩ | ⟨e, -, he⟩
      · exact contains_of_find? hfind
      · exact absurd hformat (not_isFormat_of_error (Mask.compile_eq_error_iff.mp he))

end Store

end TextMask
