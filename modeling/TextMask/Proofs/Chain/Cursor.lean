import TextMask.Chain.Compile
import TextMask.Proofs.Failure

/-!
# Scanning by characters and by glyphs

The scan of a pattern tells by the character before it whether a character is escaped, and forgets an
escaped escape mark. Glyphs take an escape mark and the character behind it together. Both readings of
escapes agree, on every pattern: a scan by characters finds what a scan by glyphs finds. What a scan
remembers of a pattern is the last bracket and the last character, so it can be resumed behind it.

* `scanWith_cons_eq_ok`: what a scan does at its first unit;
* `scanWith_append`: a scan resumes where it has stopped;
* `Cursor.of_step`: what a character can do;
* `Cursor.escapes_next`: which characters escape what follows them;
* `Chain.scan_eq_scanWith_read`: the two readings of escapes agree;
* `Chain.scan_behind_free`: outside of groups a scan goes on as it starts.
-/

namespace TextMask

/-! ### Scans with any step -/

section Scans

variable {α α' : Type} {step : Cursor → α → Except PatternFault (Option Slot × Cursor)}
  {step' : Cursor → α' → Except PatternFault (Option Slot × Cursor)} {cur cur' next last : Cursor}
  {a : α} {a' : α'} {s : Slot} {l l' : List α} {r : Scanned}

theorem scanWith_skip (h : step cur a = .ok (none, next)) :
    scanWith step cur (a :: l) = scanWith step next l := by
  rw [scanWith, h]
  rfl

theorem scanWith_write (h : step cur a = .ok (some s, next)) (hs : s.elliptical = false) :
    scanWith step cur (a :: l) = Scanned.push s <$> scanWith step next l := by
  rw [scanWith, h]
  show (if s.elliptical then Except.ok ⟨[], .ellipsis s⟩ else
    scanWith step next l >>= fun r => pure (r.push s)) = _
  rw [hs]
  rfl

theorem scanWith_ellipsis (h : step cur a = .ok (some s, next)) (hs : s.elliptical = true) :
    scanWith step cur (a :: l) = .ok ⟨[], .ellipsis s⟩ := by
  rw [scanWith, h]
  show (if s.elliptical then Except.ok ⟨[], .ellipsis s⟩ else
    scanWith step next l >>= fun r => pure (r.push s)) = _
  rw [hs]
  rfl

/-- **One unit of a scan.** It writes nothing and the scan goes on, or it writes a slot, at which the
scan stops or behind which it goes on. -/
theorem scanWith_cons_eq_ok (h : scanWith step cur (a :: l) = .ok r) :
    ∃ slot next, step cur a = .ok (slot, next) ∧
      (slot = none ∧ scanWith step next l = .ok r ∨
        (∃ s, slot = some s ∧ s.elliptical = true ∧ r = ⟨[], .ellipsis s⟩) ∨
        ∃ s r', slot = some s ∧ s.elliptical = false ∧ scanWith step next l = .ok r' ∧
          r = r'.push s) := by
  obtain ⟨⟨slot, next⟩, hstep, -⟩ := Except.bind_eq_ok_iff.mp h
  refine ⟨slot, next, hstep, ?_⟩
  cases slot with
  | none => exact Or.inl ⟨rfl, (scanWith_skip hstep).symm.trans h⟩
  | some s =>
    refine Or.inr ?_
    cases hs : s.elliptical with
    | true =>
      rw [scanWith_ellipsis hstep hs] at h
      exact Or.inl ⟨s, rfl, hs, (Except.ok.inj h).symm⟩
    | false =>
      rw [scanWith_write hstep hs] at h
      obtain ⟨r', hr', rfl⟩ := Except.map_eq_ok_iff.mp h
      exact Or.inr ⟨s, r', rfl, hs, hr', rfl⟩

/-- Two scans agree if their first units do the same and they agree behind them. -/
theorem scanWith_congr {rest : List α} {rest' : List α'} (hstep : step cur a = step' cur' a')
    (hrest : ∀ slot next, step cur a = .ok (slot, next) →
      scanWith step next rest = scanWith step' next rest') :
    scanWith step cur (a :: rest) = scanWith step' cur' (a' :: rest') := by
  rw [scanWith, scanWith, ← hstep]
  cases h : step cur a with
  | error fault => rfl
  | ok found =>
    obtain ⟨slot, next⟩ := found
    have hnext := hrest slot next h
    cases slot with
    | none => exact hnext
    | some s =>
      show (if s.elliptical then _ else _) = if s.elliptical then _ else _
      rw [hnext]

/-- What can be told about the cursor step by step can be told about the cursor at which a scan has
finished. -/
theorem scanWith_finished {β : Type} {φ : Cursor → β} {f : β → α → β}
    (hf : ∀ {cur a slot next}, step cur a = .ok (slot, next) → φ next = f (φ cur) a)
    (h : scanWith step cur l = .ok r) (hr : r.stop = .finished last) :
    φ last = l.foldl f (φ cur) := by
  induction l generalizing cur r with
  | nil =>
    obtain rfl := Except.ok.inj h
    obtain rfl := ScanStop.finished.inj hr
    rfl
  | cons a l ih =>
    obtain ⟨slot, next, hstep, hnext⟩ := scanWith_cons_eq_ok h
    rw [List.foldl_cons, ← hf hstep]
    rcases hnext with ⟨-, hnext⟩ | ⟨s, -, -, rfl⟩ | ⟨s, r', -, -, hnext, rfl⟩
    · exact ih hnext hr
    · cases hr
    · exact ih hnext hr

/-- A scan that has stopped at an ellipsis has met a unit that writes the ellipsis. -/
theorem exists_step_of_stop (h : scanWith step cur l = .ok r) (hr : r.stop = .ellipsis s) :
    s.elliptical = true ∧ ∃ cur' a next, step cur' a = .ok (some s, next) := by
  induction l generalizing cur r with
  | nil =>
    obtain rfl := Except.ok.inj h
    cases hr
  | cons a l ih =>
    obtain ⟨slot, next, hstep, hnext⟩ := scanWith_cons_eq_ok h
    rcases hnext with ⟨-, hnext⟩ | ⟨s', rfl, hs, rfl⟩ | ⟨s', r', -, -, hnext, rfl⟩
    · exact ih hnext hr
    · obtain rfl := ScanStop.ellipsis.inj hr
      exact ⟨hs, cur, a, next, hstep⟩
    · exact ih hnext hr

/-- **A scan resumes.** If a scan has stopped at an ellipsis, what stands behind is of no account. If
it has finished, what stands behind is scanned from the cursor on. -/
theorem scanWith_append (h : scanWith step cur l = .ok r) (l' : List α) :
    scanWith step cur (l ++ l') =
      match r.stop with
      | .ellipsis _ => .ok r
      | .finished last => (fun r' => ⟨r.slots ++ r'.slots, r'.stop⟩) <$> scanWith step last l' := by
  induction l generalizing cur r with
  | nil =>
    obtain rfl := Except.ok.inj h
    show _ = (fun r' : Scanned => _) <$> scanWith step cur l'
    exact (id_map _).symm
  | cons a l ih =>
    obtain ⟨slot, next, hstep, hnext⟩ := scanWith_cons_eq_ok h
    rcases hnext with ⟨rfl, hnext⟩ | ⟨s, rfl, hs, rfl⟩ | ⟨s, r', rfl, hs, hnext, rfl⟩
    · rw [List.cons_append, scanWith_skip hstep, ih hnext]
    · exact scanWith_ellipsis hstep hs
    · rw [List.cons_append, scanWith_write hstep hs, ih hnext]
      show _ = match r'.stop with | .ellipsis _ => _ | .finished last => _
      cases r'.stop with
      | ellipsis s' => rfl
      | finished last => exact Functor.map_map _ _ _

end Scans

/-! ### What a character does -/

namespace Cursor

variable {cur next : Cursor} {c : Char} {slot : Option Slot} {previous : Option Char}

theorem write_eq {s : Slot} (h : cur.context.slot cur.previous c = .ok s) :
    cur.write c previous = .ok (some s, { cur with previous := previous }) := by
  rw [write, h]
  rfl

theorem of_write (h : cur.write c previous = .ok (slot, next)) :
    ∃ s, slot = some s ∧ cur.context.slot cur.previous c = .ok s ∧
      next = { cur with previous := previous } := by
  obtain ⟨s, hs, heq⟩ := Except.map_eq_ok_iff.mp h
  obtain ⟨rfl, rfl⟩ := Prod.mk.inj heq
  exact ⟨s, rfl, hs, rfl⟩

theorem step_of_escapes (h : cur.escapes = true) :
    cur.step c = cur.write c (if c = escapeMark then none else some c) := by
  rw [step, if_pos h]

theorem step_of_clear (h : cur.escapes = false) :
    cur.step c =
      match Context.ofBracket? c with
      | some context => .ok (none, ⟨context, some c⟩)
      | none =>
        if c = escapeMark then .ok (none, { cur with previous := some c })
        else cur.write c (some c) := by
  rw [step, h]
  rfl

/-- **What a character can do.** If it is not escaped, it is a bracket, which changes the context, or
an escape mark, which is remembered; otherwise it writes a slot, and is remembered unless it is an
escape mark. -/
theorem of_step (h : cur.step c = .ok (slot, next)) :
    (slot = none ∧ cur.escapes = false ∧
      ((∃ context, Context.ofBracket? c = some context ∧ next = ⟨context, some c⟩) ∨
        c = escapeMark ∧ next = { cur with previous := some c })) ∨
    ∃ s previous, slot = some s ∧ cur.context.slot cur.previous c = .ok s ∧
      next = { cur with previous := previous } ∧
      (c = escapeMark ∧ cur.escapes = true ∧ previous = none ∨
        c ≠ escapeMark ∧ previous = some c) := by
  cases he : cur.escapes with
  | true =>
    rw [step_of_escapes he] at h
    obtain ⟨s, rfl, hs, rfl⟩ := of_write h
    refine Or.inr ⟨s, _, rfl, hs, rfl, ?_⟩
    by_cases hc : c = escapeMark
    · exact Or.inl ⟨hc, rfl, if_pos hc⟩
    · exact Or.inr ⟨hc, if_neg hc⟩
  | false =>
    rw [step_of_clear he] at h
    split at h
    next context hcontext =>
      obtain ⟨rfl, rfl⟩ := Prod.mk.inj (Except.ok.inj h)
      exact Or.inl ⟨rfl, rfl, Or.inl ⟨context, hcontext, rfl⟩⟩
    · split at h
      next hc =>
        obtain ⟨rfl, rfl⟩ := Prod.mk.inj (Except.ok.inj h)
        exact Or.inl ⟨rfl, rfl, Or.inr ⟨hc, rfl⟩⟩
      next hc =>
        obtain ⟨s, rfl, hs, rfl⟩ := of_write h
        exact Or.inr ⟨s, _, rfl, hs, rfl, Or.inr ⟨hc, rfl⟩⟩

/-- Only an escape mark that is not escaped escapes what follows it. -/
theorem escapes_next (h : cur.step c = .ok (slot, next)) :
    next.escapes = (!cur.escapes && c == escapeMark) := by
  rcases of_step h with ⟨-, he, ⟨context, hc, rfl⟩ | ⟨rfl, rfl⟩⟩ |
    ⟨s, previous, -, -, rfl, ⟨rfl, he, rfl⟩ | ⟨hc, rfl⟩⟩
  · have hne : c ≠ escapeMark := by
      rintro rfl
      cases hc
    rw [he, beq_eq_false_iff_ne.mpr hne]
    exact beq_eq_false_iff_ne.mpr fun h => hne (Option.some.inj h)
  · rw [he]
    rfl
  · rw [he]
    rfl
  · rw [beq_eq_false_iff_ne.mpr hc, Bool.and_false]
    exact beq_eq_false_iff_ne.mpr fun h => hc (Option.some.inj h)

end Cursor

/-! ### Scanning by glyphs -/

namespace Cursor

/-- Reads a glyph. An escaped character writes a slot, whatever it is, and what is remembered of an
escape mark that escapes nothing is that it is one. -/
def read (cur : Cursor) : Glyph → Except PatternFault (Option Slot × Cursor)
  | .plain c =>
    match Context.ofBracket? c with
    | some context => .ok (none, ⟨context, some c⟩)
    | none => cur.write c (some c)
  | .escaped c =>
    { cur with previous := some escapeMark }.write c (if c = escapeMark then none else some c)
  | .dangling => .ok (none, { cur with previous := some escapeMark })

theorem step_escapeMark {cur : Cursor} (h : cur.escapes = false) :
    cur.step escapeMark = .ok (none, { cur with previous := some escapeMark }) := step_of_clear h

theorem step_eq_read {cur : Cursor} {c : Char} (h : cur.escapes = false) (hc : c ≠ escapeMark) :
    cur.step c = cur.read (.plain c) := by
  rw [step_of_clear h, read, if_neg hc]

end Cursor

/-! ### Scanning patterns -/

namespace Chain

/-- The chain of a pattern is that of the slots that the scan finds. -/
theorem read_eq_ok_iff {pattern : Text} {chain : Chain} :
    read pattern = .ok chain ↔ ∃ found, scan .start pattern = .ok found ∧ found.chain = chain :=
  Except.mapError_eq_ok_iff.trans Except.map_eq_ok_iff

/-- The chain of a format is that of the slots that the scan finds in its normal form. -/
theorem compile_eq_ok_iff {format : Text} {chain : Chain} :
    compile format = .ok chain ↔ ∃ normal found, normalize format = .ok normal ∧
      scan .start normal = .ok found ∧ found.chain = chain := by
  rw [compile, Except.bind_eq_ok_iff]
  refine exists_congr fun normal => ?_
  rw [exists_and_left]
  exact and_congr_right fun _ => Except.mapError_eq_ok_iff.trans Except.map_eq_ok_iff

/-- **Both readings of escapes agree.** From a cursor at which nothing is escaped on, a scan by
characters finds in a pattern what a scan by glyphs finds in the glyphs of the pattern. -/
theorem scan_eq_scanWith_read {cur : Cursor} (h : cur.escapes = false) (p : Text) :
    scan cur p = scanWith Cursor.read cur (Glyph.read p) := by
  fun_induction Glyph.read p generalizing cur with
  | case1 => rfl
  | case2 => exact scanWith_skip (Cursor.step_escapeMark h)
  | case3 d rest ih =>
    rw [scan, scanWith_skip (Cursor.step_escapeMark h)]
    refine scanWith_congr rfl fun slot next hnext => ih ?_
    rw [Cursor.escapes_next hnext]
    rfl
  | case4 c rest hc ih =>
    refine scanWith_congr (Cursor.step_eq_read h hc) fun slot next hnext => ih ?_
    rw [Cursor.escapes_next hnext, beq_eq_false_iff_ne.mpr hc, Bool.and_false]

/-- **Outside of groups a scan goes on as it starts**, unless the next character is escaped. -/
theorem scan_behind_free {previous : Option Char} (h : (Cursor.mk .free previous).escapes = false)
    (p : Text) :
    Scanned.chain <$> scan ⟨.free, previous⟩ p = Scanned.chain <$> scan .start p := by
  cases p with
  | nil => rfl
  | cons c p =>
    have hstep : (Cursor.mk .free previous).step c = Cursor.start.step c := by
      rw [Cursor.step_of_clear h, Cursor.step_of_clear rfl]
      rfl
    exact congrArg (Scanned.chain <$> ·) (scanWith_congr hstep fun _ _ _ => rfl)

end Chain

end TextMask
