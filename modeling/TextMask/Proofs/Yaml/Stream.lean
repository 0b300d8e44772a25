import TextMask.Proofs.Yaml.Scalar
import TextMask.Yaml.Layout

/-!
# Every text is cut into tokens

A step of the reader of tokens goes on behind the character at which it stands, so a stream takes no
more steps than it has characters.

* `Token.readTag_passes`, `Token.readDirective_passes`: the tokens that consist of a name;
* `Layout.readToken_passes`: each kind of token;
* `stream_fault_ne_outOfDepth`: the steps that are given are enough for every text.
-/

namespace TextMask.Yaml

variable {p q : Place}

/-! ### Names -/

namespace Token

theorem percentBytes_ends (fuel : Nat) (p : Place) :
    Ends (fun r => p.Reaches r.2) (percentBytes fuel p) := by
  induction fuel generalizing p with
  | zero => exact .refl p
  | succ fuel ih =>
    unfold percentBytes
    split
    · dsimp only
      split
      · exact (ih (p.advanceBy 3)).bind fun r hr => (Place.Reaches.advanceBy p 3).trans hr
      · exact (nomatch ·)
    · exact .refl p

theorem textOfBytes_ends (bytes : List UInt8) : Ends (fun _ => True) (textOfBytes bytes) := by
  unfold textOfBytes
  split
  · trivial
  · exact (nomatch ·)

theorem tagPieces_ends (fuel : Nat) (p : Place) :
    Ends (fun r => p.Reaches r.2) (tagPieces fuel p) := by
  induction fuel generalizing p with
  | zero => exact .refl p
  | succ fuel ih =>
    have hspan := Place.Reaches.span p isTagChar
    unfold tagPieces
    dsimp only
    split
    · refine (percentBytes_ends _ _).bind fun r hr => ?_
      refine (textOfBytes_ends _).bind fun _ _ => ?_
      exact (ih r.2).bind fun r' hr' => hspan.trans (hr.trans hr')
    · exact hspan

theorem tagText_ends (p : Place) : Ends (fun r => p.Reaches r.2) (tagText p) := by
  unfold tagText
  refine (tagPieces_ends _ p).bind fun r hr => ?_
  dsimp only
  split
  · exact (nomatch ·)
  · exact hr

theorem tagHandle_passes (p : Place) : Ends (fun r => p.Passes r.2) (tagHandle p) := by
  unfold tagHandle
  cases hmark : p.at? '!' with
  | false => exact (nomatch ·)
  | true =>
    have hadvance := Place.Passes.advance (Place.rest_ne_nil_of_at? hmark)
    have hspan := Place.Reaches.span p.advance isNameChar
    dsimp only
    split
    · next h => cases h
    · split
      · exact hadvance
      · split
        · exact hadvance.trans_reaches (hspan.trans (.advance _))
        · exact (nomatch ·)

/-- A tag lies behind its mark. -/
theorem readTag_passes (hne : p.rest ≠ []) : Ends (fun r => p.Passes r.2) (readTag p) := by
  have hadvance := Place.Passes.advance hne
  have hend : ∀ {t : Token} {q : Place}, p.Passes q →
      Ends (fun r => p.Passes r.2) (if q.atSpace then .ok (t, q) else .error .badTag) := by
    intro t q hq
    split
    · exact hq
    · exact (nomatch ·)
  -- The text behind the handle, which both ways to write a handle share.
  have hsuffix : ∀ {handle : Text} {q : Place}, p.Passes q →
      Ends (fun r => p.Passes r.2) (tagText q >>= fun r =>
        if r.2.atSpace then .ok (tag (some handle) r.1, r.2) else .error .badTag) := fun hq =>
    (tagText_ends _).bind fun r hr => hend (hq.trans_reaches hr)
  unfold readTag
  dsimp only
  split
  · refine (tagText_ends _).bind fun r hr => ?_
    have hr : p.Passes r.2 := hadvance.trans_reaches ((Place.Reaches.advance _).trans hr)
    split
    · exact hend (hr.trans_reaches (.advance _))
    · exact (nomatch ·)
  · split
    · exact hend hadvance
    · split
      · exact (tagHandle_passes p).bind fun r hr => hsuffix hr
      · exact hsuffix hadvance

/-- The name of an anchor or an alias lies behind its mark. -/
theorem readName_passes (hne : p.rest ≠ []) : Ends (fun r => p.Passes r.2) (readName p) := by
  unfold readName
  dsimp only
  split
  · exact (nomatch ·)
  · exact (Place.Passes.advance hne).trans_reaches (.span _ _)

theorem versionPart_ends (p : Place) : Ends (fun r => p.Reaches r.2) (versionPart p) := by
  unfold versionPart
  dsimp only
  split
  · exact (nomatch ·)
  · split
    · exact (nomatch ·)
    · exact .span p _

theorem versionDirective_ends (p : Place) : Ends (fun r => p.Reaches r.2) (versionDirective p) := by
  unfold versionDirective
  refine (versionPart_ends _).bind fun r hr => ?_
  have hr : p.Reaches r.2 := (Place.Reaches.skip p _).trans hr
  dsimp only
  split
  · refine (versionPart_ends _).bind fun r' hr' => ?_
    split
    · exact hr.trans ((Place.Reaches.advance _).trans hr')
    · exact (nomatch ·)
  · exact (nomatch ·)

theorem handleDirective_ends (p : Place) : Ends (fun r => p.Reaches r.2) (handleDirective p) := by
  unfold handleDirective
  refine (tagHandle_passes _).bind fun r hr => ?_
  have hr : p.Reaches r.2 := (Place.Reaches.skip p _).trans hr.reaches
  dsimp only
  split
  · refine (tagText_ends _).bind fun r' hr' => ?_
    split
    · exact hr.trans ((Place.Reaches.skip _ _).trans hr')
    · exact (nomatch ·)
  · exact (nomatch ·)

/-- A directive lies behind its mark. -/
theorem readDirective_passes (hne : p.rest ≠ []) :
    Ends (fun r => p.Passes r.2) (readDirective p) := by
  have hname : p.Passes (p.advance.span isNameChar).2 :=
    (Place.Passes.advance hne).trans_reaches (.span _ _)
  have hline : ∀ {d : Directive} {q : Place}, p.Passes q →
      Ends (fun r => p.Passes r.2) ((Token.directive d, ·) <$> q.finishLine .badDirective) := by
    intro d q hq
    have hfinish := q.finishLine_ends .badDirective (nomatch ·)
    exact hfinish.bind fun r hr => hq.trans_reaches hr
  unfold readDirective
  dsimp only
  split
  · exact (nomatch ·)
  · split
    · exact (versionDirective_ends _).bind fun r hr => hline (hname.trans_reaches hr)
    · split
      · exact (handleDirective_ends _).bind fun r hr => hline (hname.trans_reaches hr)
      · exact hline (hname.trans_reaches (.skip _ _))

end Token

/-! ### Steps of the layout -/

namespace Layout

variable {s s' : Layout}

/-- The reader stands where it stood, inside the same number of brackets. -/
def Stays (s s' : Layout) : Prop := s'.place = s.place ∧ s'.depth = s.depth

theorem Stays.refl (s : Layout) : s.Stays s := ⟨rfl, rfl⟩

theorem Stays.trans {s'' : Layout} (h : s.Stays s') (h' : s'.Stays s'') : s.Stays s'' :=
  ⟨h'.1.trans h.1, h'.2.trans h.2⟩

theorem dropStale_stays (s : Layout) : Ends s.Stays s.dropStale := by
  unfold dropStale
  split
  · exact (nomatch ·)
  · exact .refl s

theorem dropCandidate_stays (s : Layout) : Ends s.Stays s.dropCandidate := by
  unfold dropCandidate
  split
  · exact .refl s
  · split
    · exact (nomatch ·)
    · exact .refl s

theorem noteCandidate_stays (s : Layout) : Ends s.Stays s.noteCandidate := by
  unfold noteCandidate
  split
  · exact s.dropCandidate_stays.bind fun _ h => h
  · exact .refl s

theorem unwind_stays (column : Int) (outer : List Int) (s : Layout) :
    s.Stays (unwind column outer s) := by
  induction outer generalizing s with
  | nil => exact .refl s
  | cons indent rest ih =>
    unfold unwind
    split
    · exact Stays.trans ⟨rfl, rfl⟩ (ih _)
    · exact .refl s

theorem closeBlocks_stays (s : Layout) (column : Int) : s.Stays (s.closeBlocks column) := by
  unfold closeBlocks
  split
  · exact unwind_stays column s.outer s
  · exact .refl s

theorem endBlocks_stays (s : Layout) : Ends s.Stays s.endBlocks :=
  (dropCandidate_stays _).bind fun _ h => (s.closeBlocks_stays (-1)).trans h

theorem openBlock_stays (s : Layout) (column : Nat) : s.Stays (s.openBlock column).2 := by
  unfold openBlock
  split
  · exact ⟨rfl, rfl⟩
  · exact .refl s

theorem openBlockHere_stays (s : Layout) (t : Token) : s.Stays (s.openBlockHere t) := by
  unfold openBlockHere
  dsimp only
  split
  · exact s.openBlock_stays s.place.column
  · exact s.openBlock_stays s.place.column

/-- A key opens the mapping that it belongs to. -/
theorem keyBlock_stays (s : Layout) (k : KeyCandidate) :
    s.Stays (if s.depth == 0 then
        let (opened, s) := s.openBlock k.column
        if opened then s.pushAt k.index .blockMapping else s
      else s) := by
  split
  · dsimp only
    split
    · exact s.openBlock_stays k.column
    · exact s.openBlock_stays k.column
  · exact .refl s

theorem skipGaps_reaches (fuel : Nat) (s : Layout) :
    s.place.Reaches (skipGaps fuel s).place := by
  induction fuel generalizing s with
  | zero => exact .refl s.place
  | succ fuel ih =>
    have hskip := (Place.Reaches.skip s.place (· == ' ')).trans (.skipComment _)
    unfold skipGaps
    dsimp only
    split
    · exact hskip
    · next c q hbreak => exact (hskip.trans (Place.lineBreak?_passes hbreak).reaches).trans (ih _)

/-! ### Tokens -/

theorem Stays.passes {n : Nat} (h : s.Stays s') (hne : s.place.rest ≠ []) :
    s.place.Passes (s'.place.advanceBy (n + 1)) := by
  rw [h.1]
  exact ⟨hne, .advanceBy _ n⟩

theorem documentMark_passes {t : Token} (hne : s.place.rest ≠ []) :
    Ends (fun s' => s.place.Passes s'.place) (s.documentMark t) :=
  s.endBlocks_stays.bind fun _ h => h.passes hne

theorem openBracket_passes {t : Token} (hne : s.place.rest ≠ []) :
    Ends (fun s' => s.place.Passes s'.place) (s.openBracket t) :=
  s.noteCandidate_stays.bind fun _ h => h.passes hne

theorem closeBracket_passes {t : Token} (hne : s.place.rest ≠ []) :
    Ends (fun s' => s.place.Passes s'.place) (s.closeBracket t) :=
  s.dropCandidate_stays.bind fun _ h => h.passes hne

theorem comma_passes (hne : s.place.rest ≠ []) :
    Ends (fun s' => s.place.Passes s'.place) s.comma :=
  (dropCandidate_stays _).bind fun _ h => Stays.passes (s := s) h hne

/-- A mark of the block layout, behind which a block may have begun. -/
theorem mark_passes {t t' : Token} {allowed : Bool} (hne : s.place.rest ≠ []) :
    Ends (fun s' => s.place.Passes s'.place)
      ({ (if s.depth == 0 then s.openBlockHere t else s) with keyAllowed := allowed }.dropCandidate
        >>= fun s' => .ok ((s'.advanceBy 1).push t')) := by
  have hopen : s.Stays (if s.depth == 0 then s.openBlockHere t else s) := by
    split
    · exact s.openBlockHere_stays t
    · exact .refl s
  exact (dropCandidate_stays _).bind fun s' h => (hopen.trans h).passes hne

theorem item_passes (hne : s.place.rest ≠ []) :
    Ends (fun s' => s.place.Passes s'.place) s.item := by
  unfold item
  split
  · exact (nomatch ·)
  · exact mark_passes hne

theorem key_passes (hne : s.place.rest ≠ []) :
    Ends (fun s' => s.place.Passes s'.place) s.key := by
  unfold key
  split
  · exact (nomatch ·)
  · exact mark_passes hne

theorem value_passes (hne : s.place.rest ≠ []) :
    Ends (fun s' => s.place.Passes s'.place) s.value := by
  unfold value
  split
  · next k _ =>
    let s₁ := { s with candidates := s.candidates.filter (·.depth != s.depth) }.pushAt k.index .key
    exact Stays.passes (s := s) (n := 0) (keyBlock_stays s₁ k) hne
  · split
    · exact (nomatch ·)
    · exact mark_passes hne

/-- A token that is read on its own lies behind its first character if its reader says so. -/
theorem content_passes {read : Place → Except Fault (Token × Place)}
    (hread : Ends (fun r => s.place.Passes r.2) (read s.place)) :
    Ends (fun s' => s.place.Passes s'.place) (s.content read) :=
  s.noteCandidate_stays.bind fun s' h => by
    dsimp only
    rw [h.1]
    exact hread.bind fun r hr => hr

/-- Among the characters with which a plain scalar does not simply begin are the mark of a comment,
a colon and all that end it inside brackets. -/
theorem not_mark_of_not_indicator {c : Char}
    (h : "-?:,[]\x7b\x7d#&*!|>'\"%@`".toList.contains c = false) :
    c ≠ '#' ∧ c ≠ ':' ∧ PlainScalar.isFlowMark c = false := by
  have hne : ∀ d ∈ "-?:,[]\x7b\x7d#&*!|>'\"%@`".toList, c ≠ d := by
    rintro d hd rfl
    rw [List.contains_iff_mem.mpr hd] at h
    cases h
  have hmarks : [',', '?', '[', ']', '\x7b', '\x7d'] ⊆ "-?:,[]\x7b\x7d#&*!|>'\"%@`".toList := by
    decide
  refine ⟨hne _ (by decide), hne _ (by decide), Bool.eq_false_iff.mpr fun hmark => ?_⟩
  exact hne c (hmarks (List.contains_iff_mem.mp hmark)) rfl

theorem endsKey_false (next : Option Char) : PlainScalar.endsKey false next = next.all isGap := by
  cases next with
  | none => rfl
  | some c => exact Bool.or_false _

/-- Where a plain scalar can begin, it has a first word. -/
theorem word_ne_nil {c : Char} (hc : s.place.peek = some c) (hbegins : s.beginsPlain c = true) :
    s.place.at? '#' = false ∧ PlainScalar.word (s.depth != 0) s.place.rest ≠ [] := by
  obtain ⟨rest, hrest⟩ := List.head?_eq_some_iff.mp hc
  have hnext : s.place.gapAt 1 = rest.head?.all isGap := by
    rw [Place.gapAt, Place.peekAt, hrest, List.getElem?_cons_succ, List.head?_eq_getElem?]
  have hword : c ≠ '#' ∧ isGap c = false ∧
      (c == ':' && PlainScalar.endsKey (s.depth != 0) rest.head?) = false ∧
      ((s.depth != 0) && PlainScalar.isFlowMark c) = false := by
    rw [beginsPlain, hnext, Bool.or_eq_true] at hbegins
    rcases hbegins with hbegins | hbegins
    · rw [Bool.not_eq_true', Bool.or_eq_false_iff] at hbegins
      obtain ⟨hcomment, hcolon, hmark⟩ := not_mark_of_not_indicator hbegins.2
      rw [hmark, beq_eq_false_iff_ne.mpr hcolon]
      exact ⟨hcomment, hbegins.1, rfl, Bool.and_false _⟩
    · simp only [Bool.and_eq_true, Bool.not_eq_true', Bool.or_eq_true, beq_iff_eq] at hbegins
      obtain ⟨hends, rfl | ⟨hdepth, hmark⟩⟩ := hbegins
      · exact ⟨by decide, by decide, rfl, by simp [PlainScalar.isFlowMark]⟩
      · have hflow : (s.depth != 0) = false := by simp [hdepth]
        rw [hflow, endsKey_false, hends]
        refine ⟨?_, ?_, Bool.and_false _, rfl⟩ <;> rcases hmark with rfl | rfl <;> decide
  obtain ⟨hcomment, hgap, hkey, hmark⟩ := hword
  rw [Place.at?, hc, hrest, PlainScalar.word, hgap, hkey, hmark]
  exact ⟨beq_eq_false_iff_ne.mpr fun h => hcomment (Option.some.inj h), by simp⟩

theorem plainScalar_passes {c : Char} (hc : s.place.peek = some c)
    (hbegins : s.beginsPlain c = true) :
    Ends (fun s' => s.place.Passes s'.place) s.plainScalar := by
  obtain ⟨hcomment, hword⟩ := word_ne_nil hc hbegins
  refine s.noteCandidate_stays.bind fun s' h => ?_
  rw [← h.1, ← h.2] at hword
  rw [← h.1] at hcomment ⊢
  exact PlainScalar.read_passes s'.indent hcomment hword

theorem blockScalar_passes {folded : Bool} (hne : s.place.rest ≠ []) :
    Ends (fun s' => s.place.Passes s'.place) (s.blockScalar folded) :=
  (dropCandidate_stays _).bind fun s' h => by
    have hplace : s'.place = s.place := h.1
    dsimp only
    rw [hplace]
    exact (BlockScalar.read_passes hne).bind fun r hr => hr

theorem quotedScalar_passes {double : Bool} (hs : s.place.Sound) (hne : s.place.rest ≠ []) :
    Ends (fun s' => s.place.Passes s'.place) (s.quotedScalar double) :=
  content_passes ((QuotedScalar.read_passes hs hne).bind fun _ hr => hr)

/-- A token lies behind the character at which it begins. -/
theorem readToken_passes {c : Char} (hs : s.place.Sound) (hc : s.place.peek = some c) :
    Ends (fun s' => s.place.Passes s'.place) (s.readToken c) := by
  have hne := Place.rest_ne_nil_of_peek hc
  have hname : ∀ t : Text → Token, Ends (fun r => s.place.Passes r.2)
      (Token.readName s.place >>= fun r => .ok (t r.1, r.2)) := fun t =>
    (Token.readName_passes hne).bind fun r hr => hr
  have hdirective : Ends (fun s' => s.place.Passes s'.place) (s.endBlocks >>= fun s =>
      Token.readDirective s.place >>= fun r => .ok ({ s with place := r.2 }.push r.1)) := by
    refine s.endBlocks_stays.bind fun s' h => ?_
    rw [h.1]
    exact (Token.readDirective_passes hne).bind fun r hr => hr
  unfold readToken
  refine .ite (fun _ => hdirective) fun _ => ?_
  refine .ite (fun _ => documentMark_passes hne) fun _ => ?_
  refine .ite (fun _ => documentMark_passes hne) fun _ => ?_
  refine .ite (fun _ => openBracket_passes hne) fun _ => ?_
  refine .ite (fun _ => openBracket_passes hne) fun _ => ?_
  refine .ite (fun _ => closeBracket_passes hne) fun _ => ?_
  refine .ite (fun _ => closeBracket_passes hne) fun _ => ?_
  refine .ite (fun _ => comma_passes hne) fun _ => ?_
  refine .ite (fun _ => item_passes hne) fun _ => ?_
  refine .ite (fun _ => key_passes hne) fun _ => ?_
  refine .ite (fun _ => value_passes hne) fun _ => ?_
  refine .ite (fun _ => content_passes (hname .alias)) fun _ => ?_
  refine .ite (fun _ => content_passes (hname .anchor)) fun _ => ?_
  refine .ite (fun _ => content_passes (Token.readTag_passes hne)) fun _ => ?_
  refine .ite (fun _ => blockScalar_passes hne) fun _ => ?_
  refine .ite (fun _ => blockScalar_passes hne) fun _ => ?_
  refine .ite (fun _ => quotedScalar_passes hs hne) fun _ => ?_
  refine .ite (fun _ => quotedScalar_passes hs hne) fun _ => ?_
  refine .ite (fun hbegins => plainScalar_passes hc hbegins) fun _ => ?_
  exact (nomatch ·)

/-! ### Whole streams -/

/-- A step that does not end the stream goes on behind a character. -/
theorem step_passes (hs : s.place.Sound) :
    Ends (fun r => r.1 = true → s.place.Passes r.2.place) s.step := by
  have hskip := skipGaps_reaches (s.place.left + 1) s
  refine (dropStale_stays _).bind fun s' h => ?_
  have hclose := h.trans (s'.closeBlocks_stays s'.place.column)
  rw [← hclose.1] at hskip
  dsimp only
  split
  · exact (endBlocks_stays _).bind fun _ _ => (nomatch ·)
  · next c hc =>
    exact (readToken_passes (hskip.sound hs) hc).bind fun s'' hpasses _ =>
      hskip.trans_passes hpasses

theorem readAll_fault_ne_outOfDepth {fuel : Nat} (hs : s.place.Sound)
    (hfuel : s.place.left < fuel) : (readAll fuel s).fault ≠ some .outOfDepth := by
  induction fuel generalizing s with
  | zero => omega
  | succ fuel ih =>
    have hstep := step_passes hs
    unfold readAll
    split
    · next fault hfault =>
      rw [hfault] at hstep
      exact fun h => hstep (Option.some.inj h)
    · next s' hnext =>
      rw [hnext] at hstep
      have hpasses : s.place.Passes s'.place := hstep rfl
      exact ih (hpasses.reaches.sound hs) (by have := hpasses.left_lt hs; omega)
    · exact (nomatch ·)

end Layout

/-- The steps that a text is given are enough to cut all of it into tokens. -/
theorem stream_fault_ne_outOfDepth (text : Text) : (stream text).fault ≠ some .outOfDepth := by
  unfold stream
  split
  · exact (nomatch ·)
  · have hstart : (Place.start text).Sound := rfl
    refine Layout.readAll_fault_ne_outOfDepth ?_ (by dsimp only; omega)
    dsimp only
    split
    · exact hstart.advance
    · exact hstart

end TextMask.Yaml
