import TextMask.Proofs.Chain.Scan
import TextMask.Proofs.Store.Desk

/-!
# What stores have to do with past requests

After every run of requests, what the stores of a desk hold, which masks they hand out and what is
logged can be told from the requests alone.

* `RequestedSince`: a format was asked for and its store was not emptied since;
* `Sound.contains_run`: stores hold just such formats, as far as they compile;
* `Sound.serial_eq_iff`: when two requests are given the same mask;
* `Sound.store_of_failed`: a failure of a single format changes no store;
* `Desk.Accounted`, `desk_accounted`: all that a desk guarantees of one more request.
-/

namespace TextMask

/-- A format was asked for of a store that was not emptied since. -/
def RequestedSince (history : List Call) (c : StoreChoice) (format : Text) : Prop :=
  ∃ before call after, history = before ++ call :: after ∧ call.1 = c ∧
    format ∈ asked call.2.candidates ∧ ∀ later ∈ after, later.wipes c = false

theorem not_requestedSince_nil (c : StoreChoice) (format : Text) :
    ¬ RequestedSince [] c format := by
  rintro ⟨before, call, after, h, -⟩
  cases before <;> cases h

/-- With one more request, a format was asked for by it, or before and the store was not emptied. -/
theorem requestedSince_concat {history : List Call} {call : Call} {c : StoreChoice}
    {format : Text} :
    RequestedSince (history ++ [call]) c format ↔
      (call.1 = c ∧ format ∈ asked call.2.candidates) ∨
        RequestedSince history c format ∧ call.wipes c = false := by
  constructor
  · rintro ⟨before, call', after, h, hc, hformat, hafter⟩
    rcases List.eq_nil_or_concat after with rfl | ⟨after, last, rfl⟩
    · obtain ⟨-, hlast⟩ := List.append_inj' h rfl
      obtain rfl := List.singleton_inj.mp hlast
      exact Or.inl ⟨hc, hformat⟩
    · rw [List.concat_eq_append, ← List.cons_append, ← List.append_assoc] at h
      obtain ⟨rfl, hlast⟩ := List.append_inj' h rfl
      obtain rfl := List.singleton_inj.mp hlast
      rw [List.concat_eq_append] at hafter
      have hbefore : ∀ later ∈ after, later.wipes c = false := by
        intro later hlater
        exact hafter later (List.mem_append_left _ hlater)
      have hcall := hafter call (List.mem_append_right _ (List.mem_singleton_self call))
      exact Or.inr ⟨⟨before, call', after, rfl, hc, hformat, hbefore⟩, hcall⟩
  · rintro (⟨hc, hformat⟩ | ⟨⟨before, call', after, rfl, hc, hformat, hafter⟩, hcall⟩)
    · exact ⟨history, call, [], rfl, hc, hformat, List.forall_mem_nil _⟩
    · refine ⟨before, call', after ++ [call], by simp, hc, hformat, ?_⟩
      intro later hlater
      rcases List.mem_append.mp hlater with hlater | hlater
      · exact hafter later hlater
      · rw [List.mem_singleton.mp hlater]
        exact hcall

theorem Chain.pattern_of_compile {format : Text} {e : FormatError}
    (h : Chain.compile format = .error e) : e.pattern = format := by
  rcases Except.bind_eq_error_iff.mp h with hnormal | ⟨normal, hnormal, hread⟩
  · exact (exists_position_of_normalize hnormal).1
  · obtain ⟨found, -, -, hcompile⟩ := Chain.exists_scan_of_normalize hnormal
    cases hcompile.symm.trans h

namespace Desk

variable {policy : Policy} {d : Desk} {c : StoreChoice} {x y : StoredMask} {call : Call}

/-! ### What stores hold -/

/-- Which formats a store holds after one more request. -/
theorem Sound.contains_serve (h : d.Sound policy) (call : Call) (c : StoreChoice) (format : Text) :
    ((d.serve call.1 call.2).2.store c).contains format = true ↔
      (call.1 = c ∧ IsFormat format ∧ format ∈ asked call.2.candidates) ∨
        (d.store c).contains format = true ∧ call.wipes c = false := by
  rw [(h.serve call).store]
  by_cases hw : call.wipes c = true
  · rw [if_pos hw, hw, Call.candidates_of_wipes hw]
    simp [asked, Store.clear, Store.contains, Store.find?]
  · rw [if_neg hw]
    have hw' : call.wipes c = false := by simpa using hw
    by_cases hc : c = call.1
    · rw [if_pos hc, Desk.lookUp, (h.stores call.1).contains_lookUp, hw', hc]
      simp [or_comm]
    · have hc' : ¬ call.1 = c := Ne.symm hc
      rw [if_neg hc]
      simp [hc', hw']

/-- **What a store holds**: the formats that compile, were asked for and were not dropped since. -/
theorem contains_after (policy : Policy) (history : List Call) (c : StoreChoice) (format : Text) :
    ((after policy history).store c).contains format = true ↔
      IsFormat format ∧ RequestedSince history c format := by
  -- on the last request, since it decides what the requests before it still count for
  induction history using List.reverseRecOn with
  | nil =>
    have hempty : ((after policy []).store c).contains format = false := by
      show ((start policy).store c).contains format = false
      rw [store_start]
      rfl
    rw [hempty]
    simp [not_requestedSince_nil]
  | append_singleton history call ih =>
    rw [after_append]
    show (((after policy history).serve call.1 call.2).2.store c).contains format = true ↔ _
    rw [(sound_after policy history).contains_serve, requestedSince_concat, ih]
    tauto

/-! ### Which masks are the same -/

/-- A request that makes a lookup empties no store. -/
theorem wipes_of_mem_lookUp {l : Lookup} (hl : l ∈ (d.lookUp call).answer) (c : StoreChoice) :
    call.wipes c = false := by
  cases hw : call.wipes c with
  | false => rfl
  | true =>
    rw [lookUp_of_nil (Call.candidates_of_wipes hw)] at hl
    exact nomatch hl

/-- A mask that a lookup answers with is held after the request. -/
theorem Sound.find?_of_lookUp (h : d.Sound policy) {l : Lookup} (hl : l ∈ (d.lookUp call).answer)
    (hx : l.answer = .ok x) :
    ((d.serve call.1 call.2).2.store call.1).find? l.format = some x := by
  obtain ⟨new, hfinds⟩ := h.lookUp call
  rw [(h.serve call).store, wipes_of_mem_lookUp hl, if_neg Bool.false_ne_true, if_pos rfl]
  rcases hfinds.right l hl with ⟨x', hx', -, hfind⟩ | ⟨e, he, -⟩
  · rw [hx] at hx'
    obtain rfl := Except.ok.inj hx'
    exact hfind
  · rw [hx] at he
    cases he

/-- Masks of a desk with the same serial number are the same. -/
theorem Sound.eq_of_serial (h : d.Sound policy) {c' : StoreChoice}
    (hx : x ∈ (d.store c).masks) (hy : y ∈ (d.store c').masks) (hxy : x.serial = y.serial) :
    c = c' ∧ x = y := by
  obtain rfl := h.apart c c' x hx y hy hxy
  exact ⟨rfl, (h.stores c).distinct x hx y hy hxy⟩

/-- Masks of a store that was emptied are not handed out again. -/
theorem Sound.serial_ne_of_wiped (h : d.Sound policy) {between : List Call} {call' : Call}
    {l l' : Lookup} (hl : l ∈ (d.lookUp call).answer) (hx : l.answer = .ok x)
    (hl' : l' ∈ ((d.run (call :: between)).2.lookUp call').answer) (hy : l'.answer = .ok y)
    (hw : ∃ q ∈ between, q.wipes call.1 = true) : x.serial ≠ y.serial := by
  have hserved := h.sound_serve call
  have hbetween := hserved.run between
  let d₃ := ((d.run (call :: between)).2.serve call'.1 call'.2).2
  obtain ⟨hmem, -⟩ := Store.find?_eq_some (h.find?_of_lookUp hl hx)
  obtain ⟨hmem', -⟩ := Store.find?_eq_some (hbetween.find?_of_lookUp hl' hy)
  have hissued := (hserved.stores call.1).issued x hmem
  have hgone : d₃.Gone call'.1 x.serial := by
    by_cases hc : call.1 = call'.1
    · rw [← hc]
      exact (hserved.gone_of_wipes hissued hw).serve hbetween call'
    · -- the serial number was never one of the other store
      have hapart : (d.serve call.1 call.2).2.Gone call'.1 x.serial :=
        ⟨hissued, fun z hz hzx => hc (hserved.apart _ _ x hmem z hz hzx.symm)⟩
      exact (hapart.run hserved between).serve hbetween call'
  exact (hgone.absent y hmem').symm

/-- **When two requests are given the same mask**: one store was asked for one format, and was not
emptied in between. -/
theorem Sound.serial_eq_iff (h : d.Sound policy) {between : List Call} {call' : Call}
    {l l' : Lookup} (hl : l ∈ (d.lookUp call).answer) (hx : l.answer = .ok x)
    (hl' : l' ∈ ((d.run (call :: between)).2.lookUp call').answer) (hy : l'.answer = .ok y) :
    (x.serial = y.serial ↔
      call.1 = call'.1 ∧ l.format = l'.format ∧ ∀ q ∈ between, q.wipes call.1 = false) ∧
    (x.serial = y.serial → x = y) := by
  have hserved := h.sound_serve call
  have hbetween := hserved.run between
  have hlater := hbetween.sound_serve call'
  have hwipes := wipes_of_mem_lookUp hl'
  let d₃ := ((d.run (call :: between)).2.serve call'.1 call'.2).2
  have hfind := h.find?_of_lookUp hl hx
  have hfind' : (d₃.store call'.1).find? l'.format = some y := hbetween.find?_of_lookUp hl' hy
  obtain ⟨-, hformat⟩ := Store.find?_eq_some hfind
  obtain ⟨hmem', hformat'⟩ := Store.find?_eq_some hfind'
  by_cases hkept : ∀ q ∈ between, q.wipes call.1 = false
  · -- the first mask is still there when the second one is handed out
    have hstill := hbetween.find?_serve (hserved.find?_run hfind hkept) (hwipes call.1)
    have hsame (hxy : x.serial = y.serial) : call.1 = call'.1 ∧ x = y :=
      hlater.eq_of_serial (Store.find?_eq_some hstill).1 hmem' hxy
    refine ⟨⟨fun hxy => ?_, ?_⟩, fun hxy => (hsame hxy).2⟩
    · obtain ⟨hc, rfl⟩ := hsame hxy
      exact ⟨hc, hformat.symm.trans hformat', hkept⟩
    · rintro ⟨hc, hf, -⟩
      have hagain : (d₃.store call.1).find? l.format = some y := by
        rw [hc, hf]
        exact hfind'
      rw [Option.some.inj (hstill.symm.trans hagain)]
  · have hwiped : ∃ q ∈ between, q.wipes call.1 = true := by
      simpa using hkept
    have hne := h.serial_ne_of_wiped hl hx hl' hy hwiped
    exact ⟨⟨fun hxy => absurd hxy hne, fun h => absurd h.2.2 hkept⟩, fun hxy => absurd hxy hne⟩

/-- A mask is handed out until its store is emptied, and the shared store has a mask of its own. -/
example :
    ((start .standard).run
      [(.own, .get ['[', '0', ']']), (.own, .get ['[', '0', ']']), (.own, .clear),
        (.own, .get ['[', '0', ']']), (.shared, .get ['[', '0', ']'])]).1.map
      (fun service => service.reply.handedOut?.map (·.serial)) =
    [some 0, some 0, none, some 1, some 2] := by
  decide

/-- Lookups of one request are given the same mask for the same format. -/
theorem Sound.serial_eq_iff_of_mem (h : d.Sound policy) {l l' : Lookup}
    (hl : l ∈ (d.lookUp call).answer) (hx : l.answer = .ok x)
    (hl' : l' ∈ (d.lookUp call).answer) (hy : l'.answer = .ok y) :
    (x.serial = y.serial ↔ l.format = l'.format) ∧ (x.serial = y.serial → x = y) := by
  have hfind := h.find?_of_lookUp hl hx
  have hfind' := h.find?_of_lookUp hl' hy
  obtain ⟨hmem, hformat⟩ := Store.find?_eq_some hfind
  obtain ⟨hmem', hformat'⟩ := Store.find?_eq_some hfind'
  have hsame (hxy : x.serial = y.serial) : x = y :=
    ((h.sound_serve call).eq_of_serial hmem hmem' hxy).2
  refine ⟨⟨fun hxy => ?_, fun hf => ?_⟩, hsame⟩
  · obtain rfl := hsame hxy
    exact hformat.symm.trans hformat'
  · rw [← hf] at hfind'
    rw [Option.some.inj (hfind.symm.trans hfind')]

/-! ### Failures -/

/-- A request that fails changes no store, if it needs one format at most. -/
theorem Sound.store_of_failed (h : d.Sound policy) {format : Text}
    (hcandidates : call.2.candidates = [format] ∨ call.2.candidates = [])
    (hwipes : ∀ c, call.wipes c = false) {e : DeskError}
    (hfailed : (d.serve call.1 call.2).1.reply = .failed e) (c : StoreChoice) :
    (d.serve call.1 call.2).2.store c = d.store c := by
  have hlookUp : (d.lookUp call).store = d.store call.1 := by
    rcases hcandidates with hone | hnone
    · have hanswer : d.lookUp call = (d.store call.1).lookUp d.next [format] := by
        rw [Desk.lookUp, hone]
      have htells := h.tells call
      rw [hanswer, Store.lookUp_singleton] at htells ⊢
      rw [hfailed] at htells
      rcases htells with ⟨hnil, -, -⟩ | ⟨x, hx, -, -⟩ | ⟨e', -, l, hl, he⟩
      · cases hnil
      · cases hx
      · obtain rfl := List.mem_singleton.mp hl
        rcases (h.stores call.1).get format with ⟨x, new, hgets⟩ | ⟨e'', -, hget⟩
        · cases hgets.answer.symm.trans he
        · rw [hget]
    · rw [lookUp_of_nil hnone]
  rw [(h.serve call).store, hwipes, if_neg Bool.false_ne_true, hlookUp]
  by_cases hc : c = call.1
  · rw [if_pos hc, hc]
  · rw [if_neg hc]

/-! ### The account of a request -/

/-- What is known of a request that a desk is asked after some others, of the desk that serves it
and the one that is left, of the service, and of the lookups that the request makes. -/
structure Accounted (policy : Policy) (history : List Call) (call : Call) (d d' : Desk)
    (service : Service) (lookups : List Lookup) : Prop where
  /-- The request is served after the others. -/
  run : (start policy).run (history ++ [call]) =
    (((start policy).run history).1 ++ [service], d')
  /-- The request does to the stores, the serial numbers and the log what its lookups do. -/
  does : d.Does call service d'
  /-- A store holds a format just if it compiles and was asked for since the store was emptied. -/
  contains (c : StoreChoice) (format : Text) : (d'.store c).contains format = true ↔
    IsFormat format ∧ RequestedSince (history ++ [call]) c format
  /-- A request whether a store holds a format is answered so. -/
  contained (format : Text) : call.2 = .contains format → ∃ yes, service.reply = .contained yes ∧
    (yes = true ↔ IsFormat format ∧ RequestedSince history call.1 format)
  /-- The request asks for its candidates, up to the first one that is malformed. -/
  asked : lookups.map (·.format) = TextMask.asked call.2.candidates
  /-- A lookup is given a mask of its format that scores with the weights of the store, or the error
  of the format. -/
  answers : ∀ l ∈ lookups,
    (∃ x, l.answer = .ok x ∧ x.mask.format = l.format ∧ x.mask.weights = weights policy call.1 ∧
      Chain.compile l.format = .ok x.mask.chain) ∨
    ∃ e, l.answer = .error e ∧ Chain.compile l.format = .error e ∧ e.pattern = l.format
  /-- The reply hands out the mask of a lookup, or tells the error of one. -/
  reply : Tells service.reply lookups
  /-- Lookups of the request are given the same mask for the same format. -/
  once : ∀ l ∈ lookups, ∀ l' ∈ lookups, ∀ x y, l.answer = .ok x → l'.answer = .ok y →
    (x.serial = y.serial ↔ l.format = l'.format) ∧ (x.serial = y.serial → x = y)
  /-- A later lookup is given the same mask just if it is of the same store and the same format, and
  the store was not emptied in between. -/
  same : ∀ l ∈ lookups, ∀ (between : List Call) (call' : Call),
    ∀ l' ∈ ((after policy (history ++ call :: between)).lookUp call').answer,
    ∀ x y, l.answer = .ok x → l'.answer = .ok y →
      (x.serial = y.serial ↔ call.1 = call'.1 ∧ l.format = l'.format ∧
        ∀ q ∈ between, q.wipes call.1 = false) ∧
      (x.serial = y.serial → x = y)
  /-- A request for a mask, or for a text formatted by one, changes no store if it fails. -/
  unchanged : ∀ format, (call.2 = .get format ∨ ∃ input, call.2 = .apply format input) →
    ∀ e, service.reply = .failed e → ∀ c, d'.store c = d.store c
  /-- New masks have new serial numbers and are answers of lookups. The log has a line for each of
  them, and for each lookup that failed, and no others. -/
  log : ∃ new : List StoredMask,
    (∀ c, (d'.store c).masks =
      (if call.wipes c then [] else (d.store c).masks) ++ if c = call.1 then new else []) ∧
    new.map (·.serial) = List.range' d.next new.length ∧ d'.next = d.next + new.length ∧
    (∀ x ∈ new, ⟨x.mask.format, .ok x⟩ ∈ lookups) ∧
    service.log.map (fun event => (event.level, event)) =
      (new.map fun x => ("DEBUG", .compiled x.mask.format x.mask.chain.maxTextLength
        x.mask.chain.maxValueLength)) ++
      (lookups.filterMap Lookup.error?).map fun e => ("WARNING", .formatError e)

/-- New masks and the log of a request. -/
theorem Sound.log_serve (h : d.Sound policy) (call : Call) :
    ∃ new : List StoredMask,
      (∀ c, ((d.serve call.1 call.2).2.store c).masks =
        (if call.wipes c then [] else (d.store c).masks) ++ if c = call.1 then new else []) ∧
      new.map (·.serial) = List.range' d.next new.length ∧
      (d.serve call.1 call.2).2.next = d.next + new.length ∧
      (∀ x ∈ new, ⟨x.mask.format, .ok x⟩ ∈ (d.lookUp call).answer) ∧
      (d.serve call.1 call.2).1.log = (new.map fun x => .ofMask x.mask) ++
        ((d.lookUp call).answer.filterMap Lookup.error?).map .formatError := by
  have hdoes := h.serve call
  obtain ⟨new, hfinds⟩ := h.lookUp call
  refine ⟨new, fun c => ?_, hfinds.adds.serials, hdoes.next.trans hfinds.adds.next,
    hfinds.answers, hdoes.log.trans hfinds.log⟩
  rw [hdoes.store]
  by_cases hw : call.wipes c = true
  · -- a request that empties a store makes no lookups, so nothing is new
    have hmem := hfinds.answers
    rw [lookUp_of_nil (Call.candidates_of_wipes hw)] at hmem
    have hnew : new = [] := List.eq_nil_iff_forall_not_mem.mpr fun x hx => nomatch hmem x hx
    rw [if_pos hw, if_pos hw, hnew, ite_self]
    rfl
  · rw [if_neg hw, if_neg hw]
    by_cases hc : c = call.1
    · rw [if_pos hc, if_pos hc, hfinds.adds.store, hc]
    · rw [if_neg hc, if_neg hc, List.append_nil]

end Desk

/-- **Stores follow the requests.** Whatever has been asked of the two stores of a desk, and
whatever is asked next, the request is accounted for: by the requests alone it is known which
formats the stores hold, which of the masks that are handed out are the same and what they are
compiled from, and the log has a line for each mask that was compiled and for each lookup that
failed. -/
theorem desk_accounted (policy : Policy) (history : List Call) (call : Call) :
    Desk.Accounted policy history call (Desk.after policy history)
      (Desk.after policy (history ++ [call]))
      ((Desk.after policy history).serve call.1 call.2).1
      ((Desk.after policy history).lookUp call).answer := by
  have h := Desk.sound_after policy history
  have hafter : Desk.after policy (history ++ [call]) =
      ((Desk.after policy history).serve call.1 call.2).2 := Desk.after_append policy history [call]
  have hasked := (h.stores call.1).formats_lookUp call.2.candidates
  refine ⟨?_, ?_, Desk.contains_after policy _, ?_, hasked, ?_, h.tells call, ?_, ?_, ?_, ?_⟩
  · rw [hafter, Desk.run_append]
    rfl
  · rw [hafter]
    exact h.serve call
  · intro format hcontains
    rw [hcontains]
    exact ⟨_, rfl, Desk.contains_after policy history call.1 format⟩
  · intro l hl
    rcases (h.stores call.1).right_lookUp call.2.candidates l hl with
      ⟨x, hx, hcompile, -⟩ | ⟨e, he, hcompile⟩
    · rw [h.weights] at hcompile
      obtain ⟨hchain, hformat, hweights⟩ := Mask.compile_eq_ok_iff.mp hcompile
      exact Or.inl ⟨x, hx, hformat, hweights, hchain⟩
    · have hchain := Mask.compile_eq_error_iff.mp hcompile
      exact Or.inr ⟨e, he, hchain, Chain.pattern_of_compile hchain⟩
  · intro l hl l' hl' x y hx hy
    exact h.serial_eq_iff_of_mem hl hx hl' hy
  · intro l hl between call' l' hl' x y hx hy
    rw [Desk.after_append] at hl'
    exact h.serial_eq_iff hl hx hl' hy
  · intro format hcall e he c
    have hcandidates : call.2.candidates = [format] ∨ call.2.candidates = [] := by
      rcases hcall with hget | ⟨input, happly⟩
      · rw [hget]
        exact Or.inl rfl
      · rw [happly]
        by_cases hp : input.isPlaced = true
        · exact Or.inl (if_pos hp)
        · exact Or.inr (if_neg hp)
    have hwipes (c : StoreChoice) : call.wipes c = false := by
      rcases hcall with hget | ⟨input, happly⟩
      · simp [Call.wipes, hget]
      · simp [Call.wipes, happly]
    rw [hafter]
    exact h.store_of_failed hcandidates hwipes he c
  · obtain ⟨new, hmasks, hserials, hnext, hmem, hlog⟩ := h.log_serve call
    rw [hafter]
    refine ⟨new, hmasks, hserials, hnext, hmem, ?_⟩
    rw [hlog]
    simp [LogEvent.ofMask, LogEvent.level, Function.comp_def]

end TextMask
