import TextMask.Proofs.Store.Picking
import TextMask.Store.Desk

/-!
# Requests to a desk

Whatever is asked of a desk, it asks one of its stores for some formats, or drops the masks of one
of them. `Sound.serve` says so once for all requests; what holds of a desk after every run is then
proved by induction on the run.

* `Request.candidates`, `Call.wipes`: which formats a request needs, and which stores it empties;
* `Desk.Sound`: both stores are sound and have their own weights and their own serial numbers;
* `Sound.serve`: what a request does to the stores, the serial numbers and the log;
* `Sound.tells`: what the reply has to do with the lookups;
* `Sound.run`, `Desk.sound_after`: desks are sound after every run;
* `Sound.find?_run`: a store keeps its masks as long as it is not emptied;
* `Desk.Gone`, `Gone.run`: a serial number that is out of use stays out of use.
-/

namespace TextMask

/-! ### What a request needs and what it drops -/

/-- Whether the caret lies in the text. -/
def Input.isPlaced (input : Input) : Bool := (CaretText.placeOrEnd input.text input.caret).isOk

/-- The formats that a request needs the masks of, in order. None is needed if the caret of the
text is refused. -/
def Request.candidates : Request → List Text
  | .get format => [format]
  | .apply format input => if input.isPlaced then [format] else []
  | .pick primary affine input => if input.isPlaced then primary :: affine else []
  | .contains _ | .clear | .reset => []

/-- A request and the store that it is meant for. -/
abbrev Call := StoreChoice × Request

/-- Whether a request drops the masks of a store: clearing drops those of the store that it is meant
for, a reset those of the shared store. -/
def Call.wipes (call : Call) (choice : StoreChoice) : Bool :=
  match call.2 with
  | .clear => call.1 == choice
  | .reset => choice == .shared
  | _ => false

/-- A request that empties a store needs no masks. -/
theorem Call.candidates_of_wipes {call : Call} {choice : StoreChoice}
    (h : call.wipes choice = true) : call.2.candidates = [] := by
  obtain ⟨c, r⟩ := call
  cases r <;> first | rfl | exact absurd h Bool.false_ne_true

namespace Desk

variable {policy : Policy} {d : Desk} {c c' : StoreChoice} {n : Serial} {x : StoredMask}

/-- The weights that a store of a desk scores with. -/
def weights (policy : Policy) : StoreChoice → Weights
  | .own => policy.weights
  | .shared => Policy.standard.weights

/-- The lookups that a request makes. -/
def lookUp (d : Desk) (call : Call) : Served (List Lookup) :=
  (d.store call.1).lookUp d.next call.2.candidates

/-- A desk whose stores are sound, and do not share masks. -/
structure Sound (policy : Policy) (d : Desk) : Prop where
  weights (c : StoreChoice) : (d.store c).weights = Desk.weights policy c
  stores (c : StoreChoice) : (d.store c).Sound d.next
  apart : ∀ c c' : StoreChoice, ∀ x ∈ (d.store c).masks, ∀ y ∈ (d.store c').masks,
    x.serial = y.serial → c = c'

theorem store_start (policy : Policy) (c : StoreChoice) :
    (start policy).store c = .empty (weights policy c) := by
  cases c <;> rfl

theorem sound_start (policy : Policy) : (start policy).Sound policy where
  weights c := by rw [store_start]; rfl
  stores c := by rw [store_start]; exact Store.sound_empty _ _
  apart c c' x hx := by rw [store_start] at hx; exact nomatch hx

/-! ### One request -/

theorem store_withStore (d : Desk) (c c' : StoreChoice) (s : Store) :
    (d.withStore c s).store c' = if c' = c then s else d.store c' := by
  cases c <;> cases c' <;> rfl

theorem store_passOn {ε α : Type} (d : Desk) (c c' : StoreChoice) (served : Served (Except ε α))
    (reply : α → Reply) (error : ε → DeskError) :
    (d.passOn c served reply error).2.store c' = if c' = c then served.store else d.store c' := by
  cases c <;> cases c' <;> rfl

theorem lookUp_of_nil {call : Call} (h : call.2.candidates = []) (d : Desk) :
    d.lookUp call = ⟨[], d.store call.1, d.next, []⟩ := by
  rw [lookUp, h]
  rfl

/-- What a request does: it asks its store for formats, or it empties a store. -/
structure Does (d : Desk) (call : Call) (service : Service) (d' : Desk) : Prop where
  store (c : StoreChoice) : d'.store c =
    if call.wipes c then (d.store c).clear
    else if c = call.1 then (d.lookUp call).store else d.store c
  next : d'.next = (d.lookUp call).next
  log : service.log = (d.lookUp call).log

/-- A request that needs no masks and empties no store leaves a desk as it is. -/
theorem does_nothing {call : Call} {service : Service} (hwipes : ∀ c, call.wipes c = false)
    (hcandidates : call.2.candidates = []) (hlog : service.log = []) :
    d.Does call service d where
  store c := by
    rw [lookUp_of_nil hcandidates, hwipes, if_neg Bool.false_ne_true]
    by_cases hc : c = call.1
    · rw [if_pos hc, hc]
    · rw [if_neg hc]
  next := by rw [lookUp_of_nil hcandidates]
  log := by rw [lookUp_of_nil hcandidates, hlog]

/-- A request whose store does what the lookups do. -/
theorem does_passOn {ε α : Type} (call : Call) {served : Served (Except ε α)}
    (hwipes : ∀ c, call.wipes c = false)
    (hserved : served = { d.lookUp call with answer := served.answer }) (reply : α → Reply)
    (error : ε → DeskError) :
    d.Does call (d.passOn call.1 served reply error).1 (d.passOn call.1 served reply error).2 where
  store c := by
    rw [store_passOn, hwipes, if_neg Bool.false_ne_true, hserved]
  next := by
    show served.next = _
    rw [hserved]
  log := by
    show served.log = _
    rw [hserved]

/-- A request with a text is served if the caret lies in the text, and else refused. -/
theorem withInput_cases (d : Desk) (c : StoreChoice) (input : Input)
    (serve : CaretText → Service × Desk) :
    (input.isPlaced = false ∧ ∃ e,
      d.withInput c input serve = (⟨.failed (.caret e), (d.store c).size, []⟩, d)) ∨
    input.isPlaced = true ∧ ∃ t, d.withInput c input serve = serve t := by
  rw [Input.isPlaced, withInput]
  cases CaretText.placeOrEnd input.text input.caret with
  | error e => exact Or.inl ⟨rfl, e, rfl⟩
  | ok t => exact Or.inr ⟨rfl, t, rfl⟩

theorem does_withInput (call : Call) {input : Input} {formats : List Text}
    (hwipes : ∀ c, call.wipes c = false)
    (hcandidates : call.2.candidates = if input.isPlaced then formats else [])
    {serve : CaretText → Service × Desk}
    (hserve : ∀ t, call.2.candidates = formats → d.Does call (serve t).1 (serve t).2) :
    d.Does call (d.withInput call.1 input serve).1 (d.withInput call.1 input serve).2 := by
  rcases withInput_cases d call.1 input serve with ⟨hplaced, e, hfail⟩ | ⟨hplaced, t, hserved⟩
  · rw [hplaced, if_neg Bool.false_ne_true] at hcandidates
    rw [hfail]
    exact does_nothing hwipes hcandidates rfl
  · rw [hplaced, if_pos rfl] at hcandidates
    rw [hserved]
    exact hserve t hcandidates

/-- **What a request does**: it asks one store for formats, or empties one. -/
theorem Sound.serve (h : d.Sound policy) (call : Call) :
    d.Does call (d.serve call.1 call.2).1 (d.serve call.1 call.2).2 := by
  obtain ⟨c, r⟩ := call
  cases r with
  | get format =>
    refine does_passOn (c, .get format) (fun _ => rfl) ?_ _ _
    have hlookUp : d.lookUp (c, .get format) = (d.store c).lookUp d.next [format] := rfl
    rw [hlookUp, Store.lookUp_singleton]
  | contains format => exact does_nothing (fun _ => rfl) rfl rfl
  | clear =>
    refine ⟨fun c' => ?_, ?_, rfl⟩
    · show (d.withStore c _).store c' = _
      rw [store_withStore]
      by_cases hc : c' = c
      · subst hc
        simp [Call.wipes]
      · have hc' : c ≠ c' := Ne.symm hc
        simp [Call.wipes, hc, hc']
    · cases c <;> rfl
  | reset =>
    refine ⟨fun c' => ?_, rfl, rfl⟩
    cases c' with
    | own =>
      cases c <;> rfl
    | shared =>
      -- the next shared store is made with the weights that the dropped one had
      have hw := h.weights .shared
      show Store.empty Policy.standard.weights = (d.store .shared).clear
      rw [Store.clear, hw]
      rfl
  | apply format input =>
    refine does_withInput (c, .apply format input) (fun _ => rfl) rfl fun t hformats => ?_
    refine does_passOn (c, .apply format input) (fun _ => rfl) ?_ _ _
    rw [lookUp, hformats, Store.lookUp_singleton]
    rfl
  | pick primary affine input =>
    refine does_withInput (c, .pick primary affine input) (fun _ => rfl) rfl
      fun t hformats => ?_
    refine does_passOn (c, .pick primary affine input) (fun _ => rfl) ?_ _ _
    rw [lookUp, hformats]
    exact ((h.stores c).pick t input.autocomplete primary affine).1

/-! ### Replies -/

/-- What a reply tells of the lookups of its request: nothing if there were none; else it hands out
one of the masks if all of them succeeded, and fails as one of them does if not. -/
def Tells (reply : Reply) (lookups : List Lookup) : Prop :=
  (lookups = [] ∧ reply.handedOut? = none ∧
    ∀ e, reply = .failed e → ∃ refused, e = .caret refused) ∨
  (∃ x, reply.handedOut? = some x ∧ (∃ l ∈ lookups, l.answer = .ok x) ∧
    ∀ l ∈ lookups, ∃ y, l.answer = .ok y) ∨
  ∃ e, reply = .failed (.format e) ∧ ∃ l ∈ lookups, l.answer = .error e

theorem tells_of_decided {lookups : List Lookup} {served : Served (Except StoreError Picked)}
    (h : Store.Decided lookups served.answer) {reply : Picked → Reply}
    (hreply : ∀ p, (reply p).handedOut? = some p.stored) (d : Desk) (c : StoreChoice) :
    Tells (d.passOn c served reply .ofStoreError).1.reply lookups := by
  rcases h with ⟨p, hp, hmask, hall⟩ | ⟨e, he, hfail⟩
  · refine Or.inr (Or.inl ⟨p.stored, ?_, hmask, hall⟩)
    simp only [passOn, hp, hreply]
  · refine Or.inr (Or.inr ⟨e, ?_, hfail⟩)
    simp only [passOn, he, DeskError.ofStoreError]

theorem tells_withInput (call : Call) {input : Input} {formats : List Text}
    (hcandidates : call.2.candidates = if input.isPlaced then formats else [])
    {serve : CaretText → Service × Desk}
    (hserve : ∀ t, call.2.candidates = formats →
      Tells (serve t).1.reply (d.lookUp call).answer) :
    Tells (d.withInput call.1 input serve).1.reply (d.lookUp call).answer := by
  rcases withInput_cases d call.1 input serve with ⟨hplaced, e, hfail⟩ | ⟨hplaced, t, hserved⟩
  · rw [hplaced, if_neg Bool.false_ne_true] at hcandidates
    rw [lookUp_of_nil hcandidates, hfail]
    refine Or.inl ⟨rfl, rfl, fun e' he' => ⟨e, ?_⟩⟩
    exact (Reply.failed.inj he').symm
  · rw [hplaced, if_pos rfl] at hcandidates
    rw [hserved]
    exact hserve t hcandidates

/-- **What a reply tells.** -/
theorem Sound.tells (h : d.Sound policy) (call : Call) :
    Tells (d.serve call.1 call.2).1.reply (d.lookUp call).answer := by
  obtain ⟨c, r⟩ := call
  cases r with
  | get format =>
    have hlookUp : d.lookUp (c, .get format) = (d.store c).lookUp d.next [format] := rfl
    rw [hlookUp, Store.lookUp_singleton]
    rcases (h.stores c).get format with ⟨x, new, hgets⟩ | ⟨e, -, hget⟩
    · have hanswer := hgets.answer
      refine Or.inr (Or.inl ⟨x, ?_, ⟨_, List.mem_singleton_self _, hanswer⟩, fun l hl => ⟨x, ?_⟩⟩)
      · simp only [Desk.serve, passOn, hanswer, Reply.handedOut?]
      · obtain rfl := List.mem_singleton.mp hl
        exact hanswer
    · have hanswer : ((d.store c).get d.next format).answer = .error e := by rw [hget]
      refine Or.inr (Or.inr ⟨e, ?_, _, List.mem_singleton_self _, hanswer⟩)
      simp only [Desk.serve, passOn, hanswer]
  | contains format => exact Or.inl ⟨rfl, rfl, fun e he => nomatch he⟩
  | clear => exact Or.inl ⟨rfl, rfl, fun e he => nomatch he⟩
  | reset => exact Or.inl ⟨rfl, rfl, fun e he => nomatch he⟩
  | apply format input =>
    refine tells_withInput (c, .apply format input) rfl fun t hformats => ?_
    rw [lookUp, hformats]
    exact tells_of_decided ((h.stores c).decided_format format t input.autocomplete)
      (fun _ => rfl) d c
  | pick primary affine input =>
    refine tells_withInput (c, .pick primary affine input) rfl fun t hformats => ?_
    rw [lookUp, hformats]
    exact tells_of_decided ((h.stores c).decided_pick t input.autocomplete primary affine)
      (fun _ => rfl) d c

/-! ### Soundness -/

/-- The masks that a request adds to its store. -/
theorem Sound.lookUp (h : d.Sound policy) (call : Call) :
    ∃ new, (d.store call.1).Finds d.next new (d.lookUp call) :=
  (h.stores call.1).lookUp call.2.candidates

theorem Sound.next_le (h : d.Sound policy) (call : Call) :
    d.next ≤ (d.serve call.1 call.2).2.next := by
  obtain ⟨new, hfinds⟩ := h.lookUp call
  rw [(h.serve call).next]
  exact hfinds.adds.next_le

/-- What a store holds after a request it held before, or it is new and has a new number. -/
theorem Sound.mem_serve (h : d.Sound policy) {call : Call}
    (hx : x ∈ ((d.serve call.1 call.2).2.store c).masks) :
    x ∈ (d.store c).masks ∨ c = call.1 ∧ d.next ≤ x.serial := by
  obtain ⟨new, hfinds⟩ := h.lookUp call
  rw [(h.serve call).store] at hx
  by_cases hw : call.wipes c = true
  · rw [if_pos hw] at hx
    exact nomatch hx
  · rw [if_neg hw] at hx
    by_cases hc : c = call.1
    · rw [if_pos hc] at hx
      rcases hfinds.adds.mem_iff.mp hx with hx | hx
      · rw [hc]
        exact Or.inl hx
      · exact Or.inr ⟨hc, (hfinds.adds.serial_mem hx).1⟩
    · rw [if_neg hc] at hx
      exact Or.inl hx

/-- **Soundness is kept** by every request. -/
theorem Sound.sound_serve (h : d.Sound policy) (call : Call) :
    (d.serve call.1 call.2).2.Sound policy := by
  have hdoes := h.serve call
  obtain ⟨new, hfinds⟩ := h.lookUp call
  refine ⟨fun c => ?_, fun c => ?_, fun c c' x hx y hy hxy => ?_⟩
  · rw [hdoes.store]
    by_cases hw : call.wipes c = true
    · rw [if_pos hw]
      exact h.weights c
    · rw [if_neg hw]
      by_cases hc : c = call.1
      · rw [if_pos hc, hfinds.adds.store, hc]
        exact h.weights call.1
      · rw [if_neg hc]
        exact h.weights c
  · rw [hdoes.store]
    by_cases hw : call.wipes c = true
    · rw [if_pos hw]
      exact Store.sound_clear _ _
    · rw [if_neg hw]
      by_cases hc : c = call.1
      · rw [if_pos hc, hdoes.next]
        exact hfinds.sound
      · rw [if_neg hc]
        exact (h.stores c).mono (h.next_le call)
  · -- masks that both are old were apart before; masks that both are new are of one store
    rcases h.mem_serve hx with hx | ⟨rfl, hnew⟩
    · rcases h.mem_serve hy with hy | ⟨rfl, hnew'⟩
      · exact h.apart c c' x hx y hy hxy
      · exact absurd ((h.stores c).issued x hx) (hxy ▸ hnew').not_gt
    · rcases h.mem_serve hy with hy | ⟨rfl, -⟩
      · exact absurd ((h.stores c').issued y hy) (hxy ▸ hnew).not_gt
      · rfl

/-! ### Runs -/

theorem run_cons (d : Desk) (call : Call) (rest : List Call) :
    d.run (call :: rest) =
      ((d.serve call.1 call.2).1 :: ((d.serve call.1 call.2).2.run rest).1,
        ((d.serve call.1 call.2).2.run rest).2) := rfl

theorem run_append (d : Desk) (calls calls' : List Call) :
    d.run (calls ++ calls') =
      ((d.run calls).1 ++ ((d.run calls).2.run calls').1, ((d.run calls).2.run calls').2) := by
  induction calls generalizing d with
  | nil => rfl
  | cons call calls ih => rw [List.cons_append, run_cons, ih, run_cons, List.cons_append]

/-- **Soundness is kept** by every run. -/
theorem Sound.run (h : d.Sound policy) (calls : List Call) : (d.run calls).2.Sound policy := by
  induction calls generalizing d with
  | nil => exact h
  | cons call calls ih => exact ih (h.sound_serve call)

/-- A new desk after some requests. -/
def after (policy : Policy) (history : List Call) : Desk := ((start policy).run history).2

theorem sound_after (policy : Policy) (history : List Call) :
    (after policy history).Sound policy :=
  (sound_start policy).run history

theorem after_append (policy : Policy) (history calls : List Call) :
    after policy (history ++ calls) = ((after policy history).run calls).2 := by
  rw [after, run_append]
  rfl

/-! ### What is kept and what is gone -/

/-- A store keeps its masks as long as it is not emptied. -/
theorem Sound.find?_serve (h : d.Sound policy) {call : Call} {format : Text}
    (hx : (d.store c).find? format = some x) (hw : call.wipes c = false) :
    ((d.serve call.1 call.2).2.store c).find? format = some x := by
  obtain ⟨new, hfinds⟩ := h.lookUp call
  rw [(h.serve call).store, hw, if_neg Bool.false_ne_true]
  by_cases hc : c = call.1
  · rw [if_pos hc]
    rw [hc] at hx
    exact hfinds.adds.find? hx
  · rw [if_neg hc]
    exact hx

theorem Sound.find?_run (h : d.Sound policy) {calls : List Call} {format : Text}
    (hx : (d.store c).find? format = some x) (hw : ∀ call ∈ calls, call.wipes c = false) :
    ((d.run calls).2.store c).find? format = some x := by
  induction calls generalizing d with
  | nil => exact hx
  | cons call calls ih =>
    obtain ⟨hcall, hcalls⟩ := List.forall_mem_cons.mp hw
    exact ih (h.sound_serve call) (h.find?_serve hx hcall) hcalls

/-- A serial number that was issued and that no mask of the store has. -/
structure Gone (d : Desk) (c : StoreChoice) (n : Serial) : Prop where
  issued : n < d.next
  absent : ∀ x ∈ (d.store c).masks, x.serial ≠ n

/-- **What is gone stays away**: numbers are not issued again. -/
theorem Gone.serve (hg : d.Gone c n) (h : d.Sound policy) (call : Call) :
    (d.serve call.1 call.2).2.Gone c n where
  issued := hg.issued.trans_le (h.next_le call)
  absent x hx := by
    rcases h.mem_serve hx with hx | ⟨-, hnew⟩
    · exact hg.absent x hx
    · exact (hg.issued.trans_le hnew).ne'

theorem Gone.run (hg : d.Gone c n) (h : d.Sound policy) (calls : List Call) :
    (d.run calls).2.Gone c n := by
  induction calls generalizing d with
  | nil => exact hg
  | cons call calls ih => exact ih (hg.serve h call) (h.sound_serve call)

/-- What a store drops is gone from it. -/
theorem Sound.gone_of_wipes (h : d.Sound policy) {calls : List Call} (hn : n < d.next)
    (hw : ∃ call ∈ calls, call.wipes c = true) : (d.run calls).2.Gone c n := by
  induction calls generalizing d with
  | nil => exact nomatch hw
  | cons call calls ih =>
    have hn' : n < (d.serve call.1 call.2).2.next := hn.trans_le (h.next_le call)
    by_cases hcall : call.wipes c = true
    · refine Gone.run ⟨hn', fun x hx => ?_⟩ (h.sound_serve call) calls
      rw [(h.serve call).store, if_pos hcall] at hx
      exact nomatch hx
    · obtain ⟨call', hmem, hcall'⟩ := hw
      rcases List.mem_cons.mp hmem with rfl | hmem
      · exact absurd hcall' hcall
      · exact ih (h.sound_serve call) hn' ⟨call', hmem, hcall'⟩

end Desk

end TextMask
