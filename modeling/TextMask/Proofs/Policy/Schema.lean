import TextMask.Policy.Schema
import TextMask.Proofs.Failure

/-!
# Which data are policies

A record is read field by field. It is refused just if something in it is at fault: a field that it
may not have, or one whose value cannot be read. The refusal then names all that is at fault and
nothing else. What is accepted is what the fields say, and the standard where they say nothing.

* `Datum.RecordFault`: what is at fault in a record whose fields are known;
* `Datum.Tells`: a reading that accepts what it should and names what is at fault;
* `Datum.readLeaf_tells`, `Datum.readField_tells`: values and fields are read so;
* `Weights.ofDatum_tells`, `Policy.ofDatum_tells`: so are weights and policies;
* `Policy.ofDatum_total`: what becomes of any data;
* `Policy.ofDatum_toDatum`: a policy that is written as data is read as itself.
-/

namespace TextMask

/-! ### What is at fault -/

namespace Datum

/-- A value that cannot be read, with the empty path. -/
def LeafFault {α : Type} (read? : Datum → Option α) (d : Datum) (path : FieldPath) : Prop :=
  read? d = none ∧ path = []

/-- What is at fault in data that should be a record. Each field that the record may have comes with
what can be at fault in its value. -/
inductive RecordFault (parts : List (String × (Datum → FieldPath → Prop))) :
    Datum → FieldPath → Prop
  | shape {d : Datum} : (∀ fields, d ≠ .record fields) → RecordFault parts d []
  | field {fields : List (Datum × Datum)} {name : String} {faulty : Datum → FieldPath → Prop}
      {value : Datum} {path : FieldPath} : (name, faulty) ∈ parts →
      field? name.toList fields = some value → faulty value path →
      RecordFault parts (.record fields) (name.toList :: path)
  | unknown {fields : List (Datum × Datum)} {f : Datum × Datum} : f ∈ fields →
      (∀ part ∈ parts, f.1.asText? ≠ some part.1.toList) →
      RecordFault parts (.record fields) [(f.1.asText?).getD []]

/-- What is at fault in the named field. -/
def FieldFault (fields : List (Datum × Datum)) (name : String)
    (faulty : Datum → FieldPath → Prop) (path : FieldPath) : Prop :=
  ∃ value rest, field? name.toList fields = some value ∧ faulty value rest ∧
    path = name.toList :: rest

/-- What a field says: its value if the record has it, and the standard otherwise. -/
def Says {α : Type} (fields : List (Datum × Datum)) (name : String) (standard : α)
    (reads : Datum → α → Prop) (a : α) : Prop :=
  field? name.toList fields = none ∧ a = standard ∨
    ∃ value, field? name.toList fields = some value ∧ reads value a

/-- A reading that accepts what it should, and names all that is at fault when it refuses. -/
structure Tells {α : Type} (reading : Except (List FieldPath) α) (valid : α → Prop)
    (faulty : FieldPath → Prop) : Prop where
  accepts : ∀ {a}, reading = .ok a ↔ valid a
  names : ∀ {path}, path ∈ faults reading ↔ faulty path
  refuses : ∀ {paths}, reading = .error paths → paths ≠ []

/-! ### Values and fields -/

theorem readLeaf_tells {α : Type} (read? : Datum → Option α) (d : Datum) :
    Tells (readLeaf read? d) (fun a => read? d = some a) (LeafFault read? d) := by
  unfold readLeaf LeafFault
  cases read? d with
  | none =>
    refine ⟨⟨(nomatch ·), (nomatch ·)⟩, ?_, ?_⟩
    · exact List.mem_singleton.trans (and_iff_right rfl).symm
    · rintro _ ⟨⟩
      exact List.cons_ne_nil _ _
  | some b =>
    refine ⟨fun {a} => ?_, ⟨(nomatch ·), fun h => nomatch h.1⟩, (nomatch ·)⟩
    rw [Except.ok.injEq, Option.some.injEq]

variable {α : Type} {fields : List (Datum × Datum)}

theorem readField_tells {read : Datum → Except (List FieldPath) α} {reads : Datum → α → Prop}
    {faulty : Datum → FieldPath → Prop} (h : ∀ d, Tells (read d) (reads d) (faulty d))
    (name : String) (standard : α) :
    Tells (readField fields name standard read) (Says fields name standard reads)
      (FieldFault fields name faulty) := by
  unfold readField Says FieldFault
  cases field? name.toList fields with
  | none =>
    refine ⟨fun {a} => ?_, ⟨(nomatch ·), fun ⟨_, _, h, _⟩ => nomatch h⟩, (nomatch ·)⟩
    constructor
    · rintro ⟨⟩
      exact Or.inl ⟨rfl, rfl⟩
    · rintro (⟨-, rfl⟩ | ⟨_, ⟨⟩, -⟩)
      rfl
  | some value =>
    have hvalue := h value
    refine ⟨fun {a} => ?_, fun {path} => ?_, fun {paths} hr => ?_⟩
    · rw [Except.mapError_eq_ok_iff, hvalue.accepts]
      constructor
      · exact fun ha => Or.inr ⟨value, rfl, ha⟩
      · rintro (⟨⟨⟩, -⟩ | ⟨_, ⟨⟩, ha⟩)
        exact ha
    · have hfaults : faults ((read value).mapError fun paths => paths.map (name.toList :: ·)) =
          (faults (read value)).map (name.toList :: ·) := by
        cases read value <;> rfl
      rw [hfaults, List.mem_map]
      constructor
      · rintro ⟨rest, hrest, rfl⟩
        exact ⟨value, rest, rfl, hvalue.names.mp hrest, rfl⟩
      · rintro ⟨_, rest, ⟨⟩, hrest, rfl⟩
        exact ⟨rest, hvalue.names.mpr hrest, rfl⟩
    · obtain ⟨paths', hread, rfl⟩ := Except.mapError_eq_error_iff.mp hr
      exact fun hnil => hvalue.refuses hread (List.map_eq_nil_iff.mp hnil)

/-! ### Records -/

/-- Two readings, one beside the other: what is at fault in either is named. -/
def both {α β : Type} (x : Except (List FieldPath) α) (y : Except (List FieldPath) β) :
    Except (List FieldPath) (α × β) :=
  match x, y with
  | .ok a, .ok b => .ok (a, b)
  | _, _ => .error (faults x ++ faults y)

/-- The check that a record has none but the known fields. -/
def checkFields (known : List String) (fields : List (Datum × Datum)) :
    Except (List FieldPath) Unit :=
  match unknownFields known fields with
  | [] => .ok ()
  | paths => .error paths

/-- The record has none but the known fields. -/
def FieldsKnown (known : List String) (fields : List (Datum × Datum)) : Prop :=
  ∀ f ∈ fields, ∃ name ∈ known, f.1.asText? = some name.toList

theorem mem_unknownFields {known : List String} {path : FieldPath} :
    path ∈ unknownFields known fields ↔
      ∃ f ∈ fields, (∀ name ∈ known, f.1.asText? ≠ some name.toList) ∧
        [(f.1.asText?).getD []] = path := by
  rw [unknownFields, List.mem_filterMap]
  refine exists_congr fun f => and_congr_right fun _ => ?_
  cases hf : f.1.asText? with
  | none =>
    show some [[]] = some path ↔ _
    rw [Option.some.injEq]
    exact (and_iff_right fun _ _ h => nomatch h).symm
  | some text =>
    have hname (name : String) : some text = some name.toList ↔ String.ofList text = name := by
      rw [Option.some.injEq]
      exact ⟨fun h => by rw [h, String.ofList_toList], fun h => by rw [← h, String.toList_ofList]⟩
    show (if known.contains (String.ofList text) then none else some [text]) = some path ↔ _
    by_cases hk : String.ofList text ∈ known
    · rw [if_pos (List.contains_iff_mem.mpr hk)]
      exact iff_of_false (nomatch ·) fun h => h.1 _ hk ((hname _).mpr rfl)
    · rw [if_neg fun h => hk (List.contains_iff_mem.mp h), Option.some.injEq]
      exact (and_iff_right fun name hmem h => hk ((hname name).mp h ▸ hmem)).symm

theorem unknownFields_eq_nil {known : List String} :
    unknownFields known fields = [] ↔ FieldsKnown known fields := by
  rw [List.eq_nil_iff_forall_not_mem]
  constructor
  · intro h f hf
    refine Classical.byContradiction fun hno => ?_
    exact h _ (mem_unknownFields.mpr ⟨f, hf, fun name hname he => hno ⟨name, hname, he⟩, rfl⟩)
  · intro h path hpath
    obtain ⟨f, hf, hno, -⟩ := mem_unknownFields.mp hpath
    obtain ⟨name, hname, hf⟩ := h f hf
    exact hno name hname hf

section

variable {β γ : Type} {x : Except (List FieldPath) α} {y : Except (List FieldPath) β}
  {validx : α → Prop} {validy : β → Prop} {faultyx faultyy : FieldPath → Prop}

theorem Tells.both (hx : Tells x validx faultyx) (hy : Tells y validy faultyy) :
    Tells (both x y) (fun p => validx p.1 ∧ validy p.2) fun path => faultyx path ∨ faultyy path where
  accepts := fun {p} => by
    rw [← hx.accepts, ← hy.accepts]
    obtain ⟨a, b⟩ := p
    cases x <;> cases y <;> simp [Datum.both]
  names := fun {path} => by
    rw [← hx.names, ← hy.names, ← List.mem_append]
    cases x <;> cases y <;> rfl
  refuses := fun {paths} h => by
    have hpaths : paths = faults x ++ faults y := by
      cases x <;> cases y <;> cases h <;> rfl
    rw [hpaths]
    intro hnil
    obtain ⟨hnilx, hnily⟩ := List.append_eq_nil_iff.mp hnil
    cases x with
    | error pathsx => exact hx.refuses rfl hnilx
    | ok a =>
      cases y with
      | error pathsy => exact hy.refuses rfl hnily
      | ok b => cases h

/-- The same reading, said in other words. -/
theorem Tells.map (hx : Tells x validx faultyx) (f : α → γ) {valid : γ → Prop}
    {faulty : FieldPath → Prop} (hvalid : ∀ c, valid c ↔ ∃ a, validx a ∧ f a = c)
    (hfaulty : ∀ path, faulty path ↔ faultyx path) : Tells (f <$> x) valid faulty where
  accepts := fun {c} => by
    rw [Except.map_eq_ok_iff, hvalid]
    exact exists_congr fun a => and_congr_left fun _ => hx.accepts
  names := fun {path} => by
    rw [hfaulty, ← hx.names]
    cases x <;> rfl
  refuses := fun h => hx.refuses (Except.map_eq_error_iff.mp h)

end

theorem checkFields_tells (known : List String) (fields : List (Datum × Datum)) :
    Tells (checkFields known fields) (fun _ => FieldsKnown known fields)
      (· ∈ unknownFields known fields) where
  accepts := fun {u} => by
    rw [← unknownFields_eq_nil, checkFields]
    cases unknownFields known fields <;> simp
  names := fun {path} => by
    rw [checkFields]
    cases unknownFields known fields <;> rfl
  refuses := fun {paths} h => by
    rw [checkFields] at h
    cases hpaths : unknownFields known fields with
    | nil =>
      rw [hpaths] at h
      cases h
    | cons path rest =>
      rw [hpaths] at h
      cases h
      exact List.cons_ne_nil _ _

/-- What is at fault in a record: what is at fault in its fields, and those that it may not have. -/
theorem recordFault_iff {parts : List (String × (Datum → FieldPath → Prop))} {path : FieldPath} :
    RecordFault parts (.record fields) path ↔
      (∃ part ∈ parts, FieldFault fields part.1 part.2 path) ∨
        path ∈ unknownFields (parts.map (·.1)) fields := by
  constructor
  · intro h
    cases h with
    | shape hno => exact absurd rfl (hno fields)
    | field hpart hfield hfault => exact Or.inl ⟨_, hpart, _, _, hfield, hfault, rfl⟩
    | unknown hf hno =>
      exact Or.inr (mem_unknownFields.mpr ⟨_, hf, List.forall_mem_map.mpr hno, rfl⟩)
  · rintro (⟨⟨name, faulty⟩, hpart, value, rest, hfield, hfault, rfl⟩ | h)
    · exact .field hpart hfield hfault
    · obtain ⟨f, hf, hno, rfl⟩ := mem_unknownFields.mp h
      exact .unknown hf fun part hpart => hno _ (List.mem_map_of_mem hpart)

/-- Data that are no record are refused, with the empty path. -/
theorem shape_tells {parts : List (String × (Datum → FieldPath → Prop))} {d : Datum}
    {valid : α → Prop} (hno : ∀ fields, d ≠ .record fields) (hvalid : ∀ a, ¬ valid a) :
    Tells (.error [[]]) valid (RecordFault parts d) where
  accepts := fun {a} => ⟨(nomatch ·), fun h => absurd h (hvalid a)⟩
  names := fun {path} => by
    rw [faults, List.mem_singleton]
    constructor
    · rintro rfl
      exact .shape hno
    · intro h
      cases h with
      | shape => rfl
      | field => exact absurd rfl (hno _)
      | unknown => exact absurd rfl (hno _)
  refuses := by
    rintro _ ⟨⟩
    exact List.cons_ne_nil _ _

end Datum

/-! ### Weights -/

namespace Weights

open Datum

/-- The fields of weights, with what can be at fault in their values. -/
def parts : List (String × (Datum → FieldPath → Prop)) :=
  [("consumed", LeafFault toInteger?), ("not_consumed", LeafFault toInteger?),
    ("dropped", LeafFault toInteger?)]

/-- The weights that data say. -/
inductive SaidBy : Datum → Weights → Prop
  | record {fields : List (Datum × Datum)} {w : Weights} :
      Says fields "consumed" ({} : Weights).consumed (fun d n => d.toInteger? = some n) w.consumed →
      Says fields "not_consumed" ({} : Weights).notConsumed (fun d n => d.toInteger? = some n)
        w.notConsumed →
      Says fields "dropped" ({} : Weights).dropped (fun d n => d.toInteger? = some n) w.dropped →
      FieldsKnown (parts.map (·.1)) fields → SaidBy (.record fields) w

theorem ofDatum_record (fields : List (Datum × Datum)) :
    ofDatum (.record fields) =
      (fun p => ⟨p.1, p.2.1, p.2.2.1⟩) <$>
        both (readField fields "consumed" ({} : Weights).consumed (readLeaf toInteger?))
          (both (readField fields "not_consumed" ({} : Weights).notConsumed (readLeaf toInteger?))
            (both (readField fields "dropped" ({} : Weights).dropped (readLeaf toInteger?))
              (checkFields (parts.map (·.1)) fields))) := by
  simp only [ofDatum, checkFields, parts, List.map_cons, List.map_nil]
  generalize readField fields "consumed" _ _ = consumed
  generalize readField fields "not_consumed" _ _ = notConsumed
  generalize readField fields "dropped" _ _ = dropped
  generalize unknownFields _ fields = unknown
  cases consumed <;> cases notConsumed <;> cases dropped <;> cases unknown <;>
    simp [both, faults, Functor.map, Except.map]

theorem ofDatum_tells (d : Datum) :
    Tells (ofDatum d) (SaidBy d) (RecordFault parts d) := by
  cases d with
  | record fields =>
    rw [ofDatum_record]
    have hread := @readField_tells _ fields _ _ _ (readLeaf_tells toInteger?)
    refine ((hread "consumed" _).both ((hread "not_consumed" _).both ((hread "dropped" _).both
      (checkFields_tells _ fields)))).map _ ?_ ?_
    · intro w
      constructor
      · intro h
        cases h with
        | record hc hn hd hknown =>
          exact ⟨(w.consumed, w.notConsumed, w.dropped, ()), ⟨hc, hn, hd, hknown⟩, rfl⟩
      · rintro ⟨p, ⟨hc, hn, hd, hknown⟩, rfl⟩
        exact .record hc hn hd hknown
    · intro path
      rw [recordFault_iff]
      simp only [parts, List.mem_cons, List.not_mem_nil, or_false, exists_eq_or_imp,
        exists_eq_left, or_assoc]
  | _ => exact shape_tells (fun _ h => nomatch h) fun _ h => nomatch h

end Weights

/-! ### Policies -/

namespace Policy

open Datum

/-- The fields of a policy, with what can be at fault in their values. -/
def parts : List (String × (Datum → FieldPath → Prop)) :=
  [("affinity", RecordFault Weights.parts), ("autocomplete", LeafFault toFlag?)]

/-- The policy that data say. -/
inductive SaidBy : Datum → Policy → Prop
  | record {fields : List (Datum × Datum)} {p : Policy} :
      Says fields "affinity" standard.weights Weights.SaidBy p.weights →
      Says fields "autocomplete" standard.autocomplete (fun d b => d.toFlag? = some b)
        p.autocomplete →
      FieldsKnown (parts.map (·.1)) fields → SaidBy (.record fields) p

theorem ofDatum_record (fields : List (Datum × Datum)) :
    ofDatum (.record fields) =
      (fun p => ⟨p.1, p.2.1⟩) <$>
        both (readField fields "affinity" standard.weights Weights.ofDatum)
          (both (readField fields "autocomplete" standard.autocomplete (readLeaf toFlag?))
            (checkFields (parts.map (·.1)) fields)) := by
  simp only [ofDatum, checkFields, parts, List.map_cons, List.map_nil, standard]
  generalize readField fields "affinity" _ _ = weights
  generalize readField fields "autocomplete" _ _ = autocomplete
  generalize unknownFields _ fields = unknown
  cases weights <;> cases autocomplete <;> cases unknown <;>
    simp [both, faults, Functor.map, Except.map]

theorem ofDatum_tells (d : Datum) : Tells (ofDatum d) (SaidBy d) (RecordFault parts d) := by
  cases d with
  | record fields =>
    rw [ofDatum_record]
    refine ((readField_tells Weights.ofDatum_tells "affinity" _).both
      ((readField_tells (readLeaf_tells toFlag?) "autocomplete" _).both
        (checkFields_tells _ fields))).map _ ?_ ?_
    · intro p
      constructor
      · intro h
        cases h with
        | record hw ha hknown => exact ⟨(p.weights, p.autocomplete, ()), ⟨hw, ha, hknown⟩, rfl⟩
      · rintro ⟨q, ⟨hw, ha, hknown⟩, rfl⟩
        exact .record hw ha hknown
    · intro path
      rw [recordFault_iff]
      simp only [parts, List.mem_cons, List.not_mem_nil, or_false, exists_eq_or_imp,
        exists_eq_left, or_assoc]
  | _ => exact shape_tells (fun _ h => nomatch h) fun _ h => nomatch h

/-- Whatever data are given, either they say a policy, nothing in them is at fault, and they are read
as that policy, or something is at fault, and just that is named. -/
theorem ofDatum_total (d : Datum) :
    (∃ p, ofDatum d = .ok p ∧ SaidBy d p ∧ ∀ path, ¬ RecordFault parts d path) ∨
      ∃ paths, ofDatum d = .error paths ∧ paths ≠ [] ∧ (∀ p, ¬ SaidBy d p) ∧
        ∀ path, path ∈ paths ↔ RecordFault parts d path := by
  have htells := ofDatum_tells d
  cases h : ofDatum d with
  | ok p =>
    refine Or.inl ⟨p, rfl, htells.accepts.mp h, fun path hpath => ?_⟩
    have hmem := htells.names.mpr hpath
    rw [h] at hmem
    exact List.not_mem_nil hmem
  | error paths =>
    refine Or.inr ⟨paths, rfl, htells.refuses h, fun p hp => ?_, fun path => ?_⟩
    · have hok := htells.accepts.mpr hp
      rw [h] at hok
      cases hok
    · rw [← htells.names, h]
      rfl

/-- A policy as data. -/
def toDatum (p : Policy) : Datum :=
  .record
    [(.text "affinity".toList, .record
      [(.text "consumed".toList, .integer p.weights.consumed),
        (.text "not_consumed".toList, .integer p.weights.notConsumed),
        (.text "dropped".toList, .integer p.weights.dropped)]),
      (.text "autocomplete".toList, .flag p.autocomplete)]

/-- A policy that is written as data is read as itself. -/
theorem ofDatum_toDatum (p : Policy) : ofDatum p.toDatum = .ok p := by
  refine (ofDatum_tells _).accepts.mpr (.record (Or.inr ⟨_, rfl, .record ?_ ?_ ?_ ?_⟩) ?_ ?_)
  · exact Or.inr ⟨_, rfl, rfl⟩
  · exact Or.inr ⟨_, rfl, rfl⟩
  · exact Or.inr ⟨_, rfl, rfl⟩
  · simp [FieldsKnown, Weights.parts, asText?]
  · exact Or.inr ⟨_, rfl, rfl⟩
  · simp [FieldsKnown, parts, asText?]

end Policy

end TextMask
