import TextMask.Policy.Load
import TextMask.Proofs.Policy.Schema
import TextMask.Proofs.Text.Utf8
import TextMask.Proofs.Yaml.Data
import TextMask.Store.Desk

/-!
# What a policy file says

A policy file is read in three steps: its bytes are a text, the text is a document, and the document
says a policy. A file is refused for the first of these that fails.

* `Policy.ofDocument_eq_ok_iff`, `Policy.load_eq_ok_iff`: what is read as which policy;
* `Policy.load_eq_badSchema_iff`: which files hold a record that is no policy;
* `Policy.load_eq_badYaml_iff`: which files hold no document;
* `Policy.load_windowsLines`: how the lines of a file end does not matter;
* `Policy.load_shipped`: the file that comes with the program says the standard policy, and so
  scores a shared store that is not in use (`Desk.store_shared`).
-/

namespace TextMask

namespace Policy

theorem ofDocument_eq_ok_iff {d : Datum} {p : Policy} :
    ofDocument d = .ok p ↔ d = .null ∧ p = standard ∨ SaidBy d p := by
  cases d with
  | null =>
    constructor
    · rintro ⟨⟩
      exact Or.inl ⟨rfl, rfl⟩
    · rintro (⟨-, rfl⟩ | h)
      · rfl
      · cases h
  | record fields =>
    rw [ofDocument, Except.mapError_eq_ok_iff, (ofDatum_tells _).accepts]
    exact (or_iff_right (nomatch ·.1)).symm
  | _ => exact ⟨(nomatch ·), fun h => h.elim (nomatch ·.1) (nomatch ·)⟩

/-- A document is refused by its schema just if it is a record in which something is at fault. -/
theorem ofDocument_eq_badSchema_iff {d : Datum} :
    ofDocument d = .error .badSchema ↔
      ∃ fields path, d = .record fields ∧ Datum.RecordFault parts d path := by
  cases d with
  | record fields =>
    rw [ofDocument, Except.mapError_eq_error_iff]
    rcases ofDatum_total (.record fields) with
      ⟨p, hp, -, hno⟩ | ⟨paths, hpaths, hne, -, hfaults⟩
    · rw [hp]
      exact iff_of_false (fun ⟨_, h, _⟩ => nomatch h) fun ⟨_, path, _, h⟩ => hno path h
    · obtain ⟨path, hpath⟩ := List.exists_mem_of_ne_nil paths hne
      exact iff_of_true ⟨paths, hpaths, rfl⟩ ⟨fields, path, rfl, (hfaults path).mp hpath⟩
  | null => exact iff_of_false (nomatch ·) fun ⟨_, _, h, _⟩ => nomatch h
  | _ => exact iff_of_false (nomatch ·) fun ⟨_, _, h, _⟩ => nomatch h

/-! ### Files -/

/-- A file that holds a text is read as the document of that text. -/
theorem load_encode (t : Text) :
    load (.bytes (Utf8.encode t)) =
      (Yaml.document (unifyLineEnds t)).mapError .ofFault >>= ofDocument := by
  rw [load, Utf8.decode_encode]
  rfl

/-- A file is accepted just if it holds a text whose document is empty or says a policy. -/
theorem load_eq_ok_iff {file : PolicyFile} {p : Policy} :
    load file = .ok p ↔
      ∃ t d, file = .bytes (Utf8.encode t) ∧ Yaml.document (unifyLineEnds t) = .ok d ∧
        (d = .null ∧ p = standard ∨ SaidBy d p) := by
  constructor
  · intro h
    cases file with
    | missing => cases h
    | bytes content =>
      obtain ⟨t, ht, h⟩ := Except.bind_eq_ok_iff.mp h
      obtain ⟨d, hd, h⟩ := Except.bind_eq_ok_iff.mp h
      rw [Except.mapError_eq_ok_iff] at ht hd
      exact ⟨t, d, congrArg _ (Utf8.decode_eq_ok_iff.mp ht), hd, ofDocument_eq_ok_iff.mp h⟩
  · rintro ⟨t, d, rfl, hd, h⟩
    rw [load_encode, hd]
    exact ofDocument_eq_ok_iff.mpr h

theorem ofFault_ne_badSchema (fault : Yaml.Fault) : PolicyError.ofFault fault ≠ .badSchema := by
  cases fault <;> exact (nomatch ·)

/-- The schema is blamed just for a record in which something is at fault. -/
theorem load_eq_badSchema_iff {file : PolicyFile} :
    load file = .error .badSchema ↔
      ∃ t fields path, file = .bytes (Utf8.encode t) ∧
        Yaml.document (unifyLineEnds t) = .ok (.record fields) ∧
        Datum.RecordFault parts (.record fields) path := by
  constructor
  · intro h
    cases file with
    | missing => cases h
    | bytes content =>
      rcases Except.bind_eq_error_iff.mp h with h | ⟨t, ht, h⟩
      · obtain ⟨fault, -, hfault⟩ := Except.mapError_eq_error_iff.mp h
        cases hfault
      rcases Except.bind_eq_error_iff.mp h with h | ⟨d, hd, h⟩
      · obtain ⟨fault, -, hfault⟩ := Except.mapError_eq_error_iff.mp h
        exact absurd hfault (ofFault_ne_badSchema fault)
      rw [Except.mapError_eq_ok_iff] at ht hd
      obtain ⟨fields, path, rfl, hpath⟩ := ofDocument_eq_badSchema_iff.mp h
      exact ⟨t, fields, path, congrArg _ (Utf8.decode_eq_ok_iff.mp ht), hd, hpath⟩
  · rintro ⟨t, fields, path, rfl, hd, hpath⟩
    rw [load_encode, hd]
    exact ofDocument_eq_badSchema_iff.mpr ⟨fields, path, rfl, hpath⟩

theorem ofDocument_ne_badYaml (d : Datum) : ofDocument d ≠ .error .badYaml := by
  intro h
  cases d with
  | record fields =>
    obtain ⟨paths, -, hpaths⟩ := Except.mapError_eq_error_iff.mp h
    cases hpaths
  | _ => cases h

/-- The stream is blamed just for a fault of its own, never because it was not read to its end. -/
theorem load_eq_badYaml_iff {file : PolicyFile} :
    load file = .error .badYaml ↔
      ∃ t fault, file = .bytes (Utf8.encode t) ∧
        Yaml.document (unifyLineEnds t) = .error fault ∧
        fault ≠ .outOfDepth ∧ PolicyError.ofFault fault = .badYaml := by
  constructor
  · intro h
    cases file with
    | missing => cases h
    | bytes content =>
      rcases Except.bind_eq_error_iff.mp h with h | ⟨t, ht, h⟩
      · obtain ⟨fault, -, hfault⟩ := Except.mapError_eq_error_iff.mp h
        cases hfault
      rcases Except.bind_eq_error_iff.mp h with h | ⟨d, -, h⟩
      · obtain ⟨fault, hd, hfault⟩ := Except.mapError_eq_error_iff.mp h
        rw [Except.mapError_eq_ok_iff] at ht
        refine ⟨t, fault, congrArg _ (Utf8.decode_eq_ok_iff.mp ht), hd, ?_, hfault⟩
        rintro rfl
        exact Yaml.document_ne_outOfDepth _ hd
      · exact absurd h (ofDocument_ne_badYaml d)
  · rintro ⟨t, fault, rfl, hd, -, hfault⟩
    rw [load_encode, hd]
    exact congrArg Except.error hfault

/-! ### Line ends -/

/-- The text with a carriage return in front of every line feed. -/
def windowsLines (t : Text) : Text := t.flatMap fun c => if c = '\n' then ['\r', '\n'] else [c]

theorem unifyLineEnds_cons {c : Char} {t : Text} (h : '\r' ≠ c) :
    unifyLineEnds (c :: t) = c :: unifyLineEnds t :=
  unifyLineEnds.eq_4 c t (fun _ hc _ => h hc.symm) (Ne.symm h)

theorem unifyLineEnds_eq_self {t : Text} (h : '\r' ∉ t) : unifyLineEnds t = t := by
  induction t with
  | nil => rfl
  | cons c t ih =>
    rw [List.mem_cons, not_or] at h
    rw [unifyLineEnds_cons h.1, ih h.2]

theorem unifyLineEnds_windowsLines {t : Text} (h : '\r' ∉ t) :
    unifyLineEnds (windowsLines t) = t := by
  induction t with
  | nil => rfl
  | cons c t ih =>
    rw [List.mem_cons, not_or] at h
    rw [windowsLines, List.flatMap_cons, ← windowsLines]
    split
    · next hc =>
      rw [hc]
      exact congrArg _ (ih h.2)
    · rw [List.singleton_append, unifyLineEnds_cons h.1, ih h.2]

/-- How the lines of a file end does not matter. -/
theorem load_windowsLines {t : Text} (h : '\r' ∉ t) :
    load (.bytes (Utf8.encode (windowsLines t))) = load (.bytes (Utf8.encode t)) := by
  rw [load_encode, load_encode, unifyLineEnds_windowsLines h, unifyLineEnds_eq_self h]

/-! ### The file that comes with the program -/

/-- The text of the policy file that comes with the program. -/
def shippedText : Text :=
  "affinity:\n  consumed: 1\n  not_consumed: -1\n  dropped: -1\nautocomplete: false\n".toList

/-- The standard policy is the one that the shipped file says. -/
theorem load_shipped : load (.bytes (Utf8.encode shippedText)) = .ok standard := by
  have h : (load (.bytes (Utf8.encode shippedText))).toOption = some standard := by
    decide +kernel
  cases hload : load (.bytes (Utf8.encode shippedText)) with
  | error e =>
    rw [hload] at h
    cases h
  | ok p =>
    rw [hload] at h
    exact congrArg Except.ok (Option.some.inj h)

end Policy

/-- A shared store that is not in use scores as the shipped file says. -/
theorem Desk.store_shared {d : Desk} {p : Policy} (hd : d.shared = none)
    (hp : Policy.load (.bytes (Utf8.encode Policy.shippedText)) = .ok p) :
    d.store .shared = .empty p.weights := by
  rw [Policy.load_shipped] at hp
  cases hp
  rw [store, hd]
  rfl

end TextMask
