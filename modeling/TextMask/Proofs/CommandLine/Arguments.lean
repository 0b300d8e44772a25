import TextMask.CommandLine.Arguments
import TextMask.Proofs.Failure
import TextMask.Proofs.Policy.Integer

/-!
# Which arguments are a command

`Spells` says how options are written; `readOptions` reads just that. An option may be given several
times, and what it is given last counts.

* `OptionSet.Proper`: names that can be told from values;
* `splitArgument_append`, `of_splitArgument`: the first equals sign parts an argument;
* `readOptions_eq_ok_iff`: what is read is what is spelled;
* `value?_reverse_eq_some_iff`: the value that counts;
* `readApply_eq_ok_iff`, `readCommand_arguments`: which arguments ask for a text to be formatted, and
  that all options can be asked for.
-/

namespace TextMask.CommandLine

/-! ### Names -/

/-- An argument that an option begins with: dashes alone are none. -/
structure IsOption (argument : String) : Prop where
  dash : argument.toList.head? = some '-'
  ne_dash : argument ≠ "-"
  ne_dashes : argument ≠ "--"

instance (argument : String) : Decidable (IsOption argument) :=
  decidable_of_iff
    (argument.toList.head? = some '-' ∧ argument ≠ "-" ∧ argument ≠ "--")
    ⟨fun ⟨h, h', h''⟩ => ⟨h, h', h''⟩, fun h => ⟨h.dash, h.ne_dash, h.ne_dashes⟩⟩

/-- Every option has a name without an equals sign, and none stands both with and without a value. -/
structure OptionSet.Proper (known : OptionSet) : Prop where
  isOption : ∀ name ∈ known.valued ++ known.alone, IsOption name ∧ '=' ∉ name.toList
  apart : ∀ name ∈ known.valued, name ∉ known.alone

theorem forall_ne_equals {t : Text} (h : '=' ∉ t) : ∀ c ∈ t, (c != '=') = true := fun c hc => by
  rw [bne_iff_ne]
  exact fun he => h (he ▸ hc)

theorem splitArgument_of_not_mem {name : String} (h : '=' ∉ name.toList) :
    splitArgument name = (name, none) := by
  have hdrop := @List.dropWhile_append_of_pos _ _ _ [] (forall_ne_equals h)
  rw [List.append_nil, List.dropWhile_nil] at hdrop
  rw [splitArgument, hdrop]

theorem splitArgument_append {name value : String} (h : '=' ∉ name.toList) :
    splitArgument (name ++ "=" ++ value) = (name, some value) := by
  have htext : (name ++ "=" ++ value).toList = name.toList ++ '=' :: value.toList := by simp
  rw [splitArgument, htext, List.dropWhile_append_of_pos (forall_ne_equals h),
    List.takeWhile_append_of_pos (forall_ne_equals h)]
  simp

/-- The first equals sign parts an argument. -/
theorem of_splitArgument {argument name : String} {value : Option String}
    (h : splitArgument argument = (name, value)) :
    '=' ∉ name.toList ∧ argument = value.elim name (name ++ "=" ++ ·) := by
  by_cases hmem : '=' ∈ argument.toList
  · obtain ⟨before, behind, htext, hno⟩ := List.eq_append_cons_of_mem hmem
    have hargument : argument = String.ofList before ++ "=" ++ String.ofList behind := by
      rw [← String.toList_inj, htext]
      simp
    rw [hargument, splitArgument_append (by rwa [String.toList_ofList])] at h
    cases h
    exact ⟨by rwa [String.toList_ofList], hargument⟩
  · rw [splitArgument_of_not_mem hmem] at h
    cases h
    exact ⟨hmem, rfl⟩

/-! ### Options -/

/-- How options are written: with a value behind them or behind an equals sign, or alone, and at last
perhaps two dashes. -/
inductive Spells (known : OptionSet) : List String → Given → Prop
  | done : Spells known [] []
  | dashes : Spells known ["--"] []
  | apart {name value : String} {arguments : List String} {given : Given} :
      name ∈ known.valued → Spells known arguments given →
      Spells known (name :: value :: arguments) ((name, some value) :: given)
  | joined {name value : String} {arguments : List String} {given : Given} :
      name ∈ known.valued → Spells known arguments given →
      Spells known ((name ++ "=" ++ value) :: arguments) ((name, some value) :: given)
  | alone {name : String} {arguments : List String} {given : Given} :
      name ∈ known.alone → Spells known arguments given →
      Spells known (name :: arguments) ((name, none) :: given)

section

variable {known : OptionSet} {given : Given} {name value : String} {rest : List String}

theorem IsOption.joined (h : IsOption name) : IsOption (name ++ "=" ++ value) := by
  have hequals : '=' ∈ (name ++ "=" ++ value).toList := by simp
  refine ⟨?_, ?_, ?_⟩
  · rw [String.toList_append, String.toList_append, List.append_assoc, List.head?_append, h.dash]
    rfl
  · intro he
    rw [he] at hequals
    exact absurd hequals (by decide)
  · intro he
    rw [he] at hequals
    exact absurd hequals (by decide)

theorem IsOption.isDashed (h : IsOption name) : (name.startsWith "-" && name != "-") = true := by
  rw [Bool.and_eq_true, String.startsWith_string_iff, bne_iff_ne]
  obtain ⟨rest, hrest⟩ := List.head?_eq_some_iff.mp h.dash
  exact ⟨⟨rest, hrest.symm⟩, h.ne_dash⟩

theorem readOptions_apart (h : known.Proper) (hname : name ∈ known.valued) :
    readOptions known given (name :: value :: rest) =
      readOptions known ((name, some value) :: given) rest := by
  obtain ⟨hoption, hequals⟩ := h.isOption name (List.mem_append_left _ hname)
  rw [readOptions.eq_4 _ _ _ _ (fun he _ => hoption.ne_dashes he)
    (fun _ _ he _ => hoption.ne_dashes he), if_pos hoption.isDashed,
    splitArgument_of_not_mem hequals]
  exact if_pos (List.contains_iff_mem.mpr hname)

theorem readOptions_joined (h : known.Proper) (hname : name ∈ known.valued) :
    readOptions known given ((name ++ "=" ++ value) :: rest) =
      readOptions known ((name, some value) :: given) rest := by
  obtain ⟨hoption, hequals⟩ := h.isOption name (List.mem_append_left _ hname)
  have hjoined : IsOption (name ++ "=" ++ value) := hoption.joined
  rw [readOptions.eq_4 _ _ _ _ (fun he _ => hjoined.ne_dashes he)
    (fun _ _ he _ => hjoined.ne_dashes he), if_pos hjoined.isDashed, splitArgument_append hequals]
  exact if_pos (List.contains_iff_mem.mpr hname)

theorem readOptions_alone (h : known.Proper) (hname : name ∈ known.alone) :
    readOptions known given (name :: rest) = readOptions known ((name, none) :: given) rest := by
  obtain ⟨hoption, hequals⟩ := h.isOption name (List.mem_append_right _ hname)
  have hno : ¬ known.valued.contains name := fun hmem =>
    h.apart name (List.contains_iff_mem.mp hmem) hname
  rw [readOptions.eq_4 _ _ _ _ (fun he _ => hoption.ne_dashes he)
    (fun _ _ he _ => hoption.ne_dashes he), if_pos hoption.isDashed,
    splitArgument_of_not_mem hequals]
  exact (if_neg hno).trans (if_pos (List.contains_iff_mem.mpr hname))

/-- Options are read just if they are spelled so. -/
theorem readOptions_eq_ok_iff (h : known.Proper) {arguments : List String} {found : Given} :
    readOptions known given arguments = .ok found ↔
      ∃ read, Spells known arguments read ∧ found = read.reverse ++ given := by
  constructor
  · intro hread
    fun_induction readOptions known given arguments with
    | case1 => exact ⟨[], .done, (Except.ok.inj hread).symm⟩
    | case2 => exact ⟨[], .dashes, (Except.ok.inj hread).symm⟩
    | case4 given argument _ name hname value rest _ _ hsplit ih =>
      obtain ⟨read, hspells, rfl⟩ := ih hread
      obtain ⟨-, rfl⟩ := of_splitArgument hsplit
      exact ⟨_, .joined (List.contains_iff_mem.mp hname) hspells, by simp⟩
    | case5 given argument _ name hname value rest _ _ hsplit ih =>
      obtain ⟨read, hspells, rfl⟩ := ih hread
      obtain ⟨-, rfl⟩ := of_splitArgument hsplit
      exact ⟨_, .apart (List.contains_iff_mem.mp hname) hspells, by simp⟩
    | case7 given argument rest _ _ _ name _ hname hsplit ih =>
      obtain ⟨read, hspells, rfl⟩ := ih hread
      obtain ⟨-, rfl⟩ := of_splitArgument hsplit
      exact ⟨_, .alone (List.contains_iff_mem.mp hname) hspells, by simp⟩
    | case3 | case6 | case8 | case9 | case10 => cases hread
  · rintro ⟨read, hspells, rfl⟩
    induction hspells generalizing given with
    | done => rfl
    | dashes => rfl
    | apart hname _ ih =>
      rw [readOptions_apart h hname, ih, List.reverse_cons, List.append_assoc]
      rfl
    | joined hname _ ih =>
      rw [readOptions_joined h hname, ih, List.reverse_cons, List.append_assoc]
      rfl
    | alone hname _ ih =>
      rw [readOptions_alone h hname, ih, List.reverse_cons, List.append_assoc]
      rfl

end

/-! ### Values -/

theorem value?_eq_some_iff {given : Given} {name value : String} :
    value? given name = some value ↔
      ∃ behind before, given = behind ++ (name, some value) :: before ∧
        ∀ g ∈ behind, g.1 ≠ name := by
  induction given with
  | nil =>
    refine iff_of_false (nomatch ·) ?_
    rintro ⟨behind, before, h, -⟩
    exact absurd h.symm (by simp)
  | cons g given ih =>
    obtain ⟨name', value'⟩ := g
    by_cases hname : name = name'
    · subst hname
      rw [value?, List.lookup_cons_self, Option.join_some]
      constructor
      · rintro rfl
        exact ⟨[], given, rfl, fun _ h => nomatch h⟩
      · rintro ⟨behind, before, h, hno⟩
        cases behind with
        | nil =>
          cases h
          rfl
        | cons g behind =>
          cases h
          exact absurd rfl (hno _ List.mem_cons_self)
    · have hcons : value? ((name', value') :: given) name = value? given name := by
        rw [value?, List.lookup_cons, beq_eq_false_iff_ne.mpr hname, value?]
      rw [hcons, ih]
      constructor
      · rintro ⟨behind, before, rfl, hno⟩
        exact ⟨(name', value') :: behind, before, rfl, List.forall_mem_cons.mpr ⟨Ne.symm hname, hno⟩⟩
      · rintro ⟨behind, before, h, hno⟩
        cases behind with
        | nil =>
          cases h
          exact absurd rfl hname
        | cons g behind =>
          cases h
          exact ⟨behind, before, rfl, fun g hg => hno g (List.mem_cons_of_mem _ hg)⟩

/-- The value of an option is the one that it is given last. -/
theorem value?_reverse_eq_some_iff {read : Given} {name value : String} :
    value? read.reverse name = some value ↔
      ∃ before behind, read = before ++ (name, some value) :: behind ∧
        ∀ g ∈ behind, g.1 ≠ name := by
  rw [value?_eq_some_iff]
  constructor
  · rintro ⟨behind, before, h, hno⟩
    refine ⟨before.reverse, behind.reverse, ?_, fun g hg => hno g (List.mem_reverse.mp hg)⟩
    rw [← List.reverse_reverse read, h]
    simp
  · rintro ⟨before, behind, rfl, hno⟩
    exact ⟨behind.reverse, before.reverse, by simp, fun g hg => hno g (List.mem_reverse.mp hg)⟩

/-! ### Commands -/

theorem OptionSet.apply_proper : OptionSet.apply.Proper where
  isOption := by decide
  apart := by decide

theorem OptionSet.describe_proper : OptionSet.describe.Proper where
  isOption := by decide
  apart := by decide

theorem required_eq_ok_iff {given : Given} {name : String} {t : Text} :
    required given name = .ok t ↔ value? given name = some (String.ofList t) := by
  rw [required]
  cases value? given name with
  | none => exact iff_of_false (nomatch ·) (nomatch ·)
  | some value =>
    rw [Except.ok.injEq, Option.some.injEq, String.ext_iff, String.toList_ofList]

/-- What the given options ask for, the last one first. -/
structure AsksFor (given : Given) (o : ApplyOptions) : Prop where
  format : value? given "--format" = some (String.ofList o.format)
  text : value? given "--text" = some (String.ofList o.text)
  caret : caret? given = .ok o.caret
  autocomplete : autocomplete? given = o.autocomplete
  policy : value? given "--policy" = o.policy
  report : reportOf given = o.report

/-- The arguments of the command that formats a text spell the options that it is carried out with. -/
theorem readApply_eq_ok_iff {arguments : List String} {command : Command} :
    readApply arguments = .ok command ↔
      ∃ read o, Spells .apply arguments read ∧ AsksFor read.reverse o ∧ command = .apply o := by
  constructor
  · intro h
    obtain ⟨given, hgiven, h⟩ := Except.bind_eq_ok_iff.mp h
    obtain ⟨format, hformat, h⟩ := Except.bind_eq_ok_iff.mp h
    obtain ⟨text, htext, h⟩ := Except.bind_eq_ok_iff.mp h
    obtain ⟨caret, hcaret, h⟩ := Except.bind_eq_ok_iff.mp h
    obtain ⟨read, hspells, rfl⟩ := (readOptions_eq_ok_iff OptionSet.apply_proper).mp hgiven
    rw [List.append_nil] at hformat htext hcaret h
    rw [required_eq_ok_iff] at hformat htext
    exact ⟨read, _, hspells, ⟨hformat, htext, hcaret, rfl, rfl, rfl⟩, (Except.ok.inj h).symm⟩
  · rintro ⟨read, o, hspells, ho, rfl⟩
    have hread : readOptions .apply [] arguments = .ok read.reverse :=
      (readOptions_eq_ok_iff OptionSet.apply_proper).mpr ⟨_, hspells, (List.append_nil _).symm⟩
    refine Except.bind_eq_ok_iff.mpr ⟨_, hread, ?_⟩
    refine Except.bind_eq_ok_iff.mpr ⟨_, required_eq_ok_iff.mpr ho.format, ?_⟩
    refine Except.bind_eq_ok_iff.mpr ⟨_, required_eq_ok_iff.mpr ho.text, ?_⟩
    refine Except.bind_eq_ok_iff.mpr ⟨_, ho.caret, ?_⟩
    rw [ho.autocomplete, ho.policy, ho.report]
    rfl

namespace ApplyOptions

/-- The options as they are given in a row. -/
def given (o : ApplyOptions) : Given :=
  ("--format", some (String.ofList o.format)) :: ("--text", some (String.ofList o.text)) ::
    ((o.caret.elim [] fun n => [("--caret", some (toString n))]) ++
      ((o.autocomplete.elim [] fun b =>
          [(if b then "--autocomplete" else "--no-autocomplete", none)]) ++
        ((o.policy.elim [] fun path => [("--policy", some path)]) ++
          [("--report", some (String.ofList o.report))])))

/-- The arguments that ask for a text to be formatted with the options. -/
def arguments (o : ApplyOptions) : List String :=
  "apply" :: o.given.flatMap fun g => g.1 :: g.2.toList

theorem asksFor_given {o : ApplyOptions}
    (h : ∀ n ∈ o.caret, (toString n).length ≤ Number.longest) : AsksFor o.given.reverse o := by
  obtain ⟨format, text, caret, autocomplete, policy, report⟩ := o
  constructor
  case caret =>
    cases caret with
    | none => rcases autocomplete with _ | _ | _ <;> cases policy <;> rfl
    | some n =>
      have hvalue : value? (given ⟨format, text, some n, autocomplete, policy, report⟩).reverse
          "--caret" = some (toString n) := by
        rcases autocomplete with _ | _ | _ <;> cases policy <;> rfl
      rw [caret?, hvalue]
      simp only [IntegerText.read?_toString (h n rfl)]
  case report =>
    rcases caret with _ | _ <;> rcases autocomplete with _ | _ | _ <;> cases policy <;>
      exact String.toList_ofList
  all_goals
    rcases caret with _ | _ <;> rcases autocomplete with _ | _ | _ <;> cases policy <;> rfl

end ApplyOptions

/-- Options in a row are spelled by their names and values. -/
theorem spells_flatMap {known : OptionSet} {given : Given}
    (h : ∀ g ∈ given, g.1 ∈ if g.2.isSome then known.valued else known.alone) :
    Spells known (given.flatMap fun g => g.1 :: g.2.toList) given := by
  induction given with
  | nil => exact .done
  | cons g given ih =>
    rw [List.forall_mem_cons] at h
    obtain ⟨name, value⟩ := g
    cases value with
    | none => exact .alone h.1 (ih h.2)
    | some value => exact .apart h.1 (ih h.2)

/-- Whatever is to be asked for, there are arguments that ask for it. -/
theorem readCommand_arguments {o : ApplyOptions}
    (h : ∀ n ∈ o.caret, (toString n).length ≤ Number.longest) :
    readCommand o.arguments = .ok (.apply o) := by
  refine readApply_eq_ok_iff.mpr ⟨o.given, o, spells_flatMap ?_, o.asksFor_given h, rfl⟩
  obtain ⟨format, text, caret, autocomplete, policy, report⟩ := o
  cases caret <;> rcases autocomplete with _ | _ | _ <;> cases policy <;>
    simp [ApplyOptions.given, OptionSet.apply]

end TextMask.CommandLine
