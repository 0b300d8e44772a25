import TextMask.CommandLine.Execute
import TextMask.Proofs.Chain.Describing
import TextMask.Proofs.CommandLine.Arguments
import TextMask.Proofs.Mask.Outcome
import TextMask.Proofs.Policy.Load

/-!
# What a command line ends with

A command fails for the first thing that is wrong with it, and only for what was asked: once its
options are right, neither the run of a mask nor the description of one can fail.

* `ApplyAnswer`, `DescribeAnswer`: what may come of a command;
* `apply_answer`, `describe_answer`: that is what comes of it;
* `policyOf_none`: a command that names no policy works with the shipped one;
* `execute_exitCode`: the exit code tells usage errors, malformed formats and other failures from
  success.
-/

namespace TextMask.CommandLine

/-! ### Commands -/

/-- What may come of formatting a text: the first failure in this order, or a report. -/
inductive ApplyAnswer (files : Files) (o : ApplyOptions) : Except Failure String → Prop
  | report : ReportMode.ofName? o.report = none → ApplyAnswer files o (.error .report)
  | policy {mode : ReportMode} {f : Failure} : ReportMode.ofName? o.report = some mode →
      policyOf files o.policy = .error f → ApplyAnswer files o (.error f)
  | caret {mode : ReportMode} {policy : Policy} {e : CaretError} :
      ReportMode.ofName? o.report = some mode → policyOf files o.policy = .ok policy →
      CaretText.placeOrEnd o.text o.caret = .error e → ApplyAnswer files o (.error (.caret e))
  | format {mode : ReportMode} {policy : Policy} {t : CaretText} {e : FormatError} :
      ReportMode.ofName? o.report = some mode → policyOf files o.policy = .ok policy →
      CaretText.placeOrEnd o.text o.caret = .ok t → Chain.compile o.format = .error e →
      ApplyAnswer files o (.error (.format e))
  | result {mode : ReportMode} {policy : Policy} {t : CaretText} {m : Mask} {r : Result} :
      ReportMode.ofName? o.report = some mode → policyOf files o.policy = .ok policy →
      CaretText.placeOrEnd o.text o.caret = .ok t →
      Mask.compile o.format policy.weights = .ok m →
      m.apply t (o.autocomplete.getD policy.autocomplete) = .ok r →
      ApplyAnswer files o (.ok (mode.result m r))

/-- What may come of describing a mask. -/
inductive DescribeAnswer (o : DescribeOptions) : Except Failure String → Prop
  | report : ReportMode.ofName? o.report = none → DescribeAnswer o (.error .report)
  | format {mode : ReportMode} {e : FormatError} : ReportMode.ofName? o.report = some mode →
      Chain.compile o.format = .error e → DescribeAnswer o (.error (.format e))
  | description {mode : ReportMode} {m : Mask} {text : Text} :
      ReportMode.ofName? o.report = some mode →
      Mask.compile o.format Policy.standard.weights = .ok m → m.chain.description = .ok text →
      DescribeAnswer o (.ok (mode.description m text))

theorem apply_answer (files : Files) (o : ApplyOptions) : ApplyAnswer files o (apply files o) := by
  rw [apply, reportMode]
  cases hmode : ReportMode.ofName? o.report with
  | none => exact .report hmode
  | some mode =>
    cases hpolicy : policyOf files o.policy with
    | error f => exact .policy hmode hpolicy
    | ok policy =>
      cases ht : CaretText.placeOrEnd o.text o.caret with
      | error e => exact .caret hmode hpolicy ht
      | ok t =>
        show ApplyAnswer files o ((Mask.compile o.format policy.weights).mapError .format >>= _)
        cases hm : Mask.compile o.format policy.weights with
        | error e => exact .format hmode hpolicy ht (Mask.compile_eq_error_iff.mp hm)
        | ok m =>
          obtain ⟨r, hr⟩ := Mask.exists_apply hm t (o.autocomplete.getD policy.autocomplete)
          show ApplyAnswer files o
            ((m.apply t (o.autocomplete.getD policy.autocomplete)).mapError .run >>= _)
          rw [hr]
          exact .result hmode hpolicy ht hm hr

theorem describe_answer (o : DescribeOptions) : DescribeAnswer o (describe o) := by
  rw [describe, reportMode]
  cases hmode : ReportMode.ofName? o.report with
  | none => exact .report hmode
  | some mode =>
    show DescribeAnswer o ((Mask.compile o.format Policy.standard.weights).mapError .format >>= _)
    cases hm : Mask.compile o.format Policy.standard.weights with
    | error e => exact .format hmode (Mask.compile_eq_error_iff.mp hm)
    | ok m =>
      have hlinked := Chain.linked_of_compile (Mask.compile_eq_ok_iff.mp hm).1
      obtain ⟨text, htext, -⟩ := hlinked.exists_description
      show DescribeAnswer o (m.chain.description.mapError .slot >>= _)
      rw [htext]
      exact .description hmode hm htext

/-- A command that names no policy works with the one that the shipped file says. -/
theorem policyOf_none {files : Files} {p : Policy}
    (h : Policy.load (.bytes (Utf8.encode Policy.shippedText)) = .ok p) :
    policyOf files none = .ok p := by
  rw [Policy.load_shipped] at h
  cases h
  rfl

/-! ### Exit codes -/

/-- The format of a command. -/
def Command.format : Command → Text
  | .apply o => o.format
  | .describe o => o.format

/-- Everything about a command is right, except perhaps its format. -/
def Command.Fits (files : Files) : Command → Prop
  | .apply o => (∃ mode, ReportMode.ofName? o.report = some mode) ∧
      (∃ policy, policyOf files o.policy = .ok policy) ∧
      ∃ t, CaretText.placeOrEnd o.text o.caret = .ok t
  | .describe o => ∃ mode, ReportMode.ofName? o.report = some mode

/-- What an exit code tells of a command. -/
inductive Command.Ends (files : Files) (c : Command) : UInt8 → Prop
  | well : c.Fits files → (∃ chain, Chain.compile c.format = .ok chain) → Ends files c 0
  | malformed : c.Fits files → (∃ e, Chain.compile c.format = .error e) → Ends files c 2
  | unfit : ¬ c.Fits files → Ends files c 1

/-- Without arguments that are a command, the exit code is that of usage errors, and nothing is
printed. -/
theorem execute_of_usageError {files : Files} {arguments : List String} {e : UsageError}
    (h : readCommand arguments = .error e) : execute files arguments = ⟨2, ""⟩ := by
  rw [execute, h]
  rfl

theorem exitCode_policy {path : String} {e : PolicyError} :
    (Failure.policy path e).outcome.exitCode = 1 := by
  rw [Failure.outcome]
  cases e.message? path <;> rfl

theorem exitCode_of_policyOf {files : Files} {path : Option String} {f : Failure}
    (h : policyOf files path = .error f) : f.outcome.exitCode = 1 := by
  cases path with
  | none => cases h
  | some path =>
    rw [policyOf] at h
    cases hfile : files (tidyPath path) with
    | none =>
      rw [hfile] at h
      cases h
      rfl
    | some file =>
      rw [hfile] at h
      obtain ⟨e, -, rfl⟩ := Except.mapError_eq_error_iff.mp h
      exact exitCode_policy

/-- **What the exit code tells.** A command ends with zero just if its report can be given, with two
if nothing but its format is wrong, and with one otherwise. -/
theorem execute_exitCode {files : Files} {arguments : List String} {c : Command}
    (h : readCommand arguments = .ok c) : c.Ends files (execute files arguments).exitCode := by
  rw [execute, h]
  cases c with
  | apply o =>
    show (Command.apply o).Ends files (Outcome.ofAnswer (apply files o)).exitCode
    have hanswer := apply_answer files o
    generalize apply files o = answer at hanswer
    cases hanswer with
    | report hmode =>
      refine .unfit ?_
      rintro ⟨⟨mode, h⟩, -⟩
      cases hmode.symm.trans h
    | policy hmode hpolicy =>
      show (Command.apply o).Ends files (Failure.outcome _).exitCode
      rw [exitCode_of_policyOf hpolicy]
      refine .unfit ?_
      rintro ⟨-, ⟨policy, h⟩, -⟩
      cases hpolicy.symm.trans h
    | caret hmode hpolicy ht =>
      refine .unfit ?_
      rintro ⟨-, -, t, h⟩
      cases ht.symm.trans h
    | format hmode hpolicy ht hc => exact .malformed ⟨⟨_, hmode⟩, ⟨_, hpolicy⟩, _, ht⟩ ⟨_, hc⟩
    | result hmode hpolicy ht hm hr =>
      exact .well ⟨⟨_, hmode⟩, ⟨_, hpolicy⟩, _, ht⟩ ⟨_, (Mask.compile_eq_ok_iff.mp hm).1⟩
  | describe o =>
    show (Command.describe o).Ends files (Outcome.ofAnswer (describe o)).exitCode
    have hanswer := describe_answer o
    generalize describe o = answer at hanswer
    cases hanswer with
    | report hmode =>
      refine .unfit ?_
      rintro ⟨mode, h⟩
      cases hmode.symm.trans h
    | format hmode hc => exact .malformed ⟨_, hmode⟩ ⟨_, hc⟩
    | description hmode hm _ => exact .well ⟨_, hmode⟩ ⟨_, (Mask.compile_eq_ok_iff.mp hm).1⟩

end TextMask.CommandLine
