import FormCheck.CommandLine
import FormCheck.Proofs.DocumentRoundTrip
import FormCheck.Proofs.FieldByField
import FormCheck.Proofs.UnresolvedRules

/-!
# Outcomes of command line calls

A call with values prints a report exactly when both files can be decoded and
no submitted field has a rule without a validator.  A call without values
succeeds exactly when no rule at all lacks a validator.  This file relates the
two kinds of calls over all contents of the files.
-/

namespace FormCheck

/-- No submitted field is listed with a rule that has no validator. -/
def Checker.Covers (checker : Checker) (submission : Submission) : Prop :=
  ∀ key ∈ submission.keys, ∀ rule, (key, rule) ∉ checker.unresolvedRules

theorem Checker.exists_report_iff_covers {checker : Checker} {submission : Submission} :
    (∃ report, (checker.validate submission).result = .ok report) ↔
      checker.Covers submission := by
  have hfails : (∃ report, (checker.validate submission).result = .ok report) ↔
      ¬ ∃ unknown, (checker.validate submission).result = .error unknown := by
    cases (checker.validate submission).result <;> simp
  rw [hfails, exists_error_iff_unresolved]
  constructor
  · intro hnone key hkey rule hpair
    exact hnone ⟨(key, rule), hpair, hkey⟩
  · intro hcovers hlisted
    obtain ⟨pair, hpair, hkey⟩ := hlisted
    exact hcovers pair.1 hkey pair.2 hpair

namespace CommandLine

variable {file? : String → Option ByteArray} {configName valuesName : String}

/-! ## Decoded files -/

def configOf? (file? : String → Option ByteArray) (name : String) : Option Config :=
  (textOf? file? name).bind Config.parse?

def submissionOf? (file? : String → Option ByteArray) (name : String) : Option Submission :=
  (textOf? file? name).bind fun text => (Json.parse? text).bind Submission.ofJson?

/-- The report that a call prints, if it prints any. -/
def reportOf? (file? : String → Option ByteArray) (configName valuesName : String) :
    Option Report := do
  let config ← configOf? file? configName
  let submission ← submissionOf? file? valuesName
  (config.toChecker.validate submission).result.toOption

/-- Both files can be decoded, and every rule of a submitted field has a validator. -/
structure Reportable (file? : String → Option ByteArray) (configName valuesName : String)
    (config : Config) (submission : Submission) : Prop where
  config_eq : configOf? file? configName = some config
  submission_eq : submissionOf? file? valuesName = some submission
  covers : config.toChecker.Covers submission

/-- The report is what a call has printed and exits with. -/
structure Output.Reports (output : Output) (report : Report) : Prop where
  stdout_eq : output.stdout = report.toJson.pretty ++ "\n"
  read_back : (Json.parse? output.stdout).bind Report.ofJson? = some report
  exitCode_eq : output.exitCode = if report.valid then 0 else 1

/-- The files with a text in the place of one of them. -/
def withFile (file? : String → Option ByteArray) (name text : String) :
    String → Option ByteArray :=
  fun other => if other = name then some text.toUTF8 else file? other

theorem toOption_readConfig (file? : String → Option ByteArray) (name : String) :
    (readConfig file? name).toOption = configOf? file? name := by
  unfold readConfig configOf?
  cases textOf? file? name with
  | none => rfl
  | some text => cases hconfig : Config.parse? text <;> simp [hconfig, Except.toOption]

theorem toOption_readSubmission (file? : String → Option ByteArray) (name : String) :
    (readSubmission file? name).toOption = submissionOf? file? name := by
  unfold readSubmission submissionOf?
  cases textOf? file? name with
  | none => rfl
  | some text =>
      cases hvalues : (Json.parse? text).bind Submission.ofJson? <;>
        simp [hvalues, Except.toOption]

theorem toOption_validateFile
    (file? : String → Option ByteArray) (checker : Checker) (name : String) :
    (validateFile file? checker name).toOption =
      (submissionOf? file? name).bind fun submission =>
        (checker.validate submission).result.toOption := by
  unfold validateFile
  rw [← toOption_readSubmission]
  cases readSubmission file? name with
  | error failure => rfl
  | ok submission =>
      change ((checker.validate submission).result.mapError Failure.unknownRule).toOption =
        (checker.validate submission).result.toOption
      cases (checker.validate submission).result <;> rfl

theorem reportOf?_eq (file? : String → Option ByteArray) (configName valuesName : String) :
    reportOf? file? configName valuesName =
      (readConfig file? configName).toOption.bind fun config =>
        (validateFile file? config.toChecker valuesName).toOption := by
  rw [toOption_readConfig]
  simp only [toOption_validateFile]
  rfl

theorem reportOf?_eq_some_iff {report : Report} :
    reportOf? file? configName valuesName = some report ↔
      ∃ config submission, configOf? file? configName = some config ∧
        submissionOf? file? valuesName = some submission ∧
        (config.toChecker.validate submission).result = .ok report := by
  have hok : ∀ result : Except UnknownRule Report,
      result.toOption = some report ↔ result = .ok report := by
    intro result
    cases result <;> simp [Except.toOption]
  unfold reportOf?
  simp only [Option.bind_eq_bind, Option.bind_eq_some_iff, hok, exists_and_left]

theorem textOf?_withFile (file? : String → Option ByteArray) (name text : String) :
    textOf? (withFile file? name text) name = some text := by
  have hread : String.fromUTF8? text.toUTF8 = some text := dif_pos text.isValidUTF8
  unfold textOf? withFile
  rw [if_pos rfl, Option.bind_some, hread]

theorem configOf?_congr
    {other? : String → Option ByteArray} (hfile : other? configName = file? configName) :
    configOf? other? configName = configOf? file? configName := by
  unfold configOf? textOf?
  rw [hfile]

/-! ## Calls with values -/

theorem run_of_report
    {report : Report} (hreport : reportOf? file? configName valuesName = some report)
    (more : List String) : (run file? (configName :: valuesName :: more)).Reports report := by
  have hprinted : (run file? (configName :: valuesName :: more)).exitCode =
        (if report.valid then exitValid else exitInvalid) ∧
      (run file? (configName :: valuesName :: more)).stdout = report.toJson.pretty ++ "\n" := by
    rw [reportOf?_eq] at hreport
    cases hconfig : readConfig file? configName with
    | error failure => simp [hconfig, Except.toOption] at hreport
    | ok config =>
        cases hvalidated : validateFile file? config.toChecker valuesName with
        | error failure => simp [hconfig, hvalidated, Except.toOption] at hreport
        | ok other =>
            obtain rfl : other = report := by
              simpa [hconfig, hvalidated, Except.toOption] using hreport
            simp [run, check, hconfig, hvalidated, lines]
  refine ⟨hprinted.2, ?_, hprinted.1⟩
  rw [hprinted.2]
  exact report.parse?_printed

theorem run_of_no_report
    (hnone : reportOf? file? configName valuesName = none) (more : List String) :
    (run file? (configName :: valuesName :: more)).exitCode = 2 ∧
      (run file? (configName :: valuesName :: more)).stdout = "" := by
  rw [reportOf?_eq] at hnone
  cases hconfig : readConfig file? configName with
  | error failure => simp [run, check, hconfig, exitError]
  | ok config =>
      cases hvalidated : validateFile file? config.toChecker valuesName with
      | error failure => simp [run, check, hconfig, hvalidated, exitError]
      | ok report => simp [hconfig, hvalidated, Except.toOption] at hnone

theorem exists_report_iff :
    (∃ report, reportOf? file? configName valuesName = some report) ↔
      ∃ config submission, Reportable file? configName valuesName config submission := by
  simp only [reportOf?_eq_some_iff]
  constructor
  · intro hreport
    obtain ⟨report, config, submission, hconfig, hsubmission, hresult⟩ := hreport
    exact ⟨config, submission, hconfig, hsubmission,
      Checker.exists_report_iff_covers.mp ⟨report, hresult⟩⟩
  · intro hreportable
    obtain ⟨config, submission, hconfig, hsubmission, hcovers⟩ := hreportable
    obtain ⟨report, hresult⟩ := Checker.exists_report_iff_covers.mpr hcovers
    exact ⟨report, config, submission, hconfig, hsubmission, hresult⟩

theorem exitCode_eq_zero_or_one_iff (more : List String) :
    ((run file? (configName :: valuesName :: more)).exitCode = 0 ∨
        (run file? (configName :: valuesName :: more)).exitCode = 1) ↔
      ∃ config submission, Reportable file? configName valuesName config submission := by
  rw [← exists_report_iff]
  cases hreport : reportOf? file? configName valuesName with
  | none => simp [(run_of_no_report hreport more).1]
  | some report =>
      rw [(run_of_report hreport more).exitCode_eq]
      cases report.valid <;> simp

theorem exitCode_eq_two_iff (more : List String) :
    (run file? (configName :: valuesName :: more)).exitCode = 2 ↔
      ¬ ∃ config submission, Reportable file? configName valuesName config submission := by
  rw [← exists_report_iff]
  cases hreport : reportOf? file? configName valuesName with
  | none => simp [(run_of_no_report hreport more).1]
  | some report =>
      rw [(run_of_report hreport more).exitCode_eq]
      cases report.valid <;> simp

theorem exists_report_of_reportable
    {config : Config} {submission : Submission}
    (hreportable : Reportable file? configName valuesName config submission)
    (more : List String) :
    ∃ report, (config.toChecker.validate submission).result = .ok report ∧
      (run file? (configName :: valuesName :: more)).Reports report := by
  obtain ⟨report, hresult⟩ := Checker.exists_report_iff_covers.mpr hreportable.covers
  have hreport : reportOf? file? configName valuesName = some report :=
    reportOf?_eq_some_iff.mpr
      ⟨config, submission, hreportable.config_eq, hreportable.submission_eq, hresult⟩
  exact ⟨report, hresult, run_of_report hreport more⟩

/-! ## Calls without values -/

theorem run_lint (file? : String → Option ByteArray) (configName : String) :
    ((run file? [configName]).exitCode = 0 ↔
      ∃ config, configOf? file? configName = some config ∧
        config.toChecker.unresolvedRules = []) ∧
    ((run file? [configName]).exitCode ≠ 0 → (run file? [configName]).exitCode = 2) ∧
    (run file? [configName]).stdout = "" := by
  rw [← toOption_readConfig]
  cases hconfig : readConfig file? configName with
  | error failure => simp [run, check, hconfig, Except.toOption, exitError]
  | ok config =>
      cases hunresolved : config.toChecker.unresolvedRules with
      | nil => simp [run, check, hconfig, lint, hunresolved, Except.toOption, exitValid]
      | cons pair rest =>
          simp [run, check, hconfig, lint, hunresolved, Except.toOption, exitError]

theorem covers_of_nothing_unresolved
    {checker : Checker} (hnone : checker.unresolvedRules = []) (submission : Submission) :
    checker.Covers submission := by
  intro key _ rule
  rw [hnone]
  exact List.not_mem_nil

/-! ## Calls that submit one field -/

def soleText (key : String) : String :=
  (Submission.alone (key, .bool true)).toJson.compact

theorem parse?_soleText (key : String) :
    (Json.parse? (soleText key)).bind Submission.ofJson? =
      some (.alone (key, .bool true)) := by
  have hlegible : (Submission.alone (key, .bool true)).toJson.Legible :=
    .record (List.forall_mem_singleton.mpr (.bool true))
  unfold soleText
  rw [Json.parse?_compact hlegible]
  rfl

theorem exitCode_soleText
    {config : Config} (hconfig : configOf? file? configName = some config)
    {key rule : String} (hlisted : (key, rule) ∈ config.toChecker.unresolvedRules)
    (hnames : configName ≠ valuesName) (more : List String) :
    (run (withFile file? valuesName (soleText key)) (configName :: valuesName :: more)).exitCode =
      2 := by
  have hfile : withFile file? valuesName (soleText key) configName = file? configName :=
    if_neg hnames
  have hsole : submissionOf? (withFile file? valuesName (soleText key)) valuesName =
      some (.alone (key, .bool true)) := by
    unfold submissionOf?
    rw [textOf?_withFile, Option.bind_some, parse?_soleText]
  rw [exitCode_eq_two_iff]
  intro hreportable
  obtain ⟨other, submission, hother, hsubmission, hcovers⟩ := hreportable
  rw [configOf?_congr hfile, hconfig] at hother
  rw [hsole] at hsubmission
  cases hother
  cases hsubmission
  exact hcovers key List.mem_cons_self rule hlisted

/-! ## Both kinds of calls -/

/-- What calls leave behind, for all files.  A call with values reports on them
exactly when both files can be decoded and every rule of a submitted field has a
validator; otherwise it exits with 2 and prints nothing.  A call without values
exits with 0 exactly when the configuration can be decoded and every rule has a
validator.  Then no values that can be decoded make a call with the same
configuration exit with 2, but some do if the configuration can be decoded and
the call exits with 2. -/
theorem run_reports_or_fails (file? : String → Option ByteArray) (configName : String) :
    (∀ (valuesName : String) (more : List String),
      ((run file? (configName :: valuesName :: more)).exitCode = 0 ∨
          (run file? (configName :: valuesName :: more)).exitCode = 1 ↔
        ∃ config submission, Reportable file? configName valuesName config submission) ∧
      (∀ config submission, Reportable file? configName valuesName config submission →
        ∃ report, (config.toChecker.validate submission).result = .ok report ∧
          (run file? (configName :: valuesName :: more)).Reports report) ∧
      ((¬ ∃ config submission, Reportable file? configName valuesName config submission) →
        (run file? (configName :: valuesName :: more)).exitCode = 2 ∧
          (run file? (configName :: valuesName :: more)).stdout = "")) ∧
    (((run file? [configName]).exitCode = 0 ↔
        ∃ config, configOf? file? configName = some config ∧
          config.toChecker.unresolvedRules = []) ∧
      ((run file? [configName]).exitCode ≠ 0 → (run file? [configName]).exitCode = 2) ∧
      (run file? [configName]).stdout = "") ∧
    ((run file? [configName]).exitCode = 0 →
      ∀ other? : String → Option ByteArray, other? configName = file? configName →
      ∀ (valuesName : String) (more : List String), (submissionOf? other? valuesName).isSome →
        (run other? (configName :: valuesName :: more)).exitCode ≠ 2) ∧
    ((configOf? file? configName).isSome → (run file? [configName]).exitCode = 2 →
      ∀ (valuesName : String) (more : List String), configName ≠ valuesName →
        ∃ text, ((Json.parse? text).bind Submission.ofJson?).isSome ∧
          (run (withFile file? valuesName text) (configName :: valuesName :: more)).exitCode =
            2) := by
  have hlint := run_lint file? configName
  refine ⟨?_, hlint, ?_, ?_⟩
  · intro valuesName more
    refine ⟨exitCode_eq_zero_or_one_iff more, ?_, ?_⟩
    · intro config submission hreportable
      exact exists_report_of_reportable hreportable more
    · intro hnone
      rw [← exists_report_iff, not_exists, ← Option.eq_none_iff_forall_ne_some] at hnone
      exact run_of_no_report hnone more
  · intro hvalid other? hfile valuesName more hdecoded
    obtain ⟨config, hconfig, hnone⟩ := hlint.1.mp hvalid
    obtain ⟨submission, hsubmission⟩ := Option.isSome_iff_exists.mp hdecoded
    rw [← configOf?_congr hfile] at hconfig
    rw [ne_eq, exitCode_eq_two_iff, not_not]
    exact ⟨config, submission, hconfig, hsubmission, covers_of_nothing_unresolved hnone submission⟩
  · intro hdecoded herror valuesName more hnames
    obtain ⟨config, hconfig⟩ := Option.isSome_iff_exists.mp hdecoded
    have hlisted : config.toChecker.unresolvedRules ≠ [] := by
      intro hnone
      have hvalid := hlint.1.mpr ⟨config, hconfig, hnone⟩
      omega
    obtain ⟨pair, hpair⟩ := List.exists_mem_of_ne_nil _ hlisted
    refine ⟨soleText pair.1, ?_, exitCode_soleText hconfig hpair hnames more⟩
    rw [parse?_soleText]
    rfl

/-- A form with a rule that has no validator. -/
def registration : Config where
  form := none
  rules :=
    { entries := [("name", "required"), ("code", "unique")]
      keys_nodup := by decide }

def registrationFiles : String → Option ByteArray :=
  withFile (withFile (fun _ => none) "rules.toml"
    "[rules]\nname = \"required\"\ncode = \"unique\"\n") "values.json" "\x7b\"name\": \"\"\x7d"

theorem run_registration_reports_or_fails :
    (run registrationFiles ["rules.toml", "values.json"]).Reports
      ⟨false, [⟨"name", ["required"]⟩]⟩ ∧
    (run registrationFiles ["rules.toml"]).exitCode = 2 ∧
    ∃ text, (run (withFile registrationFiles "values.json" text)
      ["rules.toml", "values.json"]).exitCode = 2 := by
  have hconfig : configOf? registrationFiles "rules.toml" = some registration := by
    unfold registrationFiles
    rw [configOf?_congr (if_neg (by decide)), configOf?, textOf?_withFile]
    rfl
  have hsubmission : submissionOf? registrationFiles "values.json" =
      some (.alone ("name", .text "")) := by
    have hspells : Json.SpellsMembers [(some "name", .string (some ""))] "\"name\": \"\"".toList :=
      .last "name" Json.blank_nil Json.blank_space (.string "") Json.blank_nil
    have hdocument := Json.parseChars_of_spells (.members hspells) Json.blank_nil Json.blank_nil
    unfold registrationFiles
    rw [submissionOf?, textOf?_withFile, Option.bind_some, Json.parse?]
    exact congrArg (Option.bind · Submission.ofJson?) hdocument
  have hunresolved : registration.toChecker.unresolvedRules = [("code", "unique")] := by rfl
  have hcovers : registration.toChecker.Covers (.alone ("name", .text "")) := by
    intro key hkey rule
    rw [List.mem_singleton.mp hkey, hunresolved]
    simp
  have hresult : (registration.toChecker.validate (.alone ("name", .text ""))).result =
      .ok ⟨false, [⟨"name", ["required"]⟩]⟩ := (Checker.result_of_ok rfl).trans rfl
  obtain ⟨hvalues, hlint, -, hfails⟩ := run_reports_or_fails registrationFiles "rules.toml"
  obtain ⟨report, hreport, hreports⟩ :=
    (hvalues "values.json" []).2.1 registration _ ⟨hconfig, hsubmission, hcovers⟩
  obtain rfl := Except.ok.inj (hresult.symm.trans hreport)
  have hcode : (run registrationFiles ["rules.toml"]).exitCode = 2 := by
    apply hlint.2.1
    intro hvalid
    obtain ⟨config, hother, hnone⟩ := hlint.1.mp hvalid
    obtain rfl := Option.some.inj (hconfig.symm.trans hother)
    rw [hunresolved] at hnone
    cases hnone
  have hdecoded : (configOf? registrationFiles "rules.toml").isSome := by
    rw [hconfig]
    rfl
  obtain ⟨text, -, htext⟩ := hfails hdecoded hcode "values.json" [] (by decide)
  exact ⟨hreports, hcode, text, htext⟩

end CommandLine

end FormCheck
