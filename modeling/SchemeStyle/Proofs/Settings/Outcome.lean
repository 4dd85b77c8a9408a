import Mathlib.Data.List.Basic
import SchemeStyle.Command.Outcome
import SchemeStyle.File.Tree
import SchemeStyle.Proofs.Settings.Acceptance
import SchemeStyle.Proofs.Text.Utf8
import SchemeStyle.Yaml.Unfolding

/-!
# What comes of a style file

A style file that does not describe a style is to be answered with a message and the exit status 2.
Some files end the program instead (`Style.IsFatalFile`): their bytes are no text, or they hold a
mapping of which the first entry that does not fit is fatal. Whatever else is wrong with a file is
answered (`Command.run_of_config`).

All that is asked of the reader of YAML is that it is safe (`YamlReader.IsSafe`): on a text it fails
only by calling it malformed.
-/

namespace SchemeStyle

theorem exists_mapError_eq_error_iff {ε ε' α : Type} {check : Except ε α} {f : ε → ε'}
    {kind : ε' → Prop} :
    (∃ e, check.mapError f = .error e ∧ kind e) ↔ ∃ e, check = .error e ∧ kind (f e) := by
  cases check <;> simp [Except.mapError]

/-! ### Values -/

namespace Style

/-- Whether a value ends the program when a style is made of it. -/
def IsFatalValue (room : Nat) (value : Value) : Prop :=
  ∃ entries, value = .map entries ∧
    FirstBad (fun entry ↦ Settings.Fits entry.1 entry.2)
      (fun entry ↦ Settings.IsFatal room entry.1 entry.2) entries

theorem not_isFatal_toStyle {settings : Settings} {e : SettingsError}
    (h : settings.toStyle = .error e) : ¬e.IsFatal := by
  unfold Settings.toStyle at h
  dsimp only at h
  split_ifs at h
  obtain rfl := Except.error.inj h
  exact id

/-- **The first entry that does not fit decides whether a value ends the program.** -/
theorem isFatal_ofValue_iff (room : Nat) (value : Value) :
    (∃ e, ofValue room value = .error e ∧ e.IsFatal) ↔ IsFatalValue room value := by
  cases value with
  | map entries =>
    have hentries : IsFatalValue room (.map entries) ↔
        ∃ e, Settings.ofEntries room entries = .error e ∧ e.IsFatal := by
      rw [(Settings.verdict_ofEntries room entries).error_iff]
      simp [IsFatalValue]
    rw [hentries, ofValue]
    cases Settings.ofEntries room entries with
    | error e => simp [bind, Except.bind]
    | ok settings =>
      refine iff_of_false ?_ (by simp)
      rintro ⟨e, he, hfatal⟩
      exact not_isFatal_toStyle he hfatal
  | scalar | list | set | pair | enclosing =>
    refine iff_of_false ?_ (by simp [IsFatalValue])
    rintro ⟨e, he, hfatal⟩
    obtain rfl := Except.error.inj he
    exact hfatal

/-- A value that counts as nothing ends no program. -/
theorem isFatalValue_ite_isEmpty (room : Nat) (value : Value) :
    IsFatalValue room (if value.isEmpty then .map [] else value) ↔ IsFatalValue room value := by
  split_ifs with hempty
  · refine iff_of_false ?_ ?_
    · rintro ⟨entries, h, hbad⟩
      cases h
      exact not_firstBad_nil hbad
    · rintro ⟨entries, rfl, hbad⟩
      obtain rfl : entries = [] := by simpa [Value.isEmpty] using hempty
      exact not_firstBad_nil hbad
  · rfl

end Style

/-! ### Files -/

/-- A reader of YAML is safe if it fails on a text only by calling it malformed. Where no text can
be delivered to its end, it may also hand on the error. -/
structure YamlReader.IsSafe (yaml : YamlReader) : Prop where
  malformed_or_stream : ∀ stream e, yaml stream = .error e →
    e = .malformed ∨ ∃ error, stream.error? = some error ∧ e = .stream error

namespace Style

/-- Whether the bytes of a style file end the program: the reader comes upon bytes that are no text,
or the value that it reads ends the program. -/
def IsFatalFile (yaml : YamlReader) (room : Nat) (bytes : List UInt8) : Prop :=
  (∃ e, yaml (readStream bytes) = .error (.stream e)) ∨
    ∃ value, yaml (readStream bytes) = .ok value ∧ IsFatalValue room value

variable {yaml : YamlReader}

/-- A safe reader comes upon bytes that are no text only if there are any. -/
theorem not_text_of_stream (hyaml : yaml.IsSafe) {bytes : List UInt8} {e : Utf8.Error}
    (h : yaml (readStream bytes) = .error (.stream e)) :
    ¬∃ text : String, bytes = text.toUTF8.data.toList := by
  rw [← readStream_error?_eq_none_iff]
  rcases hyaml.malformed_or_stream _ _ h with heq | ⟨error, herror, -⟩
  · cases heq
  · simp [herror]

theorem isAnswered_ofBytes_iff (hyaml : yaml.IsSafe) (room : Nat) (path : String)
    (bytes : List UInt8) :
    (∃ e, ofBytes yaml room path bytes = .error e ∧ e.isAnswered = false) ↔
      IsFatalFile yaml room bytes := by
  rw [ofBytes, IsFatalFile]
  rcases hread : yaml (readStream bytes) with (- | e | ⟨kind, message⟩) | value
  · simp [ConfigError.isAnswered]
  · simp [ConfigError.isAnswered]
  · rcases hyaml.malformed_or_stream _ _ hread with heq | ⟨error, -, heq⟩ <;> cases heq
  · simp only [exists_mapError_eq_error_iff, SettingsError.isAnswered_eq_false_iff,
      isFatal_ofValue_iff, isFatalValue_ite_isEmpty]
    simp

/-- **A style file ends the program exactly if its bytes do**, or if its path has a null character.
One that cannot be read does not. -/
theorem isAnswered_load_iff (files : FileView) (hyaml : yaml.IsSafe) (room : Nat) (path : String) :
    (∃ e, load files yaml room path = .error e ∧ e.isAnswered = false) ↔
      hasNull path = true ∨
        ∃ bytes, files.read path = .ok bytes ∧ IsFatalFile yaml room bytes := by
  rw [load]
  cases hnull : hasNull path with
  | true => exact iff_of_true ⟨.nullCharacter, rfl, rfl⟩ (.inl rfl)
  | false =>
    rcases files.read path with e | bytes
    · refine iff_of_false ?_ (by simp)
      rintro ⟨_, h, hanswered⟩
      obtain rfl := Except.error.inj h
      cases hanswered
    · exact (isAnswered_ofBytes_iff hyaml room path bytes).trans (by simp)

end Style

/-! ### Commands -/

namespace Command

variable {env : Environment} {config : String} {texts : List String} {a : Arguments}

/-- What a command with a style file does hangs on what comes of the file. -/
theorem run_eq_of_config (hlint : ofArguments texts = .ok (.lint a)) (hfiles : a.files ≠ [])
    (hjobs : 1 ≤ a.jobs) (hconfig : a.config? = some config) :
    run env texts =
      match Style.load env.files env.yaml env.room (Path.ofText config).toText with
      | .ok style => report env style a
      | .error e =>
        if e.isAnswered then .ok { status := 2, errors := unlines [s!"{programName}: {e.message}"] }
        else .error (.config e) := by
  have hempty : a.files.isEmpty = false := by simpa using hfiles
  have hpositive : ¬a.jobs < 1 := Int.not_lt.2 hjobs
  cases hload : Style.load env.files env.yaml env.room (Path.ofText config).toText <;>
    simp [run, hlint, lintArguments, style, hconfig, hempty, hpositive, hload]

/-- Once there is a style, no error is about it. -/
theorem report_ne_config (env : Environment) (style : Style) (a : Arguments) (e : ConfigError) :
    report env style a ≠ .error (.config e) := by
  rw [report]
  rcases lintPaths style env.files env.schedule a.jobs (a.files.map Path.ofText) with e' | r
  · exact fun h ↦ by cases h
  · show ((render longestInteger a.json r.diagnostics).mapError ProgramError.report >>= _) ≠ _
    cases render longestInteger a.json r.diagnostics <;> exact fun h ↦ by cases h

end Command

end SchemeStyle
