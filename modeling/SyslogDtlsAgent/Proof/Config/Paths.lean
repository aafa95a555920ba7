import SyslogDtlsAgent.Cli.Web
import SyslogDtlsAgent.Proof.Config.Validate

/-!
# Path resolution

Resolving the credential paths changes nothing else, so it and validation meet in one check only: the
one for empty paths. A path joined to a base is never empty, and every caller joins first.
-/

namespace SyslogDtlsAgent

open Library

variable {lib : External} {config : Config} {base : String}

theorem resolvePath_ne_empty (hbase : base ≠ "") (path : String) : resolvePath base path ≠ "" := by
  unfold resolvePath joinPath
  split_ifs with hrelative hjoin hslash
  · simp [hrelative] at hjoin
  · simp [hbase]
  · simp [hbase]
  · rintro rfl
    exact hrelative (by decide)

theorem isRelative_eq_false {path : String} : isRelative path = false ↔ path.toList.head? = some '/' := by
  rw [isRelative, Bool.not_eq_false', Text.startsWith]
  cases path.toList with
  | nil => decide
  | cons c rest =>
      rw [show "/".toList = ['/'] from rfl, List.isPrefixOf_cons_cons, List.isPrefixOf_nil_left, Bool.and_true, beq_iff_eq,
        List.head?_cons, Option.some.injEq]
      exact eq_comm

/-- An absolute base makes every path absolute. -/
theorem isRelative_resolvePath (hbase : isRelative base = false) (path : String) :
    isRelative (resolvePath base path) = false := by
  have hne : base.toList ≠ [] := by
    intro hnil
    rw [isRelative_eq_false, hnil] at hbase
    cases hbase
  unfold resolvePath joinPath
  split_ifs with hrelative hjoin hslash
  · simp [hrelative] at hjoin
  · rw [isRelative_eq_false, String.toList_append, List.head?_append_of_ne_nil _ hne]
    exact isRelative_eq_false.mp hbase
  · rw [isRelative_eq_false, String.toList_append, String.toList_append, List.append_assoc,
      List.head?_append_of_ne_nil _ hne]
    exact isRelative_eq_false.mp hbase
  · simpa using hrelative

/-- Resolved paths stay where they are. -/
theorem Config.resolvePaths_resolvePaths (hbase : isRelative base = false) (other : String) (config : Config) :
    (config.resolvePaths base).resolvePaths other = config.resolvePaths base := by
  have hpath : ∀ path, resolvePath other (resolvePath base path) = resolvePath base path := fun path => by
    rw [resolvePath, if_neg]
    rw [isRelative_resolvePath hbase]
    exact Bool.false_ne_true
  simp only [Config.resolvePaths, hpath]

theorem Config.resolvePaths_given (hbase : base ≠ "") (config : Config) : (config.resolvePaths base).PathsGiven :=
  ⟨resolvePath_ne_empty hbase _, resolvePath_ne_empty hbase _, resolvePath_ne_empty hbase _⟩

/-- The settings proper do not depend on the credential paths. -/
theorem Config.resolvePaths_settingsValid :
    (config.resolvePaths base).SettingsValid lib ↔ config.SettingsValid lib := by
  constructor
  · rintro ⟨⟩
    constructor <;> assumption
  · rintro ⟨⟩
    constructor <;> assumption

/-- What is left of validation behind path resolution. -/
theorem Config.validate_resolvePaths (hbase : base ≠ "") :
    (config.resolvePaths base).validate lib = .ok () ↔ config.SettingsValid lib := by
  rw [Config.validate_eq_ok, Config.resolvePaths_settingsValid]
  exact and_iff_left (Config.resolvePaths_given hbase config)

theorem Config.parse_eq_ok {toml : String → Option Config} {text : String} {config : Config} :
    Config.parse lib toml text base = .ok config ↔
      ∃ read, toml text = some read ∧ config = read.resolvePaths base ∧ config.validate lib = .ok () := by
  simp only [Config.parse, bind_eq_ok, okOr_eq_ok]
  constructor
  · rintro ⟨read, hread, ⟨⟩, hvalid, hresult⟩
    cases hresult
    exact ⟨read, hread, rfl, hvalid⟩
  · rintro ⟨read, hread, rfl, hvalid⟩
    exact ⟨read, hread, (), hvalid, rfl⟩

/-- Validation of one configuration is not defeated by path resolution: the two orders agree, and an empty
credential path stops the parser and every command that takes a configuration. -/
structure Config.SurvivesResolution (lib : External) (base : String) (config : Config) : Prop where
  agrees : (config.resolvePaths base).validate lib = .ok () ↔ config.validate lib = .ok ()
  parse : ¬ config.PathsGiven → ∀ (toml : String → Option Config) text, toml text = some config →
    ∃ message, Config.parse lib toml text base = .error message
  commands : ¬ config.PathsGiven → ∀ (codec : Codec) (agent : Agent) command args effects,
    codec.configOfJson (args.index "config") = some config → parent agent.path = some base →
      command ∈ ["start", "validate", "save_config"] →
        ∃ failure, (agent.command lib codec command args effects).2 = .error failure

/-- A configuration that validation refuses stops every command that takes one. -/
theorem Agent.configure_refuses {codec : Codec} {agent : Agent} {command : String} {args : Json}
    {effects : Effects} (hconfig : codec.configOfJson (args.index "config") = some config)
    (hbase : parent agent.path = some base) (hinvalid : (config.resolvePaths base).validate lib ≠ .ok ()) :
    ∃ failure, (agent.configure lib codec command args effects).2 = .error failure := by
  cases hvalidate : (config.resolvePaths base).validate lib with
  | ok u => exact absurd hvalidate hinvalid
  | error message => exact ⟨.error message, by simp [Agent.configure, hconfig, hbase, hvalidate]⟩

/-- Exactly the configurations with an empty path that nothing else is wrong with slip through. -/
theorem resolution_defeats_validation_iff (lib : External) (config : Config) (base : String) (hbase : base ≠ "") :
    config.SurvivesResolution lib base ↔ (config.SettingsValid lib → config.PathsGiven) := by
  constructor
  · intro h hsettings
    have hvalid := h.agrees.mp ((Config.validate_resolvePaths hbase).mpr hsettings)
    exact (Config.validate_eq_ok.mp hvalid).2
  · intro h
    have hinvalid : ¬ config.PathsGiven → (config.resolvePaths base).validate lib ≠ .ok () := fun hpaths hvalid =>
      hpaths (h ((Config.validate_resolvePaths hbase).mp hvalid))
    constructor
    · rw [Config.validate_resolvePaths hbase, Config.validate_eq_ok]
      exact ⟨fun hsettings => ⟨hsettings, h hsettings⟩, And.left⟩
    · intro hpaths toml text hread
      cases hparse : Config.parse lib toml text base with
      | error message => exact ⟨message, rfl⟩
      | ok result =>
          obtain ⟨read, hread', rfl, hvalid⟩ := Config.parse_eq_ok.mp hparse
          obtain rfl : config = read := Option.some.inj (hread.symm.trans hread')
          exact absurd hvalid (hinvalid hpaths)
    · intro hpaths codec agent command args effects hconfig hparent hcommand
      have hrefuses (name : String) :
          ∃ failure, (agent.configure lib codec name args effects).2 = .error failure :=
        Agent.configure_refuses hconfig hparent (hinvalid hpaths)
      simp only [List.mem_cons, List.not_mem_nil, or_false] at hcommand
      rcases hcommand with rfl | rfl | rfl
      · exact hrefuses "start"
      · exact hrefuses "validate"
      · exact hrefuses "save_config"

theorem resolution_defeats_validation_iff_by_default :
    let lib : External := ⟨fun _ => false, some, fun _ => none, fun _ => []⟩
    Config.default.SurvivesResolution lib "/etc" := by
  intro lib
  refine (resolution_defeats_validation_iff lib Config.default "/etc" (by decide)).mpr fun _ => ?_
  exact (Config.validate_eq_ok.mp (Config.default_valid lib rfl)).2

/-- The default configuration without a CA bundle is refused, and accepted from any file under `/etc`. -/
theorem resolution_admits_an_empty_path :
    let lib : External := ⟨fun _ => false, some, fun _ => none, fun _ => []⟩
    let config : Config := { Config.default with trust := ⟨""⟩ }
    config.validate lib = .error "Credential paths cannot be empty" ∧
      (config.resolvePaths "/etc").validate lib = .ok () ∧
      (Config.parse lib (fun _ => some config) "" "/etc").map (fun c => c.trust.caBundle) = .ok "/etc/" := by
  intro lib config
  have hsettings : config.SettingsValid lib := by
    obtain ⟨⟨⟩, -⟩ := Config.validate_eq_ok.mp (Config.default_valid lib rfl)
    constructor <;> assumption
  have hvalid := (@Config.validate_resolvePaths lib config "/etc" (by decide)).mpr hsettings
  refine ⟨by decide +kernel, hvalid, ?_⟩
  simp only [Config.parse, okOr, hvalid, bind, Except.bind, pure, Except.pure, Except.map]
  decide

end SyslogDtlsAgent
