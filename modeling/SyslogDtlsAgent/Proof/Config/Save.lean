import SyslogDtlsAgent.Cli.Web

/-!
# Saving

`Config::save` truncates the file in place before it writes. The steps up to the truncation cannot touch
what an existing file holds; a write that stops leaves as much of the new text as it got to.
-/

namespace SyslogDtlsAgent

open Library

variable {toml : Config → Option String} {config : Config} {content : Option Bytes} {io : SaveEffects}

/-! ### Each point at which a step can fail -/

theorem Config.save_unserialized {message : String} (htext : config.toToml toml = .error message) :
    config.save toml content io = (content, .error message) := by
  simp only [Config.save, htext]

theorem Config.save_unopened {text : String} (htext : config.toToml toml = .ok text) (hopened : io.opened = false) :
    config.save toml content io = (content, .error "Cannot save configuration") := by
  simp [Config.save, htext, hopened]

/-- The file exists from the opening on, and up to the truncation it holds what it held. -/
theorem Config.save_uncut {text : String} (htext : config.toToml toml = .ok text) (hopened : io.opened = true)
    (hfails : io.restricted = false ∨ io.truncated = false) :
    ∃ message, config.save toml content io = (some (content.getD []), .error message) := by
  simp only [Config.save, htext, hopened]
  by_cases hrestricted : io.restricted = true
  · have htruncated : io.truncated = false := hfails.resolve_left (by simp [hrestricted])
    exact ⟨_, by simp [hrestricted, htruncated]; rfl⟩
  · exact ⟨_, by simp [hrestricted]; rfl⟩

theorem Config.save_torn {text : String} {n : Nat} (htext : config.toToml toml = .ok text)
    (hbefore : io.opened ∧ io.restricted ∧ io.truncated) (hfails : io.writeFailsAfter = some n)
    (hn : n < (asBytes text).length) :
    config.save toml content io = (some ((asBytes text).take n), .error "Cannot save configuration") := by
  obtain ⟨hopened, hrestricted, htruncated⟩ := hbefore
  have hstops : io.writeFailsAfter.filter (· < (asBytes text).length) = some n := by
    rw [hfails, Option.filter_some, if_pos (by simpa using hn)]
  simp [Config.save, htext, hopened, hrestricted, htruncated, hstops]

theorem Config.save_written {text : String} (htext : config.toToml toml = .ok text)
    (hbefore : io.opened ∧ io.restricted ∧ io.truncated)
    (hwrite : ∀ n, io.writeFailsAfter = some n → (asBytes text).length ≤ n) :
    config.save toml content io = (some (asBytes text), .ok ()) := by
  obtain ⟨hopened, hrestricted, htruncated⟩ := hbefore
  have hwhole : io.writeFailsAfter.filter (· < (asBytes text).length) = none := by
    rw [Option.filter_eq_none_iff]
    intro n hn
    simpa using hwrite n hn
  simp [Config.save, htext, hopened, hrestricted, htruncated, hwhole]

/-! ### What a save can come to -/

/-- What the file holds after `Config::save`, by how far it got. -/
inductive Saved (toml : Config → Option String) (config : Config) (content : Option Bytes) (io : SaveEffects) :
    Option Bytes → Except String Unit → Prop where
  /-- Nothing was done to the file. -/
  | untouched {message : String} (hbefore : toml config = none ∨ io.opened = false) :
      Saved toml config content io content (.error message)
  /-- The file was opened, and created if there was none. -/
  | opened {message : String} (hopened : io.opened = true) (hfails : io.restricted = false ∨ io.truncated = false) :
      Saved toml config content io (some (content.getD [])) (.error message)
  | torn {text message : String} {n : Nat} (hbefore : io.opened ∧ io.restricted ∧ io.truncated)
      (htext : toml config = some text) (hfails : io.writeFailsAfter = some n) (hn : n < (asBytes text).length) :
      Saved toml config content io (some ((asBytes text).take n)) (.error message)
  | written {text : String} (htext : toml config = some text) :
      Saved toml config content io (some (asBytes text)) (.ok ())

theorem Config.save_spec :
    Saved toml config content io (config.save toml content io).1 (config.save toml content io).2 := by
  cases htext : toml config with
  | none =>
      rw [Config.save_unserialized (by rw [Config.toToml, htext]; rfl)]
      exact .untouched (.inl htext)
  | some text =>
      have hserialized : config.toToml toml = .ok text := okOr_eq_ok.mpr htext
      by_cases hopened : io.opened = true
      · by_cases hfails : io.restricted = false ∨ io.truncated = false
        · obtain ⟨message, hsave⟩ : ∃ message, config.save toml content io = (_, .error message) :=
            Config.save_uncut hserialized hopened hfails
          rw [hsave]
          exact .opened hopened hfails
        · have hbefore : io.opened ∧ io.restricted ∧ io.truncated := by simpa [hopened] using hfails
          by_cases hwrite : ∃ n, io.writeFailsAfter = some n ∧ n < (asBytes text).length
          · obtain ⟨n, hstops, hn⟩ := hwrite
            rw [Config.save_torn hserialized hbefore hstops hn]
            exact .torn hbefore htext hstops hn
          · rw [Config.save_written hserialized hbefore (by simpa using hwrite)]
            exact .written htext
      · rw [Config.save_unopened hserialized (by simpa using hopened)]
        exact .untouched (.inr (by simpa using hopened))

theorem Agent.save_config_failed {lib : External} {codec : Codec} {agent : Agent} {args : Json} {effects : Effects}
    {message : String} (hsaved : effects.saved = .error message) :
    (agent.command lib codec "save_config" args effects).1 = agent := by
  have hconfigure : agent.command lib codec "save_config" args effects =
      agent.configure lib codec "save_config" args effects := rfl
  rw [hconfigure, Agent.configure]
  split
  · rfl
  split
  · rfl
  simp only
  split
  · rfl
  rw [if_neg (by decide)]
  split
  · rfl
  rw [if_pos trivial, hsaved]

/-- A save that succeeds leaves exactly the text. One that fails changes the file only by creating it empty, or
by a write that stopped after everything before it had gone well and left the beginning of the text. What the
file holds after a failure is said for every point at which a step can fail: a write that stops after `n` bytes
leaves the first `n` bytes. The agent's own settings survive either way. -/
theorem failed_saves_leave_a_prefix (toml : Config → Option String) (config : Config) (content : Option Bytes)
    (io : SaveEffects) :
    let after := (config.save toml content io).1
    let result := (config.save toml content io).2
    (result = .ok () → ∃ text, config.toToml toml = .ok text ∧ after = some (asBytes text)) ∧
      (∀ message, result = .error message → after ≠ content →
        (content = none ∧ after = some []) ∨
          (io.opened ∧ io.restricted ∧ io.truncated) ∧
            ∃ text n, config.toToml toml = .ok text ∧ io.writeFailsAfter = some n ∧ n < (asBytes text).length ∧
              after = some ((asBytes text).take n)) ∧
      (∀ message, config.toToml toml = .error message → result = .error message ∧ after = content) ∧
      (∀ text, config.toToml toml = .ok text →
        (io.opened = false → (∃ message, result = .error message) ∧ after = content) ∧
        (io.opened = true → io.restricted = false ∨ io.truncated = false →
          (∃ message, result = .error message) ∧ after = some (content.getD [])) ∧
        (io.opened ∧ io.restricted ∧ io.truncated →
          (∀ n, io.writeFailsAfter = some n → n < (asBytes text).length →
            (∃ message, result = .error message) ∧ after = some ((asBytes text).take n)) ∧
          ((∀ n, io.writeFailsAfter = some n → (asBytes text).length ≤ n) →
            result = .ok () ∧ after = some (asBytes text)))) ∧
      ∀ message, result = .error message → ∀ lib codec agent args effects, effects.saved = result →
        (Agent.command lib codec agent "save_config" args effects).1 = agent := by
  intro after result
  have hsave : Saved toml config content io after result := Config.save_spec
  refine ⟨fun hok => ?_, fun message herror hchanged => ?_, fun message htext => ?_, fun text htext =>
    ⟨fun hopened => ?_, fun hopened hfails => ?_, fun hbefore => ⟨fun n hfails hn => ?_, fun hwrite => ?_⟩⟩,
    fun message herror lib codec agent args effects hsaved => Agent.save_config_failed (hsaved.trans herror)⟩
  · generalize after = after, result = result at hsave hok
    cases hsave with
    | written htext => exact ⟨_, okOr_eq_ok.mpr htext, rfl⟩
    | _ => cases hok
  · generalize after = after, result = result at hsave herror hchanged
    cases hsave with
    | untouched => exact absurd rfl hchanged
    | opened =>
        cases content with
        | none => exact .inl ⟨rfl, rfl⟩
        | some bytes => exact absurd rfl hchanged
    | torn hbefore htext hfails hn => exact .inr ⟨hbefore, _, _, okOr_eq_ok.mpr htext, hfails, hn, rfl⟩
    | written => cases herror
  · have hsaved : config.save toml content io = _ := Config.save_unserialized htext
    exact ⟨congrArg Prod.snd hsaved, congrArg Prod.fst hsaved⟩
  · have hsaved : config.save toml content io = _ := Config.save_unopened htext hopened
    exact ⟨⟨_, congrArg Prod.snd hsaved⟩, congrArg Prod.fst hsaved⟩
  · obtain ⟨message, hsaved⟩ : ∃ message, config.save toml content io = (_, .error message) :=
      Config.save_uncut htext hopened hfails
    exact ⟨⟨_, congrArg Prod.snd hsaved⟩, congrArg Prod.fst hsaved⟩
  · have hsaved : config.save toml content io = _ := Config.save_torn htext hbefore hfails hn
    exact ⟨⟨_, congrArg Prod.snd hsaved⟩, congrArg Prod.fst hsaved⟩
  · have hsaved : config.save toml content io = _ := Config.save_written htext hbefore hwrite
    exact ⟨congrArg Prod.snd hsaved, congrArg Prod.fst hsaved⟩

/-- A full disk: the old settings are gone, none of the new ones is there, and the file no longer loads. -/
theorem a_failed_save_loses_the_settings :
    let lib : External := ⟨fun _ => false, some, fun _ => none, fun _ => []⟩
    let toml : Config → Option String := fun _ => some "schema_version = 1"
    let old := asBytes "schema_version = 1"
    let after := Config.default.save toml (some old) ⟨true, true, true, some 0⟩
    after = (some [], .error "Cannot save configuration") ∧ after.1 ≠ some old ∧
      (Config.load lib (fun text => if text = "" then none else some Config.default) "/etc/agent.toml"
        (.ok "")).map (fun c => c.schemaVersion) =
          .error "Invalid TOML or unknown/missing configuration field" := by
  refine ⟨by decide +kernel, by decide +kernel, by decide +kernel⟩

end SyslogDtlsAgent
