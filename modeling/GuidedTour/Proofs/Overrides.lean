import GuidedTour.Program.Settings

namespace GuidedTour

/-!
# What the variables of an environment do to settings

A variable that is not set is to leave its field as it was, whatever stands there; a variable that
is set gives its field a text, or a number inside bounds.

* `clampedNat_bounds`, `clampedNat_again`, `le_overriddenNat`, `overriddenNat_again` — a number out
  of a variable, once and twice;
* `Settings.LeavesUnset` — settings that differ from others in no field whose variables are not
  set;
* `Settings.held` — settings with both limits of the service inside their bounds;
* `overridden_leavesUnset` — which fields are left as they were: all but these two limits;
* `overridden_changesUnset` — a limit that is changed although nothing is set;
* `Settings.problem?_eq_none_iff`, `Settings.IsBounded` — what is checked of settings, and what
  bounds all their numbers have once the environment was looked at;
* `overridden_staysValid` — valid settings stay valid, and a second look changes nothing.
-/

/-! ### A number out of a variable -/

section Number

variable {bound current least most : Nat} {raw : Option String}

/-- A clamped number is in the range. -/
theorem clampedNat_bounds (h : least ≤ most) :
    least ≤ clampedNat bound raw current least most ∧
      clampedNat bound raw current least most ≤ most := by
  simp only [clampedNat, clamped]
  omega

/-- Without a text the number itself is held inside the bounds. -/
theorem clampedNat_none :
    clampedNat bound none current least most = max least (min current most) := by
  simp only [clampedNat, clamped, Option.bind_none, Option.getD_none]
  omega

/-- The same text, looked at again, gives the same number: either the text holds one, or the number
is inside the bounds already. -/
theorem clampedNat_again (h : least ≤ most) :
    clampedNat bound raw (clampedNat bound raw current least most) least most =
      clampedNat bound raw current least most := by
  have hbounds : least ≤ clampedNat bound raw current least most ∧
    clampedNat bound raw current least most ≤ most := clampedNat_bounds h
  unfold clampedNat clamped at *
  cases raw.bind fun s => Numeral.readInt 0 bound (Text.trim s.toList) with
  | some z => rfl
  | none =>
    simp only [Option.getD_none] at *
    omega

/-- An overridden number does not come below the range. -/
theorem le_overriddenNat (h : least ≤ most) (hcurrent : least ≤ current) :
    least ≤ overriddenNat raw current least most := by
  cases raw with
  | none => exact hcurrent
  | some text => exact (clampedNat_bounds h).1

/-- An overridden number does not go beyond the range. -/
theorem overriddenNat_le (h : least ≤ most) (hcurrent : current ≤ most) :
    overriddenNat raw current least most ≤ most := by
  cases raw with
  | none => exact hcurrent
  | some text => exact (clampedNat_bounds h).2

/-- A number is overridden to the same a second time. -/
theorem overriddenNat_again (h : least ≤ most) :
    overriddenNat raw (overriddenNat raw current least most) least most =
      overriddenNat raw current least most := by
  cases raw with
  | none => rfl
  | some text => exact clampedNat_again h

end Number

attribute [ext] ServiceConfig BatchOptions ReviewOptions Settings

/-- The settings of the service are overridden to the same a second time. -/
theorem ServiceConfig.overridden_again (c : ServiceConfig) (env : Environment) :
    (c.overridden env).overridden env = c.overridden env := by
  have htext : ∀ (text : Option String) (field : String),
      text.getD (text.getD field) = text.getD field := by
    intro text field
    cases text <;> rfl
  refine ServiceConfig.ext (htext _ _) (htext _ _) ?_ (clampedNat_again (by decide))
    (clampedNat_again (by decide)) rfl
  show Option.or _ (Option.or _ _) = Option.or _ _
  rw [← Option.or_assoc, Option.or_self]

namespace Settings

variable {s s' : Settings} {env : Environment}

/-! ### What is not set -/

/-- The variables that are looked at. -/
def variableNames : List String :=
  ["TOURGEN_BASE_URL", "TOURGEN_MODEL", "TOURGEN_API_KEY", "OPENAI_API_KEY",
    "TOURGEN_REQUEST_TIMEOUT_SECS", "TOURGEN_MAX_TOKENS", "TOURGEN_BATCH_SIZE",
    "TOURGEN_CONCURRENCY", "TOURGEN_BATCH_TIMEOUT_SECS", "TOURGEN_MAX_STEPS"]

/-- The settings `s'` have what `s` have, wherever a field has no variable or its variables are not
set. -/
structure LeavesUnset (env : Environment) (s s' : Settings) : Prop where
  title : s'.title = s.title
  discovery : s'.discovery = s.discovery
  temperature : s'.service.temperature = s.service.temperature
  strictLineBounds : s'.review.strictLineBounds = s.review.strictLineBounds
  baseUrl : env "TOURGEN_BASE_URL" = none → s'.service.baseUrl = s.service.baseUrl
  model : env "TOURGEN_MODEL" = none → s'.service.model = s.service.model
  apiKey : env "TOURGEN_API_KEY" = none → env "OPENAI_API_KEY" = none →
    s'.service.apiKey = s.service.apiKey
  requestTimeout : env "TOURGEN_REQUEST_TIMEOUT_SECS" = none →
    s'.service.requestTimeout = s.service.requestTimeout
  maxTokens : env "TOURGEN_MAX_TOKENS" = none → s'.service.maxTokens = s.service.maxTokens
  batchSize : env "TOURGEN_BATCH_SIZE" = none → s'.batches.batchSize = s.batches.batchSize
  concurrency : env "TOURGEN_CONCURRENCY" = none → s'.batches.concurrency = s.batches.concurrency
  timeout : env "TOURGEN_BATCH_TIMEOUT_SECS" = none → s'.batches.timeout = s.batches.timeout
  maxSteps : env "TOURGEN_MAX_STEPS" = none → s'.review.maxSteps = s.review.maxSteps

theorem LeavesUnset.refl (s : Settings) : s.LeavesUnset env s :=
  ⟨rfl, rfl, rfl, rfl, fun _ => rfl, fun _ => rfl, fun _ _ => rfl, fun _ => rfl, fun _ => rfl,
    fun _ => rfl, fun _ => rfl, fun _ => rfl, fun _ => rfl⟩

/-- Where no variable is set, nothing differs. -/
theorem LeavesUnset.eq (h : s.LeavesUnset env s')
    (hunset : ∀ name ∈ variableNames, env name = none) : s' = s := by
  have hservice : s'.service = s.service :=
    ServiceConfig.ext (h.baseUrl (hunset _ (by decide))) (h.model (hunset _ (by decide)))
      (h.apiKey (hunset _ (by decide)) (hunset _ (by decide)))
      (h.requestTimeout (hunset _ (by decide))) (h.maxTokens (hunset _ (by decide))) h.temperature
  have hbatches : s'.batches = s.batches :=
    BatchOptions.ext (h.batchSize (hunset _ (by decide))) (h.concurrency (hunset _ (by decide)))
      (h.timeout (hunset _ (by decide)))
  have hreview : s'.review = s.review :=
    ReviewOptions.ext (h.maxSteps (hunset _ (by decide))) h.strictLineBounds
  exact Settings.ext h.title hservice h.discovery hbatches hreview

/-- The settings with both limits of the service inside their bounds. -/
def held (s : Settings) : Settings :=
  { s with
    service :=
      { s.service with
        requestTimeout := max 1 (min s.service.requestTimeout maxRequestTimeout)
        maxTokens := max 1 (min s.service.maxTokens maxAnswerTokens) } }

/-- The environment leaves all that is not set, but for the two limits. -/
theorem leavesUnset_overridden (s : Settings) (env : Environment) :
    s.held.LeavesUnset env (s.overridden env) where
  title := rfl
  discovery := rfl
  temperature := rfl
  strictLineBounds := rfl
  baseUrl h := by
    simp [overridden, ServiceConfig.overridden, Environment.text?, h, held]
  model h := by
    simp [overridden, ServiceConfig.overridden, Environment.text?, h, held]
  apiKey hkey hopen := by
    simp [overridden, ServiceConfig.overridden, Environment.text?, hkey, hopen, held]
  requestTimeout h := by
    simp [overridden, ServiceConfig.overridden, h, held, clampedNat_none]
  maxTokens h := by
    simp [overridden, ServiceConfig.overridden, h, held, clampedNat_none]
  batchSize h := by
    simp [overridden, overriddenNat, h, held]
  concurrency h := by
    simp [overridden, overriddenNat, h, held]
  timeout h := by
    simp [overridden, overriddenNat, h, held]
  maxSteps h := by
    simp [overridden, overriddenNat, h, held]

/-- So all is left that is not set, if the two limits are, unless they are set. -/
theorem leavesUnset_overridden_iff : s.LeavesUnset env (s.overridden env) ↔
    (env "TOURGEN_REQUEST_TIMEOUT_SECS" = none →
      s.held.service.requestTimeout = s.service.requestTimeout) ∧
    (env "TOURGEN_MAX_TOKENS" = none → s.held.service.maxTokens = s.service.maxTokens) := by
  have hheld := s.leavesUnset_overridden env
  constructor
  · intro h
    exact ⟨fun hunset => (hheld.requestTimeout hunset).symm.trans (h.requestTimeout hunset),
      fun hunset => (hheld.maxTokens hunset).symm.trans (h.maxTokens hunset)⟩
  · rintro ⟨hrequest, htokens⟩
    exact { hheld with
      requestTimeout := fun hunset => (hheld.requestTimeout hunset).trans (hrequest hunset)
      maxTokens := fun hunset => (hheld.maxTokens hunset).trans (htokens hunset) }

/-- Clamping changes a request timeout only if it is out of range. -/
theorem requestTimeout_held_eq_iff : s.held.service.requestTimeout = s.service.requestTimeout ↔
    1 ≤ s.service.requestTimeout ∧ s.service.requestTimeout ≤ 600 := by
  simp only [held, maxRequestTimeout]
  omega

/-- Clamping changes a number of tokens only if it is out of range. -/
theorem maxTokens_held_eq_iff : s.held.service.maxTokens = s.service.maxTokens ↔
    1 ≤ s.service.maxTokens ∧ s.service.maxTokens ≤ 32768 := by
  simp only [held, maxAnswerTokens]
  omega

end Settings

/-- **What is not set is left as it was**, in every field but two: the timeout of a request and the
greatest number of tokens are held inside their bounds even where their variables are not set. So
all is left as it was exactly if each of these limits is inside its bounds or has its variable set;
and where no variable is set at all, the settings are the same exactly if both are inside. -/
theorem overridden_leavesUnset (s : Settings) (env : Environment) :
    s.held.LeavesUnset env (s.overridden env) ∧
      (s.LeavesUnset env (s.overridden env) ↔
        (env "TOURGEN_REQUEST_TIMEOUT_SECS" = none →
          1 ≤ s.service.requestTimeout ∧ s.service.requestTimeout ≤ 600) ∧
        (env "TOURGEN_MAX_TOKENS" = none →
          1 ≤ s.service.maxTokens ∧ s.service.maxTokens ≤ 32768)) ∧
      ((∀ name ∈ Settings.variableNames, env name = none) →
        (s.overridden env = s ↔
          (1 ≤ s.service.requestTimeout ∧ s.service.requestTimeout ≤ 600) ∧
            1 ≤ s.service.maxTokens ∧ s.service.maxTokens ≤ 32768)) := by
  have hleaves : s.LeavesUnset env (s.overridden env) ↔ _ := Settings.leavesUnset_overridden_iff
  rw [Settings.requestTimeout_held_eq_iff, Settings.maxTokens_held_eq_iff] at hleaves
  refine ⟨s.leavesUnset_overridden env, hleaves, fun hunset => ?_⟩
  have hrequest : env "TOURGEN_REQUEST_TIMEOUT_SECS" = none := hunset _ (by decide)
  have htokens : env "TOURGEN_MAX_TOKENS" = none := hunset _ (by decide)
  simp only [hrequest, htokens, forall_const] at hleaves
  rw [← hleaves]
  constructor
  · intro h
    rw [h]
    exact .refl s
  · exact fun h => h.eq hunset

/-- A timeout that is set, and a size of batches and a number of steps that nothing sets: the first
is taken, and the others are left although no check would let them pass. -/
theorem overridden_leavesUnset_outOfRange :
    let s : Settings := { batches := { batchSize := 0 }, review := { maxSteps := 0 } }
    let env : Environment := fun name =>
      if name = "TOURGEN_REQUEST_TIMEOUT_SECS" then some " 30 " else none
    (∀ name ∈ Settings.variableNames, (fun _ => none : Environment) name = none) ∧
      s.overridden (fun _ => none) = s ∧ s.LeavesUnset env (s.overridden env) ∧
      (s.overridden env).service.requestTimeout = 30 := by
  intro s env
  have hunset : ∀ name ∈ Settings.variableNames, (fun _ => none : Environment) name = none :=
    fun _ _ => rfl
  refine ⟨hunset, ((overridden_leavesUnset s fun _ => none).2.2 hunset).mpr (by decide), ?_,
    by decide +kernel⟩
  exact (overridden_leavesUnset s env).2.1.mpr ⟨fun h => by simp [env] at h, fun _ => by decide⟩

/-- A settings file with a long timeout for slow answers. -/
def slowService : String := "[generation]\nrequest_timeout_secs = 900\n"

/-- The timeout of a settings file is changed although no variable is set. -/
theorem overridden_changesUnset :
    ∃ s, Settings.ofText? slowService = some s ∧
      ¬ s.LeavesUnset (fun _ => none) (s.overridden fun _ => none) ∧
      s.service.requestTimeout = 900 ∧
      (s.overridden fun _ => none).service.requestTimeout = 600 := by
  obtain ⟨s, hs, htimeout⟩ : ∃ s, Settings.ofText? slowService = some s ∧
      s.service.requestTimeout = 900 := by
    rw [← Option.map_eq_some_iff]
    decide +kernel
  have hchanged : (s.overridden fun _ => none).service.requestTimeout = 600 := by
    rw [(s.leavesUnset_overridden fun _ => none).requestTimeout rfl]
    simp [Settings.held, htimeout, maxRequestTimeout]
  refine ⟨s, hs, fun h => ?_, htimeout, hchanged⟩
  have hsame := h.requestTimeout rfl
  rw [htimeout, hchanged] at hsame
  cases hsame

namespace Settings

variable {s : Settings} {env : Environment}

/-! ### What is valid -/

/-- What is checked of settings. -/
theorem problem?_eq_none_iff : s.problem? = none ↔
    (1 ≤ s.batches.batchSize ∧ s.batches.batchSize ≤ 32) ∧
      (1 ≤ s.batches.concurrency ∧ s.batches.concurrency ≤ 16) ∧ 1 ≤ s.batches.timeout ∧
      1 ≤ s.review.maxSteps := by
  simp only [problem?, BatchOptions.problem?, Option.or_eq_none_iff, Option.map_eq_none_iff,
    Bool.or_eq_true, beq_iff_eq, maxBatchSize, maxConcurrency]
  grind

/-- All numbers of the settings are inside bounds. -/
structure IsBounded (s : Settings) : Prop where
  batchSize : 1 ≤ s.batches.batchSize ∧ s.batches.batchSize ≤ 32
  concurrency : 1 ≤ s.batches.concurrency ∧ s.batches.concurrency ≤ 16
  timeout : 1 ≤ s.batches.timeout
  maxSteps : 1 ≤ s.review.maxSteps
  requestTimeout : 1 ≤ s.service.requestTimeout ∧ s.service.requestTimeout ≤ 600
  maxTokens : 1 ≤ s.service.maxTokens ∧ s.service.maxTokens ≤ 32768

/-- Nothing is checked of the limits of the service, but these are always held. -/
theorem isBounded_overridden (h : s.problem? = none) : (s.overridden env).IsBounded := by
  obtain ⟨hsize, hconcurrency, htimeout, hsteps⟩ := problem?_eq_none_iff.mp h
  exact {
    batchSize := ⟨le_overriddenNat (by decide) hsize.1, overriddenNat_le (by decide) hsize.2⟩
    concurrency := ⟨le_overriddenNat (by decide) hconcurrency.1,
      overriddenNat_le (by decide) hconcurrency.2⟩
    timeout := le_overriddenNat (by decide) htimeout
    maxSteps := le_overriddenNat (by decide) hsteps
    requestTimeout := clampedNat_bounds (by decide)
    maxTokens := clampedNat_bounds (by decide) }

/-- A second look at the same variables changes nothing. -/
theorem overridden_again : (s.overridden env).overridden env = s.overridden env :=
  Settings.ext rfl (s.service.overridden_again env) rfl
    (BatchOptions.ext (overriddenNat_again (by decide)) (overriddenNat_again (by decide))
      (overriddenNat_again (by decide)))
    (ReviewOptions.ext (overriddenNat_again (by decide)) rfl)

end Settings

/-- **Valid settings stay valid** whatever texts the variables hold, all their numbers are inside
bounds, and a second look at the same variables changes nothing. -/
theorem overridden_staysValid {s : Settings} (env : Environment) (h : s.problem? = none) :
    (s.overridden env).problem? = none ∧ (s.overridden env).IsBounded ∧
      (s.overridden env).overridden env = s.overridden env := by
  have hbounded : (s.overridden env).IsBounded := Settings.isBounded_overridden h
  exact ⟨Settings.problem?_eq_none_iff.mpr ⟨hbounded.batchSize, hbounded.concurrency,
    hbounded.timeout, hbounded.maxSteps⟩, hbounded, Settings.overridden_again⟩

/-- Numbers beyond both bounds and beyond 64 bits, a sign, blanks, and texts that hold no number. -/
theorem overridden_staysValid_oddTexts :
    let s : Settings := { batches := { batchSize := 32 }, review := { maxSteps := 501 } }
    let env : Environment := fun name => List.lookup name [("TOURGEN_BASE_URL", " \t "),
      ("TOURGEN_API_KEY", ""), ("OPENAI_API_KEY", " sk\n"),
      ("TOURGEN_REQUEST_TIMEOUT_SECS", "99999999999999999999999"), ("TOURGEN_MAX_TOKENS", "-0"),
      ("TOURGEN_BATCH_SIZE", "+0"), ("TOURGEN_CONCURRENCY", " 17 "),
      ("TOURGEN_BATCH_TIMEOUT_SECS", "٣"), ("TOURGEN_MAX_STEPS", "ten")]
    s.problem? = none ∧ (s.overridden env).problem? = none ∧ (s.overridden env).IsBounded ∧
      (s.overridden env).overridden env = s.overridden env ∧
      (s.overridden env).service = { s.service with apiKey := some "sk" } ∧
      (s.overridden env).batches = ⟨1, 16, 60⟩ ∧ (s.overridden env).review.maxSteps = 500 := by
  intro s env
  have hvalid : s.problem? = none := by decide
  obtain ⟨hproblem, hbounded, hagain⟩ := overridden_staysValid env hvalid
  exact ⟨hvalid, hproblem, hbounded, hagain, by decide +kernel, by decide +kernel,
    by decide +kernel⟩

end GuidedTour
