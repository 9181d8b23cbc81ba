import TransitLink.Proofs.Number.Decimal
import TransitLink.Proofs.Probe.SettingsFile

/-!
# Where settings come from

* `Says` : what a variable says, in the process or else in the settings file.
* `Chosen` : the value that is taken for what a variable says. `Unreadable` : the trouble with one that cannot be read.
* `Follows` : the settings that follow what the variables say. `ofLookup_eq_ok_iff` : they are made if they can be used.
* `Fails` : what is told if none are made. `fails_of_ofLookup` : nothing else is told.
* `ofLookup_congr` : only what the variables say without the blanks around it counts.
* `settings_keep_precedence` : the process goes before the settings file, and the settings file before the defaults.
-/

namespace TransitLink.Probe.Settings

set_option autoImplicit false

/-! ## What a variable says -/

/-- `Says environment text name said`: in a process with these variables and a settings file with this text, a variable
says what the process gives it, even if that is blank; else what the settings file sets it to; else nothing. -/
inductive Says (environment : Members String) (text name : String) : Option String → Prop where
  | process {v : String} : environment.find? name = some v → Says environment text name (some v)
  | file {v : String} : environment.find? name = none → DotEnv.Sets text name v → Says environment text name (some v)
  | nothing : environment.find? name = none → (∀ v, ¬ DotEnv.Sets text name v) → Says environment text name none

variable {environment : Members String} {text name : String}

theorem says_iff {said : Option String} : Says environment text name said ↔
    said = (environment.find? name).or (Members.find? name ((Text.lines text).filterMap DotEnv.written?)) := by
  constructor
  · rintro (hprocess | ⟨hprocess, hfile⟩ | ⟨hprocess, hfile⟩)
    · rw [hprocess, Option.some_or]
    · rw [hprocess, DotEnv.sets_iff.mp hfile, Option.none_or]
    · rw [hprocess, Option.none_or, eq_comm, Option.eq_none_iff_forall_ne_some]
      exact fun v hv => hfile v (DotEnv.sets_iff.mpr hv)
  · rintro rfl
    cases hprocess : environment.find? name with
    | some v => exact .process hprocess
    | none =>
      rw [Option.none_or]
      cases hfile : Members.find? name ((Text.lines text).filterMap DotEnv.written?) with
      | some v => exact .file hprocess (DotEnv.sets_iff.mpr hfile)
      | none =>
        refine .nothing hprocess fun v hv => ?_
        rw [DotEnv.sets_iff, hfile] at hv
        cases hv

/-- What is looked up is what the variable says, but that the blanks around it may be gone. -/
theorem map_trim_lookup {said : Option String} (h : Says environment text name said) :
    (lookup environment (DotEnv.parse text) name).map Text.trim = said.map Text.trim := by
  rw [says_iff.mp h, lookup, DotEnv.find?_parse_eq]
  cases environment.find? name with
  | some v => rfl
  | none =>
    rw [Option.none_or, Option.none_or, Option.map_map]
    exact congrArg (Option.map · _) (funext Text.trim_trim)

/-! ## What is taken for it -/

/-- `Chosen read default said x`: for a variable that says this, the value `x` is taken. Blanks around it do not count, and
if nothing is left, or nothing was said, it is the default. -/
inductive Chosen {α : Type} (read : String → Except Decimal.Fault α) (default : α) : Option String → α → Prop where
  | default {said : Option String} : (∀ v, said = some v → Text.IsBlank v) → Chosen read default said default
  | value {v : String} {x : α} : ¬ Text.IsBlank v → read (Text.trim v) = .ok x → Chosen read default (some v) x

/-- `ChosenDimension said d`: a blank text asks for every dimension, and only where nothing was said is it the default. -/
inductive ChosenDimension : Option String → Option String → Prop where
  | default : ChosenDimension none (some defaultDimension)
  | every {v : String} : Text.IsBlank v → ChosenDimension (some v) none
  | one {v : String} : ¬ Text.IsBlank v → ChosenDimension (some v) (some (Text.trim v))

/-- `Unreadable read name said t`: the variable says something that cannot be read, and the trouble `t` quotes it. -/
def Unreadable {α : Type} (read : String → Except Decimal.Fault α) (name : String) (said : Option String)
    (t : Trouble) : Prop :=
  ∃ v fault, said = some v ∧ ¬ Text.IsBlank v ∧ read (Text.trim v) = .error fault ∧
    t = ⟨["Invalid " ++ name ++ ": " ++ Text.trim v], .fault fault.message⟩

section
variable {α : Type} {read : String → Except Decimal.Fault α} {default x : α} {said said' : Option String}

theorem nonBlank_some (v : String) : nonBlank (some v) = if Text.IsBlank v then none else some (Text.trim v) := by
  rw [nonBlank, Option.bind_some]
  by_cases hv : Text.IsBlank v
  · rw [if_pos hv]
    exact if_pos (Text.trim_eq_empty_iff.mpr hv)
  · rw [if_neg hv]
    exact if_neg fun h => hv (Text.trim_eq_empty_iff.mp h)

theorem nonBlank_congr (h : said.map Text.trim = said'.map Text.trim) : nonBlank said = nonBlank said' := by
  have htrim : ∀ v : Option String, nonBlank v = nonBlank (v.map Text.trim) := by
    intro v
    cases v with
    | none => rfl
    | some v => simp only [Option.map_some, nonBlank_some, Text.isBlank_trim_iff, Text.trim_trim]
  rw [htrim said, htrim said', h]

theorem nonBlank_eq_none_iff : nonBlank said = none ↔ ∀ v, said = some v → Text.IsBlank v := by
  cases said with
  | none => exact iff_of_true rfl fun v hv => nomatch hv
  | some v => simp [nonBlank_some]

theorem nonBlank_eq_some_iff {t : String} :
    nonBlank said = some t ↔ ∃ v, said = some v ∧ ¬ Text.IsBlank v ∧ Text.trim v = t := by
  cases said with
  | none => exact iff_of_false (fun h => nomatch h) fun ⟨v, hv, _⟩ => nomatch hv
  | some v => simp [nonBlank_some]

theorem chosen_iff : Chosen read default said x ↔
    (∃ t, nonBlank said = some t ∧ read t = .ok x) ∨ nonBlank said = none ∧ x = default := by
  constructor
  · rintro (hblank | ⟨hv, hread⟩)
    · exact .inr ⟨nonBlank_eq_none_iff.mpr hblank, rfl⟩
    · exact .inl ⟨_, nonBlank_eq_some_iff.mpr ⟨_, rfl, hv, rfl⟩, hread⟩
  · rintro (⟨t, ht, hread⟩ | ⟨hnone, rfl⟩)
    · obtain ⟨v, rfl, hv, rfl⟩ := nonBlank_eq_some_iff.mp ht
      exact .value hv hread
    · exact .default (nonBlank_eq_none_iff.mp hnone)

theorem optionalNumber_eq_ok_iff : optionalNumber name read said default = .ok x ↔ Chosen read default said x := by
  rw [chosen_iff, optionalNumber]
  cases nonBlank said with
  | none => simp [eq_comm]
  | some t => simp [number, mapError_eq_ok_iff]

theorem optionalNumber_congr (h : said.map Text.trim = said'.map Text.trim) :
    optionalNumber name read said default = optionalNumber name read said' default := by
  rw [optionalNumber, optionalNumber, nonBlank_congr h]

theorem unreadable_of_optionalNumber {t : Trouble} (h : optionalNumber name read said default = .error t) :
    Unreadable read name said t := by
  rw [optionalNumber] at h
  cases hsaid : nonBlank said with
  | none =>
    rw [hsaid] at h
    cases h
  | some t =>
    rw [hsaid] at h
    obtain ⟨v, rfl, hv, rfl⟩ := nonBlank_eq_some_iff.mp hsaid
    obtain ⟨fault, hfault, rfl⟩ := mapError_eq_error_iff.mp h
    exact ⟨v, fault, rfl, hv, hfault, rfl⟩

theorem getD_nonBlank_eq_iff {default t : String} : (nonBlank said).getD default = t ↔ Chosen .ok default said t := by
  rw [chosen_iff]
  cases nonBlank said <;> simp [eq_comm]

theorem nonBlank_eq_iff {t : Option String} : nonBlank said = t ↔ Chosen (fun v => .ok (some v)) none said t := by
  rw [chosen_iff]
  cases nonBlank said <;> simp [eq_comm]

theorem dimension_eq_iff {d : Option String} :
    (match said with | none => some defaultDimension | some v => nonBlank (some v)) = d ↔ ChosenDimension said d := by
  cases said with
  | none =>
    constructor
    · rintro rfl
      exact .default
    · rintro ⟨⟩
      rfl
  | some v =>
    change nonBlank (some v) = d ↔ _
    rw [nonBlank_some]
    constructor
    · rintro rfl
      split
      · exact .every ‹_›
      · exact .one ‹_›
    · rintro (_ | hv | hv)
      · rw [if_pos hv]
      · rw [if_neg hv]

end

theorem lt_of_chosen {bits default n : Nat} {said : Option String} (hdefault : default < 2 ^ bits)
    (h : Chosen (Decimal.parseNatural bits) default said n) : n < 2 ^ bits := by
  cases h with
  | default _ => exact hdefault
  | value _ hread => exact Decimal.lt_of_parseNatural hread

/-! ## Settings -/

/-- `ClientFollows process said c`: what the variables say makes this configuration of a client. -/
structure ClientFollows (process : Nat) (said : String → Option String) (c : Config) : Prop where
  host : Chosen .ok (Config.default process).host (said "PROVIDER_HOST") c.host
  service : Chosen (Decimal.parseNatural 16) (Config.default process).service.toNat (said "PROVIDER_PORT") c.service.toNat
  token : Chosen .ok (Config.default process).token (said "PROVIDER_TOKEN") c.token
  requestTimeout : ∃ n, c.requestTimeout = .ofMilliseconds n ∧
    Chosen (Decimal.parseNatural 64) (Config.default process).requestTimeout.milliseconds (said "REQUEST_TIMEOUT_MS") n
  others : c = { Config.default process with
    host := c.host, service := c.service, token := c.token, requestTimeout := c.requestTimeout }

/-- `Follows process said arg s`: what the variables say and the argument make these settings. -/
structure Follows (process : Nat) (said : String → Option String) (arg : Option String) (s : Settings) : Prop where
  gateway : ClientFollows process said s.gateway
  argument : ∀ dir, arg = some dir → s.outputDir = dir
  outputDir : arg = none → Chosen .ok defaultOutputDir (said "OUTPUT_DIR") s.outputDir
  dimension : ChosenDimension (said "PROVIDER_MTR_DIMENSION") s.railway.dimension
  routeId : Chosen Decimal.parseInt64 0 (said "PROVIDER_MTR_ROUTE_ID") s.railway.routeId
  stationId : Chosen (fun v => .ok (some v)) none (said "PROVIDER_MTR_STATION_ID") s.railway.stationId
  platformId : Chosen (fun v => .ok (some v)) none (said "PROVIDER_MTR_PLATFORM_ID") s.railway.platformId
  depotId : Chosen Decimal.parseInt64 0 (said "PROVIDER_MTR_DEPOT_ID") s.railway.depotId

/-- `Fails process said t`: what the variables say makes no settings, for a number that cannot be read or a configuration
that cannot be used. -/
inductive Fails (process : Nat) (said : String → Option String) (t : Trouble) : Prop where
  | service : Unreadable (Decimal.parseNatural 16) "PROVIDER_PORT" (said "PROVIDER_PORT") t → Fails process said t
  | requestTimeout : Unreadable (Decimal.parseNatural 64) "REQUEST_TIMEOUT_MS" (said "REQUEST_TIMEOUT_MS") t →
      Fails process said t
  | gateway {c : Config} {f : Failure} : ClientFollows process said c → c.validate = .error f → t = .ofFailure f →
      Fails process said t
  | routeId : Unreadable Decimal.parseInt64 "PROVIDER_MTR_ROUTE_ID" (said "PROVIDER_MTR_ROUTE_ID") t →
      Fails process said t
  | depotId : Unreadable Decimal.parseInt64 "PROVIDER_MTR_DEPOT_ID" (said "PROVIDER_MTR_DEPOT_ID") t →
      Fails process said t

variable {process : Nat} {said said' : String → Option String} {arg : Option String}

/-- The configuration that is made of two numbers that are chosen and of what else the variables say. -/
theorem clientFollows {service timeout : Nat} (hservice : Chosen (Decimal.parseNatural 16)
    (Config.default process).service.toNat (said "PROVIDER_PORT") service) (htimeout : Chosen (Decimal.parseNatural 64)
    (Config.default process).requestTimeout.milliseconds (said "REQUEST_TIMEOUT_MS") timeout) :
    ClientFollows process said { Config.default process with
      host := (nonBlank (said "PROVIDER_HOST")).getD (Config.default process).host
      service := .ofNat service
      token := (nonBlank (said "PROVIDER_TOKEN")).getD (Config.default process).token
      requestTimeout := .ofMilliseconds timeout } where
  host := getD_nonBlank_eq_iff.mp rfl
  service := by
    change Chosen _ _ _ (UInt16.ofNat service).toNat
    rw [UInt16.toNat_ofNat_of_lt' (lt_of_chosen (Config.default process).service.toNat_lt hservice)]
    exact hservice
  token := getD_nonBlank_eq_iff.mp rfl
  requestTimeout := ⟨timeout, rfl, htimeout⟩
  others := rfl

theorem ClientFollows.eq {c : Config} {timeout : Nat} (h : ClientFollows process said c)
    (htimeout : c.requestTimeout = .ofMilliseconds timeout) : { Config.default process with
      host := (nonBlank (said "PROVIDER_HOST")).getD (Config.default process).host
      service := .ofNat c.service.toNat
      token := (nonBlank (said "PROVIDER_TOKEN")).getD (Config.default process).token
      requestTimeout := .ofMilliseconds timeout } = c := by
  rw [getD_nonBlank_eq_iff.mpr h.host, getD_nonBlank_eq_iff.mpr h.token, UInt16.ofNat_toNat, ← htimeout]
  exact h.others.symm

theorem ofLookup_eq_ok_iff {s : Settings} :
    ofLookup process said arg = .ok s ↔ Follows process said arg s ∧ s.gateway.validate = .ok () := by
  simp only [ofLookup, bind_eq_ok_iff, mapError_eq_ok_iff, optionalNumber_eq_ok_iff, Except.ok.injEq]
  constructor
  · rintro ⟨service, hservice, timeout, htimeout, ⟨⟩, hvalid, routeId, hrouteId, depotId, hdepotId, rfl⟩
    refine ⟨?_, hvalid⟩
    constructor
    case gateway => exact clientFollows hservice htimeout
    case argument =>
      rintro dir rfl
      rfl
    case outputDir =>
      rintro rfl
      exact getD_nonBlank_eq_iff.mp rfl
    case dimension => exact dimension_eq_iff.mp rfl
    case routeId => exact hrouteId
    case stationId => exact nonBlank_eq_iff.mp rfl
    case platformId => exact nonBlank_eq_iff.mp rfl
    case depotId => exact hdepotId
  · rintro ⟨h, hvalid⟩
    obtain ⟨timeout, htimeout, hchosen⟩ := h.gateway.requestTimeout
    have hgateway := h.gateway.eq htimeout
    have hdir : (arg.or (nonBlank (said "OUTPUT_DIR"))).getD defaultOutputDir = s.outputDir := by
      cases harg : arg with
      | some dir => exact (h.argument dir harg).symm
      | none => exact getD_nonBlank_eq_iff.mpr (h.outputDir harg)
    refine ⟨_, h.gateway.service, timeout, hchosen, (), ?_, _, h.routeId, _, h.depotId, ?_⟩
    · rw [hgateway]
      exact hvalid
    · rw [hgateway, hdir, nonBlank_eq_iff.mpr h.stationId, nonBlank_eq_iff.mpr h.platformId]
      exact congrArg (fun d => { s with railway := { s.railway with dimension := d } })
        (dimension_eq_iff.mpr h.dimension)

theorem fails_of_ofLookup {t : Trouble} (h : ofLookup process said arg = .error t) : Fails process said t := by
  simp only [ofLookup, bind_eq_error_iff, mapError_eq_error_iff, mapError_eq_ok_iff, optionalNumber_eq_ok_iff] at h
  rcases h with hservice | ⟨service, hservice, htimeout | ⟨timeout, htimeout, ⟨f, hinvalid, rfl⟩ |
    ⟨-, -, hroute | ⟨routeId, -, hdepot | ⟨depotId, -, hnever⟩⟩⟩⟩⟩
  · exact .service (unreadable_of_optionalNumber hservice)
  · exact .requestTimeout (unreadable_of_optionalNumber htimeout)
  · exact .gateway (clientFollows hservice htimeout) hinvalid rfl
  · exact .routeId (unreadable_of_optionalNumber hroute)
  · exact .depotId (unreadable_of_optionalNumber hdepot)
  · cases hnever

theorem ofLookup_congr
    (h : ∀ name ∈ variableNames, (said name).map Text.trim = (said' name).map Text.trim) :
    ofLookup process said arg = ofLookup process said' arg := by
  simp only [variableNames, List.forall_mem_cons] at h
  obtain ⟨hhost, hservice, htoken, htimeout, hdir, hdimension, hroute, hstation, hplatform, hdepot, -⟩ := h
  rw [ofLookup, ofLookup, optionalNumber_congr hservice, optionalNumber_congr htimeout, nonBlank_congr hhost,
    nonBlank_congr htoken, optionalNumber_congr hroute, optionalNumber_congr hdepot, nonBlank_congr hdir,
    nonBlank_congr hstation, nonBlank_congr hplatform]
  generalize said "PROVIDER_MTR_DIMENSION" = d, said' "PROVIDER_MTR_DIMENSION" = d' at hdimension
  cases d with
  | none =>
    cases d' with
    | none => rfl
    | some v => cases hdimension
  | some v =>
    cases d' with
    | none => cases hdimension
    | some w => simp only [nonBlank_congr hdimension]

/-! ## Loading -/

variable {environment : Members String} {text : String}

theorem load_content : load process environment (.content (Bytes.ofText text)) arg =
    ofLookup process (lookup environment (DotEnv.parse text)) arg := by
  rw [load, File.entries, Bytes.text?_ofText]
  rfl

theorem load_eq_ofLookup (h : ∀ name ∈ variableNames, Says environment text name (said name)) :
    load process environment (.content (Bytes.ofText text)) arg = ofLookup process said arg := by
  rw [load_content]
  exact ofLookup_congr fun name hname => map_trim_lookup (h name hname)

/-- **Settings keep to precedence.** In any process and with any text in the settings file, a variable says one thing or
nothing: what the process gives it, even if that is blank; else what stands behind the first equals sign of the first line
in the file that gives it a value. The settings follow what the ten variables say: blanks around it do not count, and blank
is as good as nothing said, but that a blank dimension asks for all; the argument goes before the variable for the directory.
There are settings exactly if the numbers can be read and the configuration can be used, and in a failure a number is
quoted as it was said. A line of the file does not count if it gives none of the ten a value or one that an earlier line
gives a value; and without the file it is as if it were empty. -/
theorem settings_keep_precedence (process : Nat) (environment : Members String) (text : String) (arg : Option String) :
    (∀ name, ∃ said, ∀ other, Says environment text name other ↔ other = said) ∧
    (∀ said : String → Option String, (∀ name ∈ variableNames, Says environment text name (said name)) →
      (∀ s, load process environment (.content (Bytes.ofText text)) arg = .ok s ↔
        Follows process said arg s ∧ s.gateway.validate = .ok ()) ∧
      ∀ t, load process environment (.content (Bytes.ofText text)) arg = .error t → Fails process said t) ∧
    (∀ before line after text', Text.Cut text.toList (before ++ line :: after) →
      Text.Cut text'.toList (before ++ after) →
      (∀ name ∈ variableNames, ∀ v, DotEnv.Assigns line name v → ∃ l ∈ before, ∃ w, DotEnv.Assigns l name w) →
      load process environment (.content (Bytes.ofText text)) arg =
        load process environment (.content (Bytes.ofText text')) arg) ∧
    load process environment .absent arg = load process environment (.content (Bytes.ofText "")) arg := by
  refine ⟨fun name => ⟨_, fun other => says_iff⟩, fun said hsaid => ?_, fun before line after text' hcut hcut' hidle => ?_,
    ?_⟩
  · rw [load_eq_ofLookup hsaid]
    exact ⟨fun s => ofLookup_eq_ok_iff, fun t => fails_of_ofLookup⟩
  · rw [load_content, load_content]
    refine ofLookup_congr fun name hname => ?_
    rw [lookup, lookup, DotEnv.find?_parse_eq_of_idle hcut hcut' (hidle name hname)]
  · rw [load_content]
    rfl

/-- A blank in the process hides the file, and the first line with a name hides the second. -/
example : (load 7 [("PROVIDER_HOST", " ")] (.content (Bytes.ofText
      "#PROVIDER_TOKEN=a\r\nPROVIDER_HOST=b\n PROVIDER_TOKEN = c=d \r\nPROVIDER_TOKEN=e\nPROVIDER_MTR_DIMENSION="))
      none).toOption =
    some ⟨{ Config.default 7 with token := "c=d" }, "output", ⟨none, 0, none, none, 0⟩⟩ := by decide +kernel

end TransitLink.Probe.Settings
