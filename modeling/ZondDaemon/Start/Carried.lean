import ZondDaemon.Plain
import ZondDaemon.Start.Request

/-!
# Carried across, or refused

What the schema allows in a `StartRequest` (`Allowed`) and what it is for the engine's request to hold it
unchanged (`Carried`). Each reader is said once, as the values it accepts and what it makes of them
(`…_eq_ok`), and `request` is put together from them: it holds every value it accepts, and it accepts what
the schema allows, for a source port and a TTL other than zero (`request_exact`). `kind`, `links` and
`listen_for_seconds` are not the engine's request's to hold: whoever starts the scan reads them off the
wire.
-/

namespace ZondDaemon.Start

variable {E : Engine} {X Y : Type}

/-! ## What each reader accepts -/

theorem bind_eq_ok {x : Except Error X} {f : X → Except Error Y} {y : Y} :
    x >>= f = .ok y ↔ ∃ value, x = .ok value ∧ f value = .ok y := by
  cases x <;> simp [bind, Except.bind]

section readers
variable {read : X → Except Error Y} (parse : X → Option Y)

theorem optional_none_eq_ok {result : Option Y} : optional read none = .ok result ↔ result = none := by
  rw [optional, Except.ok.injEq, eq_comm]

theorem optional_some_eq_ok {x : X} {result : Option Y} :
    optional read (some x) = .ok result ↔ ∃ y, read x = .ok y ∧ result = some y := by
  rw [optional]
  cases read x <;> simp [Except.map, eq_comm]

theorem optional_eq_ok (h : ∀ x y, read x = .ok y ↔ parse x = some y) {value : Option X}
    {result : Option Y} : optional read value = .ok result ↔ result.map some = value.map parse := by
  cases value with
  | none => simp [optional_none_eq_ok]
  | some x =>
    rw [optional_some_eq_ok]
    cases result <;> simp [h, eq_comm]

theorem mapM_eq_ok (h : ∀ x y, read x = .ok y ↔ parse x = some y) {values : List X} {results : List Y} :
    values.mapM read = .ok results ↔ results.map some = values.map parse := by
  induction values generalizing results with
  | nil => cases results <;> simp [pure, Except.pure]
  | cons x values ih =>
    simp only [List.mapM_cons, bind_eq_ok, h, ih, List.map_cons, pure, Except.pure, Except.ok.injEq]
    constructor
    · rintro ⟨y, hy, rest, hrest, rfl⟩
      rw [List.map_cons, hy, hrest]
    · intro heq
      cases results with
      | nil => cases heq
      | cons y rest =>
        obtain ⟨hy, hrest⟩ := List.cons.inj heq
        exact ⟨y, hy.symm, rest, hrest, rfl⟩

theorem unlessEmpty_eq_ok (h : ∀ x y, read x = .ok y ↔ parse x = some y) {values : List X}
    {results : Option (List Y)} : unlessEmpty read values = .ok results ↔
      results.map (List.map some) = if values.isEmpty then none else some (values.map parse) := by
  rw [unlessEmpty]
  split_ifs with hempty
  · cases results <;> simp
  · cases results with
    | none => cases hread : values.mapM read <;> simp [Except.map]
    | some rest =>
      rw [Option.map_some, Option.some.injEq, ← mapM_eq_ok parse h]
      cases hread : values.mapM read <;> simp [Except.map]

end readers

theorem narrow_eq_ok {most : Nat} {value result : Option Nat} {what : String} :
    narrow most value what = .ok result ↔ (∀ n ∈ value, n ≤ most) ∧ result = value := by
  cases value with
  | none => simp [narrow, optional_none_eq_ok]
  | some n =>
    rw [narrow, optional_some_eq_ok]
    split_ifs with hn <;> simp [hn]

theorem nonzero_eq_ok {n : Nat} {rate : ℕ+} {refused : Error} :
    (if h : 0 < n then .ok ⟨n, h⟩ else .error refused : Except Error ℕ+) = .ok rate ↔ rate.val = n := by
  constructor
  · intro h
    split_ifs at h
    cases h
    rfl
  · rintro rfl
    exact dif_pos rate.2

theorem positive_eq_ok {value : Option Nat} {result : Option ℕ+} {what : String} :
    positive value what = .ok result ↔ result.map PNat.val = value := by
  cases value with
  | none => simp [positive, optional_none_eq_ok]
  | some n =>
    rw [positive, optional_some_eq_ok, Option.map_eq_some_iff]
    simp only [nonzero_eq_ok, and_comm]

theorem attempts_eq_ok {value : Option Nat} {result : Option ℕ+} :
    attempts value = .ok result ↔ (∀ n ∈ value, n ≤ 255) ∧ result.map PNat.val = value := by
  simp only [attempts, bind_eq_ok, narrow_eq_ok]
  constructor
  · rintro ⟨_, ⟨hmost, rfl⟩, h⟩
    refine ⟨hmost, ?_⟩
    split at h
    · cases h
      rfl
    · split_ifs at h
      cases h
      rfl
  · rintro ⟨hmost, rfl⟩
    refine ⟨_, ⟨hmost, rfl⟩, ?_⟩
    cases result with
    | none => rfl
    | some rate => exact dif_pos rate.2

/-! ## What is allowed, and what is carried -/

/-- The numbers of a profile are within what the engine's fields hold, and its addresses are addresses. -/
structure EvasionRead (E : Engine) (wire : Proto.Evasion) : Prop where
  sourcePort : ∀ n ∈ wire.sourcePort, n ≤ 65535
  ttl : ∀ n ∈ wire.ttl, n ≤ 255
  fragmentMtu : ∀ n ∈ wire.fragmentMtu, n ≤ E.fragmentMax
  padding : ∀ n ∈ wire.padding, n ≤ E.paddingMax
  flags : ∀ n ∈ wire.flags, n ≤ 255
  decoys : ∀ decoy ∈ wire.decoys, (E.parseIpAddr decoy).isSome
  spoofMac : ∀ mac ∈ wire.spoofMac, (E.parseMacAddr mac).isSome

/-- The knobs are within their bounds. -/
structure SettingsAllowed (E : Engine) (wire : Proto.Settings E.F64) : Prop where
  maxProbeRate : ∀ n ∈ wire.maxProbeRate, 1 ≤ n
  minProbeRate : ∀ n ∈ wire.minProbeRate, 1 ≤ n
  maxAttempts : ∀ n ∈ wire.maxAttempts, 1 ≤ n ∧ n ≤ 255
  timeoutScale : ∀ scale ∈ wire.timeoutScale, (E.timeoutScale scale).isSome

/-- What `request` accepts. -/
structure Read (E : Engine) (wire : Proto.StartRequest E.F64) : Prop where
  detection : named Proto.DetectionClass wire.detection ≠ some .derived
  ipProtocols : ∀ n ∈ wire.ipProtocols, n ≤ 255
  sendSource : ∀ address ∈ wire.sendSource, (E.parseIpAddr address).isSome
  evasion : ∀ profile ∈ wire.evasion, EvasionRead E profile
  settings : ∀ knobs ∈ wire.settings, SettingsAllowed E knobs

/-- Every value of the request is one the schema allows, which has source ports and TTLs start at one. -/
structure Allowed (E : Engine) (wire : Proto.StartRequest E.F64) : Prop extends Read E wire where
  sourcePort : ∀ profile ∈ wire.evasion, ∀ n ∈ profile.sourcePort, 1 ≤ n
  ttl : ∀ profile ∈ wire.evasion, ∀ n ∈ profile.ttl, 1 ≤ n

structure EvasionCarried (wire : Proto.Evasion) (profile : EvasionProfile E.toEngineTypes) : Prop where
  sourcePort : profile.sourcePort = wire.sourcePort
  ttl : profile.ttl = wire.ttl
  fragment : profile.fragment = wire.fragmentMtu
  padding : profile.padding = wire.padding
  flags : profile.flags = wire.flags
  badTcpChecksum : profile.badTcpChecksum = wire.badTcpChecksum.getD false
  decoys : profile.decoys.map some = wire.decoys.map E.parseIpAddr
  spoofMac : profile.spoofMac.map some = wire.spoofMac.map E.parseMacAddr

structure SettingsCarried (wire : Proto.Settings E.F64) (knobs : Settings E.toEngineTypes) : Prop where
  effort : knobs.effort = (named Proto.ScanEffort wire.effort).bind Convert.scanEffortOf
  tcpTechnique : knobs.tcpTechnique =
    (named Proto.TcpScanTechnique wire.tcpTechnique).bind Convert.tcpTechniqueOf
  sctpTechnique : knobs.sctpTechnique =
    (named Proto.SctpScanTechnique wire.sctpTechnique).bind Convert.sctpTechniqueOf
  sendMode : knobs.sendMode = (named Proto.SendMode wire.sendMode).bind Convert.sendModeOf
  hostTimeout : knobs.hostTimeout = wire.hostTimeout.map (1000 * ·)
  scanTimeout : knobs.scanTimeout = wire.scanTimeout.map (1000 * ·)
  hostProbeInterval : knobs.hostProbeInterval = wire.hostProbeIntervalMs
  maxProbeRate : knobs.maxProbeRate.map PNat.val = wire.maxProbeRate
  minProbeRate : knobs.minProbeRate.map PNat.val = wire.minProbeRate
  maxAttempts : knobs.maxAttempts.map PNat.val = wire.maxAttempts
  noDns : knobs.noDns = wire.noDns
  redact : knobs.redact = wire.redact
  tlsEnumeration : knobs.tlsEnumeration = wire.tlsEnumeration
  dampenSilentHosts : knobs.dampenSilentHosts = wire.dampenSilentHosts
  defaultPorts : knobs.defaultPorts = wire.defaultPorts
  timeoutScale : knobs.timeoutScale.map some = wire.timeoutScale.map E.timeoutScale

/-- What the engine's request has a field for is in it unchanged, a list or a table left out being absent. -/
structure Carried (wire : Proto.StartRequest E.F64) (asked : ScanRequest E.toEngineTypes) : Prop where
  targets : asked.targets = wire.targets
  exclude : asked.exclude = wire.exclude
  ports : asked.ports = wire.ports
  traceroute : asked.traceroute = wire.traceroute
  characterise : asked.characterise = wire.characterise
  icmpEvidence : asked.icmpEvidence = wire.icmpEvidence
  assumeUp : asked.assumeUp = wire.assumeUp
  serviceDetection : asked.serviceDetection =
    (named Proto.ServiceDetection wire.serviceDetection).bind Convert.serviceDetectionOf
  osDetection : asked.osDetection = (named Proto.OsDetection wire.osDetection).bind Convert.osDetectionOf
  detection : asked.detection =
    ((named Proto.DetectionClass wire.detection).bind Convert.detectionClassOf).map E.upTo
  ipProtocols : asked.ipProtocols = if wire.ipProtocols.isEmpty then none else some wire.ipProtocols
  evasion : Option.Rel EvasionCarried wire.evasion asked.evasion
  settings : match wire.settings with
    | some knobs => SettingsCarried knobs asked.settings
    | none => asked.settings = {}
  sendSource : asked.sendSource.map (List.map some) =
    if wire.sendSource.isEmpty then none else some (wire.sendSource.map E.parseIpAddr)

/-! ## The parts of a request -/

theorem exists_list_read {parse : X → Option Y} {values : List X} :
    (∃ results : List Y, results.map some = values.map parse) ↔ ∀ x ∈ values, (parse x).isSome := by
  induction values with
  | nil => exact ⟨fun _ => nofun, fun _ => ⟨[], rfl⟩⟩
  | cons x values ih =>
    rw [List.forall_mem_cons, ← ih]
    constructor
    · rintro ⟨results, heq⟩
      cases results with
      | nil => cases heq
      | cons y results =>
        obtain ⟨hy, hrest⟩ := List.cons.inj heq
        exact ⟨by rw [← hy]; rfl, results, hrest⟩
    · rintro ⟨hx, results, heq⟩
      obtain ⟨y, hy⟩ := Option.isSome_iff_exists.mp hx
      exact ⟨y :: results, by rw [List.map_cons, List.map_cons, heq, hy]⟩

theorem source_read {parse : X → Option Y} {values : List X} {results : Option (List Y)}
    (h : results.map (List.map some) = if values.isEmpty then none else some (values.map parse)) :
    ∀ x ∈ values, (parse x).isSome := by
  split_ifs at h with hempty
  · rw [List.isEmpty_iff.mp hempty]
    simp
  · obtain ⟨read, -, heq⟩ := Option.map_eq_some_iff.mp h
    exact exists_list_read.mp ⟨read, heq⟩

theorem exists_optional_read {parse : X → Option Y} {value : Option X} :
    (∃ result : Option Y, result.map some = value.map parse) ↔ ∀ x ∈ value, (parse x).isSome := by
  cases value with
  | none => simp
  | some x =>
    constructor
    · rintro ⟨result, heq⟩ _ ⟨rfl⟩
      cases result with
      | none => cases heq
      | some y =>
        rw [← Option.some.inj heq]
        rfl
    · intro h
      obtain ⟨y, hy⟩ := Option.isSome_iff_exists.mp (h x rfl)
      exact ⟨some y, by rw [Option.map_some, Option.map_some, hy]⟩

theorem evasion_eq_ok {wire : Proto.Evasion} {profile : EvasionProfile E.toEngineTypes} :
    evasion wire = .ok profile ↔ EvasionRead E wire ∧ EvasionCarried wire profile := by
  simp only [evasion, bind_eq_ok, narrow_eq_ok, pure, Except.pure, Except.ok.injEq]
  constructor
  · rintro ⟨decoys, hdecoys, mac, hmac, _, ⟨hport, rfl⟩, _, ⟨httl, rfl⟩, _, ⟨hmtu, rfl⟩, _, ⟨hpadding, rfl⟩,
      _, ⟨hflags, rfl⟩, rfl⟩
    have hdecoys := (mapM_eq_ok E.parseIpAddr fun x y => by cases E.parseIpAddr x <;> simp).mp hdecoys
    have hmac := (optional_eq_ok E.parseMacAddr fun x y => by cases E.parseMacAddr x <;> simp).mp hmac
    exact ⟨⟨hport, httl, hmtu, hpadding, hflags, exists_list_read.mp ⟨_, hdecoys⟩,
      exists_optional_read.mp ⟨_, hmac⟩⟩, ⟨rfl, rfl, rfl, rfl, rfl, rfl, hdecoys, hmac⟩⟩
  · rintro ⟨hread, hcarried⟩
    refine ⟨profile.decoys, ?_, profile.spoofMac, ?_, _, ⟨hread.sourcePort, rfl⟩, _, ⟨hread.ttl, rfl⟩, _,
      ⟨hread.fragmentMtu, rfl⟩, _, ⟨hread.padding, rfl⟩, _, ⟨hread.flags, rfl⟩, ?_⟩
    · exact (mapM_eq_ok E.parseIpAddr fun x y => by cases E.parseIpAddr x <;> simp).mpr hcarried.decoys
    · exact (optional_eq_ok E.parseMacAddr fun x y => by cases E.parseMacAddr x <;> simp).mpr
        hcarried.spoofMac
    · rw [← hcarried.sourcePort, ← hcarried.ttl, ← hcarried.fragment, ← hcarried.padding, ← hcarried.flags,
        ← hcarried.badTcpChecksum]

theorem EvasionRead.exists_carried {wire : Proto.Evasion} (h : EvasionRead E wire) :
    ∃ profile : EvasionProfile E.toEngineTypes, EvasionCarried wire profile := by
  obtain ⟨decoys, hdecoys⟩ := exists_list_read.mpr h.decoys
  obtain ⟨mac, hmac⟩ := exists_optional_read.mpr h.spoofMac
  exact ⟨⟨_, _, _, _, _, _, decoys, mac⟩, ⟨rfl, rfl, rfl, rfl, rfl, rfl, hdecoys, hmac⟩⟩

theorem settings_eq_ok {wire : Proto.Settings E.F64} {knobs : Settings E.toEngineTypes} :
    settings wire = .ok knobs ↔ SettingsAllowed E wire ∧ SettingsCarried wire knobs := by
  simp only [settings, bind_eq_ok, positive_eq_ok, attempts_eq_ok, pure, Except.pure, Except.ok.injEq]
  have hpos {value : Option Nat} {rate : Option ℕ+} (h : rate.map PNat.val = value) : ∀ n ∈ value, 1 ≤ n := by
    rintro n hn
    rw [← h] at hn
    obtain ⟨one, -, rfl⟩ := Option.map_eq_some_iff.mp hn
    exact one.2
  constructor
  · rintro ⟨most, hmost, least, hleast, times, ⟨hbyte, htimes⟩, scale, hscale, rfl⟩
    have hscale := (optional_eq_ok E.timeoutScale fun x y => by cases E.timeoutScale x <;> simp).mp hscale
    refine ⟨⟨hpos hmost, hpos hleast, fun n hn => ⟨hpos htimes n hn, hbyte n hn⟩,
      exists_optional_read.mp ⟨_, hscale⟩⟩, ?_⟩
    exact ⟨rfl, rfl, rfl, rfl, rfl, rfl, rfl, hmost, hleast, htimes, rfl, rfl, rfl, rfl, rfl, hscale⟩
  · rintro ⟨hallowed, hcarried⟩
    refine ⟨knobs.maxProbeRate, hcarried.maxProbeRate, knobs.minProbeRate, hcarried.minProbeRate,
      knobs.maxAttempts, ⟨fun n hn => (hallowed.maxAttempts n hn).2, hcarried.maxAttempts⟩,
      knobs.timeoutScale, ?_, ?_⟩
    · exact (optional_eq_ok E.timeoutScale fun x y => by cases E.timeoutScale x <;> simp).mpr
        hcarried.timeoutScale
    · rw [← hcarried.effort, ← hcarried.tcpTechnique, ← hcarried.sctpTechnique, ← hcarried.sendMode,
        ← hcarried.hostTimeout, ← hcarried.scanTimeout, ← hcarried.hostProbeInterval, ← hcarried.noDns,
        ← hcarried.redact, ← hcarried.tlsEnumeration, ← hcarried.dampenSilentHosts, ← hcarried.defaultPorts]

theorem SettingsAllowed.exists_carried {wire : Proto.Settings E.F64} (h : SettingsAllowed E wire) :
    ∃ knobs : Settings E.toEngineTypes, SettingsCarried wire knobs := by
  have hnonzero {value : Option Nat} (hpos : ∀ n ∈ value, 1 ≤ n) :
      ∃ rate : Option ℕ+, rate.map PNat.val = value := by
    cases value with
    | none => exact ⟨none, rfl⟩
    | some n => exact ⟨some ⟨n, hpos n rfl⟩, rfl⟩
  obtain ⟨most, hmost⟩ := hnonzero h.maxProbeRate
  obtain ⟨least, hleast⟩ := hnonzero h.minProbeRate
  obtain ⟨times, htimes⟩ := hnonzero fun n hn => (h.maxAttempts n hn).1
  obtain ⟨scale, hscale⟩ := exists_optional_read.mpr h.timeoutScale
  exact ⟨⟨_, _, _, _, _, _, _, most, least, times, _, _, _, _, _, scale⟩,
    ⟨rfl, rfl, rfl, rfl, rfl, rfl, rfl, hmost, hleast, htimes, rfl, rfl, rfl, rfl, rfl, hscale⟩⟩

theorem detection_eq_ok {raw : Option Int} {ceiling : Option E.DetectionEnvelope} :
    detection raw = .ok ceiling ↔ named Proto.DetectionClass raw ≠ some .derived ∧
      ceiling = ((named Proto.DetectionClass raw).bind Convert.detectionClassOf).map E.upTo := by
  rw [detection]
  split
  · rename_i hnamed
    simp [hnamed, eq_comm]
  · rename_i most hnamed
    rw [hnamed, Option.bind_some]
    by_cases hderived : most = .derived
    · simp [hderived, Convert.isACeiling]
    · have hceiling : Convert.isACeiling most = true := by simpa [Convert.isACeiling] using hderived
      rw [if_pos hceiling, Except.ok.injEq]
      exact ⟨fun h => ⟨fun heq => hderived (Option.some.inj heq), h.symm⟩, fun h => h.2.symm⟩

theorem profile_eq_ok {wire : Option Proto.Evasion} {profile : Option (EvasionProfile E.toEngineTypes)} :
    optional evasion wire = .ok profile ↔
      (∀ one ∈ wire, EvasionRead E one) ∧ Option.Rel EvasionCarried wire profile := by
  cases wire with
  | none =>
    rw [optional_none_eq_ok]
    constructor
    · rintro rfl
      exact ⟨by simp, .none⟩
    · rintro ⟨-, hrel⟩
      cases hrel
      rfl
  | some one =>
    simp only [optional_some_eq_ok, evasion_eq_ok]
    constructor
    · rintro ⟨read, ⟨hread, hcarried⟩, rfl⟩
      exact ⟨by simpa using hread, .some hcarried⟩
    · rintro ⟨hread, hrel⟩
      cases hrel with
      | some hcarried => exact ⟨_, ⟨hread one rfl, hcarried⟩, rfl⟩

theorem protocols_eq_ok {numbers : List Nat} {protocols : Option (List Nat)} :
    unlessEmpty (fun number => if number ≤ 255 then .ok number
      else .error ⟨"request.bad_ip_protocol", s!"{number} is not an IP protocol number"⟩) numbers =
        .ok protocols ↔
      (∀ n ∈ numbers, n ≤ 255) ∧ protocols = if numbers.isEmpty then none else some numbers := by
  have hread (number y : Nat) : (if number ≤ 255 then .ok number
      else .error ⟨"request.bad_ip_protocol", s!"{number} is not an IP protocol number"⟩ :
        Except Error Nat) = .ok y ↔ (if number ≤ 255 then some number else none) = some y := by
    split_ifs <;> simp
  have hall : (∀ n ∈ numbers, n ≤ 255) →
      numbers.map (fun number => if number ≤ 255 then some number else none) = numbers.map some := by
    intro h
    exact List.map_congr_left fun n hn => if_pos (h n hn)
  rw [unlessEmpty_eq_ok _ hread]
  constructor
  · intro h
    have hsome : ∀ n ∈ numbers, n ≤ 255 := by
      intro n hn
      by_contra hle
      have := source_read h n hn
      rw [if_neg hle] at this
      cases this
    rw [hall hsome] at h
    refine ⟨hsome, ?_⟩
    have hinj : Function.Injective (List.map (some : Nat → Option Nat)) :=
      List.map_injective_iff.mpr fun _ _ heq => Option.some.inj heq
    apply Option.map_injective hinj
    rw [h]
    split_ifs <;> rfl
  · rintro ⟨h, rfl⟩
    rw [hall h]
    split_ifs <;> simp

/-- Whatever is accepted is carried. -/
theorem carried_of_ok {wire : Proto.StartRequest E.F64} {asked : ScanRequest E.toEngineTypes}
    (h : request wire = .ok asked) : Read E wire ∧ Carried wire asked := by
  simp only [request, bind_eq_ok, detection_eq_ok, protocols_eq_ok, profile_eq_ok, pure, Except.pure] at h
  obtain ⟨_, ⟨hceiling, rfl⟩, _, ⟨hprotocols, rfl⟩, profile, ⟨hprofile, hcarried⟩, h⟩ := h
  cases hsettings : wire.settings with
  | none =>
    simp only [hsettings, bind_eq_ok, Except.ok.injEq] at h
    obtain ⟨_, rfl, source, hsource, rfl⟩ := h
    have hsource := (unlessEmpty_eq_ok E.parseIpAddr fun x y => by
      cases E.parseIpAddr x <;> simp).mp hsource
    exact ⟨⟨hceiling, hprotocols, source_read hsource, hprofile, by simp [hsettings]⟩,
      ⟨rfl, rfl, rfl, rfl, rfl, rfl, rfl, rfl, rfl, rfl, rfl, hcarried, by rw [hsettings], hsource⟩⟩
  | some wanted =>
    simp only [hsettings, bind_eq_ok, settings_eq_ok, Except.ok.injEq] at h
    obtain ⟨knobs, ⟨hallowed, hknobs⟩, source, hsource, rfl⟩ := h
    have hsource := (unlessEmpty_eq_ok E.parseIpAddr fun x y => by
      cases E.parseIpAddr x <;> simp).mp hsource
    exact ⟨⟨hceiling, hprotocols, source_read hsource, hprofile, by simpa [hsettings] using hallowed⟩,
      ⟨rfl, rfl, rfl, rfl, rfl, rfl, rfl, rfl, rfl, rfl, rfl, hcarried, by rw [hsettings]; exact hknobs,
        hsource⟩⟩

/-- Nothing but what `Read` excludes is refused. -/
theorem ok_of_read {wire : Proto.StartRequest E.F64} (h : Read E wire) :
    ∃ asked : ScanRequest E.toEngineTypes, request wire = .ok asked := by
  have hprofile : ∃ profile : Option (EvasionProfile E.toEngineTypes),
      Option.Rel EvasionCarried wire.evasion profile := by
    cases hevasion : wire.evasion with
    | none => exact ⟨none, .none⟩
    | some one =>
      obtain ⟨profile, hcarried⟩ := (h.evasion one hevasion).exists_carried
      exact ⟨some profile, .some hcarried⟩
  have hsource : ∃ source : Option (List E.IpAddr), source.map (List.map some) =
      if wire.sendSource.isEmpty then none else some (wire.sendSource.map E.parseIpAddr) := by
    split_ifs
    · exact ⟨none, rfl⟩
    · obtain ⟨addresses, heq⟩ := exists_list_read.mpr h.sendSource
      exact ⟨some addresses, by rw [Option.map_some, heq]⟩
  obtain ⟨profile, hprofile⟩ := hprofile
  obtain ⟨source, hsource⟩ := hsource
  simp only [request, bind_eq_ok, detection_eq_ok, protocols_eq_ok, profile_eq_ok, pure, Except.pure]
  cases hsettings : wire.settings with
  | none =>
    simp only [bind_eq_ok, Except.ok.injEq]
    exact ⟨_, _, ⟨h.detection, rfl⟩, _, ⟨h.ipProtocols, rfl⟩, profile, ⟨h.evasion, hprofile⟩, _, rfl, source,
      (unlessEmpty_eq_ok E.parseIpAddr fun x y => by cases E.parseIpAddr x <;> simp).mpr hsource, rfl⟩
  | some wanted =>
    have hallowed := h.settings wanted hsettings
    obtain ⟨knobs, hknobs⟩ := hallowed.exists_carried
    simp only [bind_eq_ok, settings_eq_ok, Except.ok.injEq]
    exact ⟨_, _, ⟨h.detection, rfl⟩, _, ⟨h.ipProtocols, rfl⟩, profile, ⟨h.evasion, hprofile⟩, knobs,
      ⟨hallowed, hknobs⟩, source,
      (unlessEmpty_eq_ok E.parseIpAddr fun x y => by cases E.parseIpAddr x <;> simp).mpr hsource, rfl⟩

/-- **What the schema allows is accepted and nothing else, a source port and a TTL of zero aside; what is
accepted is in the engine's request as it was asked for.** -/
theorem request_exact {wire : Proto.StartRequest E.F64}
    (hzero : ∀ profile ∈ wire.evasion, profile.sourcePort ≠ some 0 ∧ profile.ttl ≠ some 0) :
    ((∃ asked : ScanRequest E.toEngineTypes, request wire = .ok asked) ↔ Allowed E wire) ∧
      ∀ asked : ScanRequest E.toEngineTypes, request wire = .ok asked → Carried wire asked := by
  refine ⟨⟨?_, fun h => ok_of_read h.toRead⟩, fun asked h => (carried_of_ok h).2⟩
  rintro ⟨asked, h⟩
  have hpos {n : Nat} {value : Option Nat} (hne : value ≠ some 0) (hn : n ∈ value) : 1 ≤ n := by
    rcases Nat.eq_zero_or_pos n with rfl | hpos
    · exact absurd hn hne
    · exact hpos
  exact ⟨(carried_of_ok h).1, fun profile hprofile n hn => hpos (hzero profile hprofile).1 hn,
    fun profile hprofile n hn => hpos (hzero profile hprofile).2 hn⟩

/-- A request that names a value of every kind. -/
def asking : Proto.StartRequest Int where
  targets := ["10"]
  ipProtocols := [6, 255]
  evasion := some { sourcePort := some 53, ttl := some 255, decoys := ["7", "8"], spoofMac := some "9" }
  settings := some { hostTimeout := some 60, maxProbeRate := some 500, maxAttempts := some 255 }

theorem request_exact_asking : ∃ asked : ScanRequest Plain.engine.toEngineTypes,
    request (E := Plain.engine) asking = .ok asked ∧ Allowed Plain.engine asking ∧ Carried asking asked ∧
      asked.settings.hostTimeout = some 60000 := by
  have hzero : ∀ profile ∈ asking.evasion, profile.sourcePort ≠ some 0 ∧ profile.ttl ≠ some 0 := by
    rintro _ ⟨rfl⟩
    exact ⟨by decide, by decide⟩
  obtain ⟨hallowed, hcarried⟩ := request_exact (E := Plain.engine) hzero
  exact ⟨_, rfl, hallowed.mp ⟨_, rfl⟩, hcarried _ rfl, rfl⟩

/-- A listen that asks for a source port and a TTL of zero. -/
def bent : Proto.StartRequest Int where
  kind := Proto.number Proto.ScanKind.listen
  links := ["en0"]
  listenForSeconds := some 60
  evasion := some { sourcePort := some 0, ttl := some 0 }

/-- It is accepted, and the engine's request is the one without the links and the time. -/
theorem bent_accepted : ¬ Allowed Plain.engine bent ∧ ∃ asked : ScanRequest Plain.engine.toEngineTypes,
    request (E := Plain.engine) bent = .ok asked ∧
      request (E := Plain.engine) { bent with links := [], listenForSeconds := none } = .ok asked := by
  refine ⟨fun h => ?_, _, rfl, rfl⟩
  have := h.ttl _ rfl 0 rfl
  omega

end ZondDaemon.Start
