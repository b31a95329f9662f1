import ZondDaemon.Convert
import ZondDaemon.Stdio.Answers

/-!
# What a scan would check for

`detections` of `stdio.rs`: the engine's listing of the corpus it ships, in the schema's words. Everything the
schema has words for comes across: the listing can be told from what a client reads (`listing_read`).
-/

namespace ZondDaemon

namespace Engine

inductive Tier
  | flow | compute | host
  | other (name : String)
deriving DecidableEq

/-- What running a detection does to its target. -/
inductive Class
  | derived | passive | activeBenign | activeMutating | exploit | dos
  | other (name : String)
deriving DecidableEq

/-- The rule of a gate on a port. -/
structure PortRule where
  service : Option String
  services : List String
  port : Option UInt16
  ports : List UInt16
  protocol : Option String
  speaks : Option String
deriving DecidableEq

/-- What has to be true of a thing before a detection is asked of it. -/
inductive Gate
  | port (rule : PortRule)
  | host (portsOpen : List UInt16) (services : List String)
  | other (name : String)
deriving DecidableEq

/-- One entry of `corpus.listing()`. -/
structure Listed where
  id : String
  title : String
  version : String
  contentHash : String
  tier : Tier
  effect : Class
  gate : Gate
deriving DecidableEq

end Engine

open Proto

namespace Convert

def detectionEffect : Engine.Class → Proto.DetectionClass
  | .derived => .derived
  | .passive => .passive
  | .activeBenign => .activeBenign
  | .activeMutating => .activeMutating
  | .exploit => .exploit
  | .dos => .dos
  | .other _ => .unspecified

def detectionEffectOf : Proto.DetectionClass → Option Engine.Class
  | .unspecified => none
  | .derived => some .derived
  | .passive => some .passive
  | .activeBenign => some .activeBenign
  | .activeMutating => some .activeMutating
  | .exploit => some .exploit
  | .dos => some .dos

def detectionTier : Engine.Tier → Proto.DetectionTier
  | .flow => .flow
  | .compute => .compute
  | .host => .host
  | .other _ => .unspecified

def detectionTierOf : Proto.DetectionTier → Option Engine.Tier
  | .unspecified => none
  | .flow => some .flow
  | .compute => some .compute
  | .host => some .host

/-- A gate the schema has no shape for leaves the field unset. -/
def gate : Engine.Gate → Proto.Gate
  | .port rule => ⟨some (.port {
      service := rule.service
      services := rule.services
      port := rule.port.map UInt16.toNat
      ports := rule.ports.map UInt16.toNat
      protocol := rule.protocol
      speaks := rule.speaks })⟩
  | .host portsOpen services => ⟨some (.host ⟨portsOpen.map UInt16.toNat, services⟩)⟩
  | .other _ => ⟨none⟩

end Convert

namespace Stdio

/-- What a scan would check for, without scanning anything. -/
def detections (corpus : List Engine.Listed) : DetectionsResponse where
  detections := corpus.map fun entry => {
    id := entry.id
    title := entry.title
    version := entry.version
    contentHash := entry.contentHash
    tier := number (Convert.detectionTier entry.tier)
    effect := number (Convert.detectionEffect entry.effect)
    gate := some (Convert.gate entry.gate) }

/-! ## What a client makes of it -/

/-- The gate a gate of the schema stands for, where it says what it is against. -/
def gateOf (gate : Proto.Gate) : Option Engine.Gate :=
  gate.against.map fun
    | .port rule => .port ⟨rule.service, rule.services, rule.port.map UInt16.ofNat, rule.ports.map UInt16.ofNat,
        rule.protocol, rule.speaks⟩
    | .host rule => .host (rule.portsOpen.map UInt16.ofNat) rule.services

/-- The entry of the corpus a detection stands for, where the schema has words for all of it. -/
def understood (entry : Detection) : Option Engine.Listed := do
  let tier ← (tryFrom entry.tier : Option DetectionTier).bind Convert.detectionTierOf
  let effect ← (tryFrom entry.effect : Option DetectionClass).bind Convert.detectionEffectOf
  let gate ← entry.gate.bind gateOf
  return ⟨entry.id, entry.title, entry.version, entry.contentHash, tier, effect, gate⟩

/-- The schema has words for the tier, the class and the gate. -/
def Named : Engine.Listed → Bool
  | ⟨_, _, _, _, .other _, _, _⟩ => false
  | ⟨_, _, _, _, _, .other _, _⟩ => false
  | ⟨_, _, _, _, _, _, .other _⟩ => false
  | _ => true

theorem tier_read (tier : Engine.Tier) :
    (tryFrom (number (Convert.detectionTier tier)) : Option DetectionTier).bind Convert.detectionTierOf =
      match tier with
      | .other _ => none
      | _ => some tier := by
  cases tier <;> rfl

theorem effect_read (effect : Engine.Class) :
    (tryFrom (number (Convert.detectionEffect effect)) : Option DetectionClass).bind Convert.detectionEffectOf =
      match effect with
      | .other _ => none
      | _ => some effect := by
  cases effect <;> rfl

theorem map_ofNat (ports : List UInt16) : (ports.map UInt16.toNat).map UInt16.ofNat = ports := by
  rw [List.map_map]
  exact (List.map_congr_left fun port _ => UInt16.ofNat_toNat).trans (List.map_id _)

theorem gate_read (gate : Engine.Gate) :
    gateOf (Convert.gate gate) =
      match gate with
      | .other _ => none
      | _ => some gate := by
  cases gate with
  | port rule =>
    obtain ⟨service, services, port, ports, protocol, speaks⟩ := rule
    have hport : (port.map UInt16.toNat).map UInt16.ofNat = port := by
      cases port with
      | none => rfl
      | some n => exact congrArg some UInt16.ofNat_toNat
    simp only [gateOf, Convert.gate, Option.map_some, hport, map_ofNat]
  | host portsOpen services => simp only [gateOf, Convert.gate, Option.map_some, map_ofNat]
  | other name => rfl

theorem gate_typed (gate : Engine.Gate) : ∀ against ∈ (Convert.gate gate).against, against.Typed := by
  have hport : ∀ n : UInt16, n.toNat ≤ u32Max := by
    intro n
    have := n.toNat_lt
    unfold u32Max
    omega
  intro against hagainst
  cases gate with
  | port rule =>
    cases hagainst
    refine ⟨fun n hn => ?_, fun n hn => ?_⟩
    · obtain ⟨port, -, rfl⟩ := Option.map_eq_some_iff.mp hn
      exact hport port
    · obtain ⟨port, -, rfl⟩ := List.mem_map.mp hn
      exact hport port
  | host portsOpen services =>
    cases hagainst
    intro n hn
    obtain ⟨port, -, rfl⟩ := List.mem_map.mp hn
    exact hport port
  | other name => cases hagainst

theorem declared_number {X : Type} [Proto.Named X] [Inverse X] (x : X) : Declared X (number x) := by
  unfold Declared tryFrom
  rw [List.find?_isSome]
  exact ⟨x, List.mem_of_find?_eq_some (Inverse.fromStrName_asStrName x), by simp⟩

theorem detections_known (corpus : List Engine.Listed) : (Answer.detections (detections corpus)).Known := by
  intro entry hentry
  obtain ⟨listed, -, rfl⟩ := List.mem_map.mp hentry
  exact ⟨declared_number _, declared_number _⟩

theorem detections_typed (corpus : List Engine.Listed) : (Answer.detections (detections corpus)).Typed := by
  intro entry hentry gate hgate
  obtain ⟨listed, -, rfl⟩ := List.mem_map.mp hentry
  cases hgate
  exact gate_typed listed.gate

/-- Of what is answered an entry is understood as it was, where the schema has words for all of it. -/
theorem understood_detections (corpus : List Engine.Listed) :
    (detections corpus).detections.map understood =
      corpus.map fun entry => if Named entry then some entry else none := by
  rw [detections, List.map_map]
  refine List.map_congr_left fun entry _ => ?_
  obtain ⟨id, title, version, contentHash, tier, effect, gate⟩ := entry
  simp only [Function.comp, understood, tier_read, effect_read, Option.bind_some, gate_read]
  cases tier <;> cases effect <;> cases gate <;> rfl

/-- **`detections` has an answer for every corpus, and a client that reads it knows the corpus, but for the
entries the schema has no words for.** -/
theorem corpus_read (corpus : List Engine.Listed) : ∃ value response,
    Writer.sorted (detections corpus).write = some value ∧
    DetectionsResponse.reader.read value = some response ∧
    response.detections.map understood = corpus.map fun entry => if Named entry then some entry else none := by
  have hknown := (Answer.isSome_write _).mpr (detections_known corpus)
  obtain ⟨plain, hplain⟩ := Option.isSome_iff_exists.mp hknown
  have hvalue : Writer.sorted (detections corpus).write = some plain.sorted :=
    congrArg (Option.map Json.sorted) hplain
  exact ⟨plain.sorted, detections corpus, hvalue, Answer.readFrom_sorted (detections_typed corpus) hvalue,
    understood_detections corpus⟩

end Stdio

end ZondDaemon
