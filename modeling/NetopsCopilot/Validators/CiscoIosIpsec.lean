import NetopsCopilot.Parsers.CiscoIos

/-!
# The IPsec Phase 2 validator (`netops_api/validators/models.py`, `cisco_ios_ipsec.py`)

`validate_phase2_lifetime` compares the seconds lifetime of each local association with that of the peer
association that the caller's map pairs with it.
-/

namespace NetopsCopilot

/-! ### Results -/

/-- `ValidatorStatus`. -/
inductive ValidatorStatus where
  | pass | fail | warn | insufficientContext | notApplicable
deriving DecidableEq, Repr

/-- `FindingSeverity`. -/
inductive FindingSeverity where
  | info | warning | error
deriving DecidableEq, Repr

/-- `EvidenceLocation.document`. -/
inductive EvidenceDocument where
  | local | peer
deriving DecidableEq, Repr

/-- `EvidenceLocation`. -/
structure EvidenceLocation where
  document : EvidenceDocument
  lineNumber : Nat
  role : PyStr
deriving DecidableEq

/-- `ValidatorResult`; the rule is the same in all results (`PHASE2_LIFETIME_SECONDS_RULE_ID`). -/
structure ValidatorResult where
  ruleId : PyStr := py "cisco_ios.ipsec.phase2_lifetime_seconds"
  ruleVersion : PyStr := py "1.0.0"
  status : ValidatorStatus
  severity : FindingSeverity
  associationId : Option PyStr
  unit : LifetimeUnit := .seconds
  observedValue : Option Nat
  expectedValue : Option Nat
  evidence : List EvidenceLocation
  explanation : PyStr
deriving DecidableEq

/-! ### The validator -/

/-- `_effective_lifetime`; `_EffectiveLifetime` has the value of its source, or neither. -/
def effectiveLifetime (configuration : CiscoIosConfig) (association : IpsecAssociation) (unit : LifetimeUnit) :
    Option Phase2LifetimeSetting :=
  match association.effectiveOverride unit with
  | some setting => some setting
  | none => configuration.globalLifetime unit

/-- `_evidence`. -/
def evidenceOf (localLifetime peerLifetime : Option Phase2LifetimeSetting) : List EvidenceLocation :=
  (localLifetime.map fun source =>
      { document := .local, lineNumber := source.lineNumber, role := py "observed_phase2_lifetime" }).toList ++
    (peerLifetime.map fun source =>
      { document := .peer, lineNumber := source.lineNumber, role := py "expected_phase2_lifetime" }).toList

/-- `_result`. -/
def resultOf (status : ValidatorStatus) (severity : FindingSeverity) (association : Option IpsecAssociation)
    (localLifetime peerLifetime : Option Phase2LifetimeSetting) (explanation : PyStr) : ValidatorResult where
  status := status
  severity := severity
  associationId := association.map IpsecAssociation.identifier
  observedValue := localLifetime.map (·.value)
  expectedValue := peerLifetime.map (·.value)
  evidence := evidenceOf localLifetime peerLifetime
  explanation := explanation

/-- `_peer_association`. -/
def peerAssociation (localAssociation : IpsecAssociation) (peerConfig : CiscoIosConfig)
    (associationMap : Option (PyStr → Option PyStr)) : Option IpsecAssociation :=
  match associationMap with
  | none => none
  | some associationMap =>
    match associationMap localAssociation.identifier with
    | none => none
    | some peerIdentifier =>
      match peerConfig.ipsecAssociations.filter fun a => a.identifier == peerIdentifier with
      | [association] => some association
      | _ => none

/-- The body of the loop of `validate_phase2_lifetime`. -/
def validateAssociation (localConfig : CiscoIosConfig) (peerConfig : Option CiscoIosConfig)
    (peerAssociationMap : Option (PyStr → Option PyStr)) (localAssociation : IpsecAssociation) :
    ValidatorResult :=
  let localLifetime := effectiveLifetime localConfig localAssociation .seconds
  match peerConfig with
  | none => resultOf .insufficientContext .warning localAssociation localLifetime none
      (py "Peer configuration was not supplied; the local Phase 2 lifetime cannot be compared.")
  | some peerConfig =>
    match peerAssociation localAssociation peerConfig peerAssociationMap with
    | none => resultOf .insufficientContext .warning localAssociation localLifetime none
        (py "Peer configuration was supplied, but this IPsec association could not be paired " ++
          py "through an explicit verified association.")
    | some peerAssociation =>
      let peerLifetime := effectiveLifetime peerConfig peerAssociation .seconds
      match localLifetime, peerLifetime with
      | some l, some p =>
        if l.value = p.value then resultOf .pass .info localAssociation localLifetime peerLifetime
          (py "Local and peer Phase 2 seconds lifetimes match.")
        else resultOf .fail .error localAssociation localLifetime peerLifetime
          (py "Local and peer Phase 2 seconds lifetimes do not match.")
      | _, _ => resultOf .insufficientContext .warning localAssociation localLifetime peerLifetime
          (py "An explicit Phase 2 seconds lifetime is missing on one side; IOS platform defaults " ++
            py "are not inferred by this validator.")

/-- `validate_phase2_lifetime`. -/
def validatePhase2Lifetime (localConfig : CiscoIosConfig) (peerConfig : Option CiscoIosConfig)
    (peerAssociationMap : Option (PyStr → Option PyStr)) : List ValidatorResult :=
  if localConfig.ipsecAssociations.isEmpty then
    [resultOf .notApplicable .info none none none
      (py "No Cisco IOS IPsec crypto map or IPsec profile was found.")]
  else localConfig.ipsecAssociations.map (validateAssociation localConfig peerConfig peerAssociationMap)

end NetopsCopilot
