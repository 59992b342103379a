import NetopsCopilot.Lib.Rows
import NetopsCopilot.Parsers.BlockSemantics
import NetopsCopilot.Python.JsonText

/-!
# Association identifiers

An association is referred to by its identifier, in results and in the map that pairs it with a peer. So the
objects of a configuration should have identifiers of their own, and a declaration that is repeated should
extend its association (`Distinguished`).

An identifier is the kind of an association with its name and its sequence number, from which they can be read
back (`identifier_inj`). But a crypto map and a dynamic map have the same kind, and each declaration makes an
association of its own. So this holds exactly on the texts that declare no profile twice and no crypto map,
dynamic or not, twice (`distinguished_iff`).
-/

namespace NetopsCopilot

/-! ### Objects -/

/-- What IOS takes a declaration for. -/
inductive IosObject where
  | ipsecProfile (name : PyStr)
  | cryptoMap (dynamic : Bool) (name : PyStr) (sequence : Nat)
deriving DecidableEq

namespace IosObject

def kind : IosObject → AssociationKind
  | ipsecProfile _ => .ipsecProfile
  | cryptoMap _ _ _ => .cryptoMap

def name : IosObject → PyStr
  | ipsecProfile name => name
  | cryptoMap _ name _ => name

def sequence : IosObject → Option Nat
  | ipsecProfile _ => none
  | cryptoMap _ _ sequence => some sequence

/-- The identifier of an object's association. -/
def identifier (o : IosObject) : PyStr :=
  IpsecAssociation.identifier { kind := o.kind, name := o.name, declarationLine := 0, sequence := o.sequence }

/-- A dynamic map taken for a crypto map. -/
def static : IosObject → IosObject
  | ipsecProfile name => ipsecProfile name
  | cryptoMap _ name sequence => cryptoMap false name sequence

end IosObject

section

variable (U : UnicodeData)

/-- The object that a head declares. -/
def declaredObject (head : SourceLine) : Option IosObject :=
  if isLifetime U (globalLifetimePattern.fullmatch head.command) head.command then none
  else match profileDeclaration.fullmatch head.command with
    | some found => some (.ipsecProfile (found.text .name))
    | none =>
      match (cryptoMapDeclaration U).matchText head.command with
      | some found => (pyInt U (found.text .sequence)).map fun sequence =>
          .cryptoMap (!(found.text .dynamic).isEmpty) (found.text .name) sequence.toNat
      | none => none

/-- The declarations of a text with their blocks, in order. -/
def objectBlocks (lines : List SourceLine) : List (IosObject × (SourceLine × List SourceLine)) :=
  (blocks lines).filterMap fun b => (declaredObject U b.1).map fun o => (o, b)

/-- The association that a declaration makes. -/
def objectAssociation (p : IosObject × (SourceLine × List SourceLine)) : IpsecAssociation where
  kind := p.1.kind
  name := p.1.name
  declarationLine := p.2.1.number
  sequence := p.1.sequence
  peerAddresses := p.2.2.filterMap (blockPeer U)
  lifetimeSettings := p.2.2.filterMap (blockSetting U)

/-- What the identifiers of a result are for. -/
structure Distinguished (lines : List SourceLine) (c : CiscoIosConfig) : Prop where
  /-- Identifiers are pairwise distinct. -/
  identifiers : (c.ipsecAssociations.map (·.identifier)).Nodup
  /-- Different objects do not share one. -/
  objects : ∀ p ∈ objectBlocks U lines, ∀ q ∈ objectBlocks U lines, p.1 ≠ q.1 →
    p.1.identifier ≠ q.1.identifier
  /-- An object has one association, with the peers and settings of all its blocks. -/
  extended : ∀ p ∈ objectBlocks U lines, ∃ a,
    c.ipsecAssociations.filter (fun a => a.identifier == p.1.identifier) = [a] ∧
    a.peerAddresses = ((objectBlocks U lines).filter fun q => q.1 = p.1).flatMap
      (fun q => q.2.2.filterMap (blockPeer U)) ∧
    a.lifetimeSettings = ((objectBlocks U lines).filter fun q => q.1 = p.1).flatMap
      (fun q => q.2.2.filterMap (blockSetting U))
  /-- The validator returns at most one result for an identifier. -/
  results : ∀ peerConfig peerAssociationMap,
    ((validatePhase2Lifetime c peerConfig peerAssociationMap).filterMap (·.associationId)).Nodup
  /-- An identifier that occurs names one association. -/
  unambiguous : ∀ identifier ∈ c.ipsecAssociations.map (·.identifier), ∃ a,
    c.ipsecAssociations.filter (fun a => a.identifier == identifier) = [a]

end

/-! ### Identifiers can be read back -/

/-- The last separator splits a text. -/
theorem append_separator_inj {α : Type} {a a' b b' : List α} {x : α} (h : a ++ x :: b = a' ++ x :: b')
    (hb : x ∉ b) (hb' : x ∉ b') : a = a' ∧ b = b' := by
  rcases List.append_eq_append_iff.mp h with ⟨w, rfl, hw⟩ | ⟨w, rfl, hw⟩
  · cases w with
    | nil =>
      rw [List.nil_append] at hw
      exact ⟨(List.append_nil a).symm, (List.cons.inj hw).2⟩
    | cons y w =>
      have hmem : x ∈ b := by
        rw [(List.cons.inj hw).2]
        exact List.mem_append_right _ List.mem_cons_self
      exact absurd hmem hb
  · cases w with
    | nil =>
      rw [List.nil_append] at hw
      exact ⟨List.append_nil a', (List.cons.inj hw).2.symm⟩
    | cons y w =>
      have hmem : x ∈ b' := by
        rw [(List.cons.inj hw).2]
        exact List.mem_append_right _ List.mem_cons_self
      exact absurd hmem hb'

theorem colon_not_mem_natText (n : Nat) : (58 : PyChar) ∉ natText n := fun hmem =>
  absurd (natText_digits n 58 hmem) (by decide)

/-- Objects with the same identifier differ at most in being dynamic. -/
theorem identifier_inj {o o' : IosObject} : o.identifier = o'.identifier ↔ o.static = o'.static := by
  constructor
  · intro h
    cases o with
    | ipsecProfile name =>
      cases o' with
      | ipsecProfile name' =>
        have hname : name = name' :=
          List.append_cancel_left (h : (py "ipsec_profile" ++ py ":") ++ name =
            (py "ipsec_profile" ++ py ":") ++ name')
        rw [hname]
      | cryptoMap dynamic' name' sequence' => exact absurd (List.cons.inj h).1 (by decide)
    | cryptoMap dynamic name sequence =>
      cases o' with
      | ipsecProfile name' => exact absurd (List.cons.inj h).1 (by decide)
      | cryptoMap dynamic' name' sequence' =>
        have hfull : ((py "crypto_map" ++ py ":") ++ name ++ py ":") ++ natText sequence =
          ((py "crypto_map" ++ py ":") ++ name' ++ py ":") ++ natText sequence' := h
        rw [List.append_assoc _ (py ":") (natText sequence), List.append_assoc _ (py ":") (natText sequence')]
          at hfull
        obtain ⟨hname, hsequence⟩ := append_separator_inj hfull (colon_not_mem_natText sequence)
          (colon_not_mem_natText sequence')
        rw [IosObject.static, IosObject.static, List.append_cancel_left hname, natText_inj hsequence]
  · intro h
    cases o <;> cases o' <;> cases h <;> rfl

/-! ### Associations of a text -/

section

variable {U : UnicodeData} {lines : List SourceLine}

/-- The association of a block is that of the object it declares. -/
theorem blockAssociation_eq (b : SourceLine × List SourceLine) :
    blockAssociation U b = (declaredObject U b.1).map fun o => objectAssociation U (o, b) := by
  unfold blockAssociation declared declaredObject
  split_ifs
  · rfl
  · unfold topLevelDeclaration
    cases profileDeclaration.fullmatch b.1.command with
    | some found => rfl
    | none =>
      cases (cryptoMapDeclaration U).matchText b.1.command with
      | none => rfl
      | some found =>
        dsimp only
        cases pyInt U (found.text .sequence) <;> rfl

theorem associations_eq : (blocks lines).filterMap (blockAssociation U) =
    (objectBlocks U lines).map (objectAssociation U) := by
  unfold objectBlocks
  rw [List.map_filterMap]
  refine List.filterMap_congr fun b _ => ?_
  rw [blockAssociation_eq, Option.map_map]
  rfl

/-- The result of an association names it. -/
theorem associationId_validateAssociation (c : CiscoIosConfig) (peerConfig : Option CiscoIosConfig)
    (peerAssociationMap : Option (PyStr → Option PyStr)) (a : IpsecAssociation) :
    (validateAssociation c peerConfig peerAssociationMap a).associationId = some a.identifier := by
  unfold validateAssociation
  dsimp only
  split
  · rfl
  · split
    · rfl
    · split
      · split_ifs <;> rfl
      · rfl

theorem associationIds_validate (c : CiscoIosConfig) (peerConfig : Option CiscoIosConfig)
    (peerAssociationMap : Option (PyStr → Option PyStr)) :
    (validatePhase2Lifetime c peerConfig peerAssociationMap).filterMap (·.associationId) =
      c.ipsecAssociations.map (·.identifier) := by
  unfold validatePhase2Lifetime
  cases hassociations : c.ipsecAssociations with
  | nil => rfl
  | cons a rest =>
    rw [List.isEmpty_cons, if_neg Bool.false_ne_true, List.filterMap_map]
    have hids : (fun r : ValidatorResult => r.associationId) ∘ validateAssociation c peerConfig peerAssociationMap =
        fun a => some a.identifier := funext fun a => associationId_validateAssociation c peerConfig _ a
    rw [hids]
    exact congrFun List.filterMap_eq_map' (a :: rest)

/-- **Association identifiers.** In what the parser returns, objects have identifiers of their own and a
repeated declaration extends its association if and only if no two declarations of the text are of the same
profile, or of crypto maps, dynamic or not, of the same name and sequence number. -/
theorem distinguished_iff {configuration : PyStr} {c : CiscoIosConfig}
    (h : parseCiscoIosConfig U configuration = .ok c) :
    Distinguished U (sourceLines configuration) c ↔
      ((objectBlocks U (sourceLines configuration)).map fun p => p.1.static).Nodup := by
  have hassociations : c.ipsecAssociations =
      (objectBlocks U (sourceLines configuration)).map (objectAssociation U) := by
    rcases parse_spec U configuration with ⟨-, e, he⟩ | ⟨-, hparse⟩
    · rw [h] at he
      cases he
    · rw [h] at hparse
      cases hparse
      exact associations_eq
  have hidentifiers : c.ipsecAssociations.map (·.identifier) =
      (objectBlocks U (sourceLines configuration)).map fun p => p.1.identifier := by
    rw [hassociations, List.map_map]
    rfl
  have hnodup : (c.ipsecAssociations.map (·.identifier)).Nodup ↔
      ((objectBlocks U (sourceLines configuration)).map fun p => p.1.static).Nodup := by
    rw [hidentifiers, List.Nodup, List.Nodup, List.pairwise_map, List.pairwise_map]
    exact ⟨List.Pairwise.imp fun hne heq => hne (identifier_inj.mpr heq),
      List.Pairwise.imp fun hne heq => hne (identifier_inj.mp heq)⟩
  constructor
  · exact fun hdistinguished => hnodup.mp hdistinguished.identifiers
  · intro hdeclared
    have hids := hnodup.mpr hdeclared
    -- a declaration is the only one of its object
    have honly : ∀ p ∈ objectBlocks U (sourceLines configuration),
        ((objectBlocks U (sourceLines configuration)).filter fun q => q.1 = p.1) = [p] := by
      intro p hp
      have hobjects : ((objectBlocks U (sourceLines configuration)).map Prod.fst).Nodup := by
        refine List.Nodup.of_map IosObject.static ?_
        rw [List.map_map]
        exact hdeclared
      exact Rows.filter_label hobjects hp
    have hassociation : ∀ p ∈ objectBlocks U (sourceLines configuration),
        c.ipsecAssociations.filter (fun a => a.identifier == p.1.identifier) = [objectAssociation U p] := by
      intro p hp
      have hmem : objectAssociation U p ∈ c.ipsecAssociations := by
        rw [hassociations]
        exact List.mem_map_of_mem hp
      exact Rows.filter_label hids hmem
    refine ⟨hids, fun p hp q hq hne heq => ?_, fun p hp => ?_, fun peerConfig peerAssociationMap => ?_,
      fun identifier hidentifier => ?_⟩
    · have hstatic := List.inj_on_of_nodup_map hdeclared hp hq (identifier_inj.mp heq)
      exact hne (congrArg Prod.fst hstatic)
    · refine ⟨objectAssociation U p, hassociation p hp, ?_, ?_⟩
      · rw [honly p hp, List.flatMap_singleton]
        rfl
      · rw [honly p hp, List.flatMap_singleton]
        rfl
    · rw [associationIds_validate]
      exact hids
    · rw [hidentifiers] at hidentifier
      obtain ⟨p, hp, rfl⟩ := List.mem_map.mp hidentifier
      exact ⟨_, hassociation p hp⟩

/-- On a text with a profile and a crypto map. -/
theorem distinguished_sample : ∃ c, parseCiscoIosConfig .ascii
      (py "crypto ipsec profile P\ncrypto map X 10\n set peer 192.0.2.1\n") = .ok c ∧
    Distinguished .ascii (sourceLines (py "crypto ipsec profile P\ncrypto map X 10\n set peer 192.0.2.1\n")) c := by
  obtain ⟨c, hc⟩ : ∃ c, parseCiscoIosConfig .ascii
      (py "crypto ipsec profile P\ncrypto map X 10\n set peer 192.0.2.1\n") = .ok c := by
    rcases parse_spec .ascii (py "crypto ipsec profile P\ncrypto map X 10\n set peer 192.0.2.1\n") with
      ⟨-, e, he⟩ | ⟨-, hparse⟩
    · have hok : (parseCiscoIosConfig .ascii
          (py "crypto ipsec profile P\ncrypto map X 10\n set peer 192.0.2.1\n")).isOk = true := by
        decide +kernel
      rw [he] at hok
      cases hok
    · exact ⟨_, hparse⟩
  exact ⟨c, hc, (distinguished_iff hc).mpr (by decide +kernel)⟩

/-- A crypto map and a dynamic map of one name and sequence number share their identifier. -/
theorem dynamic_map_shares : ¬∀ U configuration c, parseCiscoIosConfig U configuration = .ok c →
    Distinguished U (sourceLines configuration) c := by
  intro h
  have hids : (parseCiscoIosConfig .ascii (py "crypto map X 10\ncrypto dynamic-map X 10")).map
      (fun c => c.ipsecAssociations.map (·.identifier)) = .ok [py "crypto_map:X:10", py "crypto_map:X:10"] := by
    decide +kernel
  cases hparse : parseCiscoIosConfig .ascii (py "crypto map X 10\ncrypto dynamic-map X 10") with
  | error e =>
    rw [hparse] at hids
    cases hids
  | ok c =>
    have hidentifiers := (h _ _ c hparse).identifiers
    rw [hparse] at hids
    have hshared : c.ipsecAssociations.map (·.identifier) = [py "crypto_map:X:10", py "crypto_map:X:10"] :=
      Except.ok.inj hids
    rw [hshared] at hidentifiers
    exact absurd hidentifiers (by decide)

end

end NetopsCopilot
