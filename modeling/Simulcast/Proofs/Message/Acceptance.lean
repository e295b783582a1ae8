import Simulcast.Proofs.Json.Objects
import Simulcast.Proofs.Message.Loss
import Simulcast.Proofs.Message.Members
import Simulcast.Wire

/-!
# Which objects are messages

The decoder takes every object that is one of the two messages and does not contradict itself: it has one
kind, no field of this kind comes twice, and if there is a version, it is the one spoken here. An
acknowledgement also has to say what is in force. Nothing else keeps an object from being a message,
whatever its values are and whatever members it has besides.

What the message then says can be read off the members, independently of their order.

## Main definitions

* `Message.Acceptable` — an object that is a message of some kind
* `Json.Value.Says` — the number that a value stands for
* `Message.IsReadOff` — a message says what the members of an object say

## Main results

* `Message.IsReadOff.unique` — the members leave no choice
* `Message.decode_object_iff` — an object is decoded if it is acceptable, and to what is read off its
  members
-/

namespace Simulcast

/-! ### What a value says -/

/-- The number that a value stands for: a JSON number stands for itself, a string for the number it is
after trimming, and everything else for no number. -/
inductive Json.Value.Says : Json.Value → Binary64 → Prop
  | integer (i : Int) : Says (.integer i) (.ofInt i)
  | float (x : Binary64) : Says (.float x) x
  | numeral {s : String} {x : Binary64} (h : Numeral.read? (Text.trim s.toList) = some x) :
    Says (.string s) x
  | text {s : String} (h : Numeral.read? (Text.trim s.toList) = none) : Says (.string s) .nan
  | null : Says .null .nan
  | bool (b : Bool) : Says (.bool b) .nan
  | array (items : List Json.Value) : Says (.array items) .nan
  | object (members : List Json.Member) : Says (.object members) .nan

theorem Json.Value.says_looseNumber (v : Json.Value) : v.Says v.looseNumber := by
  cases v with
  | string s =>
    rw [looseNumber]
    cases h : Numeral.read? (Text.trim s.toList) with
    | none => exact .text h
    | some x => exact .numeral h
  | null => exact .null
  | bool b => exact .bool b
  | integer i => exact .integer i
  | float x => exact .float x
  | array items => exact .array items
  | object members => exact .object members

theorem Json.Value.Says.unique {v : Json.Value} {x y : Binary64} (hx : v.Says x) (hy : v.Says y) :
    x = y := by
  cases hx with
  | numeral hread =>
    cases hy with
    | numeral hother => exact Option.some.inj (hread.symm.trans hother)
    | text hnone => rw [hread] at hnone; cases hnone
  | text hnone =>
    cases hy with
    | numeral hread => rw [hnone] at hread; cases hread
    | text => rfl
  | _ =>
    cases hy
    rfl

namespace Message

open Json (Value Member)

/-- The fields of a message of some kind, besides the kind itself. -/
def Kind.fields : Kind → List String
  | .request => requestFields
  | .ack => ackFields

/-- The kind of a message. -/
def kind : Message → Kind
  | .request _ => .request
  | .ack _ => .ack

/-- The members of an object that is a message of some kind. -/
structure Acceptable (kind : Kind) (ms : List Member) : Prop where
  /-- Exactly one member has the key of the kind, and it names the kind. -/
  kind_eq : ms.filter (fun m => m.1 == kindField) = [(kindField, .string kind.name)]
  /-- No known field comes twice. -/
  once : ∀ name ∈ kind.fields, (ms.map Prod.fst).count name ≤ 1
  /-- The version is missing or one. -/
  version : ∀ v, ("version", v) ∈ ms → v = .integer 1
  /-- An acknowledgement says what is in force, if only `null`. -/
  applied : kind = .ack → ∃ v, ("appliedBitrateHigh", v) ∈ ms

/-! ### What the members say -/

variable {ms : List Member} {name : String}

/-- The bitrate that a field asks for. Without the field, or with `null` in it, there is none. -/
def IsTarget (ms : List Member) (name : String) : Option Bitrate → Prop
  | none => ∀ v, (name, v) ∈ ms → v = .null
  | some r => ∃ v, (name, v) ∈ ms ∧ v ≠ .null ∧ v.Says r.bps

/-- The text in a field, empty if there is no string. -/
def IsText (ms : List Member) (name s : String) : Prop :=
  (name, .string s) ∈ ms ∨ s = "" ∧ ∀ t, (name, .string t) ∉ ms

/-- The reason that is named, unknown if none of the known ones is. -/
def IsReason (ms : List Member) (reason : Reason) : Prop :=
  reason ∈ Reason.known ∧ ("reason", .string reason.name) ∈ ms ∨
    reason = .unknown ∧ ∀ r ∈ Reason.known, ("reason", .string r.name) ∉ ms

/-- The loss rate that is given, held between zero and one. -/
def IsLossRate (ms : List Member) (lossRate : Binary64) : Prop :=
  (∃ v x, ("lossRate", v) ∈ ms ∧ v.Says x ∧ HeldAsLoss x lossRate) ∨
    lossRate = 0 ∧ ∀ v, ("lossRate", v) ∉ ms

/-- A request says what the members of an object say. -/
structure RequestIsReadOff (ms : List Member) (r : CapRequest) : Prop where
  version : r.version = protocolVersion
  high : IsTarget ms "targetBitrateHigh" r.targets.high
  medium : IsTarget ms "targetBitrateMed" r.targets.medium
  low : IsTarget ms "targetBitrateLow" r.targets.low
  reason : IsReason ms r.reason
  lossRate : IsLossRate ms r.lossRate
  identity : IsText ms "senderIdentity" r.identity

/-- An acknowledgement says what the members of an object say. -/
structure AckIsReadOff (ms : List Member) (a : CapAck) : Prop where
  version : a.version = protocolVersion
  appliedHigh : ∃ v, ("appliedBitrateHigh", v) ∈ ms ∧ v.Says a.appliedHigh.bps
  identity : IsText ms "identity" a.identity

/-- A message says what the members of an object say. -/
def IsReadOff (ms : List Member) : Message → Prop
  | .request r => RequestIsReadOff ms r
  | .ack a => AckIsReadOff ms a

/-! ### Fields -/

section Fields

variable (honce : (ms.map Prod.fst).count name ≤ 1)

include honce

/-- A field that occurs once is found, or there is none. -/
theorem field_cases : (∃ v, field ms name = some v ∧ ∀ w, (name, w) ∈ ms ↔ w = v) ∨
    (field ms name = none ∧ ∀ w, (name, w) ∉ ms) := by
  cases hfield : field ms name with
  | none => exact Or.inr ⟨rfl, field_eq_none_iff.1 hfield⟩
  | some v =>
    refine Or.inl ⟨v, rfl, fun w => ?_⟩
    rw [← field_eq_some_iff honce, hfield, Option.some_inj]
    exact eq_comm

theorem value_unique {v w : Value} (hv : (name, v) ∈ ms) (hw : (name, w) ∈ ms) : v = w := by
  rw [← field_eq_some_iff honce] at hv hw
  exact Option.some.inj (hv.symm.trans hw)

theorem isTarget_target : IsTarget ms name (Fields.target (field ms) name) := by
  rcases field_cases honce with ⟨v, hfield, hmem⟩ | ⟨hfield, hmem⟩
  · by_cases hnull : v = .null
    · have htarget : Fields.target (field ms) name = none := by
        simp only [Fields.target, hfield, hnull]
      rw [htarget]
      exact fun w hw => ((hmem w).1 hw).trans hnull
    · have htarget : Fields.target (field ms) name = some ⟨v.looseNumber⟩ := by
        cases v <;> simp only [Fields.target, hfield]
        exact absurd rfl hnull
      rw [htarget]
      exact ⟨v, (hmem v).2 rfl, hnull, v.says_looseNumber⟩
  · have htarget : Fields.target (field ms) name = none := by
      simp only [Fields.target, hfield]
    rw [htarget]
    exact fun w hw => absurd hw (hmem w)

theorem isText_text : IsText ms name (Fields.text (field ms) name) := by
  rcases field_cases honce with ⟨v, hfield, hmem⟩ | ⟨hfield, hmem⟩
  · have htext : Fields.text (field ms) name = v.looseString := by
      simp only [Fields.text, hfield, Option.map_some, Option.getD_some]
    rw [htext]
    cases v with
    | string s => exact Or.inl ((hmem _).2 rfl)
    | _ => exact Or.inr ⟨rfl, fun t ht => by cases (hmem _).1 ht⟩
  · refine Or.inr ⟨?_, fun t => hmem _⟩
    simp only [Fields.text, hfield, Option.map_none, Option.getD_none]

theorem IsTarget.unique {t u : Option Bitrate} (ht : IsTarget ms name t)
    (hu : IsTarget ms name u) : t = u := by
  cases t with
  | none =>
    cases u with
    | none => rfl
    | some s =>
      obtain ⟨v, hmem, hne, -⟩ := hu
      exact absurd (ht v hmem) hne
  | some r =>
    obtain ⟨v, hmem, hne, hread⟩ := ht
    cases u with
    | none => exact absurd (hu v hmem) hne
    | some s =>
      obtain ⟨w, hother, -, hsaid⟩ := hu
      obtain rfl := value_unique honce hmem hother
      exact congrArg (fun x => some (Bitrate.mk x)) (hread.unique hsaid)

theorem IsText.unique {s t : String} (hs : IsText ms name s) (ht : IsText ms name t) : s = t := by
  rcases hs with hs | ⟨rfl, hnone⟩
  · rcases ht with ht | ⟨-, hnone⟩
    · exact Value.string.inj (value_unique honce hs ht)
    · exact absurd hs (hnone s)
  · rcases ht with ht | ⟨rfl, -⟩
    · exact absurd ht (hnone t)
    · rfl

end Fields

theorem IsReason.unique (honce : (ms.map Prod.fst).count "reason" ≤ 1) {r s : Reason}
    (hr : IsReason ms r) (hs : IsReason ms s) : r = s := by
  have hname : ∀ {r s : Reason}, r.name = s.name → r = s := by
    intro r s h
    cases r <;> cases s <;> first | rfl | exact absurd h (by decide)
  rcases hr with ⟨hknown, hr⟩ | ⟨rfl, hnone⟩
  · rcases hs with ⟨-, hs⟩ | ⟨-, hnone⟩
    · exact hname (Value.string.inj (value_unique honce hr hs))
    · exact absurd hr (hnone r hknown)
  · rcases hs with ⟨hknown, hs⟩ | ⟨rfl, -⟩
    · exact absurd hs (hnone s hknown)
    · rfl

theorem IsLossRate.unique (honce : (ms.map Prod.fst).count "lossRate" ≤ 1) {x y : Binary64}
    (hx : IsLossRate ms x) (hy : IsLossRate ms y) : x = y := by
  rcases hx with ⟨v, a, hv, hread, hxa⟩ | ⟨hx, hnone⟩
  · rcases hy with ⟨w, b, hw, hsaid, hyb⟩ | ⟨-, hnone⟩
    · obtain rfl := value_unique honce hv hw
      rw [hxa.eq_clampLoss, hyb.eq_clampLoss, hread.unique hsaid]
    · exact absurd hv (hnone v)
  · rcases hy with ⟨w, b, hw, -, -⟩ | ⟨hy, -⟩
    · exact absurd hw (hnone w)
    · rw [hx, hy]

/-- The reason is the one that the text names. -/
theorem isReason_text (honce : (ms.map Prod.fst).count "reason" ≤ 1) :
    IsReason ms (.ofName (Fields.text (field ms) "reason")) := by
  unfold Reason.ofName
  cases hfound : Reason.known.find? fun r => r.name == Fields.text (field ms) "reason" with
  | some r =>
    have hname := List.find?_some hfound
    rw [beq_iff_eq] at hname
    have hknown := List.mem_of_find?_eq_some hfound
    -- No known reason has the empty name, so there is a string with this name.
    rcases isText_text honce with hmem | ⟨hempty, -⟩
    · exact Or.inl ⟨hknown, hname ▸ hmem⟩
    · rw [hempty] at hname
      cases r <;> exact absurd hname (by decide)
  | none =>
    refine Or.inr ⟨rfl, fun r hknown hmem => ?_⟩
    have htext : Fields.text (field ms) "reason" = r.name := by
      simp only [Fields.text, (field_eq_some_iff honce).2 hmem, Option.map_some, Option.getD_some,
        Value.looseString]
    rw [htext] at hfound
    exact List.find?_eq_none.1 hfound r hknown (beq_self_eq_true _)

theorem isLossRate_field (honce : (ms.map Prod.fst).count "lossRate" ≤ 1) :
    IsLossRate ms (((field ms "lossRate").map fun v => clampLoss v.looseNumber).getD 0) := by
  rcases field_cases honce with ⟨v, hfield, hmem⟩ | ⟨hfield, hmem⟩
  · rw [hfield]
    exact Or.inl ⟨v, v.looseNumber, (hmem v).2 rfl, v.says_looseNumber, heldAsLoss_clampLoss _⟩
  · rw [hfield]
    exact Or.inr ⟨rfl, hmem⟩

/-! ### Messages -/

variable {kind : Kind}

theorem version_mem_fields (kind : Kind) : "version" ∈ kind.fields := by
  cases kind <;> decide

theorem Acceptable.inOrder (h : Acceptable kind ms) : InOrder kind.fields [] ms where
  once := h.once
  unseen := by simp
  version _ v hv := ⟨protocolVersion, versionOfValue_eq_ok_iff.2 (h.version v hv)⟩

theorem Acceptable.fields_version (h : Acceptable kind ms) :
    Fields.version (field ms) = .ok protocolVersion := by
  cases hfield : field ms "version" with
  | none => simp only [Fields.version, hfield]
  | some v =>
    simp only [Fields.version, hfield]
    exact versionOfValue_eq_ok_iff.2 (h.version v (mem_of_field_eq_some hfield))

/-- The members leave no choice what a message says. -/
theorem IsReadOff.unique {m n : Message} (h : Acceptable kind ms) (hm : m.kind = kind)
    (hn : n.kind = kind) (hmoff : m.IsReadOff ms) (hnoff : n.IsReadOff ms) : m = n := by
  subst hm
  cases m with
  | request r =>
    cases n with
    | ack a => cases hn
    | request s =>
      obtain ⟨version, ⟨high, medium, low⟩, reason, lossRate, identity⟩ := r
      obtain ⟨version', ⟨high', medium', low'⟩, reason', lossRate', identity'⟩ := s
      have honce : ∀ name ∈ requestFields, (ms.map Prod.fst).count name ≤ 1 := h.once
      obtain rfl : high = high' := hmoff.high.unique (honce _ (by decide)) hnoff.high
      obtain rfl : medium = medium' := hmoff.medium.unique (honce _ (by decide)) hnoff.medium
      obtain rfl : low = low' := hmoff.low.unique (honce _ (by decide)) hnoff.low
      obtain rfl : reason = reason' := hmoff.reason.unique (honce _ (by decide)) hnoff.reason
      obtain rfl : lossRate = lossRate' := hmoff.lossRate.unique (honce _ (by decide)) hnoff.lossRate
      obtain rfl : identity = identity' := hmoff.identity.unique (honce _ (by decide)) hnoff.identity
      obtain rfl : version = version' := hmoff.version.trans hnoff.version.symm
      rfl
  | ack a =>
    cases n with
    | request r => cases hn
    | ack b =>
      obtain ⟨version, ⟨high⟩, identity⟩ := a
      obtain ⟨version', ⟨high'⟩, identity'⟩ := b
      have honce : ∀ name ∈ ackFields, (ms.map Prod.fst).count name ≤ 1 := h.once
      obtain ⟨v, hv, hread⟩ := hmoff.appliedHigh
      obtain ⟨w, hw, hsaid⟩ := hnoff.appliedHigh
      obtain rfl := value_unique (honce _ (by decide)) hv hw
      obtain rfl : high = high' := hread.unique hsaid
      obtain rfl : identity = identity' := hmoff.identity.unique (honce _ (by decide)) hnoff.identity
      obtain rfl : version = version' := hmoff.version.trans hnoff.version.symm
      rfl

/-- The message of an acceptable object. -/
theorem Acceptable.exists_ofMembers (h : Acceptable kind ms) :
    ∃ m, ofMembers ms = .ok m ∧ m.kind = kind ∧ m.version = protocolVersion ∧ m.IsReadOff ms := by
  have hkind := kindOfMembers_eq_ok_iff.2 h.kind_eq
  have hcheck := checkMembers_eq_ok_iff.2 h.inOrder
  have hversion := h.fields_version
  cases kind with
  | request =>
    refine ⟨.request (requestOfFields (field ms) protocolVersion), ?_, rfl, rfl, ?_⟩
    · rw [ofMembers_of_request hkind hcheck, hversion]
      rfl
    · have honce : ∀ name ∈ requestFields, (ms.map Prod.fst).count name ≤ 1 := h.once
      exact ⟨rfl, isTarget_target (honce _ (by decide)), isTarget_target (honce _ (by decide)),
        isTarget_target (honce _ (by decide)), isReason_text (honce _ (by decide)),
        isLossRate_field (honce _ (by decide)), isText_text (honce _ (by decide))⟩
  | ack =>
    have honce : ∀ name ∈ ackFields, (ms.map Prod.fst).count name ≤ 1 := h.once
    obtain ⟨high, hmem⟩ := h.applied rfl
    have hfield := (field_eq_some_iff (honce _ (by decide))).2 hmem
    refine ⟨.ack (ackOfFields (field ms) protocolVersion high), ?_, rfl, rfl, ?_⟩
    · rw [ofMembers_of_ack hkind hcheck hfield, hversion]
      rfl
    · exact ⟨rfl, ⟨high, hmem, high.says_looseNumber⟩, isText_text (honce _ (by decide))⟩

/-- The steps that lead to a message have all succeeded. -/
theorem steps_of_ofMembers {m : Message} (h : ofMembers ms = .ok m) :
    kindOfMembers ms = .ok m.kind ∧ checkMembers m.kind.fields [] ms = .ok () ∧
      Fields.version (field ms) = .ok m.version ∧
      (m.kind = .ack → ∃ v, field ms "appliedBitrateHigh" = some v) := by
  cases hkind : kindOfMembers ms with
  | error e => simp [ofMembers, hkind, bind, Except.bind] at h
  | ok kind =>
    cases kind with
    | request =>
      cases hcheck : checkMembers requestFields [] ms with
      | error e => simp [ofMembers, hkind, hcheck, bind, Except.bind] at h
      | ok u =>
        rw [ofMembers_of_request hkind hcheck] at h
        cases hversion : Fields.version (field ms) with
        | error e => simp [hversion, Except.map] at h
        | ok version =>
          rw [hversion] at h
          obtain rfl := Except.ok.inj h
          exact ⟨rfl, hcheck, rfl, by rintro ⟨⟩⟩
    | ack =>
      cases hcheck : checkMembers ackFields [] ms with
      | error e => simp [ofMembers, hkind, hcheck, bind, Except.bind] at h
      | ok u =>
        cases hfield : field ms "appliedBitrateHigh" with
        | none => simp [ofMembers, hkind, hcheck, hfield, bind, Except.bind] at h
        | some high =>
          rw [ofMembers_of_ack hkind hcheck hfield] at h
          cases hversion : Fields.version (field ms) with
          | error e => simp [hversion, Except.map] at h
          | ok version =>
            rw [hversion] at h
            obtain rfl := Except.ok.inj h
            exact ⟨rfl, hcheck, rfl, fun _ => ⟨high, rfl⟩⟩

/-- What is read as a message is acceptable, if the version is the one spoken here. -/
theorem acceptable_of_ofMembers {m : Message} (h : ofMembers ms = .ok m)
    (hone : m.version = protocolVersion) : Acceptable m.kind ms := by
  obtain ⟨hkind, hcheck, hversion, happlied⟩ := steps_of_ofMembers h
  have horder := checkMembers_eq_ok_iff.1 hcheck
  refine ⟨kindOfMembers_eq_ok_iff.1 hkind, horder.once, fun v hv => ?_, fun hack => ?_⟩
  · have hfield := (field_eq_some_iff (horder.once _ (version_mem_fields _))).2 hv
    simp only [Fields.version, hfield, hone] at hversion
    exact versionOfValue_eq_ok_iff.1 hversion
  · obtain ⟨v, hv⟩ := happlied hack
    exact ⟨v, mem_of_field_eq_some hv⟩

/-- A payload that is an object is decoded to the message of its members. -/
theorem decode_object {payload : Octets}
    (h : wholePayload (Json.document payload) = .ok (.object ms)) :
    decode payload = accept (ofMembers ms) [] := by
  unfold wholePayload at h
  split at h
  · cases h
  · next v rest hdocument =>
    split at h
    · next hend =>
      obtain rfl := Except.ok.inj h
      simp only [decode, Json.outline_of_document hdocument, accept, hend]
      rfl
    · cases h

/-- An object is decoded if it is acceptable, and to the message that is read off its members. -/
theorem decode_object_iff {payload : Octets}
    (h : wholePayload (Json.document payload) = .ok (.object ms)) :
    ((∃ m, decode payload = .ok m) ↔ ∃ kind, Acceptable kind ms) ∧
      ∀ m, decode payload = .ok m ↔ Acceptable m.kind ms ∧ m.IsReadOff ms := by
  rw [decode_object h]
  simp only [accept_eq_ok_iff]
  refine ⟨⟨?_, ?_⟩, fun m => ⟨?_, ?_⟩⟩
  · rintro ⟨m, hread, hversion⟩
    exact ⟨m.kind, acceptable_of_ofMembers hread hversion⟩
  · rintro ⟨kind, hkind⟩
    obtain ⟨m, hread, -, hversion, -⟩ := hkind.exists_ofMembers
    exact ⟨m, hread, hversion⟩
  · rintro ⟨hread, hversion⟩
    have hacceptable := acceptable_of_ofMembers hread hversion
    obtain ⟨n, hn, -, -, hoff⟩ := hacceptable.exists_ofMembers
    obtain rfl := Except.ok.inj (hread.symm.trans hn)
    exact ⟨hacceptable, hoff⟩
  · -- Some message is decoded, and the members allow for no other.
    rintro ⟨hacceptable, hoff⟩
    obtain ⟨n, hread, hkind, hversion, hread_off⟩ := hacceptable.exists_ofMembers
    obtain rfl := IsReadOff.unique hacceptable rfl hkind hoff hread_off
    exact ⟨hread, hversion⟩

/-- A request with values of the wrong kind, and with members that nobody knows. -/
def looseMembers : List Member :=
  [("hue", .array [.null]), (kindField, .string Kind.request.name), ("hue", .bool true),
    ("targetBitrateHigh", .string " 500000 "), ("lossRate", .object []), ("senderIdentity", .null)]

theorem loose_request_decoded :
    wholePayload (Json.document (Json.print (.object looseMembers))) = .ok (.object looseMembers) ∧
      ∃ m, decode (Json.print (.object looseMembers)) = .ok m ∧ m.IsReadOff looseMembers := by
  have hobject : wholePayload (Json.document (Json.print (.object looseMembers))) =
      .ok (.object looseMembers) := rfl
  have hacceptable : Acceptable .request looseMembers := by
    refine ⟨rfl, by decide, fun v hv => ?_, by rintro ⟨⟩⟩
    simp [looseMembers, kindField] at hv
  obtain ⟨hiff, hread⟩ := decode_object_iff hobject
  obtain ⟨m, hm⟩ := hiff.2 ⟨.request, hacceptable⟩
  exact ⟨hobject, m, hm, ((hread m).1 hm).2⟩

end Message

end Simulcast
