import Mathlib.Data.List.Nodup
import Simulcast.Proofs.Bitrate
import Simulcast.Proofs.Json.Objects
import Simulcast.Proofs.Message.Members

/-!
# Messages survive being sent

A message that was encoded is decoded to a message of the same kind again, whatever is in it. Its rates
have become whole ones then, and its loss rate may have become another one.

## Main definitions

* `Bitrate.onWire` — a rate as a reader finds it
* `Message.requestMembers` — the members of a request, with the loss rate left open

## Main results

* `Message.ofMembers_requestMembers`, `Message.ofMembers_ack` — the members make up the message
* `Message.decode_print` — what is decoded depends on what the members are read as
* `Message.decode_encode_request` — a request of the version spoken here is decoded to a request
-/

namespace Simulcast

/-- A rate as a reader finds it. -/
def Bitrate.onWire (r : Bitrate) : Bitrate := ⟨.ofInt r.whole⟩

theorem Bitrate.bps_onWire (r : Bitrate) : r.onWire.bps = .ofInt r.whole := by simp only [onWire]

theorem Bitrate.onWire_eq_self {r : Bitrate} (h : r.bps.IsWhole) : r.onWire = r := ofInt_whole h

theorem Bitrate.whole_lt (r : Bitrate) : r.whole < powTwo 64 := by
  have hmax : Binary64.maxWord < powTwo 64 := by decide
  unfold whole
  split
  · exact lt_of_le_of_lt (Binary64.toWord_le _) hmax
  · exact powTwo_pos 64

/-- Targets as a reader finds them. -/
def Caps.Targets.onWire (t : Caps.Targets) : Caps.Targets :=
  ⟨t.high.map Bitrate.onWire, t.medium.map Bitrate.onWire, t.low.map Bitrate.onWire⟩

namespace Message

open Json (Value Member MemberIsReadAs)

variable {r : CapRequest} {loss : Value}

/-- The members of a request, with any loss rate. -/
def requestMembers (r : CapRequest) (loss : Value) : List Member :=
  [(kindField, .string Kind.request.name), ("version", .integer r.version.toNat)]
    ++ optionalMember "targetBitrateHigh" r.targets.high
    ++ optionalMember "targetBitrateMed" r.targets.medium
    ++ optionalMember "targetBitrateLow" r.targets.low
    ++ [("reason", .string r.reason.name), ("lossRate", loss),
      ("senderIdentity", .string r.identity)]

theorem ofName_name (reason : Reason) : Reason.ofName reason.name = reason := by
  cases reason <;> decide

theorem kindOfMembers_request (r : CapRequest) (loss : Value) :
    kindOfMembers (requestMembers r loss) = .ok .request := by
  have hnone : ∀ (name : String) (t : Option Bitrate), name ≠ kindField →
      (optionalMember name t).filter (fun m => m.1 == kindField) = [] := by
    intro name t hname
    cases t <;> simp [optionalMember, hname]
  have hfilter : (requestMembers r loss).filter (fun m => m.1 == kindField) =
      [(kindField, .string Kind.request.name)] := by
    simp only [requestMembers, List.filter_append, hnone "targetBitrateHigh" _ (by decide),
      hnone "targetBitrateMed" _ (by decide), hnone "targetBitrateLow" _ (by decide)]
    rfl
  exact kindOfMembers_eq_ok_iff.2 hfilter

/-! ### Fields -/

theorem field_optionalMember (key : String) (t : Option Bitrate) (name : String) :
    field (optionalMember key t) name = if key = name then t.map Bitrate.toValue else none := by
  cases t with
  | none => simp [optionalMember, field]
  | some rate => simp [optionalMember, field_cons, field_nil]

theorem target_optionalMember {f : Fields} {name : String} {t : Option Bitrate}
    (h : f name = t.map Bitrate.toValue) : f.target name = t.map Bitrate.onWire := by
  cases t <;> simp only [Fields.target, h] <;> rfl

/-- The fields of a request are those it was written with. -/
theorem requestOfFields_requestMembers (r : CapRequest) (loss : Value) :
    requestOfFields (field (requestMembers r loss)) r.version =
      { r with targets := r.targets.onWire, lossRate := clampLoss loss.looseNumber } := by
  have hhigh : field (requestMembers r loss) "targetBitrateHigh" =
      r.targets.high.map Bitrate.toValue := by
    simp [requestMembers, field_append, field_cons, field_nil, field_optionalMember, kindField]
  have hmedium : field (requestMembers r loss) "targetBitrateMed" =
      r.targets.medium.map Bitrate.toValue := by
    simp [requestMembers, field_append, field_cons, field_nil, field_optionalMember, kindField]
  have hlow : field (requestMembers r loss) "targetBitrateLow" =
      r.targets.low.map Bitrate.toValue := by
    simp [requestMembers, field_append, field_cons, field_nil, field_optionalMember, kindField]
  have hreason : field (requestMembers r loss) "reason" = some (.string r.reason.name) := by
    simp [requestMembers, field_append, field_cons, field_optionalMember, kindField]
  have hloss : field (requestMembers r loss) "lossRate" = some loss := by
    simp [requestMembers, field_append, field_cons, field_optionalMember, kindField]
  have hidentity : field (requestMembers r loss) "senderIdentity" = some (.string r.identity) := by
    simp [requestMembers, field_append, field_cons, field_optionalMember, kindField]
  simp only [requestOfFields, target_optionalMember hhigh, target_optionalMember hmedium,
    target_optionalMember hlow, Fields.text, hreason, hloss, hidentity, Option.map_some,
    Option.getD_some, Value.looseString, ofName_name, Caps.Targets.onWire]

/-- Members are in order if no name comes twice and the version is one. -/
theorem checkMembers_of_nodup {known : List String} {ms : List Member} (version : UInt32)
    (hnodup : (ms.map Prod.fst).Nodup)
    (hversion : ∀ v, ("version", v) ∈ ms → v = .integer version.toNat) :
    checkMembers known [] ms = .ok () := by
  refine checkMembers_eq_ok_iff.2 ⟨fun name _ => List.nodup_iff_count_le_one.1 hnodup name,
    by simp, fun _ v hv => ⟨version, ?_⟩⟩
  rw [hversion v hv]
  exact versionOfValue_toNat version

theorem fst_of_mem_optionalMember {key : String} {t : Option Bitrate} {m : Member}
    (h : m ∈ optionalMember key t) : m.1 = key := by
  cases t with
  | none => cases h
  | some rate => rw [List.mem_singleton.1 h]

/-- The version of a request is the version it was written with. -/
theorem version_of_mem_requestMembers {v : Value} (h : ("version", v) ∈ requestMembers r loss) :
    v = .integer r.version.toNat := by
  have hother : ∀ {key : String} {t : Option Bitrate}, ("version", v) ∈ optionalMember key t →
      key = "version" := fun hm => (fst_of_mem_optionalMember hm).symm
  simp only [requestMembers, List.mem_append, List.mem_cons, Prod.mk.injEq, List.not_mem_nil,
    or_false] at h
  rcases h with (((h | h) | h) | h) | h
  · rcases h with ⟨hkind, -⟩ | ⟨-, hv⟩
    · exact absurd hkind (by decide)
    · exact hv
  · exact absurd (hother h) (by decide)
  · exact absurd (hother h) (by decide)
  · exact absurd (hother h) (by decide)
  · rcases h with ⟨hkey, -⟩ | ⟨hkey, -⟩ | ⟨hkey, -⟩ <;> exact absurd hkey (by decide)

theorem checkMembers_requestMembers (r : CapRequest) (loss : Value) :
    checkMembers requestFields [] (requestMembers r loss) = .ok () := by
  -- Targets may be missing, but the members that there are stay in the order of the fields.
  have hkeys : ((requestMembers r loss).map Prod.fst).Sublist (kindField :: requestFields) := by
    rw [requestMembers]
    cases r.targets.high <;> cases r.targets.medium <;> cases r.targets.low <;>
      simp only [optionalMember, Option.map_none, Option.map_some, Option.toList_none,
        Option.toList_some, List.append_nil, List.cons_append, List.nil_append, List.map_cons,
        List.map_nil] <;> decide
  exact checkMembers_of_nodup r.version (hkeys.nodup (by decide)) fun v hv =>
    version_of_mem_requestMembers hv

theorem version_field_requestMembers (r : CapRequest) (loss : Value) :
    Fields.version (field (requestMembers r loss)) = .ok r.version := by
  have hfield : field (requestMembers r loss) "version" = some (.integer r.version.toNat) := by
    simp [requestMembers, field_cons, kindField]
  simp only [Fields.version, hfield, versionOfValue_toNat]

/-- The members of a request make up a request. -/
theorem ofMembers_requestMembers (r : CapRequest) (loss : Value) :
    ofMembers (requestMembers r loss) =
      .ok (.request
        { r with targets := r.targets.onWire, lossRate := clampLoss loss.looseNumber }) := by
  rw [ofMembers_of_request (kindOfMembers_request r loss) (checkMembers_requestMembers r loss),
    version_field_requestMembers, ← requestOfFields_requestMembers]
  rfl

/-! ### Acknowledgements -/

/-- The members of an acknowledgement make up an acknowledgement. -/
theorem ofMembers_ack (a : CapAck) :
    ofMembers (toMembers (.ack a)) =
      .ok (.ack { a with appliedHigh := a.appliedHigh.onWire }) := by
  have hkind : kindOfMembers (toMembers (.ack a)) = .ok .ack :=
    kindOfMembers_eq_ok_iff.2 rfl
  have hcheck : checkMembers ackFields [] (toMembers (.ack a)) = .ok () := by
    have hnodup : [kindField, "version", "appliedBitrateHigh", "identity"].Nodup := by decide
    refine checkMembers_of_nodup a.version hnodup fun v hv => ?_
    simpa [toMembers, kindField] using hv
  have hhigh : field (toMembers (.ack a)) "appliedBitrateHigh" = some a.appliedHigh.toValue := rfl
  have hversion : Fields.version (field (toMembers (.ack a))) = .ok a.version :=
    versionOfValue_toNat a.version
  rw [ofMembers_of_ack hkind hcheck hhigh, hversion]
  rfl

/-! ### Texts -/

/-- What is printed is decoded to what its members are read as. -/
theorem decode_print {ms ms' : List Member} (h : List.Forall₂ MemberIsReadAs ms ms') :
    decode (Json.print (.object ms)) = accept (ofMembers ms') [] := by
  simp only [decode, Json.outline_print h]

theorem isReadAs_version (version : UInt32) :
    Json.IsReadAs (.integer version.toNat) (.integer version.toNat) :=
  Json.isReadAs_integer (lt_of_lt_of_le version.toNat_lt (powTwo_le (by decide : 32 ≤ 64)))

theorem isReadAs_rate (rate : Bitrate) : Json.IsReadAs rate.toValue rate.toValue :=
  Json.isReadAs_integer rate.whole_lt

/-- The members of a request are read as the members of a request. -/
theorem forall₂_requestMembers (r : CapRequest) {loss loss' : Value}
    (hloss : Json.IsReadAs loss loss') :
    List.Forall₂ MemberIsReadAs (requestMembers r loss) (requestMembers r loss') := by
  -- Every member but the loss rate is read as itself.
  have hoptional : ∀ (key : String) (t : Option Bitrate),
      List.Forall₂ MemberIsReadAs (optionalMember key t) (optionalMember key t) := by
    intro key t
    cases t with
    | none => exact .nil
    | some rate => exact .cons ⟨rfl, isReadAs_rate rate⟩ .nil
  have htail : List.Forall₂ MemberIsReadAs
      [("reason", .string r.reason.name), ("lossRate", loss), ("senderIdentity", .string r.identity)]
      [("reason", .string r.reason.name), ("lossRate", loss'),
        ("senderIdentity", .string r.identity)] :=
    .cons ⟨rfl, Json.isReadAs_string _⟩
      (.cons ⟨rfl, hloss⟩ (.cons ⟨rfl, Json.isReadAs_string _⟩ .nil))
  exact List.rel_append (List.rel_append (List.rel_append (List.rel_append
    (.cons ⟨rfl, Json.isReadAs_string _⟩ (.cons ⟨rfl, isReadAs_version _⟩ .nil)) (hoptional _ _))
    (hoptional _ _)) (hoptional _ _)) htail

/-- The members of an acknowledgement are read as what they are. -/
theorem forall₂_ack (a : CapAck) :
    List.Forall₂ MemberIsReadAs (toMembers (.ack a)) (toMembers (.ack a)) :=
  .cons ⟨rfl, Json.isReadAs_string _⟩ (.cons ⟨rfl, isReadAs_version _⟩
    (.cons ⟨rfl, isReadAs_rate _⟩ (.cons ⟨rfl, Json.isReadAs_string _⟩ .nil)))

/-- A request whose loss rate is read as some value is decoded to a request. -/
theorem decode_encode_of_isReadAs {loss : Value}
    (hloss : Json.IsReadAs r.lossRate.toValue loss) :
    decode (encode (.request r)) = accept (.ok (.request
      { r with targets := r.targets.onWire, lossRate := clampLoss loss.looseNumber })) [] := by
  rw [← ofMembers_requestMembers]
  exact decode_print (forall₂_requestMembers r hloss)

/-- A loss rate is read as some value, `null` where it is not finite. -/
theorem exists_isReadAs_toValue (x : Binary64) : ∃ loss, Json.IsReadAs x.toValue loss := by
  unfold Binary64.toValue
  split
  · next hx =>
    obtain ⟨y, hy⟩ := Json.exists_isReadAs_float hx
    exact ⟨_, hy⟩
  · exact ⟨_, Json.isReadAs_null⟩

/-- A request of the version spoken here is decoded to a request. Only its loss rate may have become
another one. -/
theorem decode_encode_request (hversion : r.version = protocolVersion) :
    ∃ lossRate, decode (encode (.request r)) =
      .ok (.request { r with targets := r.targets.onWire, lossRate := lossRate }) := by
  obtain ⟨loss, hloss⟩ := exists_isReadAs_toValue r.lossRate
  refine ⟨clampLoss loss.looseNumber, ?_⟩
  rw [decode_encode_of_isReadAs hloss, accept_ok]
  exact if_pos hversion

end Message

end Simulcast
