import Simulcast.Proofs.Arbitration.Calls
import Simulcast.Proofs.Caps.Wire

/-!
# Requests that were sent

A request reaches the publisher as octets. It is found there with other targets than it was made with,
and maybe with another loss rate, but the caps that it stands for are the same, and nothing else of it
matters to the arbitrator. So the wire can be left out when the decisions of a publisher are considered.

## Main results

* `Arbitrator.request_decode_encode` — a request that was sent has the effect of the request itself
-/

namespace Simulcast.Arbitrator

variable {a : Arbitrator}

/-- Of a request only its caps, its reason and its identity have an effect. -/
theorem request_value_congr {r s : CapRequest} (hcaps : s.caps a.ceilings = r.caps a.ceilings)
    (hreason : s.reason = r.reason) (hidentity : s.identity = r.identity) (source : String)
    (now : Time) : (a.request s source now).value = (a.request r source now).value := by
  have hkey : keyOf source s = keyOf source r := by rw [keyOf, keyOf, hidentity]
  have henroll : a.enroll s source now = a.enroll r source now := by
    rw [enroll, enroll, hkey, hcaps, hreason]
  rw [request_value, request_value, henroll, hkey]

/-- The caps of a request do not depend on whether it was sent, so a request that was encoded and decoded
leaves the arbitrator in the state in which the request itself leaves it, with the same entries, the
same caps in force and the same tasks. -/
theorem request_decode_encode (a : Arbitrator) (r : CapRequest) (source : String) (now : Time)
    (hceilings : ∀ l, (a.ceilings.get l).bps.IsCount) (hversion : r.version = protocolVersion) :
    Caps.sanitize r.targets.onWire a.ceilings = Caps.sanitize r.targets a.ceilings ∧
      ∃ s, Message.decode (Message.encode (.request r)) = .ok (.request s) ∧
        s.targets = r.targets.onWire ∧
        (a.request s source now).value = (a.request r source now).value := by
  have hcaps := Caps.sanitize_onWire r.targets hceilings
  obtain ⟨lossRate, hdecode⟩ := Message.decode_encode_request hversion
  refine ⟨hcaps, _, hdecode, rfl, request_value_congr ?_ ?_ ?_ source now⟩
  · exact hcaps
  · rfl
  · rfl

/-- A request with targets that no word can hold. -/
def wildRequest : CapRequest where
  version := protocolVersion
  targets := ⟨some ⟨.infinity false⟩, some ⟨2500000.5⟩, some ⟨.nan⟩⟩
  reason := .severe
  lossRate := .infinity true
  identity := "receiver"

theorem wild_request_sent :
    (∀ l, ((ofConfig "publisher" {}).ceilings.get l).bps.IsCount) ∧
      ∃ s, Message.decode (Message.encode (.request wildRequest)) = .ok (.request s) ∧
        ((ofConfig "publisher" {}).request s "" 5).value =
          ((ofConfig "publisher" {}).request wildRequest "" 5).value := by
  have hceilings : ∀ l, ((ofConfig "publisher" {}).ceilings.get l).bps.IsCount := by
    have hword : ∀ n, n < powTwo 64 → (Bitrate.ofNat n).bps.IsCount :=
      fun n hn => Or.inl (Bitrate.isWhole_ofNat hn)
    intro l
    cases l <;> exact hword _ (by decide)
  obtain ⟨-, s, hdecode, -, hvalue⟩ :=
    request_decode_encode (ofConfig "publisher" {}) wildRequest "" 5 hceilings rfl
  exact ⟨hceilings, s, hdecode, hvalue⟩

end Simulcast.Arbitrator
