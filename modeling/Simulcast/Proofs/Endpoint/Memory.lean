import Simulcast.Endpoint.Memory
import Simulcast.Proofs.Endpoint.Sender

/-!
# Senders in memory

A sender in memory holds the parameters it shows, and it fails exactly when it is told to.

## Main results

* `MemorySender.holds`, `MemorySender.neverFails` — it is a sender as the theory assumes it
-/

namespace Simulcast.MemorySender

/-- Neither operation is to fail. -/
def IsWilling (s : MemorySender) : Prop := s.failsToRead = false ∧ s.failsToWrite = false

theorem holds : Sender.Holds MemorySender.parameters where
  read s p s' h := by
    obtain ⟨hresult, rfl⟩ := Prod.mk.inj h
    split at hresult
    · cases hresult
    · exact ⟨(Except.ok.inj hresult).symm, rfl⟩
  write s p s' h := by
    change (if s.failsToWrite then _ else _ : Except Error Unit × MemorySender) = _ at h
    split at h
    · cases h
    · obtain ⟨-, rfl⟩ := Prod.mk.inj h
      rfl

theorem neverFails : Sender.NeverFails IsWilling where
  read s h := by
    refine ⟨s.parameters, s, ?_, h⟩
    change ((if s.failsToRead then _ else _ : Except Error Parameters), s) = _
    rw [h.1]
    rfl
  write s p h := by
    refine ⟨{ s with parameters := p, writes := s.writes + 1 }, ?_, h⟩
    change (if s.failsToWrite then _ else _ : Except Error Unit × MemorySender) = _
    rw [h.2]
    rfl

end Simulcast.MemorySender
