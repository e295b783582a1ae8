import Simulcast.Proofs.Arbitration.History
import Simulcast.Proofs.Caps.Ordered

/-!
# The caps in force are in order

As long as there is an entry, the caps in force are the minimum of what several receivers stand for,
and the receiver that determines one layer need not be the one that determines the next. Each of
them stands for caps that are in order and below the ceilings, so the minimum is in order as well,
even under ceilings that are not.

## Main results

* `Arbitrator.Tracks.isOrdered_effective` — with an entry, the caps in force are in order
* `Arbitrator.run_request_isOrdered` — what a request stands for, and what it leads to
-/

namespace Simulcast.Arbitrator

variable {a : Arbitrator} {calls : List Call}

/-- With an entry, the caps in force are in order if the ceilings leave room for that. -/
theorem Tracks.isOrdered_effective (h : a.Tracks calls) (hroom : a.ceilings.HasRoom) {name : String}
    {e : CapEntry} (hentry : a.entries.get? name = some e) : a.effective.IsOrdered := by
  -- The ceilings count as well, but what receivers stand for is not above them.
  have hsanitized : ∀ c, (∃ name e, a.entries.get? name = some e ∧ c = e.caps) →
      ∃ t, c = Caps.sanitize t a.ceilings := by
    rintro _ ⟨name, e, hget, rfl⟩
    exact ((h.get?_iff name e).1 hget).exists_sanitize
  refine h.effective_spec.2.isOrdered ?_ ⟨e.caps, name, e, hentry, rfl⟩ ?_
  · intro c hc
    obtain ⟨t, rfl⟩ := hsanitized c hc
    exact Caps.isOrdered_sanitize hroom t
  · intro c hc
    obtain ⟨t, rfl⟩ := hsanitized c hc
    exact Caps.get_sanitize_le hroom t

/-- A request is answered with the caps in force after it. -/
theorem request_value_snd (a : Arbitrator) (r : CapRequest) (source : String) (now : Time) :
    (a.request r source now).value.2 = (a.step (.request r source now)).effective := rfl

/-- Whatever is asked for, it stands for caps without a NaN. Under ceilings that leave room for three
layers, in order themselves or not, these caps are in order and below the ceilings, with a lower
limit for each layer as far as the ceilings allow, and so are the caps that a request leads to after
any operations. -/
theorem run_request_isOrdered (identity : String) (config : Config) (t : Caps.Targets)
    (calls : List Call) (r : CapRequest) (source : String) (now : Time) :
    let c := Caps.sanitize t config.ceilings
    c.IsNumber ∧
      (config.ceilings.HasRoom →
        c.IsOrdered ∧ (∀ l, c.get l ≤ config.ceilings.get l) ∧
          min (.kilo 500) config.ceilings.high ≤ c.high ∧
          ((∀ l, Caps.floor.get l ≤ config.ceilings.get l) →
            .kilo 500 ≤ c.high ∧ .kilo 300 ≤ c.medium ∧ .kilo 150 ≤ c.low) ∧
          (((ofConfig identity config).run calls).request r source now).value.2.IsOrdered) := by
  intro c
  refine ⟨Caps.isNumber_sanitize t config.ceilings, fun hroom => ?_⟩
  refine ⟨Caps.isOrdered_sanitize hroom t, Caps.get_sanitize_le hroom t,
    Caps.min_floor_le_high_sanitize hroom t, fun hfloor => ?_, ?_⟩
  · have hlowest := Caps.lowest_le_sanitize hroom hfloor t
    exact ⟨hlowest .high, hlowest .medium, hlowest .low⟩
  · have hnumber : config.ceilings.IsNumber := fun l => (hroom.isInteger l).ne_nan
    have htracks := (tracks_run identity hnumber calls).step (.request r source now)
    have hentry := get?_request ((ofConfig identity config).run calls) r source now (keyOf source r)
    rw [if_pos rfl] at hentry
    rw [request_value_snd]
    refine htracks.isOrdered_effective ?_ hentry
    rw [step_ceilings, run_ceilings]
    exact hroom

/-- Ceilings that rise from the high layer to the low one. -/
def invertedCeilings : Caps := ⟨.kilo 500, .kilo 5000, .kilo 7000⟩

/-- Under ceilings that rise where caps have to fall, two receivers with targets at their ceilings still
lead to caps in order. -/
theorem inverted_ceilings_in_order :
    invertedCeilings.HasRoom ∧ (∀ l, Caps.floor.get l ≤ invertedCeilings.get l) ∧
      (.kilo 150 : Bitrate) ≤ (Caps.sanitize ⟨none, some ⟨.nan⟩, some (.kilo 7000)⟩
        invertedCeilings).low ∧
      (((ofConfig "publisher" { ceilings := invertedCeilings }).run
          [.request (.ofCaps invertedCeilings .congestion 0 "") "first" 5]).request
        ⟨1, ⟨none, some (.kilo 5000), none⟩, .severe, 1, ""⟩ "second" 8).value.2.IsOrdered := by
  have hinteger : ∀ l, (invertedCeilings.get l).bps.IsInteger := by
    intro l
    cases l <;> exact (Bitrate.isWhole_ofNat (by decide)).isInteger
  have hroom : invertedCeilings.HasRoom := ⟨hinteger, by decide +kernel, by decide +kernel⟩
  have hfloor : ∀ l, Caps.floor.get l ≤ invertedCeilings.get l := by
    intro l
    cases l <;> decide +kernel
  have hspec := (run_request_isOrdered "publisher" { ceilings := invertedCeilings }
    ⟨none, some ⟨.nan⟩, some (.kilo 7000)⟩
    [.request (.ofCaps invertedCeilings .congestion 0 "") "first" 5]
    ⟨1, ⟨none, some (.kilo 5000), none⟩, .severe, 1, ""⟩ "second" 8).2 hroom
  obtain ⟨-, -, -, hlowest, hordered⟩ := hspec
  exact ⟨hroom, hfloor, (hlowest hfloor).2.2, hordered⟩

end Simulcast.Arbitrator
