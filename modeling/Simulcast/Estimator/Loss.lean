import Simulcast.Config
import Simulcast.Statistics

/-!
# Loss and congestion

A receiver judges its loss over the last few ticks. How many packets it should have got follows from
the received rate, on average over these ticks and with packets of a typical size. The loss of the
current tick relative to that decides whether the tick is congested.

## Main definitions

* `History` — the lost packets and the rates that the averages are taken over
* `Assessment` — what a history and the current tick say about the loss
* `assess` — from measurements to the assessment
-/

namespace Simulcast

/-- What the averages are taken over. Lost packets and rates are averaged in different ways, and so they
are kept apart. -/
structure History where
  /-- The packets lost in each of the last ticks, oldest first. -/
  losses : List Binary64
  /-- The received rates, in thousands of bits per second. -/
  kilos : List Binary64
  deriving DecidableEq

namespace History

/-- A history without ticks. -/
def empty : History := ⟨[], []⟩

/-- How many ticks the averages are taken over. -/
def size : Nat := 10

/-- Some numbers and one more, without those that are too old. -/
def extend (xs : List Binary64) (x : Binary64) : List Binary64 :=
  let all := xs ++ [x]
  all.drop (all.length - size)

/-- A history with one more tick. -/
def push (h : History) (m : Measurement) : History := ⟨extend h.losses m.lost, extend h.kilos m.kilo⟩

/-- The sum of some numbers, in order. -/
def sum (xs : List Binary64) : Binary64 := xs.foldl (· + ·) 0

/-- The average rate, in thousands of bits per second. -/
def averageKilo (h : History) : Binary64 :=
  if h.kilos.isEmpty then 0 else sum h.kilos / .ofNat h.kilos.length

/-- How much less a tick weighs than the one after it. -/
def decay : Binary64 := 0.7

/-- The weights of some ticks, the last of which has weight one. -/
def weights (count : Nat) : List Binary64 :=
  (List.range count).map fun i => decay ^ (count - 1 - i)

/-- The average loss, in packets per tick, with the last ticks weighing most. -/
def averageLoss (h : History) : Binary64 :=
  let weights := weights h.losses.length
  let total := sum (List.zipWith (· * ·) h.losses weights)
  let weight := sum weights
  if 0 < weight then total / weight else 0

end History

/-- What the loss comes to. -/
structure Assessment where
  /-- The average rate, in thousands of bits per second. -/
  averageKilo : Binary64
  /-- The average rate of loss. -/
  lossRate : Binary64
  /-- The loss of this tick relative to the packets of a tick. -/
  tickLoss : Binary64
  /-- Is this tick congested? -/
  congested : Bool
  /-- Is it severely congested? -/
  severe : Bool
  deriving DecidableEq

/-- The size of a packet in bytes. -/
def packetSize : Binary64 := 1200

/-- How many ticks the expected count of packets covers. -/
def packetTicks : Binary64 := 3

/-- No fewer packets than these are expected. -/
def leastPackets : Binary64 := 100

/-- The packets that a rate stands for. -/
def expectedPackets (kilo : Binary64) : Binary64 := kilo * 1000 / 8 / packetSize * packetTicks

/-- The assessment of a tick, given the history that ends with it and the packets lost in it. -/
def assess (config : Config) (h : History) (lost : Binary64) : Assessment :=
  let averageKilo := h.averageKilo
  let averageLoss := h.averageLoss
  let expected := expectedPackets averageKilo
  let tickLoss := lost / max expected leastPackets
  { averageKilo
    lossRate :=
      if 0 < averageKilo ∧ 0 < averageLoss then averageLoss / max (expected + averageLoss) 1 else 0
    tickLoss
    congested := config.congestionLoss < tickLoss
    severe := config.severeLoss < tickLoss }

end Simulcast
