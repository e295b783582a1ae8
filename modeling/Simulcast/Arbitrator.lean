import Simulcast.Config
import Simulcast.Log
import Simulcast.Roster

/-!
# Arbitration between receivers

A publisher keeps the latest caps of each receiver for as long as they are renewed and honours all of
them at once: in force is the layer-wise minimum of the ceilings and of every receiver's caps.

The arbitrator only decides. What is to be done, setting caps on the sender and acknowledging
requests, waits in a queue until it is taken from there. A new decision about the caps replaces one
that still waits, but no acknowledgement is ever dropped.

## Main definitions

* `Arbitrator` — the caps of the receivers, those in force and what is still to be done
* `Arbitrator.request`, `Arbitrator.cleanup`, `Arbitrator.clear` — what changes them
* `Arbitrator.poll` — takes the next thing to be done
-/

namespace Simulcast

/-- The caps of one receiver. -/
structure CapEntry where
  caps : Caps
  /-- When they were last asked for. -/
  arrival : Time
  reason : Reason
  deriving DecidableEq

/-- Something to be done by the publisher. -/
inductive Arbitrator.Task where
  /-- Set these caps on the sender. -/
  | apply (caps : Caps)
  /-- Send an acknowledgement to a receiver. -/
  | ack (destination : String) (message : CapAck)
  deriving DecidableEq

/-- Does the task set caps? -/
def Arbitrator.Task.isApply : Arbitrator.Task → Bool
  | .apply _ => true
  | .ack .. => false

/-- The state of arbitration for one stream. -/
structure Arbitrator where
  /-- The identity of the publisher. -/
  identity : String
  ceilings : Caps
  lifetime : Time
  entries : Roster CapEntry
  /-- The caps in force, if any receiver asked for some. -/
  applied : Option Caps
  /-- What is still to be done, in order. -/
  queue : List Arbitrator.Task

namespace Arbitrator

/-- The state without any receiver. -/
def ofConfig (identity : String) (config : Config) : Arbitrator :=
  ⟨identity, config.ceilings, config.lifetime, .empty, none, []⟩

/-- The caps in force, which are the ceilings if nobody asked for any. -/
def effective (a : Arbitrator) : Caps := a.applied.getD a.ceilings

/-- The name under which a request is kept: who sent it according to the channel, or else what it
says itself, or else a name for all others. -/
def keyOf (source : String) (r : CapRequest) : String :=
  if source ≠ "" then source
  else if r.identity ≠ "" then r.identity
  else "unknown"

/-- The minimum of the ceilings and of all entries. -/
def strictest (a : Arbitrator) : Caps :=
  a.entries.entries.foldl (fun caps entry => min caps entry.caps) a.ceilings

/-- Queues caps to be set, in place of any that still wait. -/
def enqueueCaps (a : Arbitrator) (caps : Caps) : Arbitrator :=
  { a with queue := a.queue.filter (fun task => !task.isApply) ++ [.apply caps] }

/-- Puts the strictest caps in force, if they are not already. -/
def enforce (a : Arbitrator) : Logged Arbitrator := do
  let caps := a.strictest
  if a.applied.any caps.same then return a
  else
    note (.capApplied caps)
    return { a with applied := some caps }.enqueueCaps caps

/-- Takes in a request. It replaces what the same receiver asked for earlier, and it is acknowledged
with the cap of the high layer that is now in force. -/
def request (a : Arbitrator) (r : CapRequest) (source : String) (now : Time) :
    Logged (Arbitrator × Caps) := do
  let key := keyOf source r
  let caps := r.caps a.ceilings
  note (.capReceived key caps r.reason r.lossRate)
  let a := { a with entries := a.entries.insert key ⟨caps, now, r.reason⟩ }
  let a ← a.enforce
  let ack := CapAck.ofHigh a.effective.high a.identity
  return ({ a with queue := a.queue ++ [.ack key ack] }, a.effective)

/-- Has an entry not been renewed for longer than its lifetime? -/
def isExpired (a : Arbitrator) (now : Time) (entry : CapEntry) : Bool :=
  a.lifetime < Time.since now entry.arrival

/-- Drops the entries that have expired. Without any entry left the ceilings are in force again. -/
def cleanup (a : Arbitrator) (now : Time) : Logged Arbitrator := do
  let expired := a.entries.filter fun _ entry => a.isExpired now entry
  noteAll (expired.pairs.map fun (name, _) => .capExpired name)
  let a := { a with entries := a.entries.filter fun _ entry => !a.isExpired now entry }
  if a.entries.isEmpty then
    if a.applied.isSome then
      note (.allExpired a.ceilings)
      return { a with applied := none }.enqueueCaps a.ceilings
    else return a
  else a.enforce

/-- Drops all entries; the ceilings are to be set in any case. -/
def clear (a : Arbitrator) : Arbitrator :=
  { a with entries := .empty, applied := none }.enqueueCaps a.ceilings

/-- Takes the next task from the queue. -/
def poll (a : Arbitrator) : Option Task × Arbitrator :=
  match a.queue with
  | [] => (none, a)
  | task :: queue => (some task, { a with queue })

/-- Takes all tasks from the queue. -/
def drain (a : Arbitrator) : List Task × Arbitrator := (a.queue, { a with queue := [] })

end Arbitrator

end Simulcast
