import Simulcast.Proofs.Arbitration.Independence

/-!
# The order in which receivers are heard

When several receivers ask for caps at about the same time, it depends on the network whose request comes
in first. On the way the caps in force may then be others, and so may be what is handed out and
acknowledged. In the end it makes no difference, as long as the requests of each single receiver stay in
their order.

An entry is set by the last request under its name, so that the requests under other names may be left
out when it is considered. What remains of two orders is then the same list. The caps in force follow from
the entries, whatever they were in between.

Caps are the same here when they are the same numbers. This is how the arbitrator itself decides whether
caps are in force already, and if they are, it keeps those that it has.

## Main definitions

* `Arbitrator.Arrival` — a request that comes in
* `Arbitrator.IsReordering` — the same requests in an order that is the same for each receiver

## Main results

* `Arbitrator.get?_run_arrivals` — an entry depends on the requests under its name alone
* `Arbitrator.run_reordered` — entries, caps in force and caps handed out do not depend on the order
-/

namespace Simulcast.Arbitrator

variable {a b : Arbitrator} {arrivals others : List Arrival} {calls more : List Call}

/-- A request that comes in. -/
structure Arrival where
  request : CapRequest
  /-- Who sent it according to the channel. -/
  source : String
  time : Time

/-- The name under which the request is kept. -/
def Arrival.key (x : Arrival) : String := keyOf x.source x.request

/-- The request is taken in. -/
def Arrival.call (x : Arrival) : Call := .request x.request x.source x.time

/-- The same requests in an order that may be another one, except among those of one receiver. -/
structure IsReordering (arrivals others : List Arrival) : Prop where
  perm : arrivals.Perm others
  filter_eq : ∀ name, arrivals.filter (fun x => x.key = name) = others.filter fun x => x.key = name

/-- Two requests that follow each other change places, if they are of different receivers. -/
theorem isReordering_swap {x y : Arrival} (h : x.key ≠ y.key) (earlier later : List Arrival) :
    IsReordering (earlier ++ x :: y :: later) (earlier ++ y :: x :: later) where
  perm := (List.Perm.swap y x later).append_left earlier
  filter_eq name := by
    -- At most one of the two is kept under the name.
    by_cases hx : x.key = name
    · have hy : y.key ≠ name := fun hy => h (hx.trans hy.symm)
      simp [hx, hy]
    · simp [List.filter_cons, hx]

/-! ### Entries -/

/-- An entry depends on the requests under its name alone. -/
theorem get?_run_arrivals (a : Arbitrator) (arrivals : List Arrival) (name : String) :
    (a.run (arrivals.map Arrival.call)).entries.get? name =
      (a.run ((arrivals.filter fun x => x.key = name).map Arrival.call)).entries.get? name := by
  induction arrivals using List.reverseRecOn with
  | nil => rfl
  | append_singleton arrivals x ih =>
    rw [List.map_append, List.map_singleton, run_append_singleton, List.filter_append]
    by_cases hkey : x.key = name
    · have hkept : [x].filter (fun x => x.key = name) = [x] := by simp [hkey]
      rw [hkept, List.map_append, List.map_singleton, run_append_singleton]
      exact get?_step_congr (by simp) (by simp) ih x.call
    · have hdropped : [x].filter (fun x => x.key = name) = [] := by simp [hkey]
      have hunder : x.call.isUnder x.key = true := beq_self_eq_true _
      rw [hdropped, List.append_nil, ← ih]
      exact get?_step_of_isUnder hunder (Ne.symm hkey)

theorem IsReordering.get?_run (h : IsReordering arrivals others) (a : Arbitrator) (name : String) :
    (a.run (arrivals.map Arrival.call)).entries.get? name =
      (a.run (others.map Arrival.call)).entries.get? name := by
  rw [get?_run_arrivals, h.filter_eq, ← get?_run_arrivals]

/-- The last request to come in has an entry. -/
theorem exists_get?_run_arrivals (a : Arbitrator) (h : arrivals ≠ []) :
    ∃ name, (a.run (arrivals.map Arrival.call)).entries.get? name ≠ none := by
  obtain ⟨earlier, x, rfl⟩ := (List.eq_nil_or_concat' arrivals).resolve_left h
  refine ⟨x.key, ?_⟩
  rw [List.map_append, List.map_singleton, run_append_singleton, Arrival.call, step, get?_request,
    Arrival.key, if_pos rfl]
  exact Option.some_ne_none _

/-! ### The caps in force -/

/-- The caps in force follow from the entries. -/
theorem Tracks.effective_same (ha : a.Tracks calls) (hb : b.Tracks more)
    (hceilings : a.ceilings = b.ceilings)
    (h : ∀ name, a.entries.get? name = b.entries.get? name) :
    a.effective.same b.effective = true := by
  have hdemands : b.demands = a.demands := by simp only [demands, h, hceilings]
  have hmin := hb.effective_spec.2
  rw [hdemands] at hmin
  exact ha.effective_spec.2.same (fun _ hc => ha.holdsNumbers.isNumber_of_mem_demands hc) hmin

/-- Are both missing, or the same numbers? -/
def SameCaps : Option Caps → Option Caps → Prop := Option.Rel fun c d => c.same d = true

theorem Tracks.applied_same (ha : a.Tracks calls) (hb : b.Tracks more)
    (hceilings : a.ceilings = b.ceilings)
    (h : ∀ name, a.entries.get? name = b.entries.get? name) : SameCaps a.applied b.applied := by
  have hnone : a.applied = none ↔ b.applied = none := by
    rw [ha.consistent.applied_eq_none_iff, hb.consistent.applied_eq_none_iff]
    simp only [h]
  have hsame := ha.effective_same hb hceilings h
  cases hc : a.applied with
  | none =>
    rw [hnone.1 hc]
    exact .none
  | some c =>
    cases hd : b.applied with
    | none =>
      rw [hnone.2 hd] at hc
      cases hc
    | some d =>
      rw [effective, effective, hc, hd] at hsame
      exact .some hsame

/-! ### All together -/

/-- What was handed out last, once the queue is drained. With an entry it is what is in force. -/
theorem Delivers.getLast?_eq {taken : List Task} {answers : List (String × CapAck)}
    (h : a.Delivers taken answers) (ha : a.Tracks calls)
    (hentry : ∃ name, a.entries.get? name ≠ none) :
    (capsOf (taken ++ a.drain.1)).getLast? = some a.effective := by
  rcases h.latest with hlast | ⟨-, happlied⟩
  · exact hlast
  · exact absurd (ha.consistent.applied_eq_none_iff.1 happlied) (not_forall.2 hentry)

/-- After any operations, some requests come in, and in another run the same requests in an order that
may be another one except among those of one receiver. Both lead to the same entries, to the same caps
in force, and once the queue is drained the caps that were handed out last are the same as well. -/
theorem run_reordered (identity : String) (config : Config)
    (hceilings : config.ceilings.IsNumber) (before : List Call)
    (h : IsReordering arrivals others) :
    let start := ofConfig identity config
    let calls := before ++ arrivals.map Arrival.call
    let more := before ++ others.map Arrival.call
    let a := start.run calls
    let b := start.run more
    (∀ name, a.entries.get? name = b.entries.get? name) ∧ SameCaps a.applied b.applied ∧
      a.effective.same b.effective = true ∧
      SameCaps (capsOf (start.taken calls ++ a.drain.1)).getLast?
        (capsOf (start.taken more ++ b.drain.1)).getLast? := by
  intro start calls more a b
  have ha : a.Tracks calls := tracks_run identity hceilings calls
  have hb : b.Tracks more := tracks_run identity hceilings more
  have heq : a.ceilings = b.ceilings := (run_ceilings start calls).trans (run_ceilings start more).symm
  have hentries : ∀ name, a.entries.get? name = b.entries.get? name := fun name => by
    simp only [a, b, calls, more, run_append]
    exact h.get?_run (start.run before) name
  have hsame := ha.effective_same hb heq hentries
  refine ⟨hentries, ha.applied_same hb heq hentries, hsame, ?_⟩
  by_cases hnil : arrivals = []
  · -- Nothing came in, so there is only one order.
    obtain rfl := hnil
    obtain rfl := h.perm.nil_eq
    change SameCaps (capsOf (start.taken calls ++ a.queue)).getLast?
      (capsOf (start.taken calls ++ a.queue)).getLast?
    rcases (delivers_run identity config calls).latest with hlast | ⟨hnever, -⟩
    · rw [hlast]
      exact .some (Caps.same_refl ha.effective_spec.2.isNumber)
    · rw [hnever]
      exact .none
  · have hentry : ∃ name, a.entries.get? name ≠ none := by
      simp only [a, calls, run_append]
      exact exists_get?_run_arrivals (start.run before) hnil
    have hentry' : ∃ name, b.entries.get? name ≠ none := by
      obtain ⟨name, hname⟩ := hentry
      exact ⟨name, hentries name ▸ hname⟩
    rw [(delivers_run identity config calls).getLast?_eq ha hentry,
      (delivers_run identity config more).getLast?_eq hb hentry']
    exact .some hsame

/-- While a third cap is in force, two receivers ask for lower ones, in either order. One of them then
gives way, so that the other one decides. -/
theorem reordered_requests_agree :
    let ask (high : Nat) (source : String) (time : Time) : Arrival :=
      ⟨.ofCaps (.ofHigh (.mega high)) .congestion 0 "", source, time⟩
    let start := ofConfig "publisher" {}
    let before : List Call := [(ask 7 "receiver-3" 0).call, .poll]
    let arrivals := [ask 3 "receiver-1" 5, ask 4 "receiver-2" 6, ask 6 "receiver-1" 7]
    let others := [ask 4 "receiver-2" 6, ask 3 "receiver-1" 5, ask 6 "receiver-1" 7]
    let calls := before ++ arrivals.map Arrival.call
    let more := before ++ others.map Arrival.call
    let a := start.run calls
    let b := start.run more
    ({} : Config).ceilings.IsNumber ∧ IsReordering arrivals others ∧ a.effective.high = .mega 4 ∧
      (∀ name, a.entries.get? name = b.entries.get? name) ∧ SameCaps a.applied b.applied ∧
      a.effective.same b.effective = true ∧
      SameCaps (capsOf (start.taken calls ++ a.drain.1)).getLast?
        (capsOf (start.taken more ++ b.drain.1)).getLast? := by
  intro ask start before arrivals others calls more a b
  have hne : (ask 3 "receiver-1" 5).key ≠ (ask 4 "receiver-2" 6).key := by decide +kernel
  have horder : IsReordering arrivals others := isReordering_swap hne [] [ask 6 "receiver-1" 7]
  have hhigh : a.effective.high = .mega 4 := by decide +kernel
  exact ⟨Caps.isNumber_standard, horder, hhigh,
    run_reordered "publisher" {} Caps.isNumber_standard before horder⟩

end Simulcast.Arbitrator
