import Mathlib.Logic.Basic
import Simulcast.Watchdog.Action

/-!
# Limits of the layers of a sender

Of all that a sender is told about its encodings, only the bitrate limit of the first encoding of
each layer matters to arbitration. No change to the parameters touches the rids, so the layers stay
where they are, and a change to one layer leaves the limits of the others alone.

Every change that is ever made is the application of an action: setting the caps is what a kick does.

## Main definitions

* `Parameters.limit?` — the limit of the first encoding of a layer
* `Action.Kind.sets` — the layers whose limits a kind of action sets

## Main results

* `Parameters.limit?_modify` — a change to the encoding of one layer
* `Action.limit?_apply` — an action sets the limits of its layers and no others
-/

namespace Simulcast

namespace Parameters

variable {p q : Parameters} {f : Encoding → Encoding} {l l' : Layer}

/-- The limit of the first encoding of a layer, if the layer has an encoding. -/
def limit? (p : Parameters) (l : Layer) : Option (Option Bitrate) :=
  (p.encoding? l).map Encoding.maxBitrate

/-- The rids of the encodings. -/
def rids (p : Parameters) : List (Option Rid) := p.encodings.map Encoding.rid

/-- Where the layers are depends on the rids alone. -/
theorem indexOf?_congr (h : p.rids = q.rids) (l : Layer) : p.indexOf? l = q.indexOf? l := by
  -- The index is found by looking at rids only, so it is an expression in the list of rids.
  have hindex : ∀ p : Parameters, p.indexOf? l =
      p.rids.findIdx? fun rid => layerIn p.rids.length (.unlimited rid) == some l := by
    intro p
    rw [rids, List.findIdx?_map, List.length_map]
    rfl
  rw [hindex p, hindex q, h]

theorem rids_modify (hf : ∀ e, (f e).rid = e.rid) : (p.modify l f).rids = p.rids := by
  unfold modify
  split
  · refine List.ext_getElem? fun i => ?_
    -- Place by place: the changed encoding has its old rid, and the others are as they were.
    simp only [rids, List.getElem?_map, List.getElem?_modify]
    split <;> cases p.encodings[i]? <;> simp [hf]
  · rfl

/-- An encoding carries one layer only. -/
theorem eq_of_indexOf?_eq {i : Nat} (h : p.indexOf? l = some i) (h' : p.indexOf? l' = some i) :
    l = l' := by
  obtain ⟨hi, hl, -⟩ := List.findIdx?_eq_some_iff_getElem.1 h
  obtain ⟨_, hl', -⟩ := List.findIdx?_eq_some_iff_getElem.1 h'
  rw [beq_iff_eq] at hl hl'
  exact Option.some.inj (hl.symm.trans hl')

theorem encoding?_modify (hf : ∀ e, (f e).rid = e.rid) (l l' : Layer) :
    (p.modify l f).encoding? l' =
      if l = l' then (p.encoding? l').map f else p.encoding? l' := by
  -- The change leaves every layer where it was, so both sides look at the same place.
  unfold encoding?
  rw [indexOf?_congr (rids_modify hf)]
  cases hindex' : p.indexOf? l' with
  | none => split <;> rfl
  | some j =>
    simp only [Option.bind_some]
    cases hindex : p.indexOf? l with
    | none =>
      -- The changed layer has no encoding, while the other one has.
      have hne : l ≠ l' := by
        rintro rfl
        rw [hindex] at hindex'
        cases hindex'
      simp only [modify, hindex, if_neg hne]
    | some i =>
      simp only [modify, hindex]
      by_cases heq : l = l'
      · subst heq
        obtain rfl := Option.some.inj (hindex.symm.trans hindex')
        rw [if_pos rfl, List.getElem?_modify_eq]
        rfl
      · have hij : i ≠ j := by
          rintro rfl
          exact heq (eq_of_indexOf?_eq hindex hindex')
        rw [if_neg heq, List.getElem?_modify_ne _ _ hij]

/-- A change to the encoding of one layer changes the limit of that layer at most. -/
theorem limit?_modify {g : Option Bitrate → Option Bitrate} (hf : ∀ e, (f e).rid = e.rid)
    (hg : ∀ e, (f e).maxBitrate = g e.maxBitrate) (l l' : Layer) :
    (p.modify l f).limit? l' = if l = l' then (p.limit? l').map g else p.limit? l' := by
  unfold limit?
  rw [encoding?_modify hf]
  split
  · simp only [Option.map_map]
    congr 1
    funext e
    exact hg e
  · rfl

theorem encoding?_map (hrid : ∀ e, (f e).rid = e.rid) :
    encoding? ⟨p.encodings.map f⟩ l = (p.encoding? l).map f := by
  have hrids : rids ⟨p.encodings.map f⟩ = p.rids := by simp [rids, hrid, Function.comp_def]
  unfold encoding?
  rw [indexOf?_congr hrids]
  cases p.indexOf? l with
  | none => rfl
  | some i => simp

/-- A change to every encoding that keeps the rids and the limits. -/
theorem limit?_map (hrid : ∀ e, (f e).rid = e.rid) (hlimit : ∀ e, (f e).maxBitrate = e.maxBitrate) :
    limit? ⟨p.encodings.map f⟩ l = p.limit? l := by
  rw [limit?, encoding?_map hrid, Option.map_map]
  exact congrArg (Option.map · (p.encoding? l)) (funext hlimit)

theorem limit?_setCaps (caps : Caps) (l : Layer) :
    (p.setCaps caps).limit? l = (p.limit? l).map fun _ => some (caps.get l) := by
  -- Three changes follow each other, and each leaves the limits of the other layers alone.
  have hmodify : ∀ (q : Parameters) (k : Layer),
      (q.modify k fun e => { e with maxBitrate := some (caps.get k) }).limit? l =
        if k = l then (q.limit? l).map (fun _ => some (caps.get k)) else q.limit? l :=
    fun q k => limit?_modify (by intro e; rfl) (by intro e; rfl) k l
  simp only [setCaps, Layer.all, List.foldl_cons, List.foldl_nil, hmodify]
  cases l <;> simp only [reduceCtorEq, if_true, if_false, Option.map_map, Function.comp_def]

end Parameters

namespace Action

variable {p : Parameters}

/-- Does an action of this kind set the limit of the layer? -/
def Kind.sets : Kind → Layer → Bool
  | .kick, _ => true
  | .rescue, l => l == .high
  | .hardRescue, _ => true
  | .restoreLow, l => l == .low

/-- An action sets the limits of its layers and no others. -/
theorem limit?_apply (a : Action) (p : Parameters) (l : Layer) :
    (a.apply p).limit? l =
      if a.kind.sets l then (p.limit? l).map fun _ => some (a.caps.get l) else p.limit? l := by
  obtain ⟨kind, caps⟩ := a
  have hrevive : ∀ (q : Parameters) (k : Layer), (q.modify k (revive (caps.get k))).limit? l =
      if k = l then (q.limit? l).map (fun _ => some (caps.get k)) else q.limit? l :=
    fun q k => Parameters.limit?_modify (by intro e; rfl) (by intro e; rfl) k l
  cases kind with
  | kick => exact Parameters.limit?_setCaps caps l
  | rescue =>
    -- The low layer is switched off, but its limit stays.
    change ((p.modify .low fun e => { e with active := false }).modify .high
      (revive (caps.get .high))).limit? l = _
    have hlow : (p.modify .low fun e => { e with active := false }).limit? l = p.limit? l := by
      rw [Parameters.limit?_modify (g := id) (by intro e; rfl) (by intro e; rfl)]
      simp only [Option.map_id_fun, id_eq, ite_self]
    rw [hrevive, hlow]
    cases l <;> rfl
  | hardRescue =>
    have hmodify : ∀ (q : Parameters) (k : Layer),
        (q.modify k fun e => { e with
          maxBitrate := some (caps.get k), maxFramerate := some (rescueFramerate k) }).limit? l =
          if k = l then (q.limit? l).map (fun _ => some (caps.get k)) else q.limit? l :=
      fun q k => Parameters.limit?_modify (by intro e; rfl) (by intro e; rfl) k l
    -- All layers are switched on before the limits are set.
    have hon : Parameters.limit? ⟨p.encodings.map fun e => { e with active := true }⟩ l =
        p.limit? l := Parameters.limit?_map (fun _ => rfl) (fun _ => rfl)
    simp only [apply, Layer.all, List.foldl_cons, List.foldl_nil, hmodify, hon]
    cases l <;>
      simp only [reduceCtorEq, if_true, if_false, Option.map_map, Function.comp_def, Kind.sets]
  | restoreLow =>
    change (p.modify .low (revive (caps.get .low))).limit? l = _
    rw [hrevive]
    cases l <;> rfl

/-- Without encodings there is nothing to act on. -/
theorem apply_of_encodings_eq_nil (a : Action) (h : p.encodings = []) : a.apply p = p := by
  obtain ⟨encodings⟩ := p
  obtain rfl : encodings = [] := h
  obtain ⟨kind, caps⟩ := a
  cases kind <;> rfl

end Action

end Simulcast
