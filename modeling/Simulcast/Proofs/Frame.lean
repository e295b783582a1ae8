import Simulcast.Proofs.Activity

/-!
# What a change to the parameters leaves alone

Caps and interventions are meant for layers, but a sender knows only its list of encodings, in which a
layer is found by the rids. There may be rids that name no layer, encodings without one, and several
encodings of the same layer. This file follows a change through the list, index by index.

Every index keeps its rid, and with that its layer. What stands first for a layer is changed as the
action says for this layer. Everything else stays as it was, except that a hard rescue switches it on.
Because the layers are found in the same places afterwards, doing the same thing again has no effect.

## Main definitions

* `Parameters.IsFirst` — the encoding at an index is the one that counts for a layer
* `Action.Spares` — what an action may at most do to the encoding at an index

## Main results

* `Action.getElem?_apply_of_isFirst`, `Action.getElem?_apply_of_not_isFirst` — the encodings after an
  action
* `Action.apply_frame` — what stays as it was under any action
-/

namespace Simulcast

namespace Parameters

variable {p q : Parameters} {f : Encoding → Encoding} {l l' : Layer} {i : Nat}

/-! ### Where the layers are -/

/-- The encoding at an index is the one that counts for a layer: it carries the layer, and no encoding
before it does. -/
def IsFirst (p : Parameters) (l : Layer) (index : Nat) : Prop :=
  p.layerOf? index = some l ∧ ∀ earlier < index, p.layerOf? earlier ≠ some l

theorem layerOf?_of_getElem (h : i < p.encodings.length) :
    p.layerOf? i = layerIn p.encodings.length p.encodings[i] := by
  rw [layerOf?, List.getElem?_eq_getElem h, Option.bind_some]

theorem indexOf?_eq_some_iff : p.indexOf? l = some i ↔ p.IsFirst l i := by
  rw [indexOf?, List.findIdx?_eq_some_iff_getElem]
  constructor
  · rintro ⟨hi, hlayer, hearlier⟩
    refine ⟨(layerOf?_of_getElem hi).trans (eq_of_beq hlayer), fun j hj => ?_⟩
    rw [layerOf?_of_getElem (Nat.lt_trans hj hi)]
    exact fun heq => hearlier j hj (beq_iff_eq.2 heq)
  · rintro ⟨hlayer, hearlier⟩
    obtain ⟨e, he, -⟩ := Option.bind_eq_some_iff.1 hlayer
    obtain ⟨hi, -⟩ := List.getElem?_eq_some_iff.1 he
    refine ⟨hi, beq_iff_eq.2 ((layerOf?_of_getElem hi).symm.trans hlayer), fun j hj heq => ?_⟩
    apply hearlier j hj
    rw [layerOf?_of_getElem (Nat.lt_trans hj hi)]
    exact eq_of_beq heq

theorem IsFirst.encoding?_eq (h : p.IsFirst l i) : p.encoding? l = p.encodings[i]? := by
  rw [encoding?, indexOf?_eq_some_iff.2 h, Option.bind_some]

theorem IsFirst.unique (h : p.IsFirst l i) (h' : p.IsFirst l' i) : l = l' :=
  Option.some.inj (h.1.symm.trans h'.1)

/-- Which layer an encoding carries depends on the rids alone. -/
theorem layerOf?_congr (h : p.rids = q.rids) (i : Nat) : p.layerOf? i = q.layerOf? i := by
  have hlayer : ∀ p : Parameters, p.layerOf? i =
      p.rids[i]?.bind fun rid => layerIn p.rids.length (.unlimited rid) := by
    intro p
    rw [rids, List.getElem?_map, List.length_map, Option.bind_map]
    rfl
  rw [hlayer p, hlayer q, h]

theorem isFirst_congr (h : p.rids = q.rids) (l : Layer) (i : Nat) :
    p.IsFirst l i ↔ q.IsFirst l i := by
  simp only [IsFirst, layerOf?_congr h]

/-- A sole encoding without a rid is the high layer. -/
theorem isFirst_high_of_sole {e : Encoding} (h : p.encodings = [e]) (hrid : e.rid = none) :
    p.IsFirst .high 0 := by
  refine ⟨?_, fun j hj => absurd hj (Nat.not_lt_zero j)⟩
  simp [layerOf?, h, layerIn, hrid]

/-- A change to the encoding of a layer reaches no other one. -/
theorem getElem?_modify_of_not_isFirst (h : ¬ p.IsFirst l i) :
    (p.modify l f).encodings[i]? = p.encodings[i]? := by
  rw [← indexOf?_eq_some_iff] at h
  unfold modify
  split
  · next j hj =>
    have hne : j ≠ i := fun heq => h (heq ▸ hj)
    exact List.getElem?_modify_ne _ _ hne
  · rfl

/-! ### A change to each of several layers -/

section EachLayer

variable {change : Layer → Encoding → Encoding} (hrid : ∀ l e, (change l e).rid = e.rid)

include hrid

theorem rids_foldl_modify (layers : List Layer) (p : Parameters) :
    (layers.foldl (fun p l => p.modify l (change l)) p).rids = p.rids := by
  induction layers generalizing p with
  | nil => rfl
  | cons l layers ih => rw [List.foldl_cons, ih, rids_modify (hrid l)]

theorem getElem?_foldl_modify_of_not_isFirst (h : ∀ l, ¬ p.IsFirst l i) (layers : List Layer) :
    (layers.foldl (fun p l => p.modify l (change l)) p).encodings[i]? = p.encodings[i]? := by
  induction layers generalizing p with
  | nil => rfl
  | cons l layers ih =>
    -- The layers stay where they are, so that the later changes do not reach the index either.
    have hlater : ∀ k, ¬ (p.modify l (change l)).IsFirst k i := fun k hfirst =>
      h k ((isFirst_congr (rids_modify (hrid l)) k i).1 hfirst)
    rw [List.foldl_cons, ih hlater, getElem?_modify_of_not_isFirst (h l)]

end EachLayer

end Parameters

namespace Action

open Parameters

variable {a : Action} {p : Parameters} {l : Layer} {i : Nat}

/-! ### One action -/

/-- A sender with every encoding switched on. -/
theorem rids_allOn (p : Parameters) :
    rids ⟨p.encodings.map fun e => { e with active := true }⟩ = p.rids := by
  rw [rids, List.map_map]
  rfl

theorem rids_apply (a : Action) (p : Parameters) : (a.apply p).rids = p.rids := by
  obtain ⟨kind, caps⟩ := a
  cases kind with
  | kick => exact rids_foldl_modify (by intro l e; rfl) _ p
  | rescue => exact (rids_modify (rid_revive _)).trans (rids_modify (by intro e; rfl))
  | hardRescue => exact (rids_foldl_modify (by intro l e; rfl) _ _).trans (rids_allOn p)
  | restoreLow => exact rids_modify (rid_revive _)

theorem isFirst_apply (a : Action) (p : Parameters) (l : Layer) (i : Nat) :
    (a.apply p).IsFirst l i ↔ p.IsFirst l i :=
  isFirst_congr (rids_apply a p) l i

/-- What counts for a layer is changed as the action says for the layer. -/
theorem getElem?_apply_of_isFirst (a : Action) (h : p.IsFirst l i) :
    (a.apply p).encodings[i]? = p.encodings[i]?.map (a.change l) := by
  have hafter : (a.apply p).IsFirst l i := (isFirst_apply a p l i).2 h
  rw [← h.encoding?_eq, ← hafter.encoding?_eq, encoding?_apply]

/-- What an action does to an encoding that counts for no layer: a hard rescue switches it on. -/
def changeOther (a : Action) (e : Encoding) : Encoding :=
  { e with active := e.active || decide (a.kind = .hardRescue) }

theorem changeOther_of_ne {e : Encoding} (h : a.kind ≠ .hardRescue) : a.changeOther e = e := by
  simp [changeOther, h]

theorem getElem?_apply_of_not_isFirst (a : Action) (h : ∀ l, ¬ p.IsFirst l i) :
    (a.apply p).encodings[i]? = p.encodings[i]?.map a.changeOther := by
  have hspared : a.kind ≠ .hardRescue → (a.apply p).encodings[i]? = p.encodings[i]? →
      (a.apply p).encodings[i]? = p.encodings[i]?.map a.changeOther := by
    intro hkind heq
    have hid : a.changeOther = id := funext fun e => changeOther_of_ne hkind
    rw [heq, hid, Option.map_id_fun, id]
  obtain ⟨kind, caps⟩ := a
  cases kind with
  | kick =>
    exact hspared (by simp) (getElem?_foldl_modify_of_not_isFirst (by intro l e; rfl) h _)
  | rescue =>
    refine hspared (by simp) ?_
    have hhigh : ¬ (p.modify .low fun e => { e with active := false }).IsFirst .high i :=
      fun hfirst => h .high ((isFirst_congr (rids_modify (by intro e; rfl)) .high i).1 hfirst)
    exact (getElem?_modify_of_not_isFirst hhigh).trans (getElem?_modify_of_not_isFirst (h .low))
  | hardRescue =>
    have hon : ∀ l, ¬ IsFirst ⟨p.encodings.map fun e => { e with active := true }⟩ l i :=
      fun l hfirst => h l ((isFirst_congr (rids_allOn p) l i).1 hfirst)
    refine (getElem?_foldl_modify_of_not_isFirst (by intro l e; rfl) hon _).trans ?_
    have hall : changeOther ⟨.hardRescue, caps⟩ = fun e => { e with active := true } :=
      funext fun e => by simp [changeOther]
    rw [hall, List.getElem?_map]
  | restoreLow =>
    exact hspared (by simp) (getElem?_modify_of_not_isFirst (h .low))

/-- Every encoding is that of a layer or that of none. -/
theorem getElem?_apply_cases (a : Action) (p : Parameters) (i : Nat) :
    (∃ l, p.IsFirst l i ∧ (a.apply p).encodings[i]? = p.encodings[i]?.map (a.change l)) ∨
      ((∀ l, ¬ p.IsFirst l i) ∧ (a.apply p).encodings[i]? = p.encodings[i]?.map a.changeOther) := by
  by_cases hfirst : ∃ l, p.IsFirst l i
  · obtain ⟨l, hl⟩ := hfirst
    exact Or.inl ⟨l, hl, getElem?_apply_of_isFirst a hl⟩
  · have hnone := not_exists.1 hfirst
    exact Or.inr ⟨hnone, getElem?_apply_of_not_isFirst a hnone⟩

/-! ### What is spared -/

/-- What an action may at most do to the encoding at an index. -/
structure Spares (a : Action) (p : Parameters) (index : Nat) (before after : Encoding) : Prop where
  rid : after.rid = before.rid
  /-- A new limit is the cap of the layer for which the encoding counts. -/
  limit : after.maxBitrate ≠ before.maxBitrate →
    ∃ l, p.IsFirst l index ∧ after.maxBitrate = some (a.caps.get l)
  /-- Frame rates are up to hard rescues. -/
  framerate : after.maxFramerate ≠ before.maxFramerate →
    a.kind = .hardRescue ∧ ∃ l, p.IsFirst l index ∧ after.maxFramerate = some (rescueFramerate l)
  /-- Only the low layer is ever switched off. -/
  off : before.active = true → after.active = false → a.kind = .rescue ∧ p.IsFirst .low index
  /-- A layer is switched on by the actions that are for it. -/
  on : before.active = false → after.active = true →
    (a.kind = .rescue ∧ p.IsFirst .high index) ∨ (a.kind = .restoreLow ∧ p.IsFirst .low index) ∨
      a.kind = .hardRescue

theorem maxBitrate_change (a : Action) (l : Layer) (e : Encoding) :
    (a.change l e).maxBitrate = if a.kind.sets l then some (a.caps.get l) else e.maxBitrate := by
  obtain ⟨kind, caps⟩ := a
  cases kind <;> cases l <;> rfl

theorem maxFramerate_change (a : Action) (l : Layer) (e : Encoding) :
    (a.change l e).maxFramerate =
      if a.kind = .hardRescue then some (rescueFramerate l) else e.maxFramerate := by
  obtain ⟨kind, caps⟩ := a
  cases kind <;> cases l <;> rfl

theorem rid_change (a : Action) (l : Layer) (e : Encoding) : (a.change l e).rid = e.rid := by
  obtain ⟨kind, caps⟩ := a
  cases kind <;> cases l <;> rfl

/-- The actions that switch a layer off. -/
theorem Kind.switch_eq_some_false {kind : Kind} (h : kind.switch l = some false) :
    kind = .rescue ∧ l = .low := by
  revert h
  cases kind <;> cases l <;> decide

/-- The actions that switch a layer on. -/
theorem Kind.switch_eq_some_true {kind : Kind} (h : kind.switch l = some true) :
    (kind = .rescue ∧ l = .high) ∨ (kind = .restoreLow ∧ l = .low) ∨ kind = .hardRescue := by
  revert h
  cases kind <;> cases l <;> decide

theorem spares_change (a : Action) (hl : p.IsFirst l i) (e : Encoding) :
    a.Spares p i e (a.change l e) where
  rid := a.rid_change l e
  limit h := by
    rw [maxBitrate_change] at h ⊢
    split at h
    · next hsets => exact ⟨l, hl, if_pos hsets⟩
    · exact absurd rfl h
  framerate h := by
    rw [maxFramerate_change] at h ⊢
    split at h
    · next hhard => exact ⟨hhard, l, hl, if_pos hhard⟩
    · exact absurd rfl h
  off hbefore hafter := by
    rw [active_change, hbefore] at hafter
    cases hswitch : a.kind.switch l with
    | none => simp [hswitch] at hafter
    | some on =>
      obtain rfl : on = false := by simpa [hswitch] using hafter
      obtain ⟨hkind, rfl⟩ := Kind.switch_eq_some_false hswitch
      exact ⟨hkind, hl⟩
  on hbefore hafter := by
    rw [active_change, hbefore] at hafter
    cases hswitch : a.kind.switch l with
    | none => simp [hswitch] at hafter
    | some on =>
      obtain rfl : on = true := by simpa [hswitch] using hafter
      rcases Kind.switch_eq_some_true hswitch with ⟨hkind, rfl⟩ | ⟨hkind, rfl⟩ | hkind
      · exact Or.inl ⟨hkind, hl⟩
      · exact Or.inr (Or.inl ⟨hkind, hl⟩)
      · exact Or.inr (Or.inr hkind)

theorem spares_changeOther (a : Action) (p : Parameters) (i : Nat) (e : Encoding) :
    a.Spares p i e (a.changeOther e) where
  rid := rfl
  limit h := absurd rfl h
  framerate h := absurd rfl h
  off hbefore hafter := by simp [changeOther, hbefore] at hafter
  on hbefore hafter := by
    simp only [changeOther, hbefore, Bool.false_or, decide_eq_true_eq] at hafter
    exact Or.inr (Or.inr hafter)

/-! ### The same action again -/

theorem change_change (a : Action) (l : Layer) (e : Encoding) :
    a.change l (a.change l e) = a.change l e := by
  obtain ⟨kind, caps⟩ := a
  cases kind <;> cases l <;> rfl

theorem changeOther_changeOther (a : Action) (e : Encoding) :
    a.changeOther (a.changeOther e) = a.changeOther e := by
  simp [changeOther]

theorem apply_apply (a : Action) (p : Parameters) : a.apply (a.apply p) = a.apply p := by
  have hencodings : (a.apply (a.apply p)).encodings = (a.apply p).encodings := by
    refine List.ext_getElem? fun i => ?_
    rcases a.getElem?_apply_cases p i with ⟨l, hl, hchange⟩ | ⟨hnone, hother⟩
    · rw [getElem?_apply_of_isFirst a ((isFirst_apply a p l i).2 hl), hchange, Option.map_map]
      exact congrArg (p.encodings[i]?.map ·) (funext (a.change_change l))
    · have hafter : ∀ l, ¬ (a.apply p).IsFirst l i := fun l h =>
        hnone l ((isFirst_apply a p l i).1 h)
      rw [getElem?_apply_of_not_isFirst a hafter, hother, Option.map_map]
      exact congrArg (p.encodings[i]?.map ·) (funext a.changeOther_changeOther)
  exact congrArg Parameters.mk hencodings

theorem active_of_hardRescue (ha : a.kind = .hardRescue) {e : Encoding}
    (he : e ∈ (a.apply p).encodings) : e.active = true := by
  obtain ⟨i, hi⟩ := List.mem_iff_getElem?.1 he
  rcases a.getElem?_apply_cases p i with ⟨l, -, hchange⟩ | ⟨-, hother⟩
  · rw [hchange] at hi
    obtain ⟨before, -, rfl⟩ := Option.map_eq_some_iff.1 hi
    rw [active_change, ha]
    rfl
  · rw [hother] at hi
    obtain ⟨before, -, rfl⟩ := Option.map_eq_some_iff.1 hi
    simp [changeOther, ha]

/-- Under any action, setting the caps being what a kick does, the encodings keep their number, order
and rids, so that every index keeps its layer. What counts for a layer is changed as the action says for
the layer, and at every index no more is changed than an action may. A hard rescue leaves every encoding
on. Doing the same again changes nothing. -/
theorem apply_frame (a : Action) (p : Parameters) :
    let q := a.apply p
    (a.kind = .kick → p.setCaps a.caps = q) ∧
      q.encodings.map Encoding.rid = p.encodings.map Encoding.rid ∧
      (∀ i, q.layerOf? i = p.layerOf? i) ∧
      (∀ e, p.encodings = [e] → e.rid = none → p.IsFirst .high 0) ∧
      (∀ l i, p.IsFirst l i → q.encodings[i]? = p.encodings[i]?.map (a.change l)) ∧
      (∀ i before after, p.encodings[i]? = some before → q.encodings[i]? = some after →
        a.Spares p i before after) ∧
      (a.kind = .hardRescue → ∀ e ∈ q.encodings, e.active = true) ∧
      a.apply q = q := by
  intro q
  refine ⟨fun hkick => ?_, rids_apply a p, layerOf?_congr (rids_apply a p),
    fun e => isFirst_high_of_sole, fun l i => getElem?_apply_of_isFirst a, fun i before after hp hq => ?_,
    fun hhard e => active_of_hardRescue hhard, a.apply_apply p⟩
  · simp only [q, apply, hkick]
  · rcases a.getElem?_apply_cases p i with ⟨l, hl, hchange⟩ | ⟨-, hother⟩
    · rw [hchange, hp] at hq
      obtain rfl := Option.some.inj hq
      exact a.spares_change hl before
    · rw [hother, hp] at hq
      obtain rfl := Option.some.inj hq
      exact a.spares_changeOther p i before

/-- Of two low encodings and one with a foreign rid, a rescue touches the first low one only. -/
example :
    let p : Parameters := ⟨[.unlimited (some (.ofString "x")), .unlimited (some Layer.low.rid),
      .unlimited none, .unlimited (some Layer.low.rid)]⟩
    (apply ⟨.rescue, .standard⟩ p).encodings.map Encoding.active = [true, false, true, true] := by
  decide +kernel

end Action

end Simulcast
