/-!
# Rosters

A roster holds one entry for each of some names.

## Main definitions

* `Roster` — entries under distinct names
* `Roster.get?`, `Roster.insert`, `Roster.filter` — look-up, replacement and selection

## Main results

* `Roster.get?_insert` — after an insertion the name has the new entry, all others have theirs
* `Roster.get?_filter` — a selection keeps the entries that satisfy the condition
* `Roster.mem_entries_iff`, `Roster.isEmpty_iff` — the entries are those that look-up finds
-/

namespace Simulcast

/-- Entries under distinct names. -/
structure Roster (α : Type) where
  pairs : List (String × α)
  nodup_names : (pairs.map Prod.fst).Nodup

namespace Roster

variable {α : Type}

/-- A roster without entries. -/
def empty : Roster α := ⟨[], List.nodup_nil⟩

instance : Inhabited (Roster α) := ⟨empty⟩

/-- The entry under a name. -/
def get? (r : Roster α) (name : String) : Option α :=
  (r.pairs.find? fun p => p.1 == name).map Prod.snd

/-- The entries. -/
def entries (r : Roster α) : List α := r.pairs.map Prod.snd

/-- How many entries there are. -/
def size (r : Roster α) : Nat := r.pairs.length

/-- Are there no entries? -/
def isEmpty (r : Roster α) : Bool := r.pairs.isEmpty

/-- The entries that satisfy a condition. -/
def filter (r : Roster α) (keep : String → α → Bool) : Roster α where
  pairs := r.pairs.filter fun (name, a) => keep name a
  nodup_names := (List.filter_sublist.map Prod.fst).nodup r.nodup_names

/-- The roster with this entry under the name, in place of any other. -/
def insert (r : Roster α) (name : String) (a : α) : Roster α where
  pairs := (r.filter fun other _ => other != name).pairs ++ [(name, a)]
  nodup_names := by
    rw [List.map_append, List.nodup_append]
    refine ⟨(r.filter _).nodup_names, by simp, ?_⟩
    simp only [List.mem_map, List.map_cons, List.map_nil, List.mem_singleton, filter,
      List.mem_filter]
    rintro _ ⟨p, ⟨_, hp⟩, rfl⟩ _ rfl
    simpa using hp

@[simp] theorem get?_empty (name : String) : (empty : Roster α).get? name = none := rfl

theorem find?_filter (pairs : List (String × α)) (keep : String → α → Bool) (name : String)
    (h : (pairs.map Prod.fst).Nodup) :
    ((pairs.filter fun (n, a) => keep n a).find? fun p => p.1 == name).map Prod.snd
      = ((pairs.find? fun p => p.1 == name).map Prod.snd).filter (keep name) := by
  induction pairs with
  | nil => rfl
  | cons p pairs ih =>
    obtain ⟨n, a⟩ := p
    simp only [List.map_cons, List.nodup_cons] at h
    by_cases hn : n = name
    · subst hn
      -- No later entry has this name, so what decides is whether the first one is kept.
      have hnone : pairs.find? (fun p => p.1 == n) = none := by
        rw [List.find?_eq_none]
        intro q hq
        simp only [beq_iff_eq]
        rintro rfl
        exact h.1 (List.mem_map_of_mem hq)
      by_cases hk : keep n a
      · simp [hk, Option.filter]
      · have hrest := ih h.2
        rw [hnone] at hrest
        simpa [hk, Option.filter] using hrest
    · have hne : (n == name) = false := by simpa using hn
      by_cases hk : keep n a
      · simpa [hk, hne] using ih h.2
      · simpa [hk, hne] using ih h.2

/-- A selection keeps the entries that satisfy the condition. -/
theorem get?_filter (r : Roster α) (keep : String → α → Bool) (name : String) :
    (r.filter keep).get? name = (r.get? name).filter (keep name) :=
  find?_filter r.pairs keep name r.nodup_names

/-- After an insertion the name has the new entry, and all others have theirs. -/
theorem get?_insert (r : Roster α) (name other : String) (a : α) :
    (r.insert name a).get? other = if other = name then some a else r.get? other := by
  have happ : (r.insert name a).get? other
      = ((r.filter fun n _ => n != name).get? other).or
          (([(name, a)].find? fun p => p.1 == other).map Prod.snd) := by
    simp only [get?, insert, List.find?_append, Option.map_or]
  rw [happ, get?_filter]
  by_cases h : other = name
  · subst h
    cases hr : r.get? other <;> simp [Option.filter]
  · have hne : (name == other) = false := by simpa using Ne.symm h
    cases hr : r.get? other <;> simp [Option.filter, h, hne]

theorem get?_eq_some_iff (r : Roster α) (name : String) (a : α) :
    r.get? name = some a ↔ (name, a) ∈ r.pairs := by
  obtain ⟨pairs, h⟩ := r
  simp only [get?]
  induction pairs with
  | nil => simp
  | cons p pairs ih =>
    obtain ⟨n, b⟩ := p
    simp only [List.map_cons, List.nodup_cons] at h
    by_cases hn : n = name
    · subst hn
      -- The name does not come again, so the first pair is the only one under it.
      have hrest : (n, a) ∉ pairs := fun hmem => h.1 (List.mem_map_of_mem hmem)
      simp [hrest, eq_comm]
    · have hne : (n == name) = false := by simpa using hn
      simpa [hne, Ne.symm hn] using ih h.2

/-- The entries are those that look-up finds. -/
theorem mem_entries_iff (r : Roster α) (a : α) : a ∈ r.entries ↔ ∃ name, r.get? name = some a := by
  simp [entries, get?_eq_some_iff]

/-- A roster is empty when look-up finds nothing. -/
theorem isEmpty_iff (r : Roster α) : r.isEmpty = true ↔ ∀ name, r.get? name = none := by
  simp only [isEmpty, List.isEmpty_iff, Option.eq_none_iff_forall_ne_some, ne_eq,
    get?_eq_some_iff]
  constructor
  · intro h name a
    simp [h]
  · intro h
    exact List.eq_nil_iff_forall_not_mem.2 fun p => h p.1 p.2

end Roster

end Simulcast
