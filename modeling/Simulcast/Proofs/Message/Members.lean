import Simulcast.Message.Decoder

/-!
# The members of a message

The members of an object are gone through for the kind, then once more for repeated names and the
version, and after that each field is looked up by its name. Every one of these passes succeeds under a
condition on which members there are, and none of them depends on their order.

## Main definitions

* `Message.InOrder` — members without repeated names and with a version that is one

## Main results

* `Message.field_eq_some_iff` — looking up a name that occurs once
* `Message.kindOfMembers_eq_ok_iff` — when the members name a kind
* `Message.checkMembers_eq_ok_iff` — when the members are in order
-/

namespace Simulcast.Message

open Json (Value Member)

variable {ms : List Member} {name : String} {v : Value}

/-! ### Looking up a field -/

theorem field_append (ms ns : List Member) (name : String) :
    field (ms ++ ns) name = (field ms name).or (field ns name) := by
  rw [field, field, field, List.find?_append]
  cases ms.find? fun m => m.1 == name <;> rfl

theorem field_cons (m : Member) (ms : List Member) (name : String) :
    field (m :: ms) name = if m.1 = name then some m.2 else field ms name := by
  by_cases h : m.1 = name <;> simp [field, h]

theorem field_nil (name : String) : field [] name = none := rfl

theorem field_eq_none_iff : field ms name = none ↔ ∀ v, (name, v) ∉ ms := by
  induction ms with
  | nil => simp [field_nil]
  | cons m ms ih =>
    obtain ⟨key, value⟩ := m
    rw [field_cons]
    split
    · next h =>
      obtain rfl : key = name := h
      exact iff_of_false (by simp) fun hnone => hnone value (by simp)
    · next h =>
      have hne : name ≠ key := Ne.symm h
      simp [ih, hne]

theorem mem_of_field_eq_some (h : field ms name = some v) : (name, v) ∈ ms := by
  induction ms with
  | nil => simp [field_nil] at h
  | cons m ms ih =>
    obtain ⟨key, value⟩ := m
    rw [field_cons] at h
    split at h
    · next hkey =>
      obtain rfl : key = name := hkey
      obtain rfl := Option.some.inj h
      exact List.mem_cons_self
    · exact List.mem_cons_of_mem _ (ih h)

/-- A name that occurs once is found wherever it stands. -/
theorem field_eq_some_iff (honce : (ms.map Prod.fst).count name ≤ 1) :
    field ms name = some v ↔ (name, v) ∈ ms := by
  refine ⟨mem_of_field_eq_some, fun hmem => ?_⟩
  induction ms with
  | nil => cases hmem
  | cons m ms ih =>
    obtain ⟨key, value⟩ := m
    rw [field_cons]
    rw [List.map_cons, List.count_cons] at honce
    split
    · next hkey =>
      obtain rfl : key = name := hkey
      rcases List.mem_cons.1 hmem with heq | hrest
      · rw [(Prod.mk.inj heq).2]
      · -- The name would come once more, behind the member where it is found.
        have hpos : 0 < (ms.map Prod.fst).count key :=
          List.count_pos_iff.2 (List.mem_map_of_mem hrest)
        simp only [beq_self_eq_true, if_true] at honce
        omega
    · next hkey =>
      rcases List.mem_cons.1 hmem with heq | hrest
      · exact absurd (Prod.mk.inj heq).1.symm hkey
      · exact ih (by omega) hrest

/-! ### The kind -/

theorem Kind.ofName?_name (kind : Kind) : Kind.ofName? kind.name = some kind := by
  cases kind <;> decide

theorem Kind.name_of_ofName? {s : String} {kind : Kind} (h : Kind.ofName? s = some kind) :
    s = kind.name := by
  have hfound := List.find?_some h
  exact (eq_of_beq hfound).symm

theorem Kind.ofValue_eq_ok_iff {kind : Kind} :
    Kind.ofValue v = .ok kind ↔ v = .string kind.name := by
  constructor
  · intro h
    unfold Kind.ofValue at h
    split at h
    · split at h
      · next s found hfound =>
        obtain rfl := Except.ok.inj h
        rw [Kind.name_of_ofName? hfound]
      · cases h
    · cases h
  · rintro rfl
    simp only [Kind.ofValue, Kind.ofName?_name]

/-- The members name a kind if there is one name for it, and no other member of that key. -/
theorem kindOfMembers_eq_ok_iff {kind : Kind} :
    kindOfMembers ms = .ok kind ↔
      ms.filter (fun m => m.1 == kindField) = [(kindField, .string kind.name)] := by
  have hkey : ∀ m ∈ ms.filter (fun m => m.1 == kindField), m.1 = kindField :=
    fun m hm => eq_of_beq (List.mem_filter.1 hm).2
  unfold kindOfMembers
  generalize ms.filter (fun m => m.1 == kindField) = found at hkey
  match found with
  | [] => simp
  | [(key, v)] =>
    obtain rfl : key = kindField := hkey (key, v) (by simp)
    simp [Kind.ofValue_eq_ok_iff]
  | (_, v) :: _ :: _ =>
    cases hv : Kind.ofValue v <;> simp [hv, bind, Except.bind]

/-! ### The version -/

theorem versionOfValue_toNat (version : UInt32) :
    versionOfValue (.integer version.toNat) = .ok version := by
  have hlt : (version.toNat : Int) < powTwo 32 := by
    have hnat : version.toNat < powTwo 32 := version.toNat_lt
    exact Int.ofNat_lt.2 hnat
  rw [versionOfValue, if_pos ⟨Int.natCast_nonneg _, hlt⟩]
  simp

theorem versionOfValue_eq_ok_iff {version : UInt32} :
    versionOfValue v = .ok version ↔ v = .integer version.toNat := by
  constructor
  · intro h
    unfold versionOfValue at h
    split at h
    · next i =>
      split at h
      · next hrange =>
        obtain rfl := Except.ok.inj h
        obtain ⟨n, rfl⟩ := Int.eq_ofNat_of_zero_le hrange.1
        have hlt : n < powTwo 32 := Int.ofNat_lt.1 hrange.2
        have hmod : n % powTwo 32 = n := Nat.mod_eq_of_lt hlt
        have hback : (Int.toNat n).toUInt32.toNat = n % powTwo 32 := rfl
        rw [hback, hmod]
      · cases h
    · cases h
  · rintro rfl
    exact versionOfValue_toNat version

/-! ### The pass over the members -/

/-- Members of which the known ones have names that were not seen before, each once, and of which the
versions are versions. -/
structure InOrder (known seen : List String) (ms : List Member) : Prop where
  once : ∀ name ∈ known, (ms.map Prod.fst).count name ≤ 1
  unseen : ∀ name ∈ known, name ∈ seen → name ∉ ms.map Prod.fst
  version : "version" ∈ known → ∀ v, ("version", v) ∈ ms → ∃ version, versionOfValue v = .ok version

variable {known seen : List String} {key : String}

theorem inOrder_nil : InOrder known seen [] := ⟨by simp, by simp, by simp⟩

theorem inOrder_cons_of_unknown (h : key ∉ known) :
    InOrder known seen ((key, v) :: ms) ↔ InOrder known seen ms := by
  have hne : ∀ name ∈ known, key ≠ name := fun name hname heq => h (heq ▸ hname)
  have hcount : ∀ name ∈ known, (((key, v) :: ms).map Prod.fst).count name =
      (ms.map Prod.fst).count name := fun name hname => List.count_cons_of_ne (hne name hname)
  constructor
  · rintro ⟨honce, hunseen, hversion⟩
    refine ⟨fun name hname => hcount name hname ▸ honce name hname, fun name hname hseen hmem => ?_,
      fun hknown w hw => hversion hknown w (List.mem_cons_of_mem _ hw)⟩
    exact hunseen name hname hseen (List.mem_cons_of_mem _ hmem)
  · rintro ⟨honce, hunseen, hversion⟩
    refine ⟨fun name hname => hcount name hname ▸ honce name hname, ?_, ?_⟩
    · intro name hname hseen hmem
      rcases List.mem_cons.1 hmem with rfl | hmem
      · exact h hname
      · exact hunseen name hname hseen hmem
    · intro hknown w hw
      rcases List.mem_cons.1 hw with heq | hw
      · exact absurd (Prod.mk.inj heq).1.symm (hne "version" hknown)
      · exact hversion hknown w hw

theorem inOrder_cons_of_known (h : key ∈ known) :
    InOrder known seen ((key, v) :: ms) ↔
      key ∉ seen ∧ (key = "version" → ∃ version, versionOfValue v = .ok version) ∧
        InOrder known (key :: seen) ms := by
  constructor
  · rintro ⟨honce, hunseen, hversion⟩
    refine ⟨fun hseen => hunseen key h hseen List.mem_cons_self, ?_, ⟨?_, ?_, ?_⟩⟩
    · rintro rfl
      exact hversion h v List.mem_cons_self
    · exact fun name hname => Nat.le_trans List.count_le_count_cons (honce name hname)
    · intro name hname hseen hmem
      rcases List.mem_cons.1 hseen with rfl | hseen
      · -- The name would come twice.
        have htwice := honce name hname
        rw [List.map_cons, List.count_cons_self] at htwice
        have hpos := List.count_pos_iff.2 hmem
        omega
      · exact hunseen name hname hseen (List.mem_cons_of_mem _ hmem)
    · exact fun hknown w hw => hversion hknown w (List.mem_cons_of_mem _ hw)
  · rintro ⟨hkey, hvalue, honce, hunseen, hversion⟩
    have hfirst : key ∉ ms.map Prod.fst := hunseen key h List.mem_cons_self
    refine ⟨?_, ?_, ?_⟩
    · intro name hname
      rw [List.map_cons]
      by_cases heq : key = name
      · have hone : (key :: ms.map Prod.fst).count key = 1 := by
          rw [List.count_cons_self, List.count_eq_zero.2 hfirst]
        exact heq ▸ Nat.le_of_eq hone
      · rw [List.count_cons_of_ne heq]
        exact honce name hname
    · intro name hname hseen hmem
      rcases List.mem_cons.1 hmem with rfl | hmem
      · exact hkey hseen
      · exact hunseen name hname (List.mem_cons_of_mem _ hseen) hmem
    · intro hknown w hw
      rcases List.mem_cons.1 hw with heq | hw
      · obtain ⟨rfl, rfl⟩ := Prod.mk.inj heq
        exact hvalue rfl
      · exact hversion hknown w hw

/-- The pass over the members succeeds if they are in order. -/
theorem checkMembers_eq_ok_iff : checkMembers known seen ms = .ok () ↔ InOrder known seen ms := by
  -- What was seen grows on the way, and it is what a later repetition is found by.
  induction ms generalizing seen with
  | nil => exact iff_of_true rfl inOrder_nil
  | cons m ms ih =>
    obtain ⟨key, v⟩ := m
    rw [checkMembers]
    split
    · next hunknown => rw [inOrder_cons_of_unknown hunknown, ih]
    next hknown =>
    rw [inOrder_cons_of_known (Decidable.not_not.1 hknown)]
    split
    · next hseen => exact iff_of_false (by simp) fun h => h.1 hseen
    next hseen =>
    split
    · next hkey =>
      cases hv : versionOfValue v with
      | error e => simp [hkey]
      | ok version => simp [hseen, ih]
    · next hkey => simp [hseen, hkey, ih]

/-! ### The message -/

/-- Once the members are in order, only the version can still be wrong. -/
theorem ofMembers_of_request (hkind : kindOfMembers ms = .ok .request)
    (hcheck : checkMembers requestFields [] ms = .ok ()) :
    ofMembers ms = (Fields.version (field ms)).map fun version =>
      .request (requestOfFields (field ms) version) := by
  simp only [ofMembers, hkind, hcheck, bind, Except.bind, pure, Except.pure]
  cases Fields.version (field ms) <;> rfl

theorem ofMembers_of_ack {high : Value} (hkind : kindOfMembers ms = .ok .ack)
    (hcheck : checkMembers ackFields [] ms = .ok ())
    (hhigh : field ms "appliedBitrateHigh" = some high) :
    ofMembers ms = (Fields.version (field ms)).map fun version =>
      .ack (ackOfFields (field ms) version high) := by
  simp only [ofMembers, hkind, hcheck, hhigh, bind, Except.bind, pure, Except.pure]
  cases Fields.version (field ms) <;> rfl

/-- With nothing behind it, a message only has to be of the version spoken here. -/
theorem accept_ok (m : Message) : accept (.ok m) [] =
    if m.version = protocolVersion then .ok m else .error (.unsupportedVersion m.version) := rfl

theorem accept_eq_ok_iff {read : Except Json.Mismatch Message} {m : Message} :
    accept read [] = .ok m ↔ read = .ok m ∧ m.version = protocolVersion := by
  cases read with
  | error e => simp [accept]
  | ok n =>
    rw [accept_ok]
    split
    · next h =>
      simp only [Except.ok.injEq, iff_self_and]
      rintro rfl
      exact h
    · next h =>
      refine iff_of_false (by simp) ?_
      rintro ⟨heq, hversion⟩
      obtain rfl := Except.ok.inj heq
      exact h hversion

end Simulcast.Message
