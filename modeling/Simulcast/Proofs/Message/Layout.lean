import Mathlib.Data.List.Nodup
import Simulcast.Proofs.Message.Acceptance

/-!
# Layouts of a message

One message can be laid out in many ways. The members of an object may come in any order and among others
that mean nothing, and in place of an object there may be an array, which holds the kind and then the values
of the fields, as many of them as the sender cares to give.

None of this makes a difference. When no key is repeated, all that the decoder finds out about an object is
which value each name has, and what it makes of that is a function of the names that mean something in a
message of this kind. The items of an array are such values as well. Only the wording of an error may
be another one there.

## Main definitions

* `Message.Fields.knownNames` — the names that mean something
* `Message.SameContent` — the same members, as far as they mean something
* `Message.ofFields` — the message of some fields

## Main results

* `Message.ofMembers_eq_ofFields` — an object is decoded through its fields
* `Message.ofItems_eq_ok_iff` — so is an array
* `Message.decode_independent_of_layout` — the layout makes no difference
-/

namespace Simulcast.Message

open Json (Value Member Mismatch)

variable {ms ns : List Member} {name : String} {f g : Fields} {kind : Kind}

/-! ### Fields -/

/-- The kind that the fields name. -/
def Fields.namedKind (f : Fields) : Except Mismatch Kind :=
  match f kindField with
  | none => .error (.missing kindField)
  | some v => Kind.ofValue v

/-- The names that mean something in a message of the kind that is named. -/
def Fields.knownNames (f : Fields) : List String :=
  kindField :: match f.namedKind with
    | .ok kind => kind.fields
    | .error _ => []

theorem Fields.knownNames_eq (h : f.namedKind = .ok kind) :
    f.knownNames = kindField :: kind.fields := by
  rw [knownNames, h]

theorem Fields.knownNames_congr (h : f kindField = g kindField) : f.knownNames = g.knownNames := by
  rw [knownNames, knownNames, namedKind, namedKind, h]

theorem Fields.version_congr (h : f "version" = g "version") : f.version = g.version := by
  rw [version, version, h]

theorem requestOfFields_congr (h : ∀ name ∈ requestFields, f name = g name) (version : UInt32) :
    requestOfFields f version = requestOfFields g version := by
  have htarget : ∀ name ∈ requestFields, f.target name = g.target name := fun name hname => by
    rw [Fields.target, Fields.target, h name hname]
  have htext : ∀ name ∈ requestFields, f.text name = g.text name := fun name hname => by
    rw [Fields.text, Fields.text, h name hname]
  rw [requestOfFields, requestOfFields, htarget _ (by decide), htarget _ (by decide),
    htarget _ (by decide), htext _ (by decide), htext _ (by decide), h _ (by decide)]

theorem ackOfFields_congr (h : ∀ name ∈ ackFields, f name = g name) (version : UInt32)
    (high : Value) : ackOfFields f version high = ackOfFields g version high := by
  rw [ackOfFields, ackOfFields, Fields.text, Fields.text, h _ (by decide)]

/-- The message of some fields. -/
def ofFields (f : Fields) : Except Mismatch Message := do
  match ← f.namedKind with
  | .request => return .request (requestOfFields f (← f.version))
  | .ack =>
    let version ← f.version
    match f "appliedBitrateHigh" with
    | none => .error (.missing "appliedBitrateHigh")
    | some high => return .ack (ackOfFields f version high)

/-- A message depends on no other names than those that mean something. -/
theorem ofFields_congr (h : ∀ name ∈ f.knownNames, f name = g name) : ofFields f = ofFields g := by
  have hkind : f.namedKind = g.namedKind := by
    rw [Fields.namedKind, Fields.namedKind, h kindField List.mem_cons_self]
  unfold ofFields
  rw [← hkind]
  cases hf : f.namedKind with
  | error e => rfl
  | ok kind =>
    have hfields : ∀ name ∈ kind.fields, f name = g name := fun name hname =>
      h name (by rw [Fields.knownNames_eq hf]; exact List.mem_cons_of_mem _ hname)
    have hversion := Fields.version_congr (hfields _ (version_mem_fields kind))
    cases kind with
    | request =>
      simp only [bind, Except.bind, hversion, requestOfFields_congr hfields]
    | ack =>
      have hhigh : f "appliedBitrateHigh" = g "appliedBitrateHigh" := hfields _ (by decide)
      simp only [bind, Except.bind, hversion, hhigh, ackOfFields_congr hfields]

/-! ### Objects -/

/-- If only one member has the key of the kind, it decides about the kind. -/
theorem kindOfMembers_eq (honce : (ms.map Prod.fst).count kindField ≤ 1) :
    kindOfMembers ms = Fields.namedKind (field ms) := by
  have hlength : (ms.filter fun m => m.1 == kindField).length ≤ 1 := by
    rw [← List.countP_eq_length_filter]
    rwa [List.count, List.countP_map] at honce
  have hfield : field ms kindField =
      (ms.filter fun m => m.1 == kindField).head?.map (·.2) := by
    rw [field, List.head?_filter]
  unfold kindOfMembers Fields.namedKind
  rw [hfield]
  generalize (ms.filter fun m => m.1 == kindField) = found at hlength
  rcases found with _ | ⟨m, _ | ⟨m', rest⟩⟩
  · rfl
  · rfl
  · simp at hlength

/-- If no known name is repeated, the version alone decides whether the members are in order. -/
theorem checkMembers_eq {known seen : List String} (hversion : "version" ∈ known)
    (honce : ∀ name ∈ known, (ms.map Prod.fst).count name ≤ 1)
    (hunseen : ∀ name ∈ known, name ∈ seen → name ∉ ms.map Prod.fst) :
    checkMembers known seen ms = (Fields.version (field ms)).map fun _ => () := by
  -- The names that were seen on the way do not come again, so that nothing is ever found to be repeated.
  induction ms generalizing seen with
  | nil => rfl
  | cons m ms ih =>
    obtain ⟨key, v⟩ := m
    have hrest : ∀ name ∈ known, (ms.map Prod.fst).count name ≤ 1 := fun name hname =>
      Nat.le_trans List.count_le_count_cons (honce name hname)
    have hother : key ≠ "version" → Fields.version (field ((key, v) :: ms)) =
        Fields.version (field ms) := fun hkey =>
      Fields.version_congr (by rw [field_cons, if_neg hkey])
    rw [checkMembers]
    split
    · next hunknown =>
      have hkey : key ≠ "version" := fun heq => hunknown (heq ▸ hversion)
      rw [hother hkey]
      exact ih hrest fun name hname hseen hmem =>
        hunseen name hname hseen (List.mem_cons_of_mem _ hmem)
    next hknown =>
    have hnew : key ∉ ms.map Prod.fst := by
      intro hmem
      have htwice := honce key (Decidable.not_not.1 hknown)
      rw [List.map_cons, List.count_cons_self] at htwice
      have hpos := List.count_pos_iff.2 hmem
      omega
    have hlater : ∀ name ∈ known, name ∈ key :: seen → name ∉ ms.map Prod.fst := by
      intro name hname hseen hmem
      rcases List.mem_cons.1 hseen with rfl | hseen
      · exact hnew hmem
      · exact hunseen name hname hseen (List.mem_cons_of_mem _ hmem)
    rw [if_neg fun hseen => hunseen key (Decidable.not_not.1 hknown) hseen List.mem_cons_self]
    split
    · next hkey =>
      subst hkey
      have hthis : Fields.version (field (("version", v) :: ms)) = versionOfValue v := by
        rw [Fields.version, field_cons, if_pos rfl]
      have hnone : Fields.version (field ms) = .ok protocolVersion := by
        have hfield : field ms "version" = none :=
          field_eq_none_iff.2 fun w hw => hnew (List.mem_map_of_mem hw)
        rw [Fields.version, hfield]
      rw [hthis]
      cases versionOfValue v with
      | error e => rfl
      | ok version =>
        rw [ih hrest hlater, hnone]
        rfl
    · next hkey => rw [hother hkey, ih hrest hlater]

/-- When no known name is repeated, an object is decoded through its fields. -/
theorem ofMembers_eq_ofFields
    (honce : ∀ name ∈ Fields.knownNames (field ms), (ms.map Prod.fst).count name ≤ 1) :
    ofMembers ms = ofFields (field ms) := by
  have hkind := kindOfMembers_eq (honce kindField List.mem_cons_self)
  unfold ofMembers ofFields
  rw [hkind]
  cases hnamed : Fields.namedKind (field ms) with
  | error e => rfl
  | ok kind =>
    have hcheck : checkMembers kind.fields [] ms = (Fields.version (field ms)).map fun _ => () := by
      refine checkMembers_eq (version_mem_fields kind) (fun name hname => honce name ?_) (by simp)
      rw [Fields.knownNames_eq hnamed]
      exact List.mem_cons_of_mem _ hname
    -- The version is looked at twice, the second time for its value.
    cases kind with
    | request =>
      change checkMembers requestFields [] ms = _ at hcheck
      cases hversion : Fields.version (field ms) <;>
        simp [bind, Except.bind, hcheck, hversion, Except.map]
    | ack =>
      change checkMembers ackFields [] ms = _ at hcheck
      cases hversion : Fields.version (field ms) <;>
        cases hhigh : field ms "appliedBitrateHigh" <;>
          simp [bind, Except.bind, hcheck, hversion, hhigh, Except.map]

/-- Names that occur once are found in any order. -/
theorem field_eq_of_perm (h : ms.Perm ns) (honce : (ms.map Prod.fst).count name ≤ 1) :
    field ms name = field ns name := by
  have hother : (ns.map Prod.fst).count name ≤ 1 := by rwa [← (h.map Prod.fst).count_eq]
  refine Option.ext fun v => ?_
  rw [field_eq_some_iff honce, field_eq_some_iff hother, h.mem_iff]

/-- The members with one of these names. -/
def withNames (names : List String) (ms : List Member) : List Member :=
  ms.filter fun m => m.1 ∈ names

theorem field_withNames (ms : List Member) {names : List String} (h : name ∈ names) :
    field (withNames names ms) name = field ms name := by
  induction ms with
  | nil => rfl
  | cons m ms ih =>
    rw [withNames, List.filter_cons, field_cons]
    by_cases hm : m.1 ∈ names
    · rw [if_pos (decide_eq_true hm), field_cons]
      exact ite_congr rfl (fun _ => rfl) fun _ => ih
    · have hne : m.1 ≠ name := fun heq => hm (heq ▸ h)
      rw [if_neg (by simpa using hm), if_neg hne]
      exact ih

theorem count_withNames (ms : List Member) {names : List String} (h : name ∈ names) :
    ((withNames names ms).map Prod.fst).count name = (ms.map Prod.fst).count name := by
  have hfilter : (withNames names ms).map Prod.fst = (ms.map Prod.fst).filter (· ∈ names) := by
    rw [withNames, List.filter_map]
    rfl
  rw [hfilter]
  exact List.count_filter (by simpa using h)

/-- Two objects have the same members in some order, except for members with names that mean nothing in
the first one. -/
def SameContent (ms ns : List Member) : Prop :=
  (withNames (Fields.knownNames (field ms)) ms).Perm (withNames (Fields.knownNames (field ms)) ns)

theorem sameContent_of_perm (h : ms.Perm ns) : SameContent ms ns := h.filter _

theorem SameContent.insert (h : SameContent ms ns)
    (hname : name ∉ Fields.knownNames (field ms)) (v : Value) : SameContent ms ((name, v) :: ns) := by
  rw [SameContent, withNames, withNames, List.filter_cons_of_neg (by simpa using hname)]
  exact h

theorem SameContent.count_eq (h : SameContent ms ns)
    (hname : name ∈ Fields.knownNames (field ms)) :
    (ns.map Prod.fst).count name = (ms.map Prod.fst).count name := by
  rw [← count_withNames ns hname, ← count_withNames ms hname]
  exact ((h.map Prod.fst).count_eq name).symm

theorem SameContent.field_eq (h : SameContent ms ns)
    (honce : (ms.map Prod.fst).count name ≤ 1) (hname : name ∈ Fields.knownNames (field ms)) :
    field ms name = field ns name := by
  rw [← field_withNames ms hname, ← field_withNames ns hname]
  refine field_eq_of_perm h ?_
  rwa [count_withNames ms hname]

/-- Objects of the same content are decoded alike if no key is repeated. -/
theorem SameContent.ofMembers_eq (h : SameContent ms ns) (hkeys : (ms.map Prod.fst).Nodup) :
    ofMembers ns = ofMembers ms := by
  have honce : ∀ name, (ms.map Prod.fst).count name ≤ 1 := List.nodup_iff_count_le_one.1 hkeys
  have hfield : ∀ name ∈ Fields.knownNames (field ms), field ms name = field ns name :=
    fun name => h.field_eq (honce name)
  have hknown : Fields.knownNames (field ns) = Fields.knownNames (field ms) :=
    (Fields.knownNames_congr (hfield kindField List.mem_cons_self)).symm
  have hother : ∀ name ∈ Fields.knownNames (field ns), (ns.map Prod.fst).count name ≤ 1 := by
    intro name hname
    rw [hknown] at hname
    rw [h.count_eq hname]
    exact honce name
  rw [ofMembers_eq_ofFields hother, ofMembers_eq_ofFields fun name _ => honce name,
    ofFields_congr hfield]

/-! ### Arrays -/

variable {values : List Value}

/-- The members that the items of an array stand for. -/
def namedMembers (kind : Kind) (values : List Value) : List Member :=
  (kindField, .string kind.name) :: kind.fields.zip values

theorem kindField_notMem_fields (kind : Kind) : kindField ∉ kind.fields := by
  cases kind <;> decide

theorem nodup_fields (kind : Kind) : kind.fields.Nodup := by
  cases kind <;> decide

theorem nodup_namedMembers (kind : Kind) (values : List Value) :
    ((namedMembers kind values).map Prod.fst).Nodup := by
  have hsublist : ((kind.fields.zip values).map Prod.fst).Sublist kind.fields := by
    rw [List.zip_eq_zip_take_min, List.map_fst_zip (by simp)]
    exact List.take_sublist _ _
  rw [namedMembers, List.map_cons, List.nodup_cons]
  exact ⟨fun hmem => kindField_notMem_fields kind (hsublist.subset hmem),
    (nodup_fields kind).sublist hsublist⟩

/-- An array of no more values than there are fields is decoded like the members it stands for, except
for the error that comes of a missing field. -/
theorem ofItems_eq_ok_iff (hlength : values.length ≤ kind.fields.length) {m : Message} :
    ofItems (.string kind.name :: values) = .ok m ↔ ofMembers (namedMembers kind values) = .ok m := by
  have honce := List.nodup_iff_count_le_one.1 (nodup_namedMembers kind values)
  have hnamed : Fields.namedKind (field (namedMembers kind values)) = .ok kind := by
    rw [Fields.namedKind, namedMembers, field_cons, if_pos rfl]
    exact Kind.ofValue_eq_ok_iff.2 rfl
  have hvalue : Kind.ofValue (.string kind.name) = .ok kind := Kind.ofValue_eq_ok_iff.2 rfl
  have hcheck : checkLength kind.fields values = .ok () := if_pos hlength
  have hfield : ∀ name ∈ kind.fields,
      field (namedMembers kind values) name = positional kind.fields values name := by
    intro name hname
    have hne : kindField ≠ name := fun heq => kindField_notMem_fields kind (heq ▸ hname)
    rw [namedMembers, field_cons, if_neg hne, positional]
  have hversion := Fields.version_congr (hfield _ (version_mem_fields kind))
  rw [ofMembers_eq_ofFields fun name _ => honce name]
  -- Both look at the version before anything else that may be wrong.
  cases kind with
  | request =>
    have hrequest : ∀ version, requestOfFields (field (namedMembers .request values)) version =
        requestOfFields (positional requestFields values) version := requestOfFields_congr hfield
    change checkLength requestFields values = _ at hcheck
    change _ = Fields.version (positional requestFields values) at hversion
    cases hone : Fields.version (positional requestFields values) <;>
      simp [ofItems, ofFields, hvalue, hnamed, bind, Except.bind, hversion, hone, hcheck, hrequest]
  | ack =>
    have hack : ∀ version high, ackOfFields (field (namedMembers .ack values)) version high =
        ackOfFields (positional ackFields values) version high := ackOfFields_congr hfield
    have hhigh : field (namedMembers .ack values) "appliedBitrateHigh" =
        positional ackFields values "appliedBitrateHigh" := hfield _ (by decide)
    change checkLength ackFields values = _ at hcheck
    change _ = Fields.version (positional ackFields values) at hversion
    cases hone : Fields.version (positional ackFields values) <;>
      cases happlied : positional ackFields values "appliedBitrateHigh" <;>
        simp [ofItems, ofFields, hvalue, hnamed, bind, Except.bind, hversion, hone, hcheck, hhigh,
          happlied, hack]

/-! ### Payloads -/

/-- A payload that is an array is decoded to the message of its items. -/
theorem decode_array {payload : Octets} {items : List Value}
    (h : wholePayload (Json.document payload) = .ok (.array items)) :
    decode payload = accept (ofItems items) [] := by
  unfold wholePayload at h
  split at h
  · cases h
  · next v rest hdocument =>
    split at h
    · next hend =>
      obtain rfl := Except.ok.inj h
      simp only [decode, Json.outline_of_document_array hdocument, accept, hend]
      rfl
    · cases h

/-- An object without repeated keys is decoded alike in whatever order its members come, and whatever
members are added or left out whose names mean nothing in it. An array of the kind and of the values of
its first fields is decoded to the same message as the object with these fields, or neither is decoded. -/
theorem decode_independent_of_layout {payload : Octets}
    (hread : wholePayload (Json.document payload) = .ok (.object ms))
    (hkeys : (ms.map Prod.fst).Nodup) :
    (∀ other ns, wholePayload (Json.document other) = .ok (.object ns) → SameContent ms ns →
        decode other = decode payload) ∧
      ∀ (kind : Kind) values other, values.length ≤ kind.fields.length →
        ms.Perm ((kindField, .string kind.name) :: kind.fields.zip values) →
        wholePayload (Json.document other) = .ok (.array (.string kind.name :: values)) →
        ∀ m, decode other = .ok m ↔ decode payload = .ok m := by
  refine ⟨fun other ns hother hsame => ?_, fun kind values other hlength hperm hother m => ?_⟩
  · rw [decode_object hread, decode_object hother, hsame.ofMembers_eq hkeys]
  · rw [decode_array hother, decode_object hread, accept_eq_ok_iff, accept_eq_ok_iff,
      ofItems_eq_ok_iff hlength, ← (sameContent_of_perm hperm).ofMembers_eq hkeys, namedMembers]

/-- A request for a cap of the high layer, whose kind comes in the middle. -/
def cappedHigh : List Member :=
  [("targetBitrateHigh", .integer 3000000), (kindField, .string Kind.request.name),
    ("version", .integer 1)]

/-- The request is the same one from back to front with a member that nobody knows, and as an array. -/
theorem cappedHigh_in_other_layouts :
    wholePayload (Json.document (Json.print (.object cappedHigh))) = .ok (.object cappedHigh) ∧
      (cappedHigh.map Prod.fst).Nodup ∧
      (∃ m, decode (Json.print (.object cappedHigh)) = .ok m) ∧
      decode (Json.print (.object (("hue", .array [.null]) :: cappedHigh.reverse))) =
        decode (Json.print (.object cappedHigh)) ∧
      ∀ m, decode (Json.print (.array [.string Kind.request.name, .integer 1, .integer 3000000])) =
        .ok m ↔ decode (Json.print (.object cappedHigh)) = .ok m := by
  have hread : wholePayload (Json.document (Json.print (.object cappedHigh))) =
      .ok (.object cappedHigh) := rfl
  have hkeys : (cappedHigh.map Prod.fst).Nodup := by decide
  have hsame : SameContent cappedHigh (("hue", .array [.null]) :: cappedHigh.reverse) :=
    (sameContent_of_perm cappedHigh.reverse_perm.symm).insert (by decide) _
  have hperm : cappedHigh.Perm ((kindField, .string Kind.request.name) ::
      Kind.request.fields.zip [.integer 1, .integer 3000000]) :=
    (List.Perm.swap ..).trans ((List.Perm.swap ..).cons _)
  obtain ⟨hobjects, harrays⟩ := decode_independent_of_layout hread hkeys
  exact ⟨hread, hkeys, ⟨_, rfl⟩, hobjects _ _ rfl hsame, harrays .request _ _ (by decide) hperm rfl⟩

end Simulcast.Message
