import Mathlib.Data.List.Forall2
import Simulcast.Json.Document
import Simulcast.Proofs.Json.Decimals
import Simulcast.Proofs.Json.Strings

/-!
# Objects survive being written and read

The text of an object is a sequence of members with a comma between any two. Reading takes away one
member at a time, and a member ends where a comma or the closing brace comes, neither of which a
number goes on with. So an object is read as the object of what its values are read as.

Values need not be read as what they were: a number with a fraction may come back as another number.

## Main definitions

* `Json.IsReadAs` — the text of a value is read as another value
* `Json.MemberIsReadAs` — the same for a member, whose key stays what it is
* `Json.ReadsBack` — a number whose text reads back as the number

## Main results

* `Json.isReadAs_integer`, `Json.isReadAs_string`, `Json.exists_isReadAs_float` — the scalars
* `Json.outline_print` — an object is read member by member
* `Json.outline_of_document`, `Json.outline_of_document_array` — so is every object that is a document, and
  every array item by item
-/

namespace Simulcast.Json

variable {v v' : Value} {b : UInt8} {s rest : Octets} {ms ms' : List Member} {depth : Nat}

/-- The text of a value is read as another value, wherever it ends. -/
def IsReadAs (v v' : Value) : Prop :=
  ∀ depth s, EndsNumber s → value depth (print v ++ s) = .ok (v', s)

/-- The text of a member is read as a member of the same key. -/
def MemberIsReadAs (m m' : Member) : Prop := m.1 = m'.1 ∧ IsReadAs m.2 m'.2

/-! ### Scalars -/

/-- White space, and what begins an array or object. -/
def BeginsScalar (b : UInt8) : Prop :=
  isBlank b = false ∧ b ≠ octet '[' ∧ b ≠ octet '\x7b'

theorem skipBlanks_cons (h : isBlank b = false) : skipBlanks (b :: s) = b :: s := by
  rw [skipBlanks, List.dropWhile_cons_of_neg (by simp [h])]

theorem value_scalar (h : BeginsScalar b) : value depth (b :: s) = scalar (b :: s) := by
  obtain ⟨hblank, harray, hobject⟩ := h
  cases depth with
  | zero => rw [value, skipBlanks_cons hblank]
  | succ depth =>
    rw [value, skipBlanks_cons hblank]
    simp only [if_neg harray, if_neg hobject]

theorem beginsScalar_number (h : b = octet '-' ∨ isDigit b = true) : BeginsScalar b := by
  have hspace : b ≠ octet ' ' := ne_of_beginsNumber h (by decide) (by decide)
  have hline : b ≠ octet '\n' := ne_of_beginsNumber h (by decide) (by decide)
  have htab : b ≠ octet '\t' := ne_of_beginsNumber h (by decide) (by decide)
  have hreturn : b ≠ octet '\r' := ne_of_beginsNumber h (by decide) (by decide)
  refine ⟨by simp [isBlank, hspace, hline, htab, hreturn], ?_, ?_⟩
  · exact ne_of_beginsNumber h (by decide) (by decide)
  · exact ne_of_beginsNumber h (by decide) (by decide)

/-- A number is read as what the reader of numbers makes of it. -/
theorem value_written {w : Written} (hw : w.IsWellFormed) :
    value depth (w.chars.map octet ++ s) = number (w.chars.map octet ++ s) := by
  obtain ⟨b, t, htext, hb, hscalar⟩ := scalar_written hw s
  rw [htext, value_scalar (beginsScalar_number hb), hscalar]

theorem isReadAs_integer {n : Nat} (hn : n < powTwo 64) : IsReadAs (.integer n) (.integer n) := by
  intro depth s hs
  have hw := Written.isWellFormed_natural n
  have htext : toString (n : Int) = String.ofList (Written.natural n).chars := by
    rw [Written.chars_natural]
    exact Nat.repr_eq_ofList_toDigits
  rw [print, htext, Octets.ofString_ofList fun c hc => hw.lt_of_mem_chars hc, value_written hw]
  exact number_natural hn hs

theorem isReadAs_string (text : String) : IsReadAs (.string text) (.string text) := by
  intro depth s hs
  obtain ⟨body, hquote, hread⟩ := string_quote text s
  have hscalar : scalar (octet '"' :: body) = .ok (.string text, s) := by
    have hn : octet '"' ≠ octet 'n' := by decide
    have ht : octet '"' ≠ octet 't' := by decide
    have hf : octet '"' ≠ octet 'f' := by decide
    rw [scalar, if_neg hn, if_neg ht, if_neg hf, if_pos rfl, hread]
    rfl
  rw [print, hquote, value_scalar ⟨by decide, by decide, by decide⟩, hscalar]

theorem isReadAs_null : IsReadAs .null .null := by
  intro depth s _
  have htext : print .null ++ s = octet 'n' :: ((Octets.ofString "ull") ++ s) := rfl
  rw [htext, value_scalar ⟨by decide, by decide, by decide⟩]
  rfl

/-- Every finite number is read as some number. -/
theorem exists_isReadAs_float {x : Binary64} (hx : x.isFinite = true) :
    ∃ y, IsReadAs (.float x) (.float y) := by
  rcases x with _ | sign | ⟨negative, m, h⟩
  · cases hx
  · cases hx
  · obtain ⟨w, hw, htext, y, hy⟩ := exists_written negative h
    refine ⟨y, fun depth s hs => ?_⟩
    rw [print, htext, Octets.ofString_ofList fun c hc => hw.lt_of_mem_chars hc, value_written hw,
      number_written hw hs, hy]
    rfl

/-- The text of a number reads back as the number. -/
def ReadsBack (x : Binary64) : Prop := document (print (.float x)) = .ok (.float x, [])

/-- Whether a number reads back can be computed. -/
def readsBack (x : Binary64) : Bool :=
  match document (print (.float x)) with
  | .ok (.float y, []) => y = x
  | _ => false

theorem readsBack_iff {x : Binary64} : readsBack x = true ↔ ReadsBack x := by
  unfold readsBack ReadsBack
  split
  · next y h => simp [h]
  · next h => exact iff_of_false (by simp) fun heq => h x heq

instance (x : Binary64) : Decidable (ReadsBack x) := decidable_of_iff _ readsBack_iff

/-- A number that reads back by itself reads back within an object, too. -/
theorem ReadsBack.isReadAs {x : Binary64} (hx : x.isFinite = true) (h : ReadsBack x) :
    IsReadAs (.float x) (.float x) := by
  obtain ⟨y, hy⟩ := exists_isReadAs_float hx
  have halone := hy maxDepth [] (by rintro b ⟨⟩)
  rw [List.append_nil] at halone
  have heq := halone.symm.trans h
  obtain rfl : y = x := by simpa using heq
  exact hy

/-! ### Members -/

theorem endsNumber_comma : EndsNumber (octet ',' :: s) := by
  rintro b hb
  obtain rfl := Option.some.inj hb
  decide

theorem endsNumber_brace : EndsNumber (octet '\x7d' :: s) := by
  rintro b hb
  obtain rfl := Option.some.inj hb
  decide

theorem colon_cons : colon (octet ':' :: s) = .ok s := by
  rw [colon, skipBlanks_cons (by decide)]
  rfl

theorem next_done (isFirst : Bool) :
    next (octet '\x7d') isFirst (octet '\x7d' :: s) = .ok (.done s) := by
  rw [next, skipBlanks_cons (by decide)]
  simp only [if_pos]

theorem next_first : next (octet '\x7d') true (octet '"' :: s) = .ok (.more (octet '"' :: s)) := by
  have hclose : octet '"' ≠ octet '\x7d' := by decide
  rw [next, skipBlanks_cons (by decide)]
  simp only [if_neg hclose, if_pos]

theorem next_comma :
    next (octet '\x7d') false (octet ',' :: octet '"' :: s) = .ok (.more (octet '"' :: s)) := by
  have hclose : octet '"' ≠ octet '\x7d' := by decide
  have hcomma : octet ',' ≠ octet '\x7d' := by decide
  rw [next, skipBlanks_cons (by decide)]
  simp only [if_neg hcomma, Bool.false_eq_true, if_false, if_pos]
  rw [skipBlanks_cons (by decide)]
  simp only [if_neg hclose]

/-- The text of a member. -/
def memberText (m : Member) : Octets := quote m.1 ++ octet ':' :: print m.2

/-- The members that follow another one, and the closing brace. -/
def continuation (ms : List Member) (s : Octets) : Octets :=
  ms.flatMap (fun m => octet ',' :: memberText m) ++ octet '\x7d' :: s

theorem endsNumber_continuation : EndsNumber (continuation ms s) := by
  cases ms with
  | nil => exact endsNumber_brace
  | cons m ms => exact endsNumber_comma

/-- A member is read once the text goes on with it. -/
theorem members_more {m m' : Member} (h : MemberIsReadAs m m') {fuel : Nat} {isFirst : Bool}
    {t : Octets} (hs : EndsNumber s)
    (hnext : ∀ body, memberText m ++ s = octet '"' :: body →
      next (octet '\x7d') isFirst t = .ok (.more (octet '"' :: body))) :
    members (value depth) (fuel + 1) isFirst t = (members (value depth) fuel false s).cons m' := by
  obtain ⟨k, v⟩ := m
  obtain ⟨k', v'⟩ := m'
  obtain ⟨rfl, hv⟩ := h
  -- The key reads up to the colon, and the value up to what follows the member.
  obtain ⟨body, hquote, hkey⟩ := string_quote k (octet ':' :: (print v ++ s))
  have htext : memberText (k, v) ++ s = octet '"' :: body := by
    rw [memberText, List.append_assoc, List.cons_append]
    exact hquote
  have hread : key (octet '"' :: body) = .ok (k, octet ':' :: (print v ++ s)) := by
    rw [key, if_pos rfl, hkey]
  rw [members, hnext body htext]
  dsimp only
  rw [hread]
  dsimp only
  rw [colon_cons]
  dsimp only
  rw [hv depth s hs]

theorem members_continuation (h : List.Forall₂ MemberIsReadAs ms ms') {fuel : Nat}
    (hfuel : ms.length < fuel) :
    members (value depth) fuel false (continuation ms s) = ⟨ms', .closed s⟩ := by
  induction h generalizing fuel with
  | nil =>
    obtain ⟨fuel, rfl⟩ := Nat.exists_eq_add_one_of_ne_zero (Nat.ne_of_gt hfuel)
    rw [members, continuation, List.flatMap_nil, List.nil_append, next_done]
    rfl
  | @cons m m' ms ms' hm _ ih =>
    rw [List.length_cons] at hfuel
    obtain ⟨fuel, rfl⟩ := Nat.exists_eq_add_one_of_ne_zero (Nat.ne_zero_of_lt hfuel)
    have htext : continuation (m :: ms) s =
        octet ',' :: (memberText m ++ continuation ms s) := by
      simp [continuation]
    rw [members_more hm (s := continuation ms s) endsNumber_continuation, ih (by omega)]
    · rfl
    · intro body hbody
      rw [htext, hbody, next_comma]

/-! ### Objects -/

theorem commaSeparated_cons (part : Octets) (parts : List Octets) :
    commaSeparated (part :: parts) = part ++ parts.flatMap fun part => octet ',' :: part := by
  induction parts generalizing part with
  | nil => simp [commaSeparated]
  | cons next parts ih =>
    rw [commaSeparated, ih, List.flatMap_cons, List.cons_append]
    simp

theorem memberTexts_eq (ms : List Member) : memberTexts ms = ms.map memberText := by
  induction ms with
  | nil => rfl
  | cons m ms ih =>
    obtain ⟨k, v⟩ := m
    rw [memberTexts, ih]
    rfl

/-- No object has more members than its text has octets. -/
theorem length_le_continuation (ms : List Member) (s : Octets) :
    ms.length ≤ (continuation ms s).length := by
  induction ms with
  | nil => exact Nat.zero_le _
  | cons m ms ih =>
    simp only [continuation, List.flatMap_cons, List.length_append, List.length_cons] at ih ⊢
    omega

/-- An object is read member by member. -/
theorem outline_print (h : List.Forall₂ MemberIsReadAs ms ms') :
    outline (print (.object ms)) = .object ⟨ms', .closed []⟩ := by
  have harray : octet '\x7b' ≠ octet '[' := by decide
  rw [print, outline, skipBlanks_cons (by decide), memberTexts_eq]
  simp only [if_neg harray, if_pos]
  congr 1
  -- The first member has no comma in front of it, all others have.
  cases h with
  | nil => rfl
  | @cons m m' ms ms' hm hms =>
    have htext : commaSeparated ((m :: ms).map memberText) ++ [octet '\x7d'] =
        memberText m ++ continuation ms [] := by
      rw [List.map_cons, commaSeparated_cons, List.flatMap_map, List.append_assoc]
      rfl
    rw [htext, members_more hm (s := continuation ms []) endsNumber_continuation,
      members_continuation hms]
    · rfl
    · have hlength := length_le_continuation ms []
      rw [List.length_append, memberText, List.length_append, List.length_cons]
      omega
    · intro body hbody
      rw [hbody, next_first]

/-! ### Documents -/

/-- Arrays and objects, in contrast to scalars. -/
def Value.IsContainer : Value → Prop
  | .array _ => True
  | .object _ => True
  | _ => False

theorem numberValue_ne_container (hv : v.IsContainer) (negative : Bool) (whole : List Nat)
    (fraction : Option (List Nat)) (exponent : Option Int) :
    numberValue negative whole fraction exponent ≠ .ok v := by
  have hinteger : ∀ i, Value.integer i ≠ v := by
    rintro i rfl
    exact hv
  have hfloat : ∀ x, Value.float x ≠ v := by
    rintro x rfl
    exact hv
  unfold numberValue
  rcases gather 0 whole with ⟨n, above⟩
  dsimp only
  split
  · unfold integerValue
    split
    · split <;> simp [hinteger, hfloat]
    · simp [hinteger]
  · cases scaleByTen 4 _ _ <;> simp [Except.map, hfloat]

theorem unsignedNumber_ne_container (hv : v.IsContainer) (negative : Bool) :
    unsignedNumber negative s ≠ .ok (v, rest) := by
  unfold unsignedNumber
  cases wholeDigits s with
  | error f => simp [bind, Except.bind]
  | ok whole =>
    cases hfraction : fractionDigits whole.2 with
    | error f => simp [bind, Except.bind, hfraction]
    | ok fraction =>
      cases hexponent : exponentPart fraction.2 with
      | error f => simp [bind, Except.bind, hfraction, hexponent]
      | ok exponent =>
        have hvalue := numberValue_ne_container hv negative whole.1 fraction.1 exponent.1
        cases hread : numberValue negative whole.1 fraction.1 exponent.1 with
        | error f => simp [bind, Except.bind, hfraction, hexponent, hread]
        | ok w =>
          rw [hread] at hvalue
          have hne : w ≠ v := fun heq => hvalue (congrArg _ heq)
          simp [bind, Except.bind, hfraction, hexponent, hread, pure, Except.pure, hne]

/-- A scalar is neither an array nor an object. -/
theorem scalar_ne_container (hv : v.IsContainer) : scalar s ≠ .ok (v, rest) := by
  cases s with
  | nil => simp [scalar]
  | cons b s =>
    have hword : ∀ (r : Except Fault Octets) (w : Value), ¬ w.IsContainer →
        r.map (fun s => (w, s)) ≠ .ok (v, rest) := by
      intro r w hw
      have hne : w ≠ v := fun heq => hw (heq ▸ hv)
      cases r <;> simp [Except.map, hne]
    have hstring : ∀ text, Value.string text ≠ v := by
      rintro text rfl
      exact hv
    rw [scalar]
    split
    · exact hword _ _ id
    split
    · exact hword _ _ id
    split
    · exact hword _ _ id
    split
    · cases string s <;> simp [Except.map, hstring]
    split
    · by_cases hb : b = octet '-'
      · rw [hb, number_minus]
        exact unsignedNumber_ne_container hv true
      · rw [number_of_ne_minus hb]
        exact unsignedNumber_ne_container hv false
    · simp

theorem Run.exists_of_toRead {α : Type} {r : Run α} {f : List α → Value}
    (h : r.toRead f = .ok (v, rest)) : ∃ items, r = ⟨items, .closed rest⟩ ∧ f items = v := by
  obtain ⟨items, ending⟩ := r
  cases ending with
  | closed rest' =>
    obtain ⟨hv, rfl⟩ := Prod.mk.inj (Except.ok.inj h)
    exact ⟨items, rfl, hv⟩
  | broken fault key opening => cases h

/-- An object that a document consists of is read member by member. -/
theorem outline_of_document (h : document s = .ok (.object ms, rest)) :
    outline s = .object ⟨ms, .closed rest⟩ := by
  change value (maxDepth - 1 + 1) s = _ at h
  rw [value] at h
  unfold outline
  split at h
  · cases h
  split at h
  · obtain ⟨items, -, hitems⟩ := Run.exists_of_toRead h
    cases hitems
  split at h
  · next harray hobject =>
    obtain ⟨items, hrun, hitems⟩ := Run.exists_of_toRead h
    obtain rfl := Value.object.inj hitems
    rw [if_neg harray, if_pos hobject, hrun]
  · exact absurd h (scalar_ne_container trivial)

/-- An array that a document consists of is read item by item. -/
theorem outline_of_document_array {items : List Value}
    (h : document s = .ok (.array items, rest)) : outline s = .array ⟨items, .closed rest⟩ := by
  change value (maxDepth - 1 + 1) s = _ at h
  rw [value] at h
  unfold outline
  split at h
  · cases h
  split at h
  · next harray =>
    obtain ⟨read, hrun, hread⟩ := Run.exists_of_toRead h
    obtain rfl := Value.array.inj hread
    rw [if_pos harray, hrun]
  split at h
  · obtain ⟨members, -, hmembers⟩ := Run.exists_of_toRead h
    cases hmembers
  · exact absurd h (scalar_ne_container trivial)

end Simulcast.Json
