import Mathlib.Tactic.IntervalCases
import Simulcast.Json.Printer
import Simulcast.Json.Lexeme

/-!
# Numbers as they are written

A number is written as a sign, digits, and optionally a point with digits and an exponent with a sign
and digits. Where the digits come from does not matter to a reader: it finds the same parts, and what
they are worth is a question of its own.

A number ends where something comes that cannot go on with it, and that is all that has to be known
of what follows.

## Main definitions

* `Json.Written` — the parts of a number, and its text
* `Json.EndsNumber` — what may follow a number

## Main results

* `Json.number_written` — the parts are found again
* `Json.number_natural` — a word is read back as the word
-/

namespace Simulcast

namespace Json

/-! ### Digits -/

variable {cs : List Char} {s : Octets}

/-- The values of some digits. -/
def charValues (cs : List Char) : List Nat := cs.map fun c => c.toNat - '0'.toNat

theorem toNat_of_isDigit {c : Char} (h : c.isDigit = true) : 48 ≤ c.toNat ∧ c.toNat ≤ 57 := by
  simp only [Char.isDigit, Bool.and_eq_true, decide_eq_true_eq] at h
  exact ⟨h.1, h.2⟩

theorem toNat_octet {c : Char} (h : c.toNat < 128) : (octet c).toNat = c.toNat := by
  simp only [octet, Nat.toUInt8_eq, UInt8.toNat_ofNat']
  omega

theorem isDigit_octet {c : Char} (h : c.isDigit = true) : isDigit (octet c) = true := by
  obtain ⟨hlow, hhigh⟩ := toNat_of_isDigit h
  have hnat := toNat_octet (c := c) (by omega)
  simp only [isDigit, Bool.and_eq_true, decide_eq_true_eq, UInt8.le_iff_toNat_le, hnat]
  exact ⟨hlow, hhigh⟩

theorem digitValue_octet {c : Char} (h : c.isDigit = true) :
    digitValue (octet c) = c.toNat - '0'.toNat := by
  obtain ⟨-, hhigh⟩ := toNat_of_isDigit h
  rw [digitValue, toNat_octet (by omega), toNat_octet (by decide)]

/-- No digit comes next. -/
def EndsDigits (s : Octets) : Prop := ∀ b ∈ s.head?, isDigit b = false

theorem takeWhile_isDigit_of_endsDigits (h : EndsDigits s) :
    s.takeWhile isDigit = [] ∧ s.dropWhile isDigit = s := by
  cases s with
  | nil => exact ⟨rfl, rfl⟩
  | cons b s =>
    have hb := h b rfl
    simp [hb]

/-- Digits are read up to where they end. -/
theorem digits_append (hcs : ∀ c ∈ cs, c.isDigit = true) (hne : cs ≠ []) (hs : EndsDigits s) :
    digits (cs.map octet ++ s) = .ok (charValues cs, s) := by
  have hall : ∀ b ∈ cs.map octet, isDigit b = true := by
    intro b hb
    obtain ⟨c, hc, rfl⟩ := List.mem_map.1 hb
    exact isDigit_octet (hcs c hc)
  have hvalues : (cs.map octet).map digitValue = charValues cs := by
    rw [List.map_map]
    exact List.map_congr_left fun c hc => digitValue_octet (hcs c hc)
  obtain ⟨c, rest, rfl⟩ := List.exists_cons_of_ne_nil hne
  have hfirst := hall (octet c) (by simp)
  rw [List.map_cons, List.cons_append, digits, if_pos hfirst, ← List.cons_append,
    ← List.map_cons, List.takeWhile_append_of_pos hall, List.dropWhile_append_of_pos hall,
    (takeWhile_isDigit_of_endsDigits hs).1, (takeWhile_isDigit_of_endsDigits hs).2,
    List.append_nil, hvalues]

/-- Digits that may stand before a point: a zero alone, or no zero in front. -/
structure IsWholeDigits (cs : List Char) : Prop where
  ne_nil : cs ≠ []
  isDigit : ∀ c ∈ cs, c.isDigit = true
  head : cs = ['0'] ∨ cs.head? ≠ some '0'

theorem octet_eq_octet_zero_iff {c : Char} (h : c.isDigit = true) :
    octet c = octet '0' ↔ c = '0' := by
  obtain ⟨-, hhigh⟩ := toNat_of_isDigit h
  constructor
  · intro heq
    have hnat := congrArg UInt8.toNat heq
    rw [toNat_octet (by omega), toNat_octet (by decide)] at hnat
    exact Char.toNat_inj.1 hnat
  · rintro rfl
    rfl

theorem wholeDigits_append (hcs : IsWholeDigits cs) (hs : EndsDigits s) :
    wholeDigits (cs.map octet ++ s) = .ok (charValues cs, s) := by
  rcases hcs.head with rfl | hhead
  · cases s with
    | nil => rfl
    | cons b s =>
      have hb := hs b rfl
      simp [wholeDigits, hb, charValues]
  · obtain ⟨c, rest, rfl⟩ := List.exists_cons_of_ne_nil hcs.ne_nil
    have hc : octet c ≠ octet '0' := by
      rw [Ne, octet_eq_octet_zero_iff (hcs.isDigit c (by simp))]
      simpa using hhead
    have hread := digits_append hcs.isDigit hcs.ne_nil hs
    rw [List.map_cons, List.cons_append] at hread ⊢
    rw [wholeDigits.eq_def]
    simp only [if_neg hc, hread]

/-! ### The parts of a number -/

/-- The parts of a number as they are written. -/
structure Written where
  negative : Bool
  whole : List Char
  fraction : Option (List Char)
  /-- The digits of the exponent, and whether it is negative. -/
  exponent : Option (Bool × List Char)

namespace Written

/-- The text after the point, if there is one. -/
def fractionChars (w : Written) : List Char :=
  match w.fraction with
  | none => []
  | some ds => '.' :: ds

/-- The exponent, if there is one. -/
def exponentChars (w : Written) : List Char :=
  match w.exponent with
  | none => []
  | some (negative, ds) => 'e' :: (if negative then '-' else '+') :: ds

/-- The text of a number. -/
def chars (w : Written) : List Char :=
  (if w.negative then ['-'] else []) ++ w.whole ++ w.fractionChars ++ w.exponentChars

/-- The exponent as an integer. -/
def scale? (w : Written) : Option Int :=
  w.exponent.map fun (negative, ds) =>
    let n : Int := Decimal.ofDigits (charValues ds)
    if negative then -n else n

/-- Digits where there have to be digits. -/
structure IsWellFormed (w : Written) : Prop where
  whole : IsWholeDigits w.whole
  fraction : ∀ ds, w.fraction = some ds → ds ≠ [] ∧ ∀ c ∈ ds, c.isDigit = true
  exponent : ∀ sign ds, w.exponent = some (sign, ds) → ds ≠ [] ∧ ∀ c ∈ ds, c.isDigit = true

end Written

/-- Nothing comes next that a number could go on with. -/
def EndsNumber (s : Octets) : Prop :=
  ∀ b ∈ s.head?, isDigit b = false ∧ b ≠ octet '.' ∧ b ≠ octet 'e' ∧ b ≠ octet 'E'

theorem EndsNumber.endsDigits (h : EndsNumber s) : EndsDigits s := fun b hb => (h b hb).1

theorem endsDigits_cons {c : Char} (h : isDigit (octet c) = false) : EndsDigits (octet c :: s) := by
  rintro b hb
  obtain rfl := Option.some.inj hb
  exact h

variable {w : Written}

theorem exponentPart_append (hw : w.IsWellFormed) (hs : EndsNumber s) :
    exponentPart (w.exponentChars.map octet ++ s) = .ok (w.scale?, s) := by
  unfold Written.exponentChars Written.scale?
  cases hexponent : w.exponent with
  | none =>
    cases s with
    | nil => rfl
    | cons b s =>
      obtain ⟨-, -, hlower, hupper⟩ := hs b rfl
      rw [List.map_nil, List.nil_append, exponentPart.eq_def]
      simp only [if_neg (not_or.2 ⟨hlower, hupper⟩), Option.map_none]
  | some exponent =>
    obtain ⟨negative, ds⟩ := exponent
    obtain ⟨hne, hds⟩ := hw.exponent negative ds hexponent
    have hread := digits_append hds hne hs.endsDigits
    have hplus : octet '+' ≠ octet '-' := by decide
    cases negative with
    | true =>
      simp only [if_true, List.map_cons, List.cons_append, exponentPart, true_or, hread]
      rfl
    | false =>
      simp only [Bool.false_eq_true, if_false, List.map_cons, List.cons_append, exponentPart,
        true_or, if_neg hplus, if_true, hread]
      rfl

theorem endsDigits_exponent (hs : EndsNumber s) :
    EndsDigits (w.exponentChars.map octet ++ s) := by
  unfold Written.exponentChars
  cases w.exponent with
  | none => exact hs.endsDigits
  | some exponent => exact endsDigits_cons (by decide)

theorem fractionDigits_append (hw : w.IsWellFormed) (hs : EndsNumber s) :
    fractionDigits (w.fractionChars.map octet ++ (w.exponentChars.map octet ++ s)) =
      .ok (w.fraction.map charValues, w.exponentChars.map octet ++ s) := by
  have hends := endsDigits_exponent (w := w) hs
  unfold Written.fractionChars
  cases hfraction : w.fraction with
  | none =>
    rw [List.map_nil, List.nil_append]
    -- What comes next is the exponent or what follows the number, and neither is a point.
    have hpoint : ∀ b ∈ (w.exponentChars.map octet ++ s).head?, b ≠ octet '.' := by
      unfold Written.exponentChars
      cases w.exponent with
      | none => exact fun b hb => (hs b hb).2.1
      | some exponent =>
        intro b hb
        obtain rfl := Option.some.inj hb
        decide
    generalize w.exponentChars.map octet ++ s = t at hpoint
    cases t with
    | nil => rfl
    | cons b t =>
      rw [fractionDigits, if_neg (hpoint b rfl)]
      rfl
  | some ds =>
    obtain ⟨hne, hds⟩ := hw.fraction ds hfraction
    have hread := digits_append hds hne hends
    rw [List.map_cons, List.cons_append, fractionDigits, if_pos rfl, hread]
    rfl

theorem endsDigits_fraction (hs : EndsNumber s) :
    EndsDigits (w.fractionChars.map octet ++ (w.exponentChars.map octet ++ s)) := by
  unfold Written.fractionChars
  cases w.fraction with
  | none => exact endsDigits_exponent hs
  | some ds => exact endsDigits_cons (by decide)

/-- A number after its sign. -/
def unsignedNumber (negative : Bool) (s : Octets) : Except Fault (Value × Octets) := do
  let (whole, s) ← wholeDigits s
  let (fraction, s) ← fractionDigits s
  let (exponent, s) ← exponentPart s
  let value ← numberValue negative whole fraction exponent
  return (value, s)

theorem number_minus (s : Octets) : number (octet '-' :: s) = unsignedNumber true s := rfl

theorem number_of_ne_minus {b : UInt8} (h : b ≠ octet '-') (s : Octets) :
    number (b :: s) = unsignedNumber false (b :: s) := by
  unfold number
  simp only [if_neg h]
  rfl

theorem unsignedNumber_append (hw : w.IsWellFormed) (hs : EndsNumber s) (negative : Bool) :
    unsignedNumber negative (w.whole.map octet ++
        (w.fractionChars.map octet ++ (w.exponentChars.map octet ++ s))) =
      (numberValue negative (charValues w.whole) (w.fraction.map charValues) w.scale?).map
        fun v => (v, s) := by
  rw [unsignedNumber, wholeDigits_append hw.whole (endsDigits_fraction hs)]
  change (fractionDigits _ >>= _) = _
  rw [fractionDigits_append hw hs]
  change (exponentPart _ >>= _) = _
  rw [exponentPart_append hw hs]
  change (numberValue negative _ _ _ >>= _) = _
  generalize numberValue negative _ _ _ = value
  cases value <;> rfl

/-- The parts of a number are found again. -/
theorem number_written (hw : w.IsWellFormed) (hs : EndsNumber s) :
    number (w.chars.map octet ++ s) =
      (numberValue w.negative (charValues w.whole) (w.fraction.map charValues) w.scale?).map
        fun v => (v, s) := by
  have hparts := unsignedNumber_append hw hs w.negative
  cases hneg : w.negative with
  | true =>
    rw [hneg] at hparts
    have hchars : w.chars.map octet ++ s = octet '-' :: (w.whole.map octet ++
        (w.fractionChars.map octet ++ (w.exponentChars.map octet ++ s))) := by
      simp [Written.chars, hneg]
    rw [hchars, number_minus, hparts]
  | false =>
    rw [hneg] at hparts
    have hchars : w.chars.map octet ++ s = w.whole.map octet ++
        (w.fractionChars.map octet ++ (w.exponentChars.map octet ++ s)) := by
      simp [Written.chars, hneg]
    -- Without a sign the text begins with a digit, which is no minus sign.
    obtain ⟨c, rest, hwhole⟩ := List.exists_cons_of_ne_nil hw.whole.ne_nil
    have hdigit := isDigit_octet (hw.whole.isDigit c (by simp [hwhole]))
    have hminus : octet c ≠ octet '-' := by
      rintro heq
      rw [heq] at hdigit
      exact absurd hdigit (by decide)
    rw [hchars, ← hparts, hwhole, List.map_cons, List.cons_append, number_of_ne_minus hminus]

/-- The text of a number is ASCII. -/
theorem Written.IsWellFormed.lt_of_mem_chars (hw : w.IsWellFormed) {c : Char} (h : c ∈ w.chars) :
    c.toNat < 128 := by
  have hdigit : ∀ {c : Char}, c.isDigit = true → c.toNat < 128 := by
    intro c hc
    obtain ⟨-, hle⟩ := toNat_of_isDigit hc
    omega
  simp only [Written.chars, List.mem_append] at h
  rcases h with ((h | h) | h) | h
  · split at h
    · rw [List.mem_singleton.1 h]
      decide
    · simp at h
  · exact hdigit (hw.whole.isDigit c h)
  · rw [Written.fractionChars] at h
    split at h
    · simp at h
    · next ds hds =>
      rcases List.mem_cons.1 h with rfl | h
      · decide
      · exact hdigit ((hw.fraction ds hds).2 c h)
  · rw [Written.exponentChars] at h
    split at h
    · simp at h
    · next sign ds hds =>
      rcases List.mem_cons.1 h with rfl | h
      · decide
      rcases List.mem_cons.1 h with rfl | h
      · cases sign <;> decide
      · exact hdigit ((hw.exponent sign ds hds).2 c h)

theorem ne_of_beginsNumber {b c : UInt8} (hb : b = octet '-' ∨ isDigit b = true)
    (hminus : c ≠ octet '-') (hdigit : isDigit c = false) : b ≠ c := by
  rintro rfl
  rcases hb with rfl | hb
  · exact hminus rfl
  · rw [hdigit] at hb
    cases hb

/-- A number is told from other scalars by how it begins. -/
theorem scalar_written (hw : w.IsWellFormed) (s : Octets) :
    ∃ b t, w.chars.map octet ++ s = b :: t ∧ (b = octet '-' ∨ isDigit b = true) ∧
      scalar (b :: t) = number (b :: t) := by
  have hfirst : ∃ b t, w.chars.map octet ++ s = b :: t ∧ (b = octet '-' ∨ isDigit b = true) := by
    obtain ⟨c, rest, hwhole⟩ := List.exists_cons_of_ne_nil hw.whole.ne_nil
    rw [Written.chars, hwhole]
    cases w.negative with
    | true => exact ⟨_, _, rfl, Or.inl rfl⟩
    | false =>
      exact ⟨_, _, rfl, Or.inr (isDigit_octet (hw.whole.isDigit c (by simp [hwhole])))⟩
  obtain ⟨b, t, htext, hb⟩ := hfirst
  refine ⟨b, t, htext, hb, ?_⟩
  have hn : b ≠ octet 'n' := ne_of_beginsNumber hb (by decide) (by decide)
  have ht : b ≠ octet 't' := ne_of_beginsNumber hb (by decide) (by decide)
  have hf : b ≠ octet 'f' := ne_of_beginsNumber hb (by decide) (by decide)
  have hquote : b ≠ octet '"' := ne_of_beginsNumber hb (by decide) (by decide)
  rw [scalar, if_neg hn, if_neg ht, if_neg hf, if_neg hquote, if_pos hb]

/-! ### Words -/

theorem isWholeDigits_toDigits (n : Nat) : IsWholeDigits (Nat.toDigits 10 n) where
  ne_nil := Nat.toDigits_ne_nil
  isDigit c hc := Nat.isDigit_of_mem_toDigits (by decide) (by decide) hc
  head := by
    induction n using Nat.strongRecOn with
    | ind n ih =>
      rw [Nat.toDigits_eq_if (by decide)]
      split
      · next hlt =>
        interval_cases n <;> simp [Nat.digitChar]
      · next hge =>
        have hpos : n / 10 ≠ 0 := by omega
        refine Or.inr ?_
        rcases ih (n / 10) (by omega) with hzero | hhead
        · have hback : Nat.ofDigitChars 10 ['0'] 0 = n / 10 := by
            rw [← hzero, Nat.ofDigitChars_ten_toDigits]
          exact absurd hback.symm hpos
        · obtain ⟨c, rest, hcons⟩ := List.exists_cons_of_ne_nil
            (Nat.toDigits_ne_nil (n := n / 10) (b := 10))
          rw [hcons] at hhead ⊢
          exact hhead

theorem ofDigits_charValues (cs : List Char) (n : Nat) :
    (charValues cs).foldl (fun n d => 10 * n + d) n = Nat.ofDigitChars 10 cs n := by
  rw [charValues, List.foldl_map, Nat.ofDigitChars_eq_foldl]

theorem le_foldl_digits (ds : List Nat) (n : Nat) :
    n ≤ ds.foldl (fun n d => 10 * n + d) n := by
  induction ds generalizing n with
  | nil => exact Nat.le_refl n
  | cons d ds ih => exact (by omega : n ≤ 10 * n + d).trans (ih _)

/-- Nothing is left over as long as all of the digits fit. -/
theorem gather_eq (ds : List Nat) (n : Nat)
    (h : ds.foldl (fun n d => 10 * n + d) n < powTwo 64) :
    gather n ds = (ds.foldl (fun n d => 10 * n + d) n, 0) := by
  induction ds generalizing n with
  | nil => rfl
  | cons d ds ih =>
    rw [List.foldl_cons] at h ⊢
    rw [gather, if_pos (lt_of_le_of_lt (le_foldl_digits ds _) h), ih _ h]

/-- The digits of a natural number, and nothing else. -/
def Written.natural (n : Nat) : Written := ⟨false, Nat.toDigits 10 n, none, none⟩

theorem Written.chars_natural (n : Nat) : (natural n).chars = Nat.toDigits 10 n := by
  simp [natural, chars, fractionChars, exponentChars]

theorem Written.isWellFormed_natural (n : Nat) : (natural n).IsWellFormed :=
  ⟨isWholeDigits_toDigits n, by rintro ds ⟨⟩, by rintro sign ds ⟨⟩⟩

/-- A word is read back as the word. -/
theorem number_natural {n : Nat} (hn : n < powTwo 64) (hs : EndsNumber s) :
    number ((Written.natural n).chars.map octet ++ s) = .ok (.integer n, s) := by
  have hfold : (charValues (Nat.toDigits 10 n)).foldl (fun n d => 10 * n + d) 0 = n := by
    rw [ofDigits_charValues, Nat.ofDigitChars_ten_toDigits]
  have hgather := gather_eq (charValues (Nat.toDigits 10 n)) 0 (by rw [hfold]; exact hn)
  rw [hfold] at hgather
  rw [number_written (Written.isWellFormed_natural n) hs]
  change (numberValue false (charValues (Nat.toDigits 10 n)) none none).map _ = _
  simp only [numberValue, hgather]
  rfl

end Json

end Simulcast
