import Mathlib.Tactic.SplitIfs
import Simulcast.Json.Lexeme
import Simulcast.Json.Printer

/-!
# Strings survive being written and read

A string is written octet by octet, and each octet, escaped or not, is read back as itself. So it
does not matter that the reader could also take other escapes, and nothing has to be known about the
text but that it is valid UTF-8, which every text is.

## Main results

* `Json.stringOctets_escapeOctet` — an octet is read back as itself
* `Json.string_quote` — a quoted text is read back as the text
-/

namespace Simulcast.Json

/-- The digits of a control character give back its code, which is an octet by itself. -/
theorem hexUnit?_control : ∀ n < 32,
    hexUnit? (octet '0') (octet '0') (hexDigit (n / 16)) (hexDigit (n % 16)) = some n ∧
      isLowSurrogate n = false ∧ isHighSurrogate n = false ∧ codePoint n = [n.toUInt8] := by
  decide +kernel

theorem stringOctets_short {e x : UInt8} (hu : e ≠ octet 'u') (hx : shortEscape? e = some x)
    (s : Octets) : stringOctets (octet '\\' :: e :: s) = .prepend [x] (stringOctets s) := by
  have hquote : octet '\\' ≠ octet '"' := by decide
  rw [stringOctets.eq_def]
  simp only [if_neg hquote, if_pos, if_neg hu, hx]

theorem stringOctets_unit {n : Nat} (hn : n < 32) (s : Octets) :
    stringOctets (octet '\\' :: octet 'u' :: octet '0' :: octet '0' :: hexDigit (n / 16) ::
      hexDigit (n % 16) :: s) = .prepend [n.toUInt8] (stringOctets s) := by
  have hquote : octet '\\' ≠ octet '"' := by decide
  obtain ⟨hunit, hlow, hhigh, hcode⟩ := hexUnit?_control n hn
  rw [stringOctets.eq_def]
  simp only [if_neg hquote, if_pos, hunit, hlow, hhigh, hcode, Bool.false_eq_true, if_false]

theorem stringOctets_plain {b : UInt8} (hquote : b ≠ octet '"') (hback : b ≠ octet '\\')
    (hcontrol : ¬ b < 0x20) (s : Octets) :
    stringOctets (b :: s) = .prepend [b] (stringOctets s) := by
  rw [stringOctets.eq_def]
  simp only [if_neg hquote, if_neg hback, if_neg hcontrol]

/-- An octet is read back as itself. -/
theorem stringOctets_escapeOctet (b : UInt8) (s : Octets) :
    stringOctets (escapeOctet b ++ s) = .prepend [b] (stringOctets s) := by
  -- One case for each way to write an octet, in the order in which they are tried.
  unfold escapeOctet
  split_ifs with hspecial h8 h9 h10 h12 h13 hcontrol
  · rcases hspecial with rfl | rfl
    · exact stringOctets_short (by decide) (by decide) s
    · exact stringOctets_short (by decide) (by decide) s
  · subst h8
    exact stringOctets_short (by decide) (by decide) s
  · subst h9
    exact stringOctets_short (by decide) (by decide) s
  · subst h10
    exact stringOctets_short (by decide) (by decide) s
  · subst h12
    exact stringOctets_short (by decide) (by decide) s
  · subst h13
    exact stringOctets_short (by decide) (by decide) s
  · have hn : b.toNat < 32 := hcontrol
    have hb : b.toNat.toUInt8 = b := UInt8.ofNat_toNat
    have hread := stringOctets_unit hn s
    rw [hb] at hread
    exact hread
  · obtain ⟨hquote, hback⟩ := not_or.1 hspecial
    exact stringOctets_plain hquote hback hcontrol s

theorem stringOctets_flatMap_escapeOctet (octets s : Octets) :
    stringOctets (octets.flatMap escapeOctet ++ octet '"' :: s) = .ok (octets, s) := by
  induction octets with
  | nil =>
    rw [List.flatMap_nil, List.nil_append, stringOctets.eq_def]
    simp only [if_pos]
  | cons b octets ih =>
    rw [List.flatMap_cons, List.append_assoc, stringOctets_escapeOctet, ih]
    rfl

/-- A quoted text is read back as the text. -/
theorem string_quote (text : String) (s : Octets) :
    ∃ body, quote text ++ s = octet '"' :: body ∧ string body = .ok (text, s) := by
  refine ⟨(Octets.ofString text).flatMap escapeOctet ++ octet '"' :: s, by simp [quote], ?_⟩
  rw [string, stringOctets_flatMap_escapeOctet]
  simp only [Octets.toString?_ofString]

end Simulcast.Json
