/-!
# Texts as octets

What goes over a channel is a sequence of octets. A text becomes octets in UTF-8, and octets that
are valid UTF-8 become a text again.

## Main definitions

* `Octets` — a sequence of bytes
* `Octets.ofString`, `Octets.toString?` — a text in UTF-8, and the text of octets if they are one

## Main results

* `Octets.toString?_ofString` — what a text was encoded to is decoded to that text
* `Octets.ofString_ofList` — a text in ASCII has an octet for each character
-/

namespace Simulcast

/-- A sequence of bytes. -/
abbrev Octets := List UInt8

/-- The code of an ASCII character. -/
def octet (c : Char) : UInt8 := c.toNat.toUInt8

namespace Octets

/-- A text in UTF-8. -/
def ofString (s : String) : Octets := s.toByteArray.data.toList

/-- The text of some octets, if they are valid UTF-8. -/
def toString? (octets : Octets) : Option String := String.fromUTF8? ⟨octets.toArray⟩

theorem toString?_ofString (s : String) : toString? (ofString s) = some s := by
  have h : (⟨(ofString s).toArray⟩ : ByteArray) = s.toByteArray := by
    simp [ofString]
  simp only [toString?, h, String.fromUTF8?, s.isValidUTF8, dite_true]
  rfl

/-- ASCII characters are one octet each. -/
theorem ofString_ofList {cs : List Char} (h : ∀ c ∈ cs, c.toNat < 128) :
    ofString (String.ofList cs) = cs.map octet := by
  have hchar : ∀ c ∈ cs, String.utf8EncodeChar c = [octet c] := by
    intro c hc
    have hsize : c.utf8Size = 1 := by
      have hlt := h c hc
      simp only [Char.utf8Size]
      rw [if_pos]
      exact Nat.le_of_lt_succ hlt
    exact String.utf8EncodeChar_eq_singleton hsize
  rw [ofString, String.toByteArray_ofList, List.utf8Encode, List.data_toByteArray]
  induction cs with
  | nil => rfl
  | cons c cs ih =>
    have hrest := ih (fun d hd => h d (by simp [hd])) (fun d hd => hchar d (by simp [hd]))
    simp only [List.flatMap_cons, hchar c (by simp), List.map_cons]
    simpa using hrest

end Octets

end Simulcast
