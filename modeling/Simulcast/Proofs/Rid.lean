import Mathlib.Data.List.TakeWhile
import Simulcast.Encodings

/-!
# What a rid keeps of a name

A name becomes a rid by being cleaned character by character and cut and padded octet by octet. Its
text is found by decoding the octets and trimming what they say. Nothing of a clean name gets lost on
this way: a cleaned character is a single octet, so that the cut goes through none, and it is no white
space, so that trimming takes the padding away and nothing else.

What a rid keeps of a name is thus its first eight characters, cleaned. Many names may have the same
rid, but a short one of letters and digits has its rid for itself: where a character was cleaned, the
text has an underscore, and where the name was cut, it is too long. The names of the layers are of this
kind.

## Main definitions

* `Rid.kept` — the characters of a name that its rid keeps

## Main results

* `Text.trim_append` — of a text without white space, trimming takes away what was added
* `Rid.octets_ofString`, `Rid.text_ofString` — the octets and the text of the rid of a name
* `Rid.text_ofString_eq_iff` — a short name of letters and digits is the text of no other name's rid
* `Rid.ofString_confuses_no_layers` — a rid stands for a layer only if it is made from the layer's name
-/

namespace Simulcast

/-! ### Trimming -/

namespace Text

variable {cs blanks : List Char}

theorem dropWhile_isBlank_eq_self (h : ∀ c ∈ cs, isBlank c = false) : cs.dropWhile isBlank = cs := by
  rw [List.dropWhile_eq_self_iff]
  intro hlength
  rw [h _ (List.getElem_mem hlength)]
  exact Bool.false_ne_true

/-- White space that follows a text without any is trimmed. -/
theorem trim_append (hcs : ∀ c ∈ cs, isBlank c = false) (hblanks : ∀ c ∈ blanks, isBlank c = true) :
    trim (cs ++ blanks) = cs := by
  -- From the front nothing is dropped, unless there is nothing but white space.
  cases cs with
  | nil => simp [trim, List.dropWhile_eq_nil_iff.2 hblanks]
  | cons c cs =>
    have hfront : (c :: cs ++ blanks).dropWhile isBlank = c :: cs ++ blanks :=
      List.dropWhile_cons_of_neg (by simp [hcs c])
    have hback : ∀ d ∈ blanks.reverse, isBlank d = true := fun d hd =>
      hblanks d (List.mem_reverse.1 hd)
    have hrest : ∀ d ∈ (c :: cs).reverse, isBlank d = false := fun d hd =>
      hcs d (List.mem_reverse.1 hd)
    rw [trim, hfront, List.reverse_append, List.dropWhile_append_of_pos hback,
      dropWhile_isBlank_eq_self hrest, List.reverse_reverse]

end Text

namespace Rid

variable {s t w : String} {c : Char} {cs : List Char}

/-! ### Clean characters -/

theorem cleanChar_of_isAlphanum (h : c.isAlphanum = true) : cleanChar c = c := if_pos h

theorem cleanChar_of_not_isAlphanum (h : ¬ c.isAlphanum = true) : cleanChar c = '_' := if_neg h

/-- Nothing is cleaned to a letter or digit but the letter or digit itself. -/
theorem cleanChar_eq_self (h : (cleanChar c).isAlphanum = true) : cleanChar c = c := by
  by_cases hc : c.isAlphanum = true
  · exact cleanChar_of_isAlphanum hc
  · rw [cleanChar_of_not_isAlphanum hc] at h
    exact absurd h (by decide)

theorem cleanChar_cleanChar (c : Char) : cleanChar (cleanChar c) = cleanChar c := by
  by_cases h : c.isAlphanum = true
  · rw [cleanChar_of_isAlphanum h, cleanChar_of_isAlphanum h]
  · rw [cleanChar_of_not_isAlphanum h]
    decide

theorem toNat_of_isAlphanum (h : c.isAlphanum = true) :
    (65 ≤ c.toNat ∧ c.toNat ≤ 90 ∨ 97 ≤ c.toNat ∧ c.toNat ≤ 122) ∨
      48 ≤ c.toNat ∧ c.toNat ≤ 57 := by
  rcases Bool.or_eq_true_iff.1 h with hletter | hdigit
  · rcases Bool.or_eq_true_iff.1 hletter with hupper | hlower
    · exact Or.inl (Or.inl (of_decide_eq_true hupper))
    · obtain ⟨hlow, hhigh⟩ := Bool.and_eq_true_iff.1 hlower
      exact Or.inl (Or.inr ⟨of_decide_eq_true hlow, of_decide_eq_true hhigh⟩)
  · obtain ⟨hlow, hhigh⟩ := Bool.and_eq_true_iff.1 hdigit
    exact Or.inr ⟨of_decide_eq_true hlow, of_decide_eq_true hhigh⟩

/-- Letters, digits and the underscore lie between the codes of `0` and `z`. -/
theorem toNat_cleanChar (c : Char) : 48 ≤ (cleanChar c).toNat ∧ (cleanChar c).toNat ≤ 122 := by
  by_cases h : c.isAlphanum = true
  · rw [cleanChar_of_isAlphanum h]
    have hcode := toNat_of_isAlphanum h
    omega
  · rw [cleanChar_of_not_isAlphanum h]
    decide

theorem isBlank_cleanChar (c : Char) : Text.isBlank (cleanChar c) = false := by
  obtain ⟨hlow, hhigh⟩ := toNat_cleanChar c
  simp only [Text.isBlank, Text.blankRanges, List.any_cons, List.any_nil, Bool.or_false,
    Bool.or_eq_false_iff, Bool.and_eq_false_imp, decide_eq_true_eq, decide_eq_false_iff_not]
  omega

theorem lt_of_mem_map_cleanChar (h : c ∈ cs.map cleanChar) : c.toNat < 128 := by
  obtain ⟨d, -, rfl⟩ := List.mem_map.1 h
  exact Nat.lt_of_le_of_lt (toNat_cleanChar d).2 (by decide)

/-! ### What is kept of a name -/

/-- The characters of a name that its rid keeps: the first eight, cleaned. -/
def kept (s : String) : List Char := (s.toList.take size).map cleanChar

theorem length_kept_le (s : String) : (kept s).length ≤ size := by
  rw [kept, List.length_map]
  exact List.length_take_le _ _

/-- A clean name that is not too long is kept as it is. -/
theorem kept_eq_toList (hlength : s.toList.length ≤ size) (hclean : ∀ c ∈ s.toList, cleanChar c = c) :
    kept s = s.toList := by
  rw [kept, List.take_of_length_le hlength, List.map_congr_left hclean, List.map_id']

/-- What was kept is kept again. -/
theorem kept_ofList_kept (s : String) : kept (String.ofList (kept s)) = kept s := by
  have hlist : (String.ofList (kept s)).toList = kept s := String.toList_ofList
  rw [kept_eq_toList, hlist]
  · rw [hlist]
    exact length_kept_le s
  · rw [hlist]
    exact List.forall_mem_map.2 fun c _ => cleanChar_cleanChar c

/-! ### Octets and text -/

/-- In ASCII, cutting and padding the octets of a text is cutting and padding the text. -/
theorem pad_ofString (h : ∀ c ∈ cs, c.toNat < 128) :
    pad (Octets.ofString (String.ofList cs)) =
      Octets.ofString (String.ofList ((cs.take size).rightpad size ' ')) := by
  have hpadded : ∀ c ∈ (cs.take size).rightpad size ' ', c.toNat < 128 := by
    intro c hc
    rcases List.mem_append.1 hc with hcut | hspace
    · exact h c (List.mem_of_mem_take hcut)
    · rw [List.eq_of_mem_replicate hspace]
      decide
  have hmissing : size - (cs.take size).length = size - cs.length := by
    rw [List.length_take]
    omega
  rw [Octets.ofString_ofList h, Octets.ofString_ofList hpadded, pad, List.rightpad, List.map_append,
    List.map_take, List.map_replicate, List.length_map, hmissing]

/-- The octets that are cut are those of the cleaned name in UTF-8. -/
theorem ofString_eq_ofOctets (s : String) :
    ofString s = ofOctets (Octets.ofString (String.ofList (s.toList.map cleanChar))) := by
  rw [Octets.ofString_ofList fun c => lt_of_mem_map_cleanChar, List.map_map]
  rfl

theorem octets_ofString (s : String) :
    (ofString s).octets = Octets.ofString (String.ofList ((kept s).rightpad size ' ')) := by
  rw [ofString_eq_ofOctets, kept, List.map_take]
  exact pad_ofString fun c => lt_of_mem_map_cleanChar

/-- The text of the rid of a name is what is kept of the name. -/
theorem text_ofString (s : String) : (ofString s).text = String.ofList (kept s) := by
  have htrim : Text.trim ((kept s).rightpad size ' ') = kept s := by
    refine Text.trim_append (List.forall_mem_map.2 fun c _ => isBlank_cleanChar c) fun c hc => ?_
    rw [List.eq_of_mem_replicate hc]
    decide
  rw [text, octets_ofString, Octets.toString?_ofString]
  simp only [String.toList_ofList, htrim]

/-! ### Names with the same rid -/

theorem eq_of_octets {r r' : Rid} (h : r.octets = r'.octets) : r = r' := by
  cases r
  cases r'
  cases h
  rfl

theorem ofString_eq_of_kept (h : kept s = kept t) : ofString s = ofString t := by
  apply eq_of_octets
  rw [octets_ofString, octets_ofString, h]

/-- The text of a rid is a name of the same rid. -/
theorem ofString_text (s : String) : ofString (ofString s).text = ofString s := by
  rw [text_ofString]
  exact ofString_eq_of_kept (kept_ofList_kept s)

/-- Rids of names are told apart by their texts. -/
theorem ofString_eq_iff : ofString s = ofString t ↔ (ofString s).text = (ofString t).text := by
  constructor
  · intro h
    rw [h]
  · intro h
    rw [← ofString_text s, h, ofString_text]

/-- A short name of letters and digits is the text of its own rid and of no other name's. -/
theorem text_ofString_eq_iff (hlength : w.toList.length < size)
    (hw : ∀ c ∈ w.toList, c.isAlphanum = true) : (ofString s).text = w ↔ s = w := by
  rw [text_ofString]
  constructor
  · intro h
    have hkept : kept s = w.toList := by rw [← h, String.toList_ofList]
    -- Had the name been cut, eight characters would have been kept.
    have hshort : s.toList.length ≤ size := by
      have hcount := congrArg List.length hkept
      rw [kept, List.length_map, List.length_take] at hcount
      omega
    -- Had a character been cleaned, an underscore would have been kept.
    have hclean : ∀ c ∈ s.toList, cleanChar c = c := by
      intro c hc
      have hmem : cleanChar c ∈ kept s := by
        rw [kept, List.take_of_length_le hshort]
        exact List.mem_map_of_mem hc
      exact cleanChar_eq_self (hw _ (hkept ▸ hmem))
    exact String.toList_injective ((kept_eq_toList hshort hclean).symm.trans hkept)
  · rintro rfl
    rw [kept_eq_toList (Nat.le_of_lt hlength) fun c hc => cleanChar_of_isAlphanum (hw c hc),
      String.ofList_toList]

end Rid

/-! ### Layers -/

theorem Layer.ofName?_eq_some_iff {s : String} {l : Layer} : Layer.ofName? s = some l ↔ s = l.name := by
  constructor
  · intro h
    have hname : (l.name == s) = true := List.find?_some (p := fun l : Layer => l.name == s) h
    exact (eq_of_beq hname).symm
  · rintro rfl
    cases l <;> decide

/-- The name of a layer is a single letter. -/
theorem Layer.exists_letter (l : Layer) :
    ∃ c : Char, l.name.toList = [c] ∧ c.isAlphanum = true := by
  cases l with
  | high => exact ⟨'f', rfl, rfl⟩
  | medium => exact ⟨'h', rfl, rfl⟩
  | low => exact ⟨'q', rfl, rfl⟩

namespace Rid

variable {s : String} {l : Layer}

theorem ofName?_text_eq_some_iff : Layer.ofName? (ofString s).text = some l ↔ s = l.name := by
  obtain ⟨c, hname, hletter⟩ := l.exists_letter
  rw [Layer.ofName?_eq_some_iff]
  apply text_ofString_eq_iff
  · rw [hname, List.length_singleton]
    decide
  · rw [hname]
    exact List.forall_mem_singleton.2 hletter

/-- The text of a rid names the same layer as the name it is made from. -/
theorem ofName?_text (s : String) : Layer.ofName? (ofString s).text = Layer.ofName? s :=
  Option.ext fun _ => ofName?_text_eq_some_iff.trans Layer.ofName?_eq_some_iff.symm

theorem layerIn_of_rid {e : Encoding} (h : e.rid = some (ofString s)) (count : Nat) :
    Parameters.layerIn count e = Layer.ofName? s := by
  simp only [Parameters.layerIn, h, ofName?_text]

/-- The text of a rid is the beginning of the name it is made from, cleaned. It is a name of the same
rid, and rids with the same text are the same. It names a layer exactly if the name itself does, so
that an encoding carries the layer that its name stands for, and none if the name is longer than that
of a layer, padded, or only looks like it. -/
theorem ofString_confuses_no_layers (s t : String) :
    (ofString s).text =
        String.ofList ((s.toList.take 8).map fun c => if c.isAlphanum then c else '_') ∧
      ofString (ofString s).text = ofString s ∧
      (ofString s = ofString t ↔ (ofString s).text = (ofString t).text) ∧
      Layer.ofName? (ofString s).text = Layer.ofName? s ∧
      (∀ l : Layer, Layer.ofName? (ofString s).text = some l ↔ s = l.name) ∧
      ∀ (p : Parameters) (i : Nat) (e : Encoding), p.encodings[i]? = some e →
        e.rid = some (ofString s) → p.layerOf? i = Layer.ofName? s := by
  refine ⟨text_ofString s, ofString_text s, ofString_eq_iff, ofName?_text s,
    fun l => ofName?_text_eq_some_iff, fun p i e he hrid => ?_⟩
  rw [Parameters.layerOf?, he, Option.bind_some, layerIn_of_rid hrid]

/-- A fullwidth letter is cleaned away, and its encoding carries no layer, while that of the ASCII
letter is the high layer. -/
theorem fullwidth_letter_names_no_layer :
    let p : Parameters := ⟨[.unlimited (some (.ofString "\uff46")), .unlimited (some Layer.high.rid)]⟩
    p.layerOf? 0 = none ∧ p.layerOf? 1 = some .high := by
  intro p
  obtain ⟨-, -, -, -, -, hwide⟩ := ofString_confuses_no_layers "\uff46" "f"
  obtain ⟨-, -, -, -, -, hascii⟩ := ofString_confuses_no_layers "f" "\uff46"
  exact ⟨(hwide p 0 _ rfl rfl).trans (by decide), (hascii p 1 _ rfl rfl).trans (by decide)⟩

end Rid

end Simulcast
