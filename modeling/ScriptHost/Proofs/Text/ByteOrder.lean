import Mathlib.Data.List.Lex

/-!
# The byte order of strings

Strings are ordered by their characters. In UTF-8 that is the order of their bytes: a character with
a greater code point has a greater first byte or as many bytes, of which the first that differs is
greater. Main statement: `utf8Bytes_lt`.
-/

set_option autoImplicit false

namespace ScriptHost

/-- The bytes of a string. -/
def utf8Bytes (s : String) : List UInt8 := s.toUTF8.data.toList

/-- The bytes of a string are those of its characters, in their order. -/
theorem utf8Bytes_eq (s : String) : utf8Bytes s = s.toList.flatMap String.utf8EncodeChar := by
  have hencoded : s.toByteArray = (s.toList.flatMap String.utf8EncodeChar).toByteArray :=
    String.utf8Encode_toList.symm
  show s.toByteArray.data.toList = _
  rw [hencoded, List.data_toByteArray]

/-- The bytes of a character decide, whatever follows. -/
theorem utf8EncodeChar_append_lt {a b : Char} (h : a < b) (x y : List UInt8) :
    String.utf8EncodeChar a ++ x < String.utf8EncodeChar b ++ y := by
  have hlt : a.val.toNat < b.val.toNat := h
  have hb : b.val.toNat < 0x110000 := by
    rcases b.valid with h | h
    · exact Nat.lt_trans h (by decide)
    · exact h.2
  -- The bytes after the first one are the digits of the code point to the base 64.
  have hdigits (n : Nat) : n / 64 / 64 = n / 4096 ∧ n / 4096 / 64 = n / 262144 :=
    ⟨Nat.div_div_eq_div_mul _ _ _, Nat.div_div_eq_div_mul _ _ _⟩
  obtain ⟨ha₁, ha₂⟩ := hdigits a.val.toNat
  obtain ⟨hb₁, hb₂⟩ := hdigits b.val.toNat
  have hbyte {k : Nat} (hk : k < 256) : (UInt8.ofNat k).toNat = k := UInt8.toNat_ofNat_of_lt' hk
  unfold String.utf8EncodeChar
  generalize a.val.toNat = m at *
  generalize b.val.toNat = n at *
  have hm : m / 262144 % 8 = m / 262144 := Nat.mod_eq_of_lt (by omega)
  have hn : n / 262144 % 8 = n / 262144 := Nat.mod_eq_of_lt (by omega)
  dsimp only
  rw [hm, hn]
  split_ifs <;> simp only [List.cons_append, List.nil_append, List.cons_lt_cons_iff,
    UInt8.lt_iff_toNat_lt, ← UInt8.toNat_inj]
  all_goals
    simp (disch := omega) only [hbyte]
    omega

/-- Where two texts differ the characters decide, and their bytes do. -/
theorem flatMap_utf8EncodeChar_lt {l m : List Char} (h : l < m) :
    l.flatMap String.utf8EncodeChar < m.flatMap String.utf8EncodeChar := by
  induction h with
  -- The shorter text has no bytes where the longer one has some.
  | @nil b m =>
    have hne : (b :: m).flatMap String.utf8EncodeChar ≠ [] := by
      simp [String.utf8EncodeChar_ne_nil]
    obtain ⟨x, xs, hx⟩ := List.exists_cons_of_ne_nil hne
    rw [hx]
    exact .nil
  | rel h => exact utf8EncodeChar_append_lt h _ _
  -- What both begin with makes no difference.
  | @cons a l m _ ih =>
    rw [List.flatMap_cons, List.flatMap_cons]
    exact List.append_left_lt ih

/-- **A lesser string has lesser bytes.** -/
theorem utf8Bytes_lt {a b : String} (h : a < b) : utf8Bytes a < utf8Bytes b := by
  rw [utf8Bytes_eq, utf8Bytes_eq]
  exact flatMap_utf8EncodeChar_lt h

end ScriptHost
