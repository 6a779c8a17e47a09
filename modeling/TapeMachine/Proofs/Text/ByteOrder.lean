import Mathlib.Data.String.Basic
import TapeMachine.Text.WhiteSpace

/-! Two orders of texts that are the same: by their characters, and by the bytes of their UTF-8
form. The first byte of a character tells how many there are, and what does not fit into fewer bytes
has a larger first byte; among as many bytes, they are the digits of the character. -/
namespace TapeMachine.Text

def utf8Bytes (s : String) : List UInt8 := s.toUTF8.data.toList

/-- The bytes of the character with a given number, by how many there are. -/
inductive Encoded (n : Nat) : List UInt8 → Prop where
  | one (high : n < 128) : Encoded n [.ofNat n]
  | two (low : 128 ≤ n) (high : n < 2048) :
      Encoded n [.ofNat (n / 64 % 32 + 192), .ofNat (n % 64 + 128)]
  | three (low : 2048 ≤ n) (high : n < 65536) :
      Encoded n [.ofNat (n / 4096 % 16 + 224), .ofNat (n / 64 % 64 + 128), .ofNat (n % 64 + 128)]
  | four (low : 65536 ≤ n) (high : n < 1114112) :
      Encoded n [.ofNat (n / 262144 % 8 + 240), .ofNat (n / 4096 % 64 + 128),
        .ofNat (n / 64 % 64 + 128), .ofNat (n % 64 + 128)]

lemma encoded_utf8EncodeChar (c : Char) : Encoded c.toNat (String.utf8EncodeChar c) := by
  have hmax : c.toNat < 1114112 := by
    have hvalid : c.toNat.isValidChar := c.valid
    unfold Nat.isValidChar at hvalid
    omega
  unfold String.utf8EncodeChar
  change Encoded c.toNat (if c.toNat ≤ 127 then _ else if c.toNat ≤ 2047 then _
    else if c.toNat ≤ 65535 then _ else _)
  split_ifs with h₁ h₂ h₃
  · exact .one (by omega)
  · exact .two (by omega) (by omega)
  · exact .three (by omega) (by omega)
  · exact .four (by omega) hmax

lemma ofNat_cons_lt_iff {a b : Nat} {xs ys : List UInt8} (ha : a < 256) (hb : b < 256) :
    UInt8.ofNat a :: xs < UInt8.ofNat b :: ys ↔ a < b ∨ a = b ∧ xs < ys := by
  rw [List.cons_lt_cons_iff, UInt8.lt_iff_toNat_lt, ← UInt8.toNat_inj, UInt8.toNat_ofNat',
    UInt8.toNat_ofNat', Nat.mod_eq_of_lt ha, Nat.mod_eq_of_lt hb]

lemma Encoded.lt_max {n : Nat} {bs : List UInt8} (h : Encoded n bs) : n < 1114112 := by
  cases h <;> omega

/-- The bytes decide between two characters, whatever follows them. -/
lemma Encoded.append_lt {m n : Nat} {as bs : List UInt8} (ha : Encoded m as) (hb : Encoded n bs)
    (h : m < n) (xs ys : List UInt8) : as ++ xs < bs ++ ys := by
  have digits (k : Nat) (hk : k < 1114112) : k / 64 / 64 = k / 4096 ∧
      k / 4096 / 64 = k / 262144 ∧ k / 262144 % 8 = k / 262144 :=
    ⟨Nat.div_div_eq_div_mul k 64 64, Nat.div_div_eq_div_mul k 4096 64,
      Nat.mod_eq_of_lt (by omega)⟩
  have hm := digits m ha.lt_max
  have hn := digits n hb.lt_max
  cases ha <;> cases hb <;> simp only [List.cons_append, List.nil_append] <;>
    simp (disch := omega) only [ofNat_cons_lt_iff] <;> omega

lemma utf8Bytes_eq (s : String) : utf8Bytes s = s.toList.flatMap String.utf8EncodeChar := by
  rw [utf8Bytes, String.toUTF8_eq_toByteArray, ← String.utf8Encode_toList, List.utf8Encode]
  simp

lemma flatMap_encode_lt {cs ds : List Char} (h : cs < ds) :
    cs.flatMap String.utf8EncodeChar < ds.flatMap String.utf8EncodeChar := by
  induction h with
  | @nil d ds =>
    rw [List.flatMap_cons]
    have hd := encoded_utf8EncodeChar d
    generalize String.utf8EncodeChar d = first at hd
    cases hd <;> exact List.nil_lt_cons _ _
  | @cons c cs ds _ ih => exact List.append_left_lt ih
  | @rel c cs d ds hcd =>
    exact (encoded_utf8EncodeChar c).append_lt (encoded_utf8EncodeChar d) hcd _ _

lemma utf8Bytes_lt_of_lt {s t : String} (h : s < t) : utf8Bytes s < utf8Bytes t := by
  rw [utf8Bytes_eq, utf8Bytes_eq]
  exact flatMap_encode_lt (String.lt_iff_toList_lt.1 h)

/-- Texts are ordered as their bytes are. -/
theorem utf8Bytes_lt_iff {s t : String} : utf8Bytes s < utf8Bytes t ↔ s < t := by
  refine ⟨fun h => ?_, utf8Bytes_lt_of_lt⟩
  rcases lt_trichotomy s t with hlt | rfl | hlt
  · exact hlt
  · exact absurd h (List.lt_irrefl _)
  · exact absurd h (List.lt_asymm (utf8Bytes_lt_of_lt hlt))

end TapeMachine.Text
