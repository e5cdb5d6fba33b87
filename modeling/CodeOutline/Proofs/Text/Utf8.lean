/-
  CodeOutline/Proofs/Text/Utf8.lean
  =================================
  **Reading UTF-8 undoes writing it.**

  The reader is a machine on bytes.  A continuation byte of an opened character is one step of it
  (`decodeFrom_more`, `decodeFrom_last`), and the bounds that the first byte sets for the second
  are met by every character, which is where overlong forms and surrogates are kept out
  (`decodeFrom_encodeChar`).

  A byte below 128 is a character of its own and part of no other (`eq_of_mem_encodeChar`), so line
  marks in the bytes are line marks in the text.
-/
import CodeOutline.Text.Utf8

namespace CodeOutline.Utf8

open Text (Chars)

@[simp] theorem encode_nil : encode [] = [] := rfl

@[simp] theorem encode_cons (c : Char) (s : Chars) :
    encode (c :: s) = String.utf8EncodeChar c ++ encode s := by
  simp [encode]

@[simp] theorem encode_append (s t : Chars) : encode (s ++ t) = encode s ++ encode t := by
  simp [encode]

theorem encode_flatten (parts : List Chars) :
    encode parts.flatten = (parts.map encode).flatten := by
  induction parts with
  | nil => rfl
  | cons part parts ih => simp [ih]

theorem encode_eq_nil_iff {s : Chars} : encode s = [] ↔ s = [] := by
  cases s with
  | nil => simp
  | cons c s => simp [String.utf8EncodeChar_ne_nil]

/-! ### One byte -/

theorem decodeFrom_last {position : Nat} {o : Opened} {d : Nat} {rest : List UInt8}
    (howed : o.owed = 0) (hd : d < 64) (hlow : o.low ≤ d + 0x80) (hhigh : d + 0x80 ≤ o.high) :
    decodeFrom position (some o) (UInt8.ofNat (d + 0x80) :: rest) =
      (decodeFrom (position + o.width + 1) none rest).map (Char.ofNat (o.code * 64 + d) :: ·) := by
  have hbyte : (UInt8.ofNat (d + 0x80)).toNat = d + 0x80 := by
    rw [UInt8.toNat_ofNat']; omega
  rw [decodeFrom]
  simp only [hbyte]
  rw [if_neg (by simp; omega), if_pos howed, Nat.add_sub_cancel]

theorem decodeFrom_more {position : Nat} {o : Opened} {d owed : Nat} {rest : List UInt8}
    (howed : o.owed = owed + 1) (hd : d < 64) (hlow : o.low ≤ d + 0x80)
    (hhigh : d + 0x80 ≤ o.high) :
    decodeFrom position (some o) (UInt8.ofNat (d + 0x80) :: rest) =
      decodeFrom position (some ⟨o.first, o.width + 1, owed, 0x80, 0xbf, o.code * 64 + d⟩)
        rest := by
  have hbyte : (UInt8.ofNat (d + 0x80)).toNat = d + 0x80 := by
    rw [UInt8.toNat_ofNat']; omega
  rw [decodeFrom]
  simp only [hbyte]
  rw [if_neg (by simp; omega), if_neg (by omega), Nat.add_sub_cancel, howed, Nat.add_sub_cancel]

theorem decodeFrom_opens {position : Nat} {b : UInt8} {o : Opened} {rest : List UInt8}
    (hlead : lead b = .opens o) :
    decodeFrom position none (b :: rest) = decodeFrom position (some o) rest := by
  rw [decodeFrom, hlead]

/-! ### One character -/

theorem lead_ascii {v : Nat} (hv : v ≤ 0x7f) : lead (UInt8.ofNat v) = .single (Char.ofNat v) := by
  have hbyte : (UInt8.ofNat v).toNat = v := by rw [UInt8.toNat_ofNat']; omega
  simp only [lead, hbyte]
  rw [if_pos (by omega)]

theorem lead_two {d : Nat} (hlow : 2 ≤ d) (hhigh : d < 32) :
    lead (UInt8.ofNat (d + 0xc0)) =
      .opens ⟨UInt8.ofNat (d + 0xc0), 1, 0, 0x80, 0xbf, d⟩ := by
  have hbyte : (UInt8.ofNat (d + 0xc0)).toNat = d + 0xc0 := by rw [UInt8.toNat_ofNat']; omega
  simp only [lead, hbyte]
  rw [if_neg (by omega), if_neg (by omega), if_pos (by omega), Nat.add_sub_cancel]

theorem lead_three {d : Nat} (hhigh : d < 16) :
    lead (UInt8.ofNat (d + 0xe0)) =
      .opens ⟨UInt8.ofNat (d + 0xe0), 1, 1, if d = 0 then 0xa0 else 0x80,
        if d = 13 then 0x9f else 0xbf, d⟩ := by
  have hbyte : (UInt8.ofNat (d + 0xe0)).toNat = d + 0xe0 := by rw [UInt8.toNat_ofNat']; omega
  have hfirst : d + 0xe0 = 0xe0 ↔ d = 0 := by omega
  have hsurrogate : d + 0xe0 = 0xed ↔ d = 13 := by omega
  simp only [lead, hbyte, hfirst, hsurrogate]
  rw [if_neg (by omega), if_neg (by omega), if_neg (by omega), if_pos (by omega),
    Nat.add_sub_cancel]

theorem lead_four {d : Nat} (hhigh : d < 5) :
    lead (UInt8.ofNat (d + 0xf0)) =
      .opens ⟨UInt8.ofNat (d + 0xf0), 1, 2, if d = 0 then 0x90 else 0x80,
        if d = 4 then 0x8f else 0xbf, d⟩ := by
  have hbyte : (UInt8.ofNat (d + 0xf0)).toNat = d + 0xf0 := by rw [UInt8.toNat_ofNat']; omega
  have hfirst : d + 0xf0 = 0xf0 ↔ d = 0 := by omega
  have hlast : d + 0xf0 = 0xf4 ↔ d = 4 := by omega
  simp only [lead, hbyte, hfirst, hlast]
  rw [if_neg (by omega), if_neg (by omega), if_neg (by omega), if_neg (by omega),
    if_pos (by omega), Nat.add_sub_cancel]

/-- The reader takes one written character, whatever follows it. -/
theorem decodeFrom_encodeChar (position : Nat) (c : Char) (rest : List UInt8) :
    decodeFrom position none (String.utf8EncodeChar c ++ rest) =
      (decodeFrom (position + (String.utf8EncodeChar c).length) none rest).map (c :: ·) := by
  have hvalid : c.val.toNat < 0xd800 ∨ 0xdfff < c.val.toNat ∧ c.val.toNat < 0x110000 := c.valid
  have hchar : Char.ofNat c.val.toNat = c := Char.ofNat_toNat c
  unfold String.utf8EncodeChar
  generalize c.val.toNat = v at hvalid hchar
  simp only
  split
  · rename_i hv
    rw [List.singleton_append, decodeFrom, lead_ascii hv, hchar]
    rfl
  split
  · rename_i hascii hv
    have hcode : v / 64 % 32 * 64 + v % 64 = v := by omega
    rw [List.cons_append, decodeFrom_opens (lead_two (by omega) (by omega)), List.singleton_append,
      decodeFrom_last rfl (by omega) (by show 0x80 ≤ _; omega) (by show _ ≤ 0xbf; omega), hcode,
      hchar]
    rfl
  split
  · rename_i hascii htwo hv
    have hcode : (v / 4096 % 16 * 64 + v / 64 % 64) * 64 + v % 64 = v := by omega
    rw [List.cons_append, decodeFrom_opens (lead_three (by omega)), List.cons_append,
      decodeFrom_more rfl (by omega) (by show (if _ then 0xa0 else 0x80) ≤ _; split <;> omega)
        (by show _ ≤ (if _ then 0x9f else 0xbf); split <;> omega),
      List.singleton_append,
      decodeFrom_last rfl (by omega) (by show 0x80 ≤ _; omega) (by show _ ≤ 0xbf; omega), hcode,
      hchar]
    rfl
  · rename_i hascii htwo hthree
    have hcode :
        ((v / 262144 % 8 * 64 + v / 4096 % 64) * 64 + v / 64 % 64) * 64 + v % 64 = v := by omega
    rw [List.cons_append, decodeFrom_opens (lead_four (by omega)), List.cons_append,
      decodeFrom_more rfl (by omega) (by show (if _ then 0x90 else 0x80) ≤ _; split <;> omega)
        (by show _ ≤ (if _ then 0x8f else 0xbf); split <;> omega),
      List.cons_append,
      decodeFrom_more rfl (by omega) (by show 0x80 ≤ _; omega) (by show _ ≤ 0xbf; omega),
      List.singleton_append,
      decodeFrom_last rfl (by omega) (by show 0x80 ≤ _; omega) (by show _ ≤ 0xbf; omega), hcode,
      hchar]
    rfl

/-! ### Texts -/

theorem decodeFrom_encode (position : Nat) (s : Chars) :
    decodeFrom position none (encode s) = .ok s := by
  induction s generalizing position with
  | nil => rfl
  | cons c s ih =>
    rw [encode_cons, decodeFrom_encodeChar, ih]
    rfl

/-- **What was written is read back.** -/
theorem decode_encode (s : Chars) : decode (encode s) = .ok s :=
  decodeFrom_encode 0 s

/-- A byte below 128 is written for the character of that number only, and is all of it. -/
theorem eq_of_mem_encodeChar {c : Char} {b : UInt8} (hb : b ∈ String.utf8EncodeChar c)
    (hascii : b.toNat < 0x80) : c = Char.ofNat b.toNat ∧ String.utf8EncodeChar c = [b] := by
  have hchar : Char.ofNat c.val.toNat = c := Char.ofNat_toNat c
  have hhigh : ∀ d lead : Nat, 0x80 ≤ lead → d + lead < 0x100 → b ≠ UInt8.ofNat (d + lead) := by
    rintro d lead hlead hbound rfl
    rw [UInt8.toNat_ofNat'] at hascii
    omega
  unfold String.utf8EncodeChar at hb ⊢
  generalize c.val.toNat = v at hb hchar
  simp only at hb ⊢
  split at hb
  · rename_i hv
    rw [List.mem_singleton] at hb
    have hbyte : b.toNat = v := by
      rw [hb, UInt8.toNat_ofNat']
      omega
    exact ⟨by rw [hbyte, hchar], by simp [hb, hv]⟩
  · -- all bytes of the longer forms are 128 or more
    exfalso
    split at hb
    · simp only [List.mem_cons, List.not_mem_nil, or_false] at hb
      rcases hb with hb | hb <;> exact hhigh _ _ (by omega) (by omega) hb
    split at hb
    · simp only [List.mem_cons, List.not_mem_nil, or_false] at hb
      rcases hb with hb | hb | hb <;> exact hhigh _ _ (by omega) (by omega) hb
    · simp only [List.mem_cons, List.not_mem_nil, or_false] at hb
      rcases hb with hb | hb | hb | hb <;> exact hhigh _ _ (by omega) (by omega) hb

/-! ### Characters that are written as one byte -/

variable {c : Char} {b : UInt8}

theorem mem_encode_iff (hc : String.utf8EncodeChar c = [b]) (hascii : b.toNat < 0x80) {s : Chars} :
    b ∈ encode s ↔ c ∈ s := by
  have hb : c = Char.ofNat b.toNat := (eq_of_mem_encodeChar (by simp [hc]) hascii).1
  rw [encode, List.mem_flatMap]
  constructor
  · rintro ⟨d, hd, hmem⟩
    rwa [hb, ← (eq_of_mem_encodeChar hmem hascii).1]
  · intro hmem
    exact ⟨c, hmem, by simp [hc]⟩

theorem getLast?_encode_iff (hc : String.utf8EncodeChar c = [b]) (hascii : b.toNat < 0x80)
    {s : Chars} : (encode s).getLast? = some b ↔ s.getLast? = some c := by
  have hb : c = Char.ofNat b.toNat := (eq_of_mem_encodeChar (by simp [hc]) hascii).1
  rcases List.eq_nil_or_concat s with rfl | ⟨before, d, rfl⟩
  · simp
  · have hlast : (encode (before ++ [d])).getLast? = (String.utf8EncodeChar d).getLast? := by
      rw [encode_append, encode_cons, encode_nil, List.append_nil, List.getLast?_append,
        List.getLast?_eq_some_getLast String.utf8EncodeChar_ne_nil, Option.some_or]
    rw [List.concat_eq_append, hlast, List.getLast?_concat, Option.some.injEq]
    constructor
    · intro hmem
      rw [hb, ← (eq_of_mem_encodeChar (List.mem_of_getLast? hmem) hascii).1]
    · rintro rfl
      simp [hc]

end CodeOutline.Utf8
