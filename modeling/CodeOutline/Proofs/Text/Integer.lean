/-
  CodeOutline/Proofs/Text/Integer.lean
  ====================================
  **Which texts spell an integer.**

  `readInteger_eq_some_iff` says what is read: a sign or none, and digits of any script with single
  underscores between them, as many as the limit allows.  An integer in decimal digits is one of
  these texts (`spellsInteger_toString`).
-/
import CodeOutline.Proofs.Text.Blank
import CodeOutline.Text.Integer

namespace CodeOutline.Text

/-! ### Digits -/

/-- Whether a text is made of digits of the given values, with underscores between some of them. -/
inductive Spelled (digit? : Char → Option Nat) : Chars → List Nat → Prop where
  | last {c : Char} {n : Nat} (hc : digit? c = some n) : Spelled digit? [c] [n]
  | next {c : Char} {n : Nat} {rest : Chars} {digits : List Nat} (hc : digit? c = some n)
      (hrest : Spelled digit? rest digits) : Spelled digit? (c :: rest) (n :: digits)
  | apart {c : Char} {n : Nat} {rest : Chars} {digits : List Nat} (hc : digit? c = some n)
      (hrest : Spelled digit? rest digits) : Spelled digit? (c :: '_' :: rest) (n :: digits)

variable {digit? : Char → Option Nat}

theorem exists_head_of_spelled {s : Chars} {digits : List Nat} (hs : Spelled digit? s digits) :
    ∃ c n rest, s = c :: rest ∧ digit? c = some n := by
  cases hs with
  | last hc => exact ⟨_, _, _, rfl, hc⟩
  | next hc _ => exact ⟨_, _, _, rfl, hc⟩
  | apart hc _ => exact ⟨_, _, _, rfl, hc⟩

theorem spelled_append {s t : Chars} {digits others : List Nat} (hs : Spelled digit? s digits)
    (ht : Spelled digit? t others) : Spelled digit? (s ++ t) (digits ++ others) := by
  induction hs with
  | last hc => exact .next hc ht
  | next hc _ ih => exact .next hc ih
  | apart hc _ ih => exact .apart hc ih

theorem readDigits_eq_some_iff (hunderscore : digit? '_' = none) {s : Chars} {digits : List Nat} :
    readDigits digit? s = some digits ↔ Spelled digit? s digits := by
  fun_induction readDigits digit? s generalizing digits with
  | case1 =>
    constructor
    · intro hnone
      cases hnone
    · intro hs
      cases hs
  | case2 c =>
    rw [Option.map_eq_some_iff]
    constructor
    · rintro ⟨n, hc, rfl⟩
      exact .last hc
    · intro hs
      cases hs with
      | last hc => exact ⟨_, hc, rfl⟩
      | next hc hrest => cases hrest
  | case3 c d rest hc =>
    constructor
    · intro hnone
      cases hnone
    · intro hs
      cases hs with
      | next hn _ => rw [hc] at hn; cases hn
      | apart hn _ => rw [hc] at hn; cases hn
  | case4 c d rest n hc ihafter ihnext =>
    rw [Option.map_eq_some_iff]
    constructor
    · rintro ⟨others, hread, rfl⟩
      by_cases hd : d = '_'
      · subst hd
        rw [if_pos rfl] at hread
        exact .apart hc (ihafter.mp hread)
      · rw [if_neg hd] at hread
        exact .next hc (ihnext.mp hread)
    · intro hs
      cases hs with
      | next hm hrest =>
        obtain rfl := Option.some.inj (hc.symm.trans hm)
        have hd : d ≠ '_' := by
          rintro rfl
          obtain ⟨_, m, _, heq, hdigit⟩ := exists_head_of_spelled hrest
          obtain ⟨rfl, -⟩ := List.cons.inj heq
          rw [hunderscore] at hdigit
          cases hdigit
        rw [if_neg hd]
        exact ⟨_, ihnext.mpr hrest, rfl⟩
      | apart hm hrest =>
        obtain rfl := Option.some.inj (hc.symm.trans hm)
        exact ⟨_, ihafter.mpr hrest, rfl⟩

/-! ### Integers -/

/-- Whether a text, white space at its ends aside, is a sign or none and the digits of an
integer. -/
def SpellsInteger (s : Chars) (n : Int) : Prop :=
  ∃ sign body digits, trimWhiteSpace s = sign ++ body ∧ sign ∈ [[], ['+'], ['-']] ∧
    Spelled decimalDigit? body digits ∧ digits.length ≤ digitLimit ∧
      n = signed (sign == ['-']) (digitsValue digits)

theorem readSign_cases (s : Chars) :
    ∃ sign body, s = sign ++ body ∧ sign ∈ [[], ['+'], ['-']] ∧
      readSign s = (sign == ['-'], body) := by
  fun_cases readSign s with
  | case1 rest => exact ⟨['-'], rest, rfl, by decide, rfl⟩
  | case2 rest => exact ⟨['+'], rest, rfl, by decide, rfl⟩
  | case3 => exact ⟨[], s, rfl, by decide, rfl⟩

/-- Digits are not taken for a sign. -/
theorem readSign_of_spelled {sign body : Chars} {digits : List Nat}
    (hsign : sign ∈ [[], ['+'], ['-']]) (hbody : Spelled decimalDigit? body digits) :
    readSign (sign ++ body) = (sign == ['-'], body) := by
  obtain ⟨c, n, rest, rfl, hc⟩ := exists_head_of_spelled hbody
  simp only [List.mem_cons, List.not_mem_nil, or_false] at hsign
  rcases hsign with rfl | rfl | rfl
  · rw [List.nil_append, readSign]
    · rfl
    · intro rest heq
      obtain ⟨rfl, -⟩ := List.cons.inj heq
      cases hc
    · intro rest heq
      obtain ⟨rfl, -⟩ := List.cons.inj heq
      cases hc
  · rfl
  · rfl

/-- Which texts spell an integer. -/
theorem readInteger_eq_some_iff {s : Chars} {n : Int} :
    readInteger s = some n ↔ SpellsInteger s n := by
  have hunderscore : decimalDigit? '_' = none := by decide
  constructor
  · intro hread
    obtain ⟨sign, body, htrim, hsign, hreadSign⟩ := readSign_cases (trimWhiteSpace s)
    simp only [readInteger, hreadSign] at hread
    split at hread
    case h_2 => cases hread
    case h_1 digits hdigits =>
      split at hread
      case isFalse => cases hread
      case isTrue hlength =>
        exact ⟨sign, body, digits, htrim, hsign, (readDigits_eq_some_iff hunderscore).mp hdigits,
          hlength, (Option.some.inj hread).symm⟩
  · rintro ⟨sign, body, digits, htrim, hsign, hdigits, hlength, rfl⟩
    simp only [readInteger, htrim, readSign_of_spelled hsign hdigits,
      (readDigits_eq_some_iff hunderscore).mpr hdigits, if_pos hlength]

/-! ### Decimal digits -/

theorem digitsValue_concat (digits : List Nat) (d : Nat) :
    digitsValue (digits ++ [d]) = digitsValue digits * 10 + d := by
  rw [digitsValue, List.foldl_append]
  rfl

theorem decimalDigit?_digitChar : ∀ d < 10, decimalDigit? (Nat.digitChar d) = some d := by
  decide

theorem spelled_toDigits (n : Nat) :
    ∃ digits, Spelled decimalDigit? (Nat.toDigits 10 n) digits ∧
      digits.length = (Nat.toDigits 10 n).length ∧ digitsValue digits = n := by
  induction n using Nat.strong_induction_on with
  | _ n ih =>
    rw [Nat.toDigits_eq_if (by decide)]
    by_cases hn : n < 10
    · rw [if_pos hn]
      exact ⟨[n], .last (decimalDigit?_digitChar n hn), rfl, by simp [digitsValue]⟩
    · rw [if_neg hn]
      obtain ⟨digits, hdigits, hlength, hvalue⟩ := ih (n / 10) (by omega)
      have hlast : Spelled decimalDigit? [Nat.digitChar (n % 10)] [n % 10] :=
        .last (decimalDigit?_digitChar _ (Nat.mod_lt n (by decide)))
      refine ⟨digits ++ [n % 10], spelled_append hdigits hlast, by simp [hlength], ?_⟩
      rw [digitsValue_concat, hvalue]
      omega

theorem toList_toString (n : Int) :
    (toString n).toList = (if n < 0 then ['-'] else []) ++ Nat.toDigits 10 n.natAbs := by
  cases n with
  | ofNat n =>
    have hnonneg : ¬ Int.ofNat n < 0 := by simp
    rw [if_neg hnonneg]
    exact Nat.toList_repr
  | negSucc n =>
    have hneg : Int.negSucc n < 0 := Int.negSucc_lt_zero n
    rw [if_pos hneg]
    show ("-" ++ (n + 1).repr).toList = _
    rw [String.toList_append, Nat.toList_repr]
    rfl

theorem toString_ne_nil (n : Int) : (toString n).toList ≠ [] := by
  rw [toList_toString]
  exact List.append_ne_nil_of_right_ne_nil _ Nat.toDigits_ne_nil

theorem isBlank_of_mem_toString {n : Int} {c : Char} (hc : c ∈ (toString n).toList) :
    isBlank c = false := by
  rw [toList_toString, List.mem_append] at hc
  rcases hc with hsign | hdigit
  · by_cases hneg : n < 0
    · rw [if_pos hneg, List.mem_singleton] at hsign
      subst hsign
      decide
    · simp [hneg] at hsign
  · have hdigit : c.isDigit = true := Nat.isDigit_of_mem_toDigits (by decide) (by decide) hdigit
    rw [Char.isDigit_iff_toNat, show '0'.toNat = 48 from rfl,
      show '9'.toNat = 57 from rfl] at hdigit
    exact isBlank_of_visible (by omega) (by omega)

/-- An integer in decimal digits is read back. -/
theorem spellsInteger_toString {n : Int}
    (hlength : (Nat.toDigits 10 n.natAbs).length ≤ digitLimit) :
    SpellsInteger (toString n).toList n := by
  obtain ⟨digits, hdigits, hsame, hvalue⟩ := spelled_toDigits n.natAbs
  refine ⟨if n < 0 then ['-'] else [], _, digits, ?_, ?_, hdigits, hsame ▸ hlength, ?_⟩
  · have hshown : ∀ c ∈ (toString n).toList, isWhiteSpace c = false := by
      intro c hc
      exact isWhiteSpace_of_isBlank (isBlank_of_mem_toString hc)
    rw [trimWhiteSpace_of_forall hshown, toList_toString]
  · split <;> decide
  · rw [hvalue]
    by_cases hneg : n < 0
    · rw [if_pos hneg]
      show n = -(n.natAbs : Int)
      omega
    · rw [if_neg hneg]
      show n = (n.natAbs : Int)
      omega

end CodeOutline.Text
