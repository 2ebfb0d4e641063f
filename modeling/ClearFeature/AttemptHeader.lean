import ClearFeature.Runner

/-!
# The attempt header

`str` writes an integer in digits that `int` reads back, so the header of a
retry copy carries the attempt that was counted.
-/

namespace ClearFeature

theorem digitsValue_digits : ∀ {cs : List Char} {n : Nat}, (∀ c ∈ cs, c.isDigit = true) →
    digitsValue cs (some n) = some (Nat.ofDigitChars 10 cs n)
  | [], n, _ => rfl
  | c :: cs, n, h => by
    have hc := h c List.mem_cons_self
    have hne : c ≠ '_' := by
      rintro rfl
      exact absurd hc (by decide)
    rw [digitsValue.eq_3 _ _ _ (fun d ds m e => by simp_all), if_pos hc, digitsValue_digits fun d hd => h d (List.mem_cons_of_mem _ hd),
      Nat.ofDigitChars_cons]
    rfl

theorem digitsValue_toDigits (n : Nat) : digitsValue (Nat.toDigits 10 n) none = some n := by
  have hdigits : ∀ c ∈ Nat.toDigits 10 n, c.isDigit = true := fun c hc =>
    Nat.isDigit_of_mem_toDigits (by decide) (by decide) hc
  have hvalue : Nat.ofDigitChars 10 (Nat.toDigits 10 n) 0 = n := Nat.ofDigitChars_ten_toDigits
  cases h : Nat.toDigits 10 n with
  | nil => exact absurd h Nat.toDigits_ne_nil
  | cons c cs =>
    rw [h] at hdigits hvalue
    have hc := hdigits c List.mem_cons_self
    rw [digitsValue.eq_3 _ _ _ (fun d ds m e => by simp_all), if_pos hc, digitsValue_digits fun d hd => hdigits d (List.mem_cons_of_mem _ hd)]
    rw [Nat.ofDigitChars_cons] at hvalue
    exact congrArg some hvalue

/-- The characters of a numeral that `str` writes. -/
def IsNumeral (c : Char) : Prop := c = '-' ∨ c.isDigit = true

theorem IsNumeral.toNat {c : Char} (h : IsNumeral c) : c.toNat = 45 ∨ 48 ≤ c.toNat ∧ c.toNat ≤ 57 := by
  cases h with
  | inl h =>
    subst h
    exact .inl rfl
  | inr h =>
    rw [Char.isDigit, Bool.and_eq_true, decide_eq_true_eq, decide_eq_true_eq] at h
    exact .inr h

/-- A numeral in ASCII without white space is read as it is. -/
theorem strip_numeral {cs : List Char} (h : ∀ c ∈ cs, IsNumeral c) :
    (((cs.map asciiNumeral).dropWhile isAsciiSpace).reverse.dropWhile isAsciiSpace).reverse = cs := by
  have hsame : cs.map asciiNumeral = cs := by
    conv_rhs => rw [← List.map_id cs]
    apply List.map_congr_left
    intro c hc
    have := (h c hc).toNat
    rw [asciiNumeral, if_pos (by omega)]
    rfl
  have hspace : ∀ c ∈ cs, isAsciiSpace c = false := by
    intro c hc
    have := (h c hc).toNat
    simp only [isAsciiSpace, Bool.or_eq_false_iff, Bool.and_eq_false_iff, decide_eq_false_iff_not, beq_eq_false_iff_ne]
    omega
  have hdrop : ∀ {l : List Char}, (∀ c ∈ l, isAsciiSpace c = false) → l.dropWhile isAsciiSpace = l := by
    intro l hl
    cases l with
    | nil => rfl
    | cons c l => rw [List.dropWhile_cons_of_neg (by simp [hl c List.mem_cons_self])]
  rw [hsame, hdrop hspace, hdrop fun c hc => hspace c (List.mem_reverse.mp hc), List.reverse_reverse]

theorem intOfText_digits (n : Nat) : intOfText (Nat.toDigits 10 n) = some (n : Int) := by
  have hdigits : ∀ c ∈ Nat.toDigits 10 n, c.isDigit = true := fun c hc =>
    Nat.isDigit_of_mem_toDigits (by decide) (by decide) hc
  rw [intOfText, strip_numeral fun c hc => .inr (hdigits c hc)]
  cases h : Nat.toDigits 10 n with
  | nil => exact absurd h Nat.toDigits_ne_nil
  | cons c cs =>
    have hc := hdigits c (h ▸ List.mem_cons_self)
    have hvalue := digitsValue_toDigits n
    rw [h] at hvalue
    split
    · rename_i heq
      cases heq
      exact absurd hc (by decide)
    · rename_i heq
      cases heq
      exact absurd hc (by decide)
    · rw [hvalue]
      rfl

theorem intOfText_negDigits (n : Nat) : intOfText ('-' :: Nat.toDigits 10 n) = some (-(n : Int)) := by
  have hnumeral : ∀ c ∈ '-' :: Nat.toDigits 10 n, IsNumeral c := by
    intro c hc
    rcases List.mem_cons.mp hc with rfl | hc
    · exact .inl rfl
    · exact .inr (Nat.isDigit_of_mem_toDigits (by decide) (by decide) hc)
  rw [intOfText, strip_numeral hnumeral]
  split
  · rename_i heq
    cases heq
    rw [digitsValue_toDigits]
    rfl
  · rename_i heq
    cases heq
  · rename_i hminus _
    exact absurd rfl (hminus _)

theorem toString_toList (n : Int) :
    (toString n).toList = if 0 ≤ n then Nat.toDigits 10 n.toNat else '-' :: Nat.toDigits 10 (-n).toNat := by
  rw [Int.toString_eq_repr, Int.repr_eq_if]
  by_cases h : 0 ≤ n
  · rw [if_pos h, if_pos h, Nat.toList_repr]
  · rw [if_neg h, if_neg h, String.toList_append, Nat.toList_repr]
    rfl

theorem intOfText_toString (n : Int) : intOfText (toString n).toList = some n := by
  rw [toString_toList]
  by_cases h : 0 ≤ n
  · rw [if_pos h, intOfText_digits]
    exact congrArg some (Int.toNat_of_nonneg h)
  · rw [if_neg h, intOfText_negDigits]
    congr 1
    omega

theorem toString_ascii (n : Int) : ∀ c ∈ (toString n).toList, c.toNat < 128 := by
  have hdigits : ∀ m, ∀ c ∈ Nat.toDigits 10 m, c.toNat < 128 := by
    intro m c hc
    have h := Nat.isDigit_of_mem_toDigits (by decide) (by decide) hc
    rw [Char.isDigit, Bool.and_eq_true, decide_eq_true_eq, decide_eq_true_eq] at h
    have h2 : c.toNat ≤ 57 := h.2
    omega
  rw [toString_toList]
  intro c hc
  by_cases h : 0 ≤ n
  · rw [if_pos h] at hc
    exact hdigits _ c hc
  · rw [if_neg h] at hc
    rcases List.mem_cons.mp hc with rfl | hc
    · decide
    · exact hdigits _ c hc

/-- The attempt that is written is the attempt that is read. -/
theorem getAttempt_withAttemptHeader (headers : Headers) (attempt : Int) :
    getAttempt (withAttemptHeader headers attempt) = attempt := by
  have hbyte : ∀ c ∈ (toString attempt).toList, (UInt8.ofNat c.toNat).toNat = c.toNat := by
    intro c hc
    rw [UInt8.toNat_ofNat']
    exact Nat.mod_eq_of_lt (lt_of_lt_of_le (toString_ascii attempt c hc) (by decide))
  have hascii : (asciiBytes (toString attempt)).all (fun b => decide (b < 128)) = true := by
    simp only [asciiBytes, List.all_map, List.all_eq_true, Function.comp_apply, decide_eq_true_eq]
    intro c hc
    rw [UInt8.lt_iff_toNat_lt, hbyte c hc]
    exact toString_ascii attempt c hc
  have hchars : (asciiBytes (toString attempt)).map (fun b => Char.ofNat b.toNat) = (toString attempt).toList := by
    rw [asciiBytes, List.map_map]
    conv_rhs => rw [← List.map_id (toString attempt).toList]
    refine List.map_congr_left fun c hc => ?_
    rw [Function.comp_apply, hbyte c hc, Char.ofNat_toNat]
    rfl
  rw [getAttempt, withAttemptHeader, Dict.get?_set_self]
  dsimp only
  rw [decodeUtf8, if_pos hascii, hchars, Option.bind_some, intOfText_toString]
  rfl

end ClearFeature
