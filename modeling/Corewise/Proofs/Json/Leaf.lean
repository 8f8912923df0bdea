import Corewise.Json.Reader
import Mathlib.Tactic.SplitIfs
/-!
Numbers and strings in JSON texts. A natural number of one word is written with its digits and in the range
that is read, and what is escaped in a string is read as what it was.
-/

namespace Corewise

theorem isDigit_toDigits (n : Nat) : ∀ c ∈ Nat.toDigits 10 n, c.isDigit = true :=
  fun _ hc => Nat.isDigit_of_mem_toDigits (by decide) (Nat.le_refl _) hc

theorem exists_digit_toDigits (n : Nat) :
    ∃ c ds, Nat.toDigits 10 n = c :: ds ∧ c.isDigit = true := by
  obtain ⟨c, ds, hds⟩ := List.exists_cons_of_ne_nil (Nat.toDigits_ne_nil (b := 10) (n := n))
  exact ⟨c, ds, hds, isDigit_toDigits n c (hds ▸ List.mem_cons_self)⟩

/-- Only zero starts with a zero. -/
theorem head_toDigits {n : Nat} (hn : n ≠ 0) : (Nat.toDigits 10 n).head? ≠ some '0' := by
  induction n using Nat.strongRecOn with
  | ind n ih =>
    rw [Nat.toDigits_eq_if (by decide)]
    split
    case isTrue hlt =>
      have hdigit : ∀ n : Fin 10, n.val ≠ 0 → n.val.digitChar ≠ '0' := by decide
      intro hzero
      exact hdigit ⟨n, hlt⟩ hn (Option.some.inj hzero)
    case isFalse hle =>
      have hrest := ih (n / 10) (by omega) (by omega)
      obtain ⟨c, ds, hds, -⟩ := exists_digit_toDigits (n / 10)
      rw [hds] at hrest ⊢
      exact hrest

namespace Json

/-- What follows a number ends it. -/
def EndsNumber (rest : List Char) : Prop :=
  ∀ c ∈ rest.head?, c.isDigit = false ∧ c ≠ '.' ∧ c ≠ 'e' ∧ c ≠ 'E'

namespace Magnitude

theorem le_ofDigitChars (ds : List Char) (n : Nat) : n ≤ Nat.ofDigitChars 10 ds n := by
  rw [Nat.ofDigitChars_eq_ofDigitChars_zero]
  exact Nat.le_add_right_of_le (Nat.le_mul_of_pos_left n (Nat.pow_pos (by decide)))

/-- Digits that all fit the significand are its digits. -/
theorem foldl_takeWhole (ds : List Char) (n : Nat) (h : Nat.ofDigitChars 10 ds n < UInt64.size) :
    ds.foldl takeWhole ⟨n, 0, false⟩ = ⟨Nat.ofDigitChars 10 ds n, 0, false⟩ := by
  induction ds generalizing n with
  | nil => rfl
  | cons d ds ih =>
    rw [Nat.ofDigitChars_cons] at h
    have hfits : 10 * n + (d.toNat - '0'.toNat) < UInt64.size :=
      Nat.lt_of_le_of_lt (le_ofDigitChars ds _) h
    have htake : takeWhole ⟨n, 0, false⟩ d = ⟨10 * n + (d.toNat - '0'.toNat), 0, false⟩ := by
      simp only [takeWhole, Bool.false_or, decide_eq_true_eq, if_neg (Nat.not_le.2 hfits)]
    rw [List.foldl_cons, htake, ih _ h, Nat.ofDigitChars_cons]

theorem roundQuotient_le (n unit : Nat) : Binary.roundQuotient n unit ≤ n / unit + 1 := by
  unfold Binary.roundQuotient
  dsimp only
  split
  · omega
  · split <;> omega

theorem rounded_le (n : Nat) : rounded n ≤ 3 * n := by
  rcases Nat.eq_zero_or_pos n with rfl | hn
  · decide
  have hunit : 2 ^ (n.log2 + 1 - BinaryFormat.double.precision) ≤ 2 * n := by
    calc 2 ^ (n.log2 + 1 - BinaryFormat.double.precision)
      _ ≤ 2 ^ (n.log2 + 1) := Nat.pow_le_pow_right (by decide) (Nat.sub_le _ _)
      _ = 2 * 2 ^ n.log2 := by rw [Nat.pow_succ, Nat.mul_comm]
      _ ≤ 2 * n := Nat.mul_le_mul_left 2 (Nat.log2_self_le (Nat.ne_of_gt hn))
  have hrounded : rounded n = Binary.roundQuotient n (2 ^ (n.log2 + 1 - BinaryFormat.double.precision)) *
      2 ^ (n.log2 + 1 - BinaryFormat.double.precision) := rfl
  rw [hrounded]
  generalize (2 : Nat) ^ (n.log2 + 1 - BinaryFormat.double.precision) = unit at hunit
  calc Binary.roundQuotient n unit * unit
    _ ≤ (n / unit + 1) * unit := Nat.mul_le_mul_right unit (roundQuotient_le n unit)
    _ = n / unit * unit + unit := Nat.succ_mul _ _
    _ ≤ n + 2 * n := Nat.add_le_add (Nat.div_mul_le_self n unit) hunit
    _ = 3 * n := by omega

theorem isFinite_of_word {n : Nat} (h : n < UInt64.size) : isFinite ⟨n, 0, false⟩ = true := by
  have hone : rounded 1 = 1 := by decide
  have hbound : 3 * UInt64.size < Decimal.overflowBound .double := by decide +kernel
  have hrounded : rounded n < Decimal.overflowBound .double := by
    have hle := rounded_le n
    omega
  simp [isFinite, hone, hrounded, maxExponent]

end Magnitude

theorem fraction?_of_ends {rest : List Char} (h : EndsNumber rest) :
    Read.fraction? rest = some ([], rest) := by
  unfold Read.fraction?
  split
  case h_1 => exact absurd rfl (h '.' rfl).2.1
  case h_2 => rfl

theorem exponent?_of_ends {rest : List Char} (h : EndsNumber rest) :
    Read.exponent? rest = some ([], rest) := by
  unfold Read.exponent?
  split
  case h_1 c rest =>
    obtain ⟨-, -, hlower, hupper⟩ := h c rfl
    rw [if_neg (not_or.2 ⟨hlower, hupper⟩)]
  case h_2 => rfl

section Digits

variable {n : Nat} {rest : List Char}

theorem takeWhile_toDigits (hrest : EndsNumber rest) :
    (Nat.toDigits 10 n ++ rest).takeWhile Char.isDigit = Nat.toDigits 10 n := by
  rw [List.takeWhile_append_of_pos (isDigit_toDigits n)]
  cases rest with
  | nil => rw [List.takeWhile_nil, List.append_nil]
  | cons c rest =>
    rw [List.takeWhile_cons_of_neg (Bool.eq_false_iff.1 (hrest c rfl).1), List.append_nil]

theorem dropWhile_toDigits (hrest : EndsNumber rest) :
    (Nat.toDigits 10 n ++ rest).dropWhile Char.isDigit = rest := by
  rw [List.dropWhile_append_of_pos (isDigit_toDigits n)]
  cases rest with
  | nil => rfl
  | cons c rest => rw [List.dropWhile_cons_of_neg (Bool.eq_false_iff.1 (hrest c rfl).1)]

theorem toDigits_isWhole (n : Nat) : ¬ (Nat.toDigits 10 n = [] ∨
    (Nat.toDigits 10 n).head? = some '0' ∧ (Nat.toDigits 10 n).length ≠ 1) := by
  rintro (hnil | ⟨hzero, hlength⟩)
  · exact Nat.toDigits_ne_nil hnil
  · apply head_toDigits ?_ hzero
    rintro rfl
    exact hlength rfl

/-- The digits of a natural number of one word are read as that number. -/
theorem number?_toDigits (hn : n < UInt64.size) (hrest : EndsNumber rest) :
    Read.number? (Nat.toDigits 10 n ++ rest) = some (.natural n, rest) := by
  have hvalue : Nat.ofDigitChars 10 (Nat.toDigits 10 n) 0 = n :=
    Nat.ofDigitChars_toDigits (by decide) (by decide)
  have hmagnitude : (Magnitude.ofDigits (Nat.toDigits 10 n) []).scaled 0 = ⟨n, 0, false⟩ := by
    rw [Magnitude.ofDigits, Magnitude.start, Magnitude.foldl_takeWhole _ _ (hvalue.symm ▸ hn), hvalue]
    rfl
  unfold Read.number?
  split
  case h_1 sign cs hsign =>
    split at hsign
    case h_1 rest' hminus =>
      obtain ⟨c, ds, hds, hdigit⟩ := exists_digit_toDigits n
      rw [hds, List.cons_append] at hminus
      cases hminus
      exact absurd hdigit (by decide)
    case h_2 =>
      cases hsign
      rw [takeWhile_toDigits hrest, dropWhile_toDigits hrest]
      dsimp only
      rw [if_neg (toDigits_isWhole n), fraction?_of_ends hrest]
      dsimp only [Option.bind_eq_bind, Option.bind_some]
      rw [exponent?_of_ends hrest]
      have hexponent : (Decimal.exponentOf? []).getD 0 = 0 := rfl
      have hdigits : Decimal.ofDigits (Nat.toDigits 10 n) = n := hvalue
      simp [hexponent, hmagnitude, Magnitude.isFinite_of_word hn, hdigits]

end Digits

theorem length_escapeChar_pos (c : Char) : 0 < (escapeChar c).length := by
  unfold escapeChar
  repeat' split
  all_goals exact Nat.succ_pos _

/-- The four digits of an escaped control are its number. -/
theorem hex4?_control {n : Nat} (hn : n < 0x20) (rest : List Char) :
    Read.hex4? ((Text.hex 4 n).toList ++ rest) = some (n, rest) := by
  have hdigits : ∀ n : Fin 0x20, (Text.hex 4 n).toList.length = 4 ∧
      Text.natural? 16 (Text.hex 4 n).toList = some n.val := by
    decide +kernel
  obtain ⟨hlength, hvalue⟩ := hdigits ⟨n, hn⟩
  match hhex : (Text.hex 4 n).toList, hlength with
  | [a, b, c, d], _ =>
    rw [hhex] at hvalue
    simp [Read.hex4?, hvalue]

theorem escapedCodePoint?_control {c : Char} (hc : c.toNat < 0x20) (rest : List Char) :
    Read.escapedCodePoint? ((Text.hex 4 c.toNat).toList ++ rest) = some (some c, rest) := by
  have hlow : ¬ 0xd800 ≤ c.toNat := by omega
  have hhigh : ¬ 0xdc00 ≤ c.toNat := by omega
  unfold Read.escapedCodePoint?
  rw [hex4?_control hc]
  simp [hlow, hhigh]

/-- What is escaped is read as what it was. -/
theorem stringRest?_escapeChar (fuel : Nat) (text : List Char) (c : Char) (rest : List Char) :
    Read.stringRest? (fuel + 1) (some text) (escapeChar c ++ rest) =
      Read.stringRest? fuel (some (c :: text)) rest := by
  have hescape (cs : List Char) (hcs : Read.escaped? (cs ++ rest) = some (some c, rest)) :
      Read.stringRest? (fuel + 1) (some text) ('\\' :: cs ++ rest) =
        Read.stringRest? fuel (some (c :: text)) rest := by
    rw [List.cons_append, Read.stringRest?, if_neg (by decide), if_pos rfl, hcs]
    rfl
  unfold escapeChar
  split_ifs with hquote hslash hnewline hreturn htab hback hfeed hcontrol
  · subst hquote
    exact hescape ['"'] rfl
  · subst hslash
    exact hescape ['\\'] rfl
  · subst hnewline
    exact hescape ['n'] rfl
  · subst hreturn
    exact hescape ['r'] rfl
  · subst htab
    exact hescape ['t'] rfl
  · subst hback
    exact hescape ['b'] rfl
  · subst hfeed
    exact hescape ['f'] rfl
  · exact hescape ('u' :: (Text.hex 4 c.toNat).toList) (escapedCodePoint?_control hcontrol rest)
  · rw [List.singleton_append, Read.stringRest?, if_neg hquote, if_neg hslash, if_neg hcontrol]
    rfl

theorem stringRest?_quoted (cs : List Char) (text rest : List Char) {fuel : Nat}
    (hfuel : cs.length < fuel) :
    Read.stringRest? fuel (some text) (cs.flatMap escapeChar ++ '"' :: rest) =
      some (some (String.ofList (text.reverse ++ cs)), rest) := by
  induction cs generalizing text fuel with
  | nil =>
    obtain ⟨fuel, rfl⟩ := Nat.exists_eq_add_of_lt hfuel
    rw [List.flatMap_nil, List.nil_append, Read.stringRest?, if_pos rfl, List.append_nil]
    rfl
  | cons c cs ih =>
    match fuel, hfuel with
    | fuel + 1, hfuel =>
      rw [List.flatMap_cons, List.append_assoc, stringRest?_escapeChar,
        ih _ (Nat.lt_of_succ_lt_succ hfuel), List.reverse_cons, List.append_assoc]
      rfl

theorem string?_cons (cs : List Char) :
    Read.string? ('"' :: cs) = Read.stringRest? (cs.length + 1) (some []) cs := rfl

/-- A quoted string is read as itself. -/
theorem string?_quote (s : String) (rest : List Char) :
    Read.string? (quote s ++ rest) = some (some s, rest) := by
  have hlength : s.toList.length ≤ (s.toList.flatMap escapeChar).length := by
    induction s.toList with
    | nil => exact Nat.le_refl 0
    | cons c cs ih =>
      have hpos := length_escapeChar_pos c
      rw [List.flatMap_cons, List.length_append, List.length_cons]
      omega
  have hquoted : quote s ++ rest = '"' :: (s.toList.flatMap escapeChar ++ '"' :: rest) := by
    simp [quote]
  rw [hquoted, string?_cons, stringRest?_quoted]
  · simp
  · rw [List.length_append]
    omega

end Json

end Corewise
