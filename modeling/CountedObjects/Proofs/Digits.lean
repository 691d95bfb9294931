import Mathlib.Algebra.Group.Nat.Defs
import Mathlib.Data.List.Induction
import CountedObjects.Proofs.Parsing

/-! The digits that a number is written with, and the number that digits denote. Digits without a
superfluous zero in front are those of the number they denote. -/
namespace CountedObjects.Text

variable {ds : List Char} {n d : Nat}

theorem digitChar_eq : ∀ d < 10, digitChar d = Nat.digitChar d := by decide

theorem digits_eq (n : Nat) : digits n = Nat.toDigits 10 n := by
  induction n using Nat.strongRecOn with
  | _ n ih =>
    rw [digits, Nat.toDigits_eq_if (by decide)]
    split
    · next h => rw [digitChar_eq n h]
    · next h => rw [ih (n / 10) (by omega), digitChar_eq _ (Nat.mod_lt n (by decide))]

theorem digits_zero : digits 0 = ['0'] := by
  rw [digits_eq, Nat.toDigits_zero]

theorem ofDigitChars_digits (n : Nat) : Nat.ofDigitChars 10 (digits n) 0 = n := by
  rw [digits_eq, Nat.ofDigitChars_ten_toDigits]

theorem allDigits_digits (n : Nat) : AllDigits (digits n) := by
  intro c hc
  rw [digits_eq] at hc
  exact Nat.isDigit_of_mem_toDigits (by decide) (by decide) hc

theorem digits_ne_nil (n : Nat) : digits n ≠ [] := by
  rw [digits_eq]
  exact Nat.toDigits_ne_nil

theorem digits_injective {m n : Nat} (h : digits m = digits n) : m = n := by
  rw [← ofDigitChars_digits m, h, ofDigitChars_digits]

theorem numeralText_eq (n : Int) : numeralText n = toString n := by
  cases n with
  | ofNat n => exact congrArg String.ofList (digits_eq n)
  | negSucc n =>
    rw [numeralText, numeral, digits_eq, ← List.singleton_append, String.ofList_append]
    rfl

/-- A number with `k` digits is below `10 ^ k`. -/
theorem length_digits_le_iff {k : Nat} (hk : 0 < k) : (digits n).length ≤ k ↔ n < 10 ^ k := by
  rw [digits_eq]
  exact Nat.length_toDigits_le_iff (by decide) hk

theorem digits_concat {v : Nat} (hv : 0 < v) (hd : d < 10) :
    digits (10 * v + d) = digits v ++ digits d := by
  rw [digits_eq, digits_eq, digits_eq, Nat.toDigits_append_toDigits (by decide) hv hd]

/-- Digits of which the first is no zero, unless it is the only one. -/
structure Plain (ds : List Char) : Prop where
  some : ds ≠ []
  digits : AllDigits ds
  lead : ∀ rest, ds = '0' :: rest → rest = []

theorem plain_digit (hd : d < 10) : Plain (digits d) := by
  refine ⟨digits_ne_nil d, allDigits_digits d, fun rest h => ?_⟩
  rw [digits, if_pos hd] at h
  exact (List.cons.inj h).2.symm

theorem plain_digits (n : Nat) : Plain (digits n) := by
  induction n using Nat.strongRecOn with
  | _ n ih =>
    by_cases hn : n < 10
    · exact plain_digit hn
    · have hv : 0 < n / 10 := by omega
      have hsplit : digits n = digits (n / 10) ++ digits (n % 10) := by
        rw [← digits_concat hv (Nat.mod_lt n (by decide)), Nat.div_add_mod]
      refine ⟨digits_ne_nil n, allDigits_digits n, fun rest h => ?_⟩
      -- A zero in front would be all that there is of `n / 10`, which is no zero.
      obtain ⟨c, front, hfront⟩ := List.exists_cons_of_ne_nil (digits_ne_nil (n / 10))
      rw [hsplit, hfront] at h
      obtain ⟨rfl, -⟩ := List.cons.inj h
      obtain rfl := (ih (n / 10) (by omega)).lead front hfront
      have hzero : n / 10 = 0 := digits_injective (hfront.trans digits_zero.symm)
      omega

theorem exists_digit {c : Char} (hc : c.isDigit = true) : ∃ d < 10, [c] = digits d := by
  obtain ⟨hlo, hhi⟩ := Char.isDigit_iff_toNat.mp hc
  have h0 : '0'.toNat = 48 := rfl
  have h9 : '9'.toNat = 57 := rfl
  have hd : c.toNat - 48 < 10 := by omega
  refine ⟨c.toNat - 48, hd, ?_⟩
  rw [digits, if_pos hd, digitChar, show 48 + (c.toNat - 48) = c.toNat by omega, Char.ofNat_toNat]

/-- The induction is on the digits from the last to the first. -/
theorem Plain.digits_ofDigitChars (h : Plain ds) :
    Text.digits (Nat.ofDigitChars 10 ds 0) = ds := by
  induction ds using List.reverseRecOn with
  | nil => exact absurd rfl h.some
  | append_singleton front c ih =>
    have hc : c.isDigit = true := h.digits c (by simp)
    obtain ⟨d, hd, hcd⟩ := exists_digit hc
    rw [hcd, Nat.ofDigitChars_append]
    by_cases hf : front = []
    · subst hf
      rw [Nat.ofDigitChars_nil, ofDigitChars_digits]
      rfl
    · have hfront : Plain front := by
        refine ⟨hf, fun c hc => h.digits c (List.mem_append_left _ hc), ?_⟩
        rintro rest rfl
        have := h.lead (rest ++ [c]) rfl
        simp at this
      have hdigits := ih hfront
      have hpos : 0 < Nat.ofDigitChars 10 front 0 := by
        by_contra hzero
        rw [show Nat.ofDigitChars 10 front 0 = 0 by omega] at hdigits
        have hlead : front = ['0'] := hdigits.symm.trans digits_zero
        have := h.lead [c] (by rw [hlead]; rfl)
        simp at this
      have hlast (v : Nat) : Nat.ofDigitChars 10 (Text.digits d) v = 10 * v + d := by
        rw [Nat.ofDigitChars_eq_ofDigitChars_zero, ofDigitChars_digits, ← hcd]
        rfl
      rw [hlast, digits_concat hpos hd, hdigits]

end CountedObjects.Text
