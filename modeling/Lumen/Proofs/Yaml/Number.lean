import Lumen.Proofs.Yaml.Plain
import Lumen.Yaml.Number

/-!
# Numbers can be read back

The digits of a number are plain, have no sign and do not begin with a zero before another digit,
so that they are read to the base 10 and to no other (`natural?_toDigits`).
-/

namespace Lumen

namespace Yaml

theorem digit?_of_isDigit {c : Char} (h : c.isDigit = true) :
    digit? 10 c = some (c.toNat - '0'.toNat) := by
  have hall := of_isDigit (p := fun c => digit? 10 c == some (c.toNat - '0'.toNat)) (by decide) h
  exact eq_of_beq hall

theorem foldl_digits {t : Text} (h : ∀ c ∈ t, c.isDigit = true) (n : Nat) :
    t.foldl (fun n c => do return (← n) * 10 + (← digit? 10 c)) (some n) =
      some (Nat.ofDigitChars 10 t n) := by
  induction t generalizing n with
  | nil => rfl
  | cons c cs ih =>
      rw [List.forall_mem_cons] at h
      rw [List.foldl_cons, digit?_of_isDigit h.1, Nat.ofDigitChars_cons, Nat.mul_comm 10 n]
      exact ih h.2 _

theorem digits?_toDigits {bound n : Nat} (h : n < bound) :
    digits? 10 bound (Nat.toDigits 10 n) = some n := by
  have hdigits : ∀ c ∈ Nat.toDigits 10 n, c.isDigit = true :=
    fun c hc => Nat.isDigit_of_mem_toDigits (by decide) (by decide) hc
  rw [digits?, if_neg Nat.toDigits_ne_nil, foldl_digits hdigits, Nat.ofDigitChars_ten_toDigits]
  simp [h]

theorem head?_toDigits {n : Nat} (h : 0 < n) : (Nat.toDigits 10 n).head? ≠ some '0' := by
  have hall : ∀ d < 10, 0 < d → d.digitChar ≠ '0' := by decide
  induction n using Nat.strongRecOn with
  | ind n ih =>
      by_cases hlt : n < 10
      · rw [Nat.toDigits_of_lt_base hlt]
        simpa using hall n hlt h
      · have hpos : 0 < n / 10 := by omega
        have hfront := ih (n / 10) (by omega) hpos
        rw [Nat.toDigits_of_base_le (by decide) (Nat.not_lt.mp hlt)]
        obtain ⟨c, cs, hcs⟩ :=
          List.exists_cons_of_ne_nil (Nat.toDigits_ne_nil (n := n / 10) (b := 10))
        rw [hcs] at hfront ⊢
        exact hfront

/-- The digits of a number are read as the number. -/
theorem natural?_toDigits {bound n : Nat} (h : n < bound) :
    natural? bound (Nat.toDigits 10 n) = some n := by
  have hread := digits?_toDigits h
  obtain ⟨c, cs, hcs⟩ := List.exists_cons_of_ne_nil (Nat.toDigits_ne_nil (n := n) (b := 10))
  have hdigit : c.isDigit = true :=
    Nat.isDigit_of_mem_toDigits (b := 10) (n := n) (by decide) (by decide) (by simp [hcs])
  have hplus : c ≠ '+' := by rintro rfl; cases hdigit
  have hminus : c ≠ '-' := by rintro rfl; cases hdigit
  -- a number that begins with a zero is zero, so no other base and no leading zero is read
  have hzero : c = '0' → cs = [] := by
    rintro rfl
    rcases Nat.eq_zero_or_pos n with rfl | hpos
    · rw [Nat.toDigits_zero] at hcs
      exact (List.cons.inj hcs).2.symm
    · exact absurd (hcs ▸ rfl) (head?_toDigits hpos)
  rw [hcs] at hread ⊢
  have hlone : ∀ d ds, c :: cs ≠ '0' :: d :: ds := by
    rintro d ds heq
    obtain ⟨hc, hcs⟩ := List.cons.inj heq
    rw [hzero hc] at hcs
    cases hcs
  have hlead : hasLeadingZero (c :: cs) = false := by
    have hsign : dropSign (c :: cs) = c :: cs := by simp [dropSign, hplus, hminus]
    rw [hasLeadingZero, hsign]
    split
    · next heq => exact absurd heq (hlone _ _)
    · rfl
  have hunsigned : unsigned? bound (c :: cs) = some n := by
    rw [unsigned?, hlead, hread]
    · rfl
    · exact hlone
  simp [natural?, startsWithSign, hplus, hminus, hunsigned]

end Yaml

end Lumen
