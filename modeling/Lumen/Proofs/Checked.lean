import Lumen.Size

/-!
# Results without a fault

A computation in steps has a result just if each of its steps has one. A sum of sizes has a result
as long as a size can hold it, and a difference as long as it is not below zero. Two computations
agree (`Checked.Agree`) if they meet the same fault or have results that are related, and they do so
as long as their steps agree one by one (`Agree.bind`).
-/

namespace Lumen

namespace Checked

variable {α β : Type}

theorem bind_eq_ok {ε : Type} {x : Except ε α} {f : α → Except ε β} {b : β} :
    (x >>= f) = .ok b ↔ ∃ a, x = .ok a ∧ f a = .ok b := by
  cases x with
  | error fault =>
      constructor
      · intro h
        cases h
      · rintro ⟨_, h, _⟩
        cases h
  | ok a =>
      refine ⟨fun h => ⟨a, rfl, h⟩, ?_⟩
      rintro ⟨a', ha, hf⟩
      cases ha
      exact hf

theorem map_eq_ok {ε : Type} {x : Except ε α} {f : α → β} {b : β} :
    x.map f = .ok b ↔ ∃ a, x = .ok a ∧ f a = b := by
  cases x with
  | error fault => exact ⟨nofun, fun ⟨_, h, _⟩ => nomatch h⟩
  | ok a =>
      constructor
      · intro h
        exact ⟨a, rfl, Except.ok.inj h⟩
      · rintro ⟨a', ha, hf⟩
        obtain rfl := Except.ok.inj ha
        exact congrArg Except.ok hf

/-- What a failure is called makes no difference to a result. -/
theorem mapError_eq_ok {ε ε' : Type} {x : Except ε α} {f : ε → ε'} {a : α} :
    x.mapError f = .ok a ↔ x = .ok a := by
  cases x with
  | error cause => exact ⟨nofun, nofun⟩
  | ok a' => exact ⟨fun h => congrArg Except.ok (Except.ok.inj h), fun h => by rw [h]; rfl⟩

theorem pure_eq_ok {a b : α} : (pure a : Checked α) = .ok b ↔ a = b :=
  ⟨fun h => Except.ok.inj h, fun h => congrArg Except.ok h⟩

/-- A computation that passes a test of its result has a result that passes it. -/
theorem exists_ok (x : Checked α) (test : α → Bool) (h : (x.map test).toOption = some true) :
    ∃ a, x = .ok a ∧ test a = true := by
  cases x with
  | error fault => cases h
  | ok a => exact ⟨a, rfl, Option.some.inj h⟩

@[simp] theorem ok_bind (a : α) (f : α → Checked β) : (Except.ok a >>= f) = f a := rfl

/-! ## Agreement -/

/-- That two computations meet the same fault, or have results that are related. -/
inductive Agree (R : α → β → Prop) : Checked α → Checked β → Prop
  | ok {a : α} {b : β} : R a b → Agree R (.ok a) (.ok b)
  | error (fault : Fault) : Agree R (.error fault) (.error fault)

namespace Agree

variable {α' β' : Type} {R : α → β → Prop} {S : α' → β' → Prop} {x : Checked α} {y : Checked β}

/-- Computations that agree go on to agree if what they do with related results agrees. -/
theorem bind {f : α → Checked α'} {g : β → Checked β'} (h : Agree R x y)
    (hfg : ∀ a b, x = .ok a → R a b → Agree S (f a) (g b)) : Agree S (x >>= f) (y >>= g) := by
  cases h with
  | ok hab => exact hfg _ _ rfl hab
  | error fault => exact .error fault

theorem mono {S : α → β → Prop} (h : Agree R x y)
    (hS : ∀ a b, x = .ok a → R a b → S a b) : Agree S x y := by
  cases h with
  | ok hab => exact .ok (hS _ _ rfl hab)
  | error fault => exact .error fault

/-- What agrees with a computation that has a result has a related one. -/
theorem exists_ok {b : β} (h : Agree R x (.ok b)) : ∃ a, x = .ok a ∧ R a b := by
  cases h with
  | ok hab => exact ⟨_, rfl, hab⟩

/-- What is made of a result in the end can be related instead of the result. -/
theorem map {S : α' → β → Prop} {f : α → α'} (h : Agree R x y)
    (hf : ∀ a b, x = .ok a → R a b → S (f a) b) : Agree S (x >>= fun a => pure (f a)) y := by
  cases h with
  | ok hab => exact .ok (hf _ _ rfl hab)
  | error fault => exact .error fault

end Agree

end Checked

namespace Size

theorem add_of_le {a b : Nat} (h : a + b ≤ largest) : Size.add a b = .ok (a + b) := by
  rw [Size.add, if_pos h]

theorem add_of_lt {a b : Nat} (h : largest < a + b) : Size.add a b = .error .overflow := by
  rw [Size.add, if_neg (Nat.not_le.mpr h)]

theorem sub_of_le {a b : Nat} (h : b ≤ a) : Size.sub a b = .ok (a - b) := by
  rw [Size.sub, if_pos h]

theorem eq_of_add {a b c : Nat} (h : Size.add a b = .ok c) : c = a + b := by
  rw [Size.add] at h
  split at h
  · exact (Except.ok.inj h).symm
  · cases h

end Size

end Lumen
