import ScriptMachine.Machine.Registration
import ScriptMachine.Proofs.Computation

/-!
# Declared signatures

The signature that a script declares for a function, and what it means that a callback has it.

* `Script.firstDifference_eq_some` – where two lists of kinds differ first.
* `Script.checkSignature_eq_ok` – a callback that is accepted has exactly the declared signature.
* `Script.checkSignature_of_declaredSignature` – a callback that has it is accepted.
-/

namespace ScriptMachine

namespace Script

/-- The position that is found is one at which the lists differ. -/
theorem firstDifference_eq_some {as bs : List Kind} {i j : Nat} {a b : Kind}
    (h : firstDifference as bs i = some (j, a, b)) :
    i ≤ j ∧ as[j - i]? = some a ∧ bs[j - i]? = some b ∧ a ≠ b := by
  induction as generalizing bs i with
  | nil => cases h
  | cons c as ih =>
    cases bs with
    | nil => cases h
    | cons d bs =>
      rw [firstDifference] at h
      split at h
      · -- positions in the rest count from `i + 1` on
        obtain ⟨hij, ha, hb, hab⟩ := ih h
        have hj : j - i = j - (i + 1) + 1 := by omega
        rw [hj]
        exact ⟨by omega, ha, hb, hab⟩
      · next hcd =>
        obtain ⟨rfl, rfl, rfl⟩ : i = j ∧ c = a ∧ d = b := by simpa using h
        rw [Nat.sub_self]
        exact ⟨Nat.le_refl i, rfl, rfl, hcd⟩

/-- Lists of one length without a difference are equal. -/
theorem eq_of_firstDifference_eq_none {as bs : List Kind} {i : Nat}
    (h : firstDifference as bs i = none) (hl : as.length = bs.length) : as = bs := by
  induction as generalizing bs i with
  | nil => exact (List.length_eq_zero_iff.1 hl.symm).symm
  | cons c as ih =>
    cases bs with
    | nil => cases hl
    | cons d bs =>
      rw [firstDifference] at h
      split at h
      · next hcd => rw [hcd, ih h (Nat.succ.inj hl)]
      · cases h

/-- A list does not differ from itself. -/
theorem firstDifference_self (as : List Kind) (i : Nat) : firstDifference as as i = none := by
  induction as generalizing i with
  | nil => rfl
  | cons a as ih => rw [firstDifference, if_pos rfl, ih]

variable {p : Script} {f : Symbol}

/-- A callback that is accepted has exactly the declared signature. -/
theorem checkSignature_eq_ok {s : Signature} (h : p.checkSignature f s = .ok ()) :
    p.declaredSignature f = .ok s := by
  obtain ⟨d, hd, h⟩ := Except.bind_eq_ok.1 h
  rw [hd]
  dsimp only at h
  split at h
  · cases h
  · next hl =>
    split at h
    · cases h
    · next hn =>
      split at h
      · next hr =>
        have hp := eq_of_firstDifference_eq_none hn (Decidable.of_not_not hl)
        obtain ⟨dp, dr⟩ := d
        obtain ⟨sp, sr⟩ := s
        obtain rfl : dp = sp := hp
        obtain rfl : dr = sr := hr
        rfl
      · cases h

/-- A callback that has the declared signature is accepted. -/
theorem checkSignature_of_declaredSignature {s : Signature} (h : p.declaredSignature f = .ok s) :
    p.checkSignature f s = .ok () := by
  rw [checkSignature, Except.bind_of_ok h, if_neg (not_not_intro rfl)]
  dsimp only
  rw [firstDifference_self]
  exact if_pos rfl

/-- The parts of a declared signature. -/
theorem declaredSignature_eq_ok {s : Signature} (h : p.declaredSignature f = .ok s) :
    (p.parametersOf f).mapM (parameterKind f) = .ok s.params ∧ resultKind f = .ok s.result := by
  obtain ⟨ks, hp, h⟩ := Except.bind_eq_ok.1 h
  obtain ⟨k, hr, h⟩ := Except.bind_eq_ok.1 h
  rw [← Except.ok.inj h]
  exact ⟨hp, hr⟩

end Script

end ScriptMachine
