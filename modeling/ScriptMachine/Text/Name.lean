/-!
# Names up to case

Scripts do not tell the case of ASCII letters apart, so two names are the same when their
upper-case forms agree. Letters outside ASCII keep their case.
-/

namespace ScriptMachine.Text

/-- The characters of a name with ASCII letters in upper case. -/
def foldName (s : String) : List Char :=
  s.toList.map Char.toUpper

/-- A name with its ASCII letters in upper case. -/
def upperName (s : String) : String :=
  String.ofList (foldName s)

/-- Whether two names agree up to the case of ASCII letters. -/
def sameName (a b : String) : Bool :=
  foldName a == foldName b

@[simp] theorem sameName_iff {a b : String} : sameName a b = true ↔ foldName a = foldName b := by
  simp [sameName]

/-- A character has another one in upper case only if it is a small letter of ASCII. -/
theorem toUpper_cases (c : Char) :
    c.toUpper = c ∨ 97 ≤ c.toNat ∧ c.toNat ≤ 122 ∧ c.toUpper.toNat = c.toNat - 32 := by
  unfold Char.toUpper
  split
  · next hrange =>
    have hlow : 97 ≤ c.val.toNat := hrange.1
    have hhigh : c.val.toNat ≤ 122 := hrange.2
    have hshift : 'A'.val - 'a'.val = 4294967264 := by decide
    have hnat : (4294967264 : UInt32).toNat = 4294967264 := rfl
    refine .inr ⟨hlow, hhigh, ?_⟩
    show (c.val + ('A'.val - 'a'.val)).toNat = c.val.toNat - 32
    rw [hshift, UInt32.toNat_add, hnat]
    omega
  · exact .inl rfl

/-- The part of a qualified name behind its last dot, or the whole name if it has none. -/
def lastComponent (s : String) : String :=
  String.ofList ((s.toList.reverse.takeWhile (· != '.')).reverse)

end ScriptMachine.Text
