import Mathlib.Data.List.TakeWhile
import ScriptMachine.Proofs.Evaluation

/-!
# Instructions end to end

Decoding takes one instruction after another, each where the one before it ends. It never leaves the
code, and it ends where a range ends unless an instruction reaches past that.

* `Code.Lined` – whether instructions stand end to end in code.
* `Script.decodeRange_eq_ok` – what is decoded from a range.
* `Script.decodeRange_of_le` – what is decoded from a shorter range.
-/

namespace ScriptMachine

/-- Whether instructions stand in code, the first at an address, each where the one before it ends,
and the last ending at another address. -/
def Code.Lined (code : Code) : UInt32 → List Instruction → UInt32 → Prop
  | a, [], z => a = z
  | a, i :: is, z => Instruction.decode code a = .ok i ∧ Lined code i.next is z

/-! ## One instruction -/

theorem Opcode.toNat_size (op : Opcode) : op.size.toNat = 1 + op.shape.size.toNat := by
  cases op <;> rfl

namespace Operand

variable {code : Code} {i : Nat}

theorem le_size_of_wordAt? {w : UInt32} (h : wordAt? code i = some w) : i + 4 ≤ code.size := by
  obtain ⟨_, -, h⟩ := Option.bind_eq_some_iff.1 h
  obtain ⟨_, -, h⟩ := Option.bind_eq_some_iff.1 h
  obtain ⟨_, -, h⟩ := Option.bind_eq_some_iff.1 h
  obtain ⟨_, hd, -⟩ := Option.bind_eq_some_iff.1 h
  obtain ⟨hlt, -⟩ := Array.getElem?_eq_some_iff.1 hd
  exact hlt

/-- An operand that is read lies within the code. -/
theorem le_size_of_decode? {shape : OperandShape} {o : Operand} (hi : i ≤ code.size)
    (h : decode? shape code i = some o) : i + shape.size.toNat ≤ code.size := by
  cases shape with
  | none => exact hi
  | address | immediate | symbol =>
    obtain ⟨w, hw, -⟩ := Option.map_eq_some_iff.1 h
    exact le_size_of_wordAt? hw
  | element =>
    obtain ⟨_, -, h⟩ := Option.bind_eq_some_iff.1 h
    obtain ⟨_, he, -⟩ := Option.bind_eq_some_iff.1 h
    obtain ⟨hlt, -⟩ := Array.getElem?_eq_some_iff.1 he
    exact hlt

end Operand

namespace Instruction

variable {code : Code} {a : UInt32} {i : Instruction}

/-- An instruction that is decoded stands at its address and lies within the code. -/
theorem decode_eq_ok (h : decode code a = .ok i) :
    i.address = a ∧ a.toNat + i.size.toNat ≤ code.size := by
  rw [decode] at h
  split at h
  · cases h
  · next byte hbyte =>
    obtain ⟨hlt, -⟩ := Array.getElem?_eq_some_iff.1 hbyte
    split at h
    · cases h
    · next opcode _ =>
      split at h
      · cases h
      · next operand hoperand =>
        obtain rfl := Except.ok.inj h
        refine ⟨rfl, ?_⟩
        rw [size, Opcode.toNat_size, ← Nat.add_assoc]
        exact Operand.le_size_of_decode? hlt hoperand

theorem toNat_next (hsize : code.size < UInt32.size) (h : decode code a = .ok i) :
    i.next.toNat = a.toNat + i.size.toNat := by
  obtain ⟨rfl, hle⟩ := decode_eq_ok h
  rw [next, UInt32.toNat_add]
  exact Nat.mod_eq_of_lt (Nat.lt_of_le_of_lt hle hsize)

theorem size_pos (i : Instruction) : 0 < i.size.toNat := by
  rw [size, Opcode.toNat_size]
  omega

end Instruction

/-! ## Instructions in line -/

namespace Code.Lined

variable {code : Code} {a m z : UInt32} {is js : List Instruction} {i : Instruction}

theorem append (h : code.Lined a is m) (h' : code.Lined m js z) : code.Lined a (is ++ js) z := by
  induction is generalizing a with
  | nil =>
    obtain rfl : a = m := h
    exact h'
  | cons i is ih => exact ⟨h.1, ih h.2⟩

/-- All of them but the last end where another one begins. -/
theorem next_lt_of_dropLast {stop : UInt32} (h : code.Lined a is z)
    (hstop : ∀ i ∈ is, i.address < stop) (hi : i ∈ is.dropLast) : i.next < stop := by
  induction is generalizing a with
  | nil => cases hi
  | cons j is ih =>
    cases is with
    | nil => cases hi
    | cons k is =>
      rcases List.mem_cons.1 hi with rfl | hi
      · obtain ⟨hk, -⟩ := Instruction.decode_eq_ok h.2.1
        exact hk ▸ hstop k (List.mem_cons_of_mem _ List.mem_cons_self)
      · exact ih h.2 (fun i hi => hstop i (List.mem_cons_of_mem _ hi)) hi

/-- Those that begin below an address are in line as well, and reach it if all of them do. -/
theorem takeWhile {stop : UInt32} (h : code.Lined a is z) (hstop : stop ≤ z) :
    ∃ y, code.Lined a (is.takeWhile (·.address < stop)) y ∧ stop ≤ y := by
  induction is generalizing a with
  | nil => exact ⟨a, rfl, h ▸ hstop⟩
  | cons i is ih =>
    obtain ⟨rfl, -⟩ := Instruction.decode_eq_ok h.1
    by_cases hlt : i.address < stop
    · obtain ⟨y, hy, hle⟩ := ih h.2
      rw [List.takeWhile_cons, if_pos (decide_eq_true hlt)]
      exact ⟨y, ⟨h.1, hy⟩, hle⟩
    · rw [List.takeWhile_cons, if_neg (hlt ∘ of_decide_eq_true)]
      exact ⟨_, rfl, UInt32.not_lt.1 hlt⟩

section

variable (hsize : code.size < UInt32.size)

include hsize

theorem le (h : code.Lined a is z) : a ≤ z := by
  induction is generalizing a with
  | nil => exact UInt32.le_of_eq h
  | cons i is ih =>
    have hnext := Instruction.toNat_next hsize h.1
    refine UInt32.le_trans (UInt32.le_iff_toNat_le.2 ?_) (ih h.2)
    omega

/-- Instructions in line lie between the ends, and within the code. -/
theorem of_mem (h : code.Lined a is z) (hi : i ∈ is) :
    a ≤ i.address ∧ i.address < i.next ∧ i.next ≤ z ∧ i.next.toNat ≤ code.size := by
  induction is generalizing a with
  | nil => cases hi
  | cons j is ih =>
    have hnext := Instruction.toNat_next hsize h.1
    have hpos := j.size_pos
    obtain ⟨rfl, hle⟩ := Instruction.decode_eq_ok h.1
    have hlt : j.address < j.next := UInt32.lt_iff_toNat_lt.2 (by omega)
    rcases List.mem_cons.1 hi with rfl | hi
    · exact ⟨UInt32.le_refl _, hlt, h.2.le hsize, hnext ▸ hle⟩
    · obtain ⟨hge, hrest⟩ := ih h.2 hi
      exact ⟨UInt32.le_trans (UInt32.le_of_lt hlt) hge, hrest⟩

end

end Code.Lined

/-! ## Instructions from their bytes -/

theorem Operand.length_encode (o : Operand) : o.encode.length = o.shape.size.toNat := by
  cases o <;> rfl

namespace Instruction

theorem length_encode {i : Instruction} (h : i.operand.shape = i.opcode.shape) :
    i.encode.length = i.size.toNat := by
  rw [encode, List.length_cons, Operand.length_encode, h, Nat.add_comm, ← Opcode.toNat_size]
  rfl

/-- The bytes of some instructions. -/
def bytes (l : List (Opcode × Operand)) : List UInt8 :=
  l.flatMap fun (opcode, operand) => opcode.toByte :: operand.encode

theorem bytes_append (l l' : List (Opcode × Operand)) : bytes (l ++ l') = bytes l ++ bytes l' :=
  List.flatMap_append

/-- Some instructions in place, the first at an address and each behind the one before it. -/
def place : UInt32 → List (Opcode × Operand) → List Instruction
  | _, [] => []
  | a, (opcode, operand) :: l => ⟨a, opcode, operand⟩ :: place (a + opcode.size) l

end Instruction

/-- Where the bytes of some instructions are, the instructions stand in line. -/
theorem Code.At.lined {code : Code} (hsize : code.size < UInt32.size)
    {l : List (Opcode × Operand)} (hl : ∀ i ∈ l, i.2.shape = i.1.shape) {a : UInt32}
    (h : code.At a (Instruction.bytes l)) :
    code.Lined a (Instruction.place a l) (a + UInt32.ofNat (Instruction.bytes l).length) := by
  induction l generalizing a with
  | nil => exact (UInt32.add_zero a).symm
  | cons i l ih =>
    obtain ⟨opcode, operand⟩ := i
    obtain ⟨hi, hl⟩ := List.forall_mem_cons.1 hl
    have hlength : UInt32.ofNat (opcode.toByte :: operand.encode).length = opcode.size := by
      have hsize : (Instruction.encode ⟨a, opcode, operand⟩).length = opcode.size.toNat :=
        Instruction.length_encode hi
      exact (congrArg UInt32.ofNat hsize).trans UInt32.ofNat_toNat
    have hbytes : Instruction.bytes ((opcode, operand) :: l) =
      (opcode.toByte :: operand.encode) ++ Instruction.bytes l := rfl
    rw [hbytes] at h ⊢
    have hrest := h.right hsize
    rw [hlength] at hrest
    refine ⟨Instruction.decode_of_at h.left hi, ?_⟩
    have hline := ih hl hrest
    rwa [← hlength, UInt32.add_assoc, ← UInt32.ofNat_add, ← List.length_append, hlength] at hline

/-! ## Decoding a range -/

namespace Script

variable {p : Script} {a stop : UInt32} {is : List Instruction} (hsize : p.code.size < UInt32.size)

include hsize

/-- With steps for all bytes that are left, what is decoded are the instructions in line that begin
below the end of the range. -/
theorem decodeWithin_eq_ok {n : Nat} (hn : p.code.size - a.toNat < n) :
    p.decodeWithin stop n a = .ok is ↔
      ∃ z, p.code.Lined a is z ∧ stop ≤ z ∧ ∀ i ∈ is, i.address < stop := by
  induction n generalizing a is with
  | zero => exact absurd hn (Nat.not_lt_zero _)
  | succ n ih =>
    rw [decodeWithin]
    split
    · next hlt =>
      cases hd : p.decode a with
      | error e =>
        refine iff_of_false nofun ?_
        rintro ⟨z, hl, hz, -⟩
        -- the range is not empty, so something would have to be decoded
        cases is with
        | nil =>
          obtain rfl : a = z := hl
          exact UInt32.not_lt.2 hz hlt
        | cons i is => cases hd.symm.trans hl.1
      | ok i =>
        obtain ⟨rfl, hle⟩ := Instruction.decode_eq_ok hd
        have hnext := Instruction.toNat_next hsize hd
        have hpos := i.size_pos
        have ih (is : List Instruction) := @ih i.next is (by omega)
        rw [Except.bind_of_ok rfl]
        constructor
        · intro h
          obtain ⟨rest, hrest, h⟩ := Except.bind_eq_ok.1 h
          obtain rfl := Except.ok.inj h
          obtain ⟨z, hl, hz, hstop⟩ := (ih rest).1 hrest
          exact ⟨z, ⟨hd, hl⟩, hz, List.forall_mem_cons.2 ⟨hlt, hstop⟩⟩
        · rintro ⟨z, hl, hz, hstop⟩
          cases is with
          | nil =>
            obtain rfl : i.address = z := hl
            exact absurd hlt (UInt32.not_lt.2 hz)
          | cons j is =>
            obtain rfl := Except.ok.inj (hd.symm.trans hl.1)
            obtain ⟨-, hstop⟩ := List.forall_mem_cons.1 hstop
            have hrest := (ih is).2 ⟨z, hl.2, hz, hstop⟩
            rw [hrest]
            rfl
    · next hge =>
      constructor
      · intro h
        obtain rfl := Except.ok.inj h
        exact ⟨a, rfl, UInt32.not_lt.1 hge, nofun⟩
      · rintro ⟨z, hl, hz, hstop⟩
        cases is with
        | nil => rfl
        | cons i is =>
          obtain ⟨rfl, -⟩ := Instruction.decode_eq_ok hl.1
          exact absurd (hstop i List.mem_cons_self) hge

/-- What is decoded from a range are the instructions in line from its start that begin below its
end. -/
theorem decodeRange_eq_ok :
    p.decodeRange a stop = .ok is ↔
      ∃ z, p.code.Lined a is z ∧ stop ≤ z ∧ ∀ i ∈ is, i.address < stop :=
  decodeWithin_eq_ok hsize (by omega)

/-- What can be decoded up to an address can be decoded up to any address below. -/
theorem decodeRange_of_le {stop' : UInt32} (h : p.decodeRange a stop = .ok is)
    (hle : stop' ≤ stop) :
    p.decodeRange a stop' = .ok (is.takeWhile (·.address < stop')) := by
  obtain ⟨z, hl, hz, -⟩ := (decodeRange_eq_ok hsize).1 h
  obtain ⟨y, hy, hstop⟩ := hl.takeWhile (UInt32.le_trans hle hz)
  refine (decodeRange_eq_ok hsize).2 ⟨y, hy, hstop, fun i hi => ?_⟩
  have hlt := List.mem_takeWhile_imp hi
  exact of_decide_eq_true hlt

end Script

end ScriptMachine
