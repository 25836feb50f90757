import ScriptMachine.Proofs.Decoding

/-!
# Sweeping over a range

A range is decoded by a loop: while its address lies below the end of the range, it takes the
instruction there and goes on behind it. Nothing limits the number of its rounds. It ends all the
same, because an instruction takes at least one byte and lies within the code: each round leaves
less of the code, and no address wraps.

* `Code.addressAfter?` – the address a number of instructions behind another one.
* `Script.Sweeps` – what the loop comes to.
* `Script.exists_sweeps` – it comes to something.
* `Script.sweeps_iff` – that is what is decoded from the range.
* `Script.sweep_along_chain` – what that has to do with the addresses on the way.
-/

namespace ScriptMachine

namespace Code

/-- The address a number of instructions behind another one, where each begins where the one before
it ends. There is none if one of them is not decoded. -/
def addressAfter? (code : Code) (a : UInt32) : Nat → Option UInt32
  | 0 => some a
  | n + 1 =>
    match Instruction.decode code a with
    | .ok i => addressAfter? code i.next n
    | .error _ => none

variable {code : Code} {a b z : UInt32} {i j : Instruction} {is : List Instruction} {k n : Nat}

/-! ## Addresses on the way -/

theorem addressAfter?_succ (h : Instruction.decode code a = .ok i) (n : Nat) :
    code.addressAfter? a (n + 1) = code.addressAfter? i.next n := by
  rw [addressAfter?, h]

theorem addressAfter?_succ_eq_some (h : code.addressAfter? a (n + 1) = some b) :
    ∃ i, Instruction.decode code a = .ok i ∧ code.addressAfter? i.next n = some b := by
  rw [addressAfter?] at h
  split at h
  · next i hi => exact ⟨i, hi, h⟩
  · cases h

/-- Whatever lies before an address on the way is decoded. -/
theorem exists_decode_of_addressAfter? (h : code.addressAfter? a n = some b) (hk : k < n) :
    ∃ c i, code.addressAfter? a k = some c ∧ Instruction.decode code c = .ok i := by
  induction n generalizing a k with
  | zero => exact absurd hk (Nat.not_lt_zero k)
  | succ n ih =>
    obtain ⟨i, hi, h⟩ := addressAfter?_succ_eq_some h
    cases k with
    | zero => exact ⟨a, i, rfl, hi⟩
    | succ k =>
      obtain ⟨c, j, hc, hj⟩ := ih h (Nat.lt_of_succ_lt_succ hk)
      exact ⟨c, j, (addressAfter?_succ hi k).trans hc, hj⟩

/-- Behind an instruction there is less of the code left than before it. -/
theorem sub_next_lt (hsize : code.size < UInt32.size) (h : Instruction.decode code a = .ok i) :
    code.size - i.next.toNat < code.size - a.toNat := by
  have hnext := Instruction.toNat_next hsize h
  have hle := (Instruction.decode_eq_ok h).2
  have hpos := i.size_pos
  omega

/-- Every instruction takes the way on by a byte at least. -/
theorem add_le_of_addressAfter? (hsize : code.size < UInt32.size)
    (h : code.addressAfter? a n = some b) : a.toNat + n ≤ b.toNat := by
  induction n generalizing a with
  | zero =>
    obtain rfl := Option.some.inj h
    exact Nat.le_refl _
  | succ n ih =>
    obtain ⟨i, hi, h⟩ := addressAfter?_succ_eq_some h
    have hnext := Instruction.toNat_next hsize hi
    have hpos := i.size_pos
    have hle := ih h
    omega

/-! ## Instructions in line on the way -/

namespace Lined

/-- Instructions in line begin at the addresses on the way. -/
theorem addressAfter?_of_getElem? (h : code.Lined a is z) (hn : is[n]? = some i) :
    code.addressAfter? a n = some i.address ∧ Instruction.decode code i.address = .ok i := by
  induction is generalizing a n with
  | nil => cases hn
  | cons j is ih =>
    cases n with
    | zero =>
      obtain rfl := Option.some.inj hn
      obtain ⟨rfl, -⟩ := Instruction.decode_eq_ok h.1
      exact ⟨rfl, h.1⟩
    | succ n =>
      obtain ⟨ha, hi⟩ := ih h.2 hn
      exact ⟨(addressAfter?_succ h.1 n).trans ha, hi⟩

/-- What is decoded on the way, before the end of some instructions in line, is one of them. -/
theorem getElem?_of_addressAfter? (hsize : code.size < UInt32.size) (h : code.Lined a is z)
    (hb : code.addressAfter? a n = some b) (hlt : b < z) (hi : Instruction.decode code b = .ok i) :
    is[n]? = some i := by
  induction is generalizing a n with
  | nil =>
    obtain rfl : a = z := h
    have hle := add_le_of_addressAfter? hsize hb
    have hlt := UInt32.lt_iff_toNat_lt.1 hlt
    omega
  | cons j is ih =>
    cases n with
    | zero =>
      obtain rfl := Option.some.inj hb
      exact congrArg some (Except.ok.inj (h.1.symm.trans hi))
    | succ n => exact ih h.2 ((addressAfter?_succ h.1 n).symm.trans hb)

theorem isChain (h : code.Lined a is z) : is.IsChain (·.next = ·.address) := by
  induction is generalizing a with
  | nil => exact .nil
  | cons i is ih =>
    cases is with
    | nil => exact .singleton i
    | cons j is =>
      obtain ⟨hj, -⟩ := Instruction.decode_eq_ok h.2.1
      exact .cons_cons hj.symm (ih h.2)

/-- The last of some instructions in line ends where all of them end. -/
theorem exists_getLast? (h : code.Lined a is z) (hne : is ≠ []) :
    ∃ i, is.getLast? = some i ∧ i.next = z := by
  induction is generalizing a with
  | nil => exact absurd rfl hne
  | cons i is ih =>
    cases is with
    | nil => exact ⟨i, rfl, h.2⟩
    | cons j is =>
      obtain ⟨k, hk, hz⟩ := ih h.2 (List.cons_ne_nil j is)
      exact ⟨k, hk, hz⟩

end Lined

end Code

namespace Script

/-- What the loop comes to that goes from an address up to `stop`: the instructions that it has
taken, or the error where there is none to take. -/
inductive Sweeps (p : Script) (stop : UInt32) :
    UInt32 → Except Error (List Instruction) → Prop where
  | stops {a : UInt32} (h : stop ≤ a) : Sweeps p stop a (.ok [])
  | fails {a : UInt32} {e : Error} (h : a < stop) (hd : p.decode a = .error e) :
      Sweeps p stop a (.error e)
  | takes {a : UInt32} {i : Instruction} {r : Except Error (List Instruction)} (h : a < stop)
      (hd : p.decode a = .ok i) (hr : Sweeps p stop i.next r) :
      Sweeps p stop a (r.map (i :: ·))

variable {p : Script} {a b stop : UInt32} {r : Except Error (List Instruction)} {e : Error}
  {is : List Instruction} {n : Nat}

/-! ## The loop -/

/-- A loop that fails does so at an address on the way. -/
theorem Sweeps.exists_addressAfter? (h : p.Sweeps stop a r) (hr : r = .error e) :
    ∃ n b, p.code.addressAfter? a n = some b ∧ b < stop ∧ p.decode b = .error e := by
  induction h with
  | stops => cases hr
  | fails hlt hd =>
    obtain rfl := Except.error.inj hr
    exact ⟨0, _, rfl, hlt, hd⟩
  | @takes a i r hlt hd _ ih =>
    cases r with
    | ok is => cases hr
    | error e' =>
      obtain rfl := Except.error.inj hr
      obtain ⟨n, b, hb, hstop, he⟩ := ih rfl
      exact ⟨n + 1, b, (Code.addressAfter?_succ hd n).trans hb, hstop, he⟩

section

variable (hsize : p.code.size < UInt32.size)

include hsize

/-- A loop that meets an address below `stop` at which nothing is decoded fails there. -/
theorem Sweeps.eq_error (h : p.Sweeps stop a r) (hb : p.code.addressAfter? a n = some b)
    (hlt : b < stop) (he : p.decode b = .error e) : r = .error e := by
  induction h generalizing n with
  | stops hle =>
    -- the way does not lead back below the end of the range
    have hstop := UInt32.le_iff_toNat_le.1 hle
    have hway := Code.add_le_of_addressAfter? hsize hb
    have hlt := UInt32.lt_iff_toNat_lt.1 hlt
    omega
  | fails _ hd =>
    cases n with
    | zero =>
      obtain rfl := Option.some.inj hb
      exact congrArg _ (Except.error.inj (hd.symm.trans he))
    | succ n =>
      -- the way ends where nothing is decoded
      obtain ⟨i, hi, -⟩ := Code.addressAfter?_succ_eq_some hb
      cases hd.symm.trans hi
  | takes _ hd _ ih =>
    cases n with
    | zero =>
      obtain rfl := Option.some.inj hb
      cases hd.symm.trans he
    | succ n =>
      rw [ih ((Code.addressAfter?_succ hd n).symm.trans hb)]
      rfl

/-- The loop ends: what is left of the code gets less with every instruction. -/
theorem exists_sweeps (stop a : UInt32) : ∃ r, p.Sweeps stop a r := by
  by_cases hlt : a < stop
  · cases hd : p.decode a with
    | error e => exact ⟨_, .fails hlt hd⟩
    | ok i =>
      -- behind the instruction the same loop goes on, with less of the code left
      have hless := Code.sub_next_lt hsize hd
      obtain ⟨r, hr⟩ := exists_sweeps stop i.next
      exact ⟨_, .takes hlt hd hr⟩
  · exact ⟨_, .stops (UInt32.not_lt.1 hlt)⟩
termination_by p.code.size - a.toNat

/-- As many steps as there are bytes left, and one more, are enough for the loop. -/
theorem Sweeps.decodeWithin_eq (h : p.Sweeps stop a r) (hn : p.code.size - a.toNat ≤ n) :
    p.decodeWithin stop (n + 1) a = r := by
  induction h generalizing n with
  | stops hle => rw [decodeWithin, if_neg (UInt32.not_lt.2 hle)]
  | fails hlt hd =>
    rw [decodeWithin, if_pos hlt, hd]
    rfl
  | @takes a i r hlt hd _ ih =>
    have hless := Code.sub_next_lt hsize hd
    cases n with
    | zero =>
      -- an instruction cannot be decoded where there are no bytes left
      omega
    | succ n =>
      rw [decodeWithin, if_pos hlt, hd, Except.bind_of_ok rfl, ih (by omega)]
      cases r <;> rfl

/-- The loop comes to what is decoded from the range, and to nothing else. -/
theorem sweeps_iff : p.Sweeps stop a r ↔ p.decodeRange a stop = r := by
  have heq : ∀ {r}, p.Sweeps stop a r → p.decodeRange a stop = r :=
    fun h => h.decodeWithin_eq hsize (Nat.sub_le _ _)
  refine ⟨heq, ?_⟩
  rintro rfl
  obtain ⟨r, hr⟩ := exists_sweeps hsize stop a
  rwa [heq hr]

/-! ## What is decoded -/

/-- A range is not decoded exactly if the way leads to an address below its end at which nothing is
decoded. -/
theorem decodeRange_eq_error :
    p.decodeRange a stop = .error e ↔
      ∃ n b, p.code.addressAfter? a n = some b ∧ b < stop ∧ p.decode b = .error e := by
  rw [← sweeps_iff hsize]
  constructor
  · intro h
    exact h.exists_addressAfter? rfl
  · rintro ⟨n, b, hb, hlt, he⟩
    obtain ⟨r, hr⟩ := exists_sweeps hsize stop a
    rwa [← hr.eq_error hsize hb hlt he]

/-- The instructions of a range are those on the way that begin below its end. -/
theorem getElem?_of_decodeRange (h : p.decodeRange a stop = .ok is) {i : Instruction} :
    is[n]? = some i ↔
      ∃ b, p.code.addressAfter? a n = some b ∧ b < stop ∧ p.decode b = .ok i := by
  obtain ⟨z, hl, hz, hstop⟩ := (decodeRange_eq_ok hsize).1 h
  constructor
  · intro hi
    obtain ⟨ha, hd⟩ := hl.addressAfter?_of_getElem? hi
    exact ⟨i.address, ha, hstop i (List.mem_of_getElem? hi), hd⟩
  · rintro ⟨b, hb, hlt, hd⟩
    exact hl.getElem?_of_addressAfter? hsize hb (UInt32.lt_of_lt_of_le hlt hz) hd

/-- The last instruction of a range that is not empty ends at its end or behind it. -/
theorem exists_getLast?_of_decodeRange (h : p.decodeRange a stop = .ok is) (hlt : a < stop) :
    ∃ i, is.getLast? = some i ∧ stop ≤ i.next := by
  obtain ⟨z, hl, hz, -⟩ := (decodeRange_eq_ok hsize).1 h
  -- without instructions the range would have to end where it begins
  have hne : is ≠ [] := by
    rintro rfl
    obtain rfl : a = z := hl
    exact UInt32.not_lt.2 hz hlt
  obtain ⟨i, hi, rfl⟩ := hl.exists_getLast? hne
  exact ⟨i, hi, hz⟩

/-- A range is decoded exactly if an instruction is decoded at every address on the way that lies
below its end. -/
theorem exists_decodeRange_eq_ok :
    (∃ is, p.decodeRange a stop = .ok is) ↔
      ∀ n b, p.code.addressAfter? a n = some b → b < stop → ∃ i, p.decode b = .ok i := by
  constructor
  · rintro ⟨is, h⟩ n b hb hlt
    cases hd : p.decode b with
    | ok i => exact ⟨i, rfl⟩
    | error e => cases h.symm.trans ((decodeRange_eq_error hsize).2 ⟨n, b, hb, hlt, hd⟩)
  · intro hall
    cases h : p.decodeRange a stop with
    | ok is => exact ⟨is, rfl⟩
    | error e =>
      obtain ⟨n, b, hb, hlt, he⟩ := (decodeRange_eq_error hsize).1 h
      obtain ⟨i, hi⟩ := hall n b hb hlt
      cases hi.symm.trans he

/-- Take some code that is not longer than addresses reach, such as that of a script that was
loaded, and the way that leads from an address to the end of the instruction there, and so on. Each
instruction on the way ends within the code, at an address that does not wrap. The loop that decodes
a range ends, with what is decoded from the range. That succeeds exactly if an instruction is
decoded at every address on the way that lies below the end of the range, and it consists of these
instructions in order. Each begins where the one before it ends, and the last one ends at the end of
the range or behind it, unless the range is empty. If it does not succeed, the error is that of the
first address on the way at which nothing is decoded. -/
theorem sweep_along_chain (start stop : UInt32) :
    (∀ r, p.Sweeps stop start r ↔ p.decodeRange start stop = r) ∧
    (∀ n a, p.code.addressAfter? start n = some a →
      start.toNat + n ≤ a.toNat ∧ ∀ i, p.decode a = .ok i →
        i.next.toNat = a.toNat + i.size.toNat ∧ i.next.toNat ≤ p.code.size) ∧
    ((∃ is, p.decodeRange start stop = .ok is) ↔
      ∀ n a, p.code.addressAfter? start n = some a → a < stop → ∃ i, p.decode a = .ok i) ∧
    (∀ is, p.decodeRange start stop = .ok is →
      (∀ n i, is[n]? = some i ↔
        ∃ a, p.code.addressAfter? start n = some a ∧ a < stop ∧ p.decode a = .ok i) ∧
      is.IsChain (·.next = ·.address) ∧
      (start < stop → ∃ i, is.getLast? = some i ∧ stop ≤ i.next)) ∧
    ∀ e, p.decodeRange start stop = .error e ↔
      ∃ n a, (p.code.addressAfter? start n = some a ∧ a < stop ∧ p.decode a = .error e) ∧
        ∀ k < n, ∃ b i, p.code.addressAfter? start k = some b ∧ p.decode b = .ok i := by
  refine ⟨fun r => sweeps_iff hsize, fun n a ha => ?_, exists_decodeRange_eq_ok hsize,
    fun is h => ?_, fun e => ?_⟩
  · refine ⟨Code.add_le_of_addressAfter? hsize ha, fun i hi => ?_⟩
    have hnext := Instruction.toNat_next hsize hi
    exact ⟨hnext, hnext ▸ (Instruction.decode_eq_ok hi).2⟩
  · obtain ⟨z, hl, -⟩ := (decodeRange_eq_ok hsize).1 h
    exact ⟨fun n i => getElem?_of_decodeRange hsize h, hl.isChain,
      exists_getLast?_of_decodeRange hsize h⟩
  · rw [decodeRange_eq_error hsize]
    constructor
    · rintro ⟨n, a, ha, hlt, he⟩
      exact ⟨n, a, ⟨ha, hlt, he⟩, fun k hk => Code.exists_decode_of_addressAfter? ha hk⟩
    · rintro ⟨n, a, ha, -⟩
      exact ⟨n, a, ha⟩

end

/-- An instruction that pushes a number. -/
def pushOne : Instruction := ⟨0, .pushi, .immediate 1⟩

/-- A script whose code is such an instruction, a return, and the beginning of a call. -/
def cutOff : Script := .ofParts 50 [] #[64, 1, 0, 0, 0, 60, 61, 0]

/-- A range that ends inside the first instruction consists of it, and it ends behind the range. The
range of all the code is not decoded, because of the call. -/
theorem sweep_along_chain_of_cutOff :
    cutOff.code.size < UInt32.size ∧
      (cutOff.decodeRange 0 3 = .ok [pushOne] ∧ cutOff.Sweeps 3 0 (.ok [pushOne]) ∧
        3 ≤ pushOne.next) ∧
      cutOff.decodeRange 0 8 = .error (.outOfBounds 6 8) ∧
        cutOff.Sweeps 8 0 (.error (.outOfBounds 6 8)) := by
  have hsize : cutOff.code.size < UInt32.size := by decide
  obtain ⟨hends, -, -, hlist, -⟩ := sweep_along_chain hsize 0 3
  obtain ⟨hends', -, -, -, herror⟩ := sweep_along_chain hsize 0 8
  have hone : cutOff.decodeRange 0 3 = .ok [pushOne] := rfl
  obtain ⟨-, -, hlast⟩ := hlist _ hone
  obtain ⟨i, hi, hle⟩ := hlast (by decide)
  obtain rfl := Option.some.inj hi
  have hall : cutOff.decodeRange 0 8 = .error (.outOfBounds 6 8) := by
    refine (herror _).2 ⟨2, 6, ⟨rfl, by decide, rfl⟩, fun k hk => ?_⟩
    match k, hk with
    | 0, _ => exact ⟨0, pushOne, rfl, rfl⟩
    | 1, _ => exact ⟨5, ⟨5, .rsr, .none⟩, rfl, rfl⟩
  exact ⟨hsize, ⟨hone, (hends _).2 hone, hle⟩, hall, (hends' _).2 hall⟩

end Script

end ScriptMachine
