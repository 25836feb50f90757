import ScriptMachine.Proofs.Expression
import ScriptMachine.Proofs.SymbolTable
import ScriptMachine.Proofs.Trail
import ScriptMachine.Proofs.Word

/-!
# Evaluating expressions

The code of an expression, wherever it stands in a script, leaves one entry on the stack that serves
as the value of the expression, and it fails exactly where a division has the divisor zero. On the
way nothing is changed but the stack above the entries that were there, `pc` and the log.

* `Code.At` – whether some bytes stand at an address.
* `Instruction.decode_of_at` – an instruction is found where its bytes are.
* `Advances`, `Fails` – where a number of steps of the execution loop lead.
* `Machine.intVariable?` – the number in a variable.
* `Expr.run_code` – what the code of an expression does.
-/

namespace ScriptMachine

/-! ## Code in place -/

/-- Whether some bytes stand in code from an address on. -/
def Code.At (code : Code) (a : UInt32) (t : List UInt8) : Prop := t <+: code.toList.drop a.toNat

section

variable {code : Code} {a : UInt32} {t u : List UInt8}

theorem Code.At.left (h : code.At a (t ++ u)) : code.At a t :=
  (List.prefix_append t u).trans h

/-- Code is not longer than the addresses reach, so the address behind a part of it does not
wrap. -/
theorem Code.At.right (h : code.At a (t ++ u)) (hsize : code.size < UInt32.size) :
    code.At (a + UInt32.ofNat t.length) u := by
  obtain ⟨rest, hr⟩ := h
  have hlt : a.toNat + t.length < UInt32.size := by
    have hlen := congrArg List.length hr
    have hcode : code.toList.length = code.size := Array.length_toList
    have ha : a.toNat < UInt32.size := a.toNat_lt
    rw [List.length_append, List.length_append, List.length_drop, hcode] at hlen
    omega
  have hnext : (a + UInt32.ofNat t.length).toNat = a.toNat + t.length := by
    rw [UInt32.toNat_add, UInt32.toNat_ofNat', Nat.add_mod_mod, Nat.mod_eq_of_lt hlt]
  refine ⟨rest, ?_⟩
  rw [hnext, ← List.drop_drop, ← hr, List.append_assoc, List.drop_left]

theorem getElem?_add (code : Code) (i k : Nat) : code[i + k]? = (code.toList.drop i)[k]? := by
  rw [List.getElem?_drop, Array.getElem?_toList]

variable {i : Nat} {rest : List UInt8}

theorem Operand.wordAt?_of_drop {w : UInt32}
    (h : code.toList.drop i = LittleEndian.encode w ++ rest) : wordAt? code i = some w := by
  have hbyte (k : Nat) : code[i + k]? = (LittleEndian.encode w ++ rest)[k]? := by
    rw [getElem?_add, h]
  have h₀ : code[i]? = some w.toUInt8 := hbyte 0
  rw [wordAt?, h₀, hbyte 1, hbyte 2, hbyte 3]
  exact congrArg some (LittleEndian.decode_encode w)

/-- An operand is found where its bytes are. -/
theorem Operand.decode?_of_drop {o : Operand} (h : code.toList.drop i = o.encode ++ rest) :
    decode? o.shape code i = some o := by
  cases o with
  | none => rfl
  | address w | symbol w => exact congrArg (Option.map _) (wordAt?_of_drop h)
  | immediate n =>
    have hn := congrArg (Option.map fun w => immediate w.toInt32) (wordAt?_of_drop h)
    exact hn
  | element s e =>
    have hs : code.toList.drop i = LittleEndian.encode s ++ (e :: rest) := by
      rw [h, encode, List.append_assoc]
      rfl
    have he : code[i + 4]? = some e := by
      rw [getElem?_add, hs]
      rfl
    rw [shape, decode?, wordAt?_of_drop hs, he]
    rfl

/-- An instruction is found where its bytes are. -/
theorem Instruction.decode_of_at {opcode : Opcode} {operand : Operand}
    (h : code.At a (opcode.toByte :: operand.encode)) (hs : operand.shape = opcode.shape) :
    decode code a = .ok ⟨a, opcode, operand⟩ := by
  obtain ⟨rest, h⟩ := h
  have hbyte : code[a.toNat]? = some opcode.toByte := by
    have hadd := getElem?_add code a.toNat 0
    rw [← h] at hadd
    exact hadd
  have hrest : code.toList.drop (a.toNat + 1) = operand.encode ++ rest := by
    rw [← List.drop_drop, ← h]
    rfl
  rw [decode, hbyte]
  dsimp only
  rw [Opcode.ofByte?_toByte]
  dsimp only
  rw [← hs, Operand.decode?_of_drop hrest]

end

/-! ## Steps of the loop -/

variable {σ : Type} {b : Budget σ} {w v u : World σ} {n k : Nat} {e : Error}

/-- Whether a number of steps lead from one world to another, after each of which the loop goes
on. -/
inductive Advances (b : Budget σ) : Nat → World σ → World σ → Prop where
  | refl (w : World σ) : Advances b 0 w w
  | step {n : Nat} {w v u : World σ} (h : RunM.step b w = some (.ok false, v))
      (rest : Advances b n v u) : Advances b (n + 1) w u

/-- Whether one of a number of steps fails, and in which world. -/
def Fails (b : Budget σ) (n : Nat) (w : World σ) (e : Error) (v : World σ) : Prop :=
  ∃ k u, k < n ∧ Advances b k w u ∧ RunM.step b u = some (.error e, v)

namespace Advances

theorem of_step (h : RunM.step b w = some (.ok false, v)) : Advances b 1 w v := .step h (.refl v)

theorem trans (h : Advances b n w v) (h' : Advances b k v u) : Advances b (n + k) w u := by
  induction h with
  | refl => exact (Nat.zero_add k).symm ▸ h'
  | @step n _ _ _ hstep _ ih => exact Nat.succ_add n k ▸ .step hstep (ih h')

/-- The loop goes on from where the steps lead. -/
theorem repeatStep_eq (h : Advances b n w v) (k : Nat) :
    RunM.repeatStep (RunM.step b) (n + k) w = RunM.repeatStep (RunM.step b) k v := by
  induction h with
  | refl => rw [Nat.zero_add]
  | step hstep _ ih =>
    rw [Nat.succ_add, RunM.repeatStep, hstep]
    exact ih

end Advances

namespace Fails

theorem of_step (h : RunM.step b w = some (.error e, v)) : Fails b 1 w e v :=
  ⟨0, w, Nat.one_pos, .refl w, h⟩

theorem add (h : Fails b n w e v) (k : Nat) : Fails b (n + k) w e v := by
  obtain ⟨l, u, hl, ha, hu⟩ := h
  exact ⟨l, u, Nat.lt_add_right k hl, ha, hu⟩

/-- So does the loop. -/
theorem repeatStep_eq (h : Fails b n w e v) :
    RunM.repeatStep (RunM.step b) n w = some (.error e, v) := by
  obtain ⟨k, u, hk, ha, hu⟩ := h
  obtain ⟨l, rfl⟩ := Nat.exists_eq_add_of_lt hk
  rw [Nat.add_assoc, ha.repeatStep_eq, RunM.repeatStep, hu]

end Fails

theorem Advances.fails (h : Advances b n w v) (h' : Fails b k v e u) : Fails b (n + k) w e u := by
  obtain ⟨l, t, hl, ha, ht⟩ := h'
  exact ⟨n + l, t, Nat.add_lt_add_left hl n, h.trans ha, ht⟩

namespace RunM

open Machine

variable {i : Instruction} {m : Machine σ}

/-- A step whose instruction says to go on does so. -/
theorem step_of_next (hi : w.machine.script.decode w.machine.pc = .ok i)
    (he : execute i (w.machine.fetched i) = (.ok .next, m)) :
    step b w = some (.ok false, { w with machine := m }) := by
  rw [step_of_decode hi]
  have hx : onMachine (execute i) { w with machine := w.machine.fetched i } =
    some (.ok .next, { w with machine := m }) := onMachine_eq_some.2 ⟨he, rfl⟩
  exact bind_of_ok hx

/-- A step whose instruction fails does so too. -/
theorem step_of_error (hi : w.machine.script.decode w.machine.pc = .ok i)
    (he : execute i (w.machine.fetched i) = (.error e, m)) :
    step b w = some (.error e, { w with machine := m }) := by
  rw [step_of_decode hi]
  have hx : onMachine (execute i) { w with machine := w.machine.fetched i } =
    some (.error e, { w with machine := m }) := onMachine_eq_some.2 ⟨he, rfl⟩
  exact bind_eq_some.2 (.inr ⟨e, hx, rfl⟩)

end RunM

namespace Machine

variable {m : Machine σ} {x y : Entry} {below : List Entry}

/-! ## Numbers on the stack and in variables -/

/-- The number in the first cell of a variable that is no member and holds numbers. -/
def intVariable? (m : Machine σ) (i : UInt32) : Option Int32 :=
  match m.script.symbolByIndex? i, m.memory.globals[i.toNat]? with
  | some s, some (.ints cells) => if s.isMember then none else cells[0]?
  | _, _ => none

/-- A reference to a variable serves as the number in it. -/
theorem content?_of_intVariable {i : UInt32} {n : Int32} (h : m.intVariable? i = some n)
    (context : Option Handle) : m.content? .int (.reference ⟨i, 0, context⟩) = some (.ok n) := by
  rw [intVariable?] at h
  split at h
  · next s cells hs hcells =>
    split at h
    · cases h
    · next hm =>
      have hfind : m.script.find (.index i) = .ok s := by
        rw [Script.find, Script.resolve?, hs]
      have hlocate : m.memory.locate m.script m.config.flags s i context =
        .ok (some (.global i)) := if_neg hm
      have hget : Storage.get .int (.ints cells) 0 = .ok n := by
        rw [Storage.get, Storage.cells?]
        dsimp only
        rw [h]
      simp only [content?, Machine.read, Memory.read, hfind, bind, Except.bind, hlocate,
        Memory.storageAt?, hcells, hget]
      rfl
  · cases h

/-- An entry that serves as a number is popped as this number. -/
theorem pop_of_content {k : CellKind} {c : k.Content} (hs : m.stack = x :: below)
    (hx : m.content? k x = some (.ok c)) : pop k m = (.ok c, m.withStack below) := by
  have hx : (m.withStack below).content? k x = some (.ok c) := hx
  rw [pop, hs]
  dsimp only
  rw [withStack] at hx
  rw [hx]
  rfl

/-! ## Operators -/

variable {i : Instruction} {a c : Int32}

/-- An operator with one operand replaces an entry that serves as its operand by its result. -/
theorem execute_unary {op : UnaryOperator} (hop : i.opcode = op.opcode)
    (hs : m.stack = x :: below) (hx : m.content? .int x = some (.ok a)) :
    execute i m = (.ok .next, (m.withStack below).push (.int (op.apply a))) := by
  rw [execute, hop, op.effect_opcode]
  exact MachineM.bind_eq_ok.2 ⟨a, _, pop_of_content hs hx, rfl⟩

/-- An operator with two operands takes its operands off the stack, and leaves its result there if
it has one. -/
theorem execute_binary {op : BinaryOperator} (hop : i.opcode = op.opcode)
    (hs : m.stack = x :: y :: below) (hx : m.content? .int x = some (.ok a))
    (hy : m.content? .int y = some (.ok c)) :
    execute i m =
      match op.apply a c with
      | some n => (.ok .next, (m.withStack below).push (.int n))
      | none => (.error (.divisionByZero i.address), m.withStack below) := by
  have hpop : pop .int (m.withStack (y :: below)) = (.ok c, m.withStack below) :=
    pop_of_content (m := m.withStack (y :: below)) rfl hy
  rw [execute, hop, op.effect_opcode]
  cases hr : op.apply a c with
  | none =>
    refine MachineM.bind_eq.2 (.inl ⟨a, _, pop_of_content hs hx, ?_⟩)
    refine MachineM.bind_eq.2 (.inl ⟨c, _, hpop, ?_⟩)
    rw [hr]
    rfl
  | some n =>
    refine MachineM.bind_eq_ok.2 ⟨a, _, pop_of_content hs hx, ?_⟩
    refine MachineM.bind_eq_ok.2 ⟨c, _, hpop, ?_⟩
    rw [hr]
    rfl

/-- The machine once some code has left entries on the stack. -/
def evaluated (m : Machine σ) (above : List Entry) (pc : UInt32) (log : List LogEvent) :
    Machine σ :=
  { m with stack := above ++ m.stack, pc, log }

theorem evaluated_evaluated (m : Machine σ) (xs ys : List Entry) (pc pc' : UInt32)
    (log log' : List LogEvent) :
    (m.evaluated xs pc log).evaluated ys pc' log' = m.evaluated (ys ++ xs) pc' log' := by
  rw [evaluated, evaluated, evaluated, List.append_assoc]

end Machine

/-! ## Results -/

/-- Whether a number of steps leave the result of some code on the stack and lead to the address
behind the code, or fail with a division by zero if there is no result. -/
def Evaluates (b : Budget σ) (n : Nat) (pc : UInt32) (w : World σ) : Option Int32 → Prop
  | some r => ∃ x log, w.machine.content? .int x = some (.ok r) ∧
      Advances b n w { w with machine := w.machine.evaluated [x] pc log }
  | none => ∃ a above pc log,
      Fails b n w (.divisionByZero a) { w with machine := w.machine.evaluated above pc log }

theorem UnaryOperator.next_opcode (op : UnaryOperator) (a : UInt32) :
    Instruction.next ⟨a, op.opcode, .none⟩ = a + 1 := by
  cases op <;> rfl

theorem BinaryOperator.next_opcode (op : BinaryOperator) (a : UInt32) :
    Instruction.next ⟨a, op.opcode, .none⟩ = a + 1 := by
  cases op <;> rfl

namespace Evaluates

variable {pc pc' : UInt32} {r r' : Option Int32}

theorem lit {n : Int32}
    (hi : w.machine.script.decode w.machine.pc = .ok ⟨w.machine.pc, .pushi, .immediate n⟩) :
    Evaluates b 1 (w.machine.pc + 5) w (some n) :=
  ⟨.immediate n, _, rfl, .of_step (RunM.step_of_next hi rfl)⟩

theorem var {i : UInt32} {n : Int32}
    (hi : w.machine.script.decode w.machine.pc = .ok ⟨w.machine.pc, .pushv, .symbol i⟩)
    (hn : w.machine.intVariable? i = some n) :
    Evaluates b 1 (w.machine.pc + 5) w (some n) :=
  ⟨.reference ⟨i, 0, w.machine.context⟩, _, Machine.content?_of_intVariable hn _,
    .of_step (RunM.step_of_next hi rfl)⟩

/-- An operator with one operand stands behind its operand. -/
theorem unary {op : UnaryOperator} (h : Evaluates b n pc w r)
    (hi : w.machine.script.decode pc = .ok ⟨pc, op.opcode, .none⟩) :
    Evaluates b (n + 1) (pc + 1) w (r.map op.apply) := by
  cases r with
  | none =>
    obtain ⟨a, above, pc', log, hf⟩ := h
    exact ⟨a, above, pc', log, hf.add 1⟩
  | some a =>
    obtain ⟨x, log, hx, ha⟩ := h
    let v : World σ := { w with machine := w.machine.evaluated [x] pc log }
    let i : Instruction := ⟨pc, op.opcode, .none⟩
    have hstack : (v.machine.fetched i).stack = x :: w.machine.stack := rfl
    have hstep := RunM.step_of_next (b := b) (w := v) hi (Machine.execute_unary rfl hstack hx)
    have hv := ha.trans (.of_step hstep)
    refine ⟨.value (.int (op.apply a)), .executed i :: log, rfl, ?_⟩
    rw [← op.next_opcode pc]
    exact hv

/-- An operator with two operands stands behind its left operand, which stands behind its right
operand. -/
theorem binary {op : BinaryOperator} (h : Evaluates b k pc w r)
    (h' : ∀ x log, Evaluates b n pc' { w with machine := w.machine.evaluated [x] pc log } r')
    (hi : w.machine.script.decode pc' = .ok ⟨pc', op.opcode, .none⟩) :
    Evaluates b (k + n + 1) (pc' + 1) w (r'.bind fun a => r.bind fun c => op.apply a c) := by
  cases r with
  | none =>
    -- the right operand fails, so nothing behind it is executed
    obtain ⟨a, above, pc'', log, hf⟩ := h
    rw [Nat.add_assoc]
    cases r' <;> exact ⟨a, above, pc'', log, hf.add _⟩
  | some c =>
    obtain ⟨y, log, hy, ha⟩ := h
    have hleft := h' y log
    cases r' with
    | none =>
      obtain ⟨a, above, pc'', log', hf⟩ := hleft
      rw [Machine.evaluated_evaluated] at hf
      exact ⟨a, above ++ [y], pc'', log', (ha.fails hf).add 1⟩
    | some a =>
      obtain ⟨x, log', hx, ha'⟩ := hleft
      rw [Machine.evaluated_evaluated] at ha'
      let v : World σ := { w with machine := w.machine.evaluated [x, y] pc' log' }
      let i : Instruction := ⟨pc', op.opcode, .none⟩
      have hstack : (v.machine.fetched i).stack = x :: y :: w.machine.stack := rfl
      have hexec := Machine.execute_binary (i := i) rfl hstack hx hy
      have hv := ha.trans ha'
      rw [Option.bind_some, Option.bind_some, ← op.next_opcode pc']
      cases hr : op.apply a c with
      | none =>
        rw [hr] at hexec
        exact ⟨pc', [], i.next, .executed i :: log',
          hv.fails (.of_step (RunM.step_of_error (w := v) hi hexec))⟩
      | some n =>
        rw [hr] at hexec
        exact ⟨.value (.int n), .executed i :: log', rfl,
          hv.trans (.of_step (RunM.step_of_next (w := v) hi hexec))⟩

end Evaluates

namespace Expr

/-- The code of an expression evaluates it, wherever it stands. -/
theorem evaluates {e : Expr} {env : UInt32 → Int32}
    (hsize : w.machine.script.code.size < UInt32.size)
    (hcode : w.machine.script.code.At w.machine.pc e.code)
    (henv : ∀ i ∈ e.vars, w.machine.intVariable? i = some (env i)) :
    Evaluates b e.length (w.machine.pc + UInt32.ofNat e.code.length) w (e.eval env) := by
  -- for any world, since the left operand is evaluated with the right one on the stack
  induction e generalizing w with
  | lit n => exact .lit (Instruction.decode_of_at hcode rfl)
  | var i => exact .var (Instruction.decode_of_at hcode rfl) (henv i List.mem_cons_self)
  | unary op e ih =>
    have hop : (Operand.none).shape = op.opcode.shape := by cases op <;> rfl
    have hi := Instruction.decode_of_at (hcode.right hsize) hop
    have h := (ih hsize hcode.left henv).unary hi
    rw [code, List.length_append, UInt32.ofNat_add, ← UInt32.add_assoc]
    exact h
  | binary op l r ihl ihr =>
    have hop : (Operand.none).shape = op.opcode.shape := by cases op <;> rfl
    obtain ⟨hl, hr⟩ := List.forall_mem_append.1 henv
    have hright := ihr hsize hcode.left.left hr
    have hleft (x : Entry) (log : List LogEvent) :=
      have hnext := hcode.left.right hsize
      ihl (w := ⟨w.host, w.machine.evaluated [x] _ log⟩) hsize hnext hl
    have hi := Instruction.decode_of_at (hcode.right hsize) hop
    rw [List.length_append, UInt32.ofNat_add, ← UInt32.add_assoc] at hi
    have h := hright.binary hleft hi
    rw [code, List.length_append, List.length_append, UInt32.ofNat_add, UInt32.ofNat_add,
      ← UInt32.add_assoc, ← UInt32.add_assoc]
    exact h

/-- Two expressions over a variable; the second one divides by zero if the variable is seven. -/
def half : Expr := .binary .div (.var 0) (.lit 2)

def inverse : Expr := .binary .mod (.lit 1) (.binary .sub (.var 0) (.lit 7))

/-- A script with a number and the code of the expressions. -/
def script : Script :=
  .ofParts 50 [{ Symbol.blank "" 0 .int none with data := .ints [7] }]
    (45 :: half.code ++ inverse.code).toArray

/-- The script as it is compiled. -/
def scriptBytes : List UInt8 :=
  50 :: [1, 0, 0, 0, 0x2001, 0, 0, 0, 0, 0, 7, 0xFFFFFFFF, 29].flatMap LittleEndian.encode ++
    45 :: half.code ++ inverse.code

/-- A machine at an address of the script, with an entry on its stack. -/
def worldAt (pc : UInt32) : World Unit :=
  ⟨(), { Machine.new script .default with stack := [.immediate 5], pc }⟩

/-- Take the code of an expression, which is what the assembler emits for its right operand, its
left operand and its operator, anywhere in a loaded script, and a machine that has come to it and
has numbers in the variables of the expression. If the expression has a value, as many steps as it
has instructions leave one more entry on the stack, which is popped as the value, and execution goes
on behind the code. These steps fail with a division by zero exactly if the right operand of a
division in the expression is zero, and otherwise there is a value. Either way the entries that were
on the stack, all variables and the rest of the machine stay as they were. -/
theorem run_code {enc : Text.Encoding} {bytes : List UInt8} {e : Expr} {env : UInt32 → Int32}
    (hload : Script.load enc bytes = .ok w.machine.script)
    (hcode : w.machine.script.code.At w.machine.pc e.code)
    (henv : ∀ i ∈ e.vars, w.machine.intVariable? i = some (env i)) :
    (∀ o : Assembler.OpenBody, (e.items.foldl Assembler.OpenBody.step o).draft.code =
        o.draft.code ++ e.code.toArray) ∧
      (∀ n, e.eval env = some n → ∃ x log,
        let m := w.machine.evaluated [x] (w.machine.pc + UInt32.ofNat e.code.length) log
        Advances b e.length w ⟨w.host, m⟩ ∧
          Machine.pop .int m = (.ok n, { m with stack := w.machine.stack })) ∧
      ((∃ a v, Fails b e.length w (.divisionByZero a) v) ↔ e.DividesByZero env) ∧
      (e.eval env = none ↔ e.DividesByZero env) ∧
      ∀ a v, Fails b e.length w (.divisionByZero a) v →
        ∃ above pc log, v = ⟨w.host, w.machine.evaluated above pc log⟩ := by
  have h := evaluates (b := b) (Script.size_code_of_load hload) hcode henv
  cases hr : e.eval env with
  | none =>
    rw [hr] at h
    have hzero := eval_eq_none.1 hr
    obtain ⟨a, above, pc, log, hf⟩ := h
    refine ⟨e.code_of_items, nofun, iff_of_true ⟨a, _, hf⟩ hzero, iff_of_true rfl hzero,
      fun a' v hv => ?_⟩
    -- the loop fails in one world only
    have hsame := hf.repeatStep_eq.symm.trans hv.repeatStep_eq
    obtain ⟨-, rfl⟩ := Prod.mk.inj (Option.some.inj hsame)
    exact ⟨above, pc, log, rfl⟩
  | some n =>
    rw [hr] at h
    have hzero : ¬e.DividesByZero env := fun hz => nomatch hr.symm.trans (eval_eq_none.2 hz)
    obtain ⟨x, log, hx, ha⟩ := h
    -- without further steps the loop goes on, so it does not fail
    have hfails (a : UInt32) (v : World σ) : ¬Fails b e.length w (.divisionByZero a) v :=
      fun hv => nomatch hv.repeatStep_eq.symm.trans (ha.repeatStep_eq 0)
    refine ⟨e.code_of_items, fun n' hn => ?_, iff_of_false (fun ⟨a, v, hv⟩ => hfails a v hv) hzero,
      iff_of_false nofun hzero, fun a v hv => absurd hv (hfails a v)⟩
    obtain rfl := Option.some.inj hn
    exact ⟨x, log, ha, Machine.pop_of_content rfl hx⟩

/-- Half of seven is three, whatever lies below on the stack, and the inverse of zero fails. -/
theorem run_code_half :
    (∃ x log, let m := (worldAt 1).machine.evaluated [x] 12 log
        Advances ⟨Routine.runWithin 1, 1⟩ 3 (worldAt 1) ⟨(), m⟩ ∧
          Machine.pop .int m = (.ok 3, { m with stack := [.immediate 5] })) ∧
      ∃ a v, Fails ⟨Routine.runWithin 1, 1⟩ 5 (worldAt 12) (.divisionByZero a) v := by
  have hload : Script.load .windows1252 scriptBytes = .ok script := rfl
  have hvalue : (worldAt 1).machine.intVariable? 0 = some 7 := by decide +kernel
  have hvar (pc i : UInt32) (hi : i ∈ [0]) :
      (worldAt pc).machine.intVariable? i = some (Function.const UInt32 7 i) := by
    obtain rfl := List.mem_singleton.1 hi
    exact hvalue
  have hat : script.code.At 1 half.code ∧ script.code.At 12 inverse.code := by
    constructor
    · exact ⟨inverse.code, rfl⟩
    · exact ⟨[], rfl⟩
  have hhalf := run_code (b := ⟨Routine.runWithin 1, 1⟩) (w := worldAt 1) hload hat.1 (hvar 1)
  have hinverse := run_code (b := ⟨Routine.runWithin 1, 1⟩) (w := worldAt 12) hload hat.2 (hvar 12)
  have hzero : inverse.DividesByZero (Function.const UInt32 7) := .inr (.inr ⟨rfl, rfl⟩)
  exact ⟨hhalf.2.1 3 rfl, hinverse.2.2.1.2 hzero⟩

end Expr

end ScriptMachine
