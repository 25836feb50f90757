import ScriptMachine.Proofs.Emission
import ScriptMachine.Proofs.Variable

/-!
# Moving arguments into variables

Two instructions move an argument from the stack into a variable: one pushes a reference to the
variable, and the other one, which depends on the type of the variable, pops it together with the
argument. A function begins with such moves for its parameters, the last one first.

* `Memory.assign` – the memory once a variable of one cell is assigned.
* `Move` – a move of an argument into a variable.
* `Move.advances`, `Move.advances_all` – what the instructions of one move do, and those of many.
* `Memory.getElem?_assignAll` – what moves leave in the variables.
* `Assembler.emitted_prologue` – a function begins with moves.
-/

namespace ScriptMachine

open Assembler (storeOpcode)

variable {σ : Type} {b : Budget σ} {w : World σ}

/-! ## Variables of one cell -/

/-- A storage is made of its cells. -/
theorem Storage.exists_of_shape {st : Storage} {k : CellKind} {n : Nat}
    (h : st.shape = (some k, n)) :
    ∃ cells : Array k.Content, st = ofCells k cells ∧ cells.size = n := by
  cases st with
  | empty => cases h
  | ints cells | floats cells | strings cells | insts cells =>
    obtain ⟨hk, rfl⟩ := Prod.mk.inj h
    obtain rfl := Option.some.inj hk
    exact ⟨cells, rfl, rfl⟩

/-- The memory once a global variable of one cell is assigned. -/
def Memory.assign (m : Memory) (i : UInt32) (c : CellValue) : Memory :=
  m.putAt (.ofCells c.1 #[c.2]) (.global i)

namespace Memory

variable {m : Memory} {p : Script} {flags : ExecutionFlags} {i : UInt32} {c : CellValue}

@[simp] theorem instances_assign (m : Memory) (i : UInt32) (c : CellValue) :
    (m.assign i c).instances = m.instances := rfl

theorem getElem?_assign_of_ne {j : Nat} (h : i.toNat ≠ j) :
    (m.assign i c).globals[j]? = m.globals[j]? :=
  Array.getElem?_setIfInBounds_ne h

theorem getElem?_assign (h : i.toNat < m.globals.size) :
    (m.assign i c).globals[i.toNat]? = some (.ofCells c.1 #[c.2]) :=
  Array.getElem?_setIfInBounds_self_of_lt h

/-- A variable of one cell is assigned as a whole. -/
theorem write_eq_assign {s : Symbol} (hs : p.symbolByIndex? i = some s) (hc : s.isConst = false)
    (hm : s.isMember = false) (context : Option Handle)
    (h : (m.globals[i.toNat]?).map Storage.shape = some (some c.1, 1)) :
    m.write p flags ⟨i, 0, context⟩ c = .ok (m.assign i c) := by
  obtain ⟨st, hst, hshape⟩ := Option.map_eq_some_iff.1 h
  obtain ⟨cells, rfl, hsize⟩ := Storage.exists_of_shape hshape
  have hfind : p.find (.index i) = .ok s := by rw [Script.find, Script.resolve?, hs]
  have hlocate : m.locate p flags s i context = .ok (some (.global i)) :=
    if_neg (by simp [hm])
  have hset : (Storage.ofCells c.1 cells).set 0 c = .ok (.ofCells c.1 #[c.2]) := by
    obtain ⟨a, rfl⟩ := Array.size_eq_one_iff.1 hsize
    rw [Storage.set, Storage.cells?_ofCells]
    rfl
  rw [write, Except.bind_of_ok hfind]
  simp only [hc, Bool.false_and, Bool.false_eq_true, if_false]
  rw [Except.bind_of_ok hlocate]
  simp only [storageAt?, hst, hset]
  rfl

/-- An assignment keeps the shapes of all variables. -/
theorem shape_assign (h : (m.globals[i.toNat]?).map Storage.shape = some (some c.1, 1)) :
    (m.assign i c).globals.map Storage.shape = m.globals.map Storage.shape := by
  obtain ⟨st, hst, hshape⟩ := Option.map_eq_some_iff.1 h
  exact map_shape_setIfInBounds hst (by rw [hshape, Storage.shape_ofCells]; rfl)

end Memory

/-! ## Moves -/

/-- What a cell holds is stored as it is. -/
theorem Value.cell?_toValue (k : CellKind) (c : k.Content) : (k.toValue c).cell? = some ⟨k, c⟩ := by
  cases k <;> rfl

/-- A move of an argument into a variable. -/
structure Move where
  target : UInt32
  type : DataType
  value : CellValue

/-- The opcode that moves arguments into variables of a type stores cells of the kind in which
values of the type cross the stack. -/
theorem Assembler.effect_storeOpcode {t : DataType} {k : CellKind} (h : t.kind? = some k.kind) :
    (storeOpcode t).effect = .assign k := by
  cases t <;> cases k <;> first | rfl | cases h

namespace Move

/-- The instructions of a move. -/
def code (x : Move) : List (Opcode × Operand) :=
  [(.pushv, .symbol x.target), (storeOpcode x.type, .none)]

/-- The entry that a move takes off the stack. -/
def entry (x : Move) : Entry := .value (x.value.1.toValue x.value.2)

/-- Whether a variable has one cell, for values of the kind that is moved into it. -/
structure Fits (p : Script) (m : Memory) (x : Move) : Prop where
  assignable : ∃ s, p.symbolByIndex? x.target = some s ∧ s.isConst = false ∧ s.isMember = false
  kind : x.type.kind? = some x.value.1.kind
  shape : (m.globals[x.target.toNat]?).map Storage.shape = some (some x.value.1, 1)

/-- Another move into a variable that fits does not change whether this one fits. -/
theorem Fits.assign {p : Script} {m : Memory} {x y : Move} (h : x.Fits p m) (hy : y.Fits p m) :
    x.Fits p (m.assign y.target y.value) where
  assignable := h.assignable
  kind := h.kind
  shape := by
    rw [← Array.getElem?_map, Memory.shape_assign hy.shape, Array.getElem?_map]
    exact h.shape

end Move

/-- The memory once all of some moves are done, one after the other. -/
def Memory.assignAll (m : Memory) (moves : List Move) : Memory :=
  moves.foldl (fun m x => m.assign x.target x.value) m

namespace Memory

variable {moves : List Move} {j : Nat}

theorem instances_assignAll (m : Memory) (moves : List Move) :
    (m.assignAll moves).instances = m.instances := by
  induction moves generalizing m with
  | nil => rfl
  | cons x moves ih => exact ih (m.assign x.target x.value)

/-- Moves leave the variables alone that are not their targets. -/
theorem getElem?_assignAll_of_ne (h : ∀ x ∈ moves, x.target.toNat ≠ j) (m : Memory) :
    (m.assignAll moves).globals[j]? = m.globals[j]? := by
  induction moves generalizing m with
  | nil => rfl
  | cons x moves ih =>
    obtain ⟨hx, hmoves⟩ := List.forall_mem_cons.1 h
    exact (ih hmoves (m.assign x.target x.value)).trans (getElem?_assign_of_ne hx)

/-- Moves into variables that all differ leave in each what was moved into it. -/
theorem getElem?_assignAll {x : Move} (hx : x ∈ moves)
    (hmoves : (moves.map Move.target).Nodup) (m : Memory)
    (hsize : x.target.toNat < m.globals.size) :
    (m.assignAll moves).globals[x.target.toNat]? = some (.ofCells x.value.1 #[x.value.2]) := by
  induction moves generalizing m with
  | nil => cases hx
  | cons y moves ih =>
    obtain ⟨hy, hmoves⟩ := List.nodup_cons.1 hmoves
    rcases List.mem_cons.1 hx with rfl | hx
    · -- what follows is moved elsewhere
      have hne : ∀ z ∈ moves, z.target.toNat ≠ x.target.toNat :=
        fun z hz he => hy (List.mem_map.2 ⟨z, hz, UInt32.toNat_inj.1 he⟩)
      exact (getElem?_assignAll_of_ne hne _).trans (getElem?_assign hsize)
    · exact ih hx hmoves _ (by simpa [assign, putAt] using hsize)

end Memory

/-! ## What the instructions of moves do -/

namespace Machine

variable {m : Machine σ} {i : Instruction} {k : CellKind} {c : k.Content} {r : Reference}
  {below : List Entry} {memory : Memory}

/-- An assignment takes a reference and a value off the stack. -/
theorem execute_assign (hi : i.opcode.effect = .assign k)
    (hs : m.stack = .reference r :: .value (k.toValue c) :: below)
    (hw : m.memory.write m.script m.config.flags r ⟨k, c⟩ = .ok memory) :
    execute i m = (.ok .next, { m with stack := below, memory }) := by
  have hreference : popReference m =
      (.ok r, m.withStack (.value (k.toValue c) :: below)) := by
    rw [popReference, hs]
    rfl
  have hvalue : pop k (m.withStack (.value (k.toValue c) :: below)) =
      (.ok c, m.withStack below) := by
    refine pop_of_content (m := m.withStack (.value (k.toValue c) :: below)) rfl ?_
    rw [content?, Value.content?_toValue]
    rfl
  have hwrite : write r ⟨k, c⟩ (m.withStack below) =
      (.ok (), { m with stack := below, memory }) := by
    rw [write, MachineM.get_bind]
    exact (MachineM.lift_bind _ _ _).trans (by rw [withStack]; dsimp only; rw [hw]; rfl)
  rw [execute, hi]
  refine MachineM.bind_eq_ok.2 ⟨r, _, hreference, ?_⟩
  refine MachineM.bind_eq_ok.2 ⟨c, _, hvalue, ?_⟩
  exact MachineM.bind_eq_ok.2 ⟨(), _, hwrite, rfl⟩

/-- The machine once arguments were moved from the stack into variables. -/
def stored (m : Machine σ) (below : List Entry) (memory : Memory) (pc : UInt32)
    (log : List LogEvent) : Machine σ :=
  { m with stack := below, memory, pc, log }

end Machine

namespace Move

variable {below : List Entry}

/-- A move consists of two instructions, each with the operand that its opcode asks for. -/
theorem shape_code (x : Move) : ∀ i ∈ x.code, i.2.shape = i.1.shape := by
  refine List.forall_mem_cons.2 ⟨rfl, List.forall_mem_singleton.2 ?_⟩
  obtain ⟨target, type, value⟩ := x
  cases type <;> rfl

/-- The instructions of a move take the argument off the stack and assign it. -/
theorem advances {x : Move} (hsize : w.machine.script.code.size < UInt32.size)
    (hcode : w.machine.script.code.At w.machine.pc (Instruction.bytes x.code))
    (hx : x.Fits w.machine.script w.machine.memory) (hs : w.machine.stack = x.entry :: below) :
    ∃ log, Advances b 2 w ⟨w.host, w.machine.stored below
      (w.machine.memory.assign x.target x.value)
      (w.machine.pc + UInt32.ofNat (Instruction.bytes x.code).length) log⟩ := by
  obtain ⟨s, hfound, hconst, hmember⟩ := hx.assignable
  obtain ⟨hpush, hstore, hend⟩ := hcode.lined hsize x.shape_code
  let i : Instruction := ⟨w.machine.pc, .pushv, .symbol x.target⟩
  let j : Instruction := ⟨i.next, storeOpcode x.type, .none⟩
  -- once the reference is pushed
  let u : World σ := ⟨w.host, (w.machine.fetched i).pushEntry
    (.reference ⟨x.target, 0, w.machine.context⟩)⟩
  have hfirst : RunM.step b w = some (.ok false, u) := RunM.step_of_next hpush rfl
  have hstack : (u.machine.fetched j).stack =
      .reference ⟨x.target, 0, w.machine.context⟩ :: x.entry :: below :=
    congrArg (_ :: ·) hs
  have hwrite : w.machine.memory.write w.machine.script w.machine.config.flags
      ⟨x.target, 0, w.machine.context⟩ x.value = .ok (w.machine.memory.assign x.target x.value) :=
    Memory.write_eq_assign hfound hconst hmember _ hx.shape
  have hsecond := RunM.step_of_next (b := b) (w := u) hstore
    (Machine.execute_assign (Assembler.effect_storeOpcode hx.kind) hstack hwrite)
  refine ⟨.executed j :: .executed i :: w.machine.log, ?_⟩
  rw [← hend]
  exact (Advances.of_step hfirst).trans (.of_step hsecond)

/-- The instructions of some moves, one after the other. -/
theorem advances_all {moves : List Move} (hsize : w.machine.script.code.size < UInt32.size)
    (hcode : w.machine.script.code.At w.machine.pc (Instruction.bytes (moves.flatMap code)))
    (hmoves : ∀ x ∈ moves, x.Fits w.machine.script w.machine.memory)
    (hs : w.machine.stack = moves.map entry ++ below) :
    ∃ log, Advances b (2 * moves.length) w ⟨w.host, w.machine.stored below
      (w.machine.memory.assignAll moves)
      (w.machine.pc + UInt32.ofNat (Instruction.bytes (moves.flatMap code)).length) log⟩ := by
  -- for any world, since each move begins with what the one before it has left
  induction moves generalizing w with
  | nil =>
    obtain rfl : w.machine.stack = below := hs
    refine ⟨w.machine.log, ?_⟩
    have hpc : w.machine.pc + UInt32.ofNat 0 = w.machine.pc := UInt32.add_zero _
    show Advances b 0 w ⟨w.host, w.machine.stored _ w.machine.memory
      (w.machine.pc + UInt32.ofNat 0) _⟩
    rw [hpc]
    exact .refl w
  | cons x moves ih =>
    obtain ⟨hx, hmoves⟩ := List.forall_mem_cons.1 hmoves
    rw [List.flatMap_cons, Instruction.bytes_append] at hcode ⊢
    obtain ⟨log, hfirst⟩ := advances (b := b) hsize hcode.left hx hs
    let u : World σ := ⟨w.host, w.machine.stored (moves.map entry ++ below)
      (w.machine.memory.assign x.target x.value)
      (w.machine.pc + UInt32.ofNat (Instruction.bytes x.code).length) log⟩
    have hrest := hcode.right hsize
    obtain ⟨log', hrest⟩ := ih (w := u) hsize hrest (fun y hy => (hmoves y hy).assign hx) rfl
    have hsteps : 2 * (x :: moves).length = 2 + 2 * moves.length := by
      rw [List.length_cons]
      omega
    refine ⟨log', ?_⟩
    rw [hsteps, List.length_append, UInt32.ofNat_add, ← UInt32.add_assoc]
    exact hfirst.trans hrest

end Move

/-! ## Prologues -/

namespace Assembler

/-- Instructions are emitted as they are. -/
theorem OpenBody.emitted_emit (target : Nat → UInt32) (l : List (Opcode × Operand))
    (o : OpenBody) : emitted target o (l.map fun i => .emit i.1 i.2) = l := by
  induction l generalizing o with
  | nil => rfl
  | cons i l ih => exact congrArg (i :: ·) (ih _)

theorem OpenBody.pending_emit (l : List (Opcode × Operand)) (o : OpenBody) :
    pending o (l.map fun i => .emit i.1 i.2) = [] := by
  induction l generalizing o with
  | nil => rfl
  | cons i l ih => exact ih _

theorem OpenBody.regular_emit {l : List (Opcode × Operand)}
    (hl : ∀ i ∈ l, i.2.shape = i.1.shape) :
    ∀ item ∈ l.map fun i => BodyItem.emit i.1 i.2, item.Regular := by
  intro item hitem
  obtain ⟨i, hi, rfl⟩ := List.mem_map.1 hitem
  exact hl i hi

theorem OpenBody.code_emits {l : List (Opcode × Operand)}
    (hl : ∀ i ∈ l, i.2.shape = i.1.shape) (o : OpenBody) :
    ((l.map fun i => BodyItem.emit i.1 i.2).foldl step o).draft.code.toList =
      o.draft.code.toList ++ Instruction.bytes l := by
  rw [code_steps (regular_emit hl), emitted_emit]

/-- A body begins with the instructions that are emitted first, whatever follows. -/
theorem Draft.prefix_addBody {l : List (Opcode × Operand)}
    (hl : ∀ i ∈ l, i.2.shape = i.1.shape) (d : Draft) (body : List BodyItem) :
    d.code.toList ++ Instruction.bytes l <+:
      (d.addBody (l.map (fun i => .emit i.1 i.2) ++ body)).code.toList := by
  let o := (l.map fun i => BodyItem.emit i.1 i.2).foldl OpenBody.step d.openBody
  have hcode : o.draft.code.toList = d.code.toList ++ Instruction.bytes l :=
    OpenBody.code_emits hl d.openBody
  -- these instructions leave no jumps behind that would be filled
  have hfixups : o.fixups = [] := by
    rw [OpenBody.fixups_steps (OpenBody.regular_emit hl), OpenBody.pending_emit]
    rfl
  have ho : o.Guards o.draft.code.toList := ⟨List.prefix_rfl, by simp [hfixups]⟩
  rw [addBody, List.foldl_append, ← hcode]
  exact (ho.steps body).code

/-- The moves of arguments into the variables from a given index on, the last argument first. -/
def moves (first : UInt32) (given : List (DataType × CellValue)) : List Move :=
  (given.zipIdx.map fun (g, i) => ⟨first + UInt32.ofNat i, g.1, g.2⟩).reverse

theorem mem_moves {first : UInt32} {given : List (DataType × CellValue)} {x : Move} :
    x ∈ moves first given ↔
      ∃ i g, given[i]? = some g ∧ x = ⟨first + UInt32.ofNat i, g.1, g.2⟩ := by
  rw [moves, List.mem_reverse, List.mem_map]
  constructor
  · rintro ⟨⟨g, i⟩, hg, rfl⟩
    exact ⟨i, g, List.mem_zipIdx_iff_getElem?.1 hg, rfl⟩
  · rintro ⟨i, g, hg, rfl⟩
    exact ⟨(g, i), List.mem_zipIdx_iff_getElem?.2 hg, rfl⟩

theorem length_moves (first : UInt32) (given : List (DataType × CellValue)) :
    (moves first given).length = given.length := by
  simp [moves]

theorem target_moves (first : UInt32) (given : List (DataType × CellValue)) :
    (moves first given).map Move.target =
      ((List.range given.length).map fun i => first + UInt32.ofNat i).reverse := by
  rw [moves, List.map_reverse, List.map_map, List.range_eq_range', ← List.zipIdx_map_snd 0 given,
    List.map_map]
  rfl

/-- A function begins with the moves of its arguments. -/
theorem prologue_eq (first : UInt32) (given : List (DataType × CellValue)) :
    prologue (given.map Prod.fst) first =
      ((moves first given).flatMap Move.code).map fun i => .emit i.1 i.2 := by
  rw [prologue, moves, List.zipIdx_map, ← List.map_reverse, ← List.map_reverse,
    List.flatMap_map, List.flatMap_map, List.map_flatMap]
  rfl

/-- The moves take the arguments off the stack, the last one of which is on top. -/
theorem entry_moves (first : UInt32) (given : List (DataType × CellValue)) :
    (moves first given).map Move.entry =
      ((given.map fun g => g.2.1.toValue g.2.2).map Entry.value).reverse := by
  rw [moves, List.map_reverse, List.map_map, List.map_map]
  congr 1
  exact (List.map_map (f := Prod.fst) (l := given.zipIdx)
    (g := fun g : DataType × CellValue => Entry.value (g.2.1.toValue g.2.2))).symm.trans
    (by rw [List.zipIdx_map_fst]; rfl)

end Assembler

end ScriptMachine
