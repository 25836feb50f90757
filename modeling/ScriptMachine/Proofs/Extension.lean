import ScriptMachine.Proofs.Assembly

/-!
# Drafts that grow

Every item of a body and every declaration appends to the symbols and to the code of a draft. The
only bytes that are written to later are the targets of jumps, and each of them lies in the body
that is being finished.

* `OpenBody.Guards` – whether the code before a body is safe from what is done to the body.
* `OpenBody.finish_finish` – a body that is finished once more stays as it is.
* `Draft.Extends` – whether a draft has grown out of another one.
* `Draft.Extends.assemble` – what is declared later leaves what is there.
-/

namespace ScriptMachine.Assembler

/-! ## Overwriting words -/

theorem prefix_set {A l : List UInt8} {i : Nat} (h : A <+: l) (hi : A.length ≤ i) (b : UInt8) :
    A <+: l.set i b := by
  obtain ⟨B, rfl⟩ := h
  rw [List.set_append_right _ _ hi]
  exact List.prefix_append A _

namespace Draft

variable {d : Draft} {A B : List UInt8}

theorem toList_code_patch (i : Nat) (w : UInt32) : (d.patch i w).code.toList =
    (((d.code.toList.set i w.toUInt8).set (i + 1) (w >>> 8).toUInt8).set (i + 2)
      (w >>> 16).toUInt8).set (i + 3) (w >>> 24).toUInt8 := by
  simp [patch, LittleEndian.encode, List.zipIdx]

theorem prefix_addCode (h : A <+: d.code.toList) (bytes : List UInt8) :
    A <+: (d.addCode bytes).code.toList := by
  rw [addCode, Array.toList_append]
  exact h.trans (List.prefix_append _ _)

/-- Overwriting a word leaves what stands before it. -/
theorem prefix_patch {i : Nat} (h : A <+: d.code.toList) (hi : A.length ≤ i) (w : UInt32) :
    A <+: (d.patch i w).code.toList := by
  rw [toList_code_patch]
  exact prefix_set (prefix_set (prefix_set (prefix_set h hi _) (by omega) _) (by omega) _)
    (by omega) _

/-- Overwriting a word puts another one in its place. -/
theorem toList_code_patch_of_eq {v : UInt32}
    (h : d.code.toList = A ++ (LittleEndian.encode v ++ B)) (w : UInt32) :
    (d.patch A.length w).code.toList = A ++ (LittleEndian.encode w ++ B) := by
  rw [toList_code_patch, h]
  simp [LittleEndian.encode]

end Draft

/-! ## What later items leave alone -/

namespace OpenBody

variable {o : OpenBody} {A : List UInt8}

/-- Whether a draft begins with some code, and no jump in it awaits a label. -/
structure Guards (A : List UInt8) (o : OpenBody) : Prop where
  code : A <+: o.draft.code.toList
  fixups : ∀ f ∈ o.fixups, A.length ≤ f.1

theorem guards_openBody (d : Draft) : d.openBody.Guards d.code.toList :=
  ⟨List.prefix_rfl, nofun⟩

theorem Guards.emit (h : o.Guards A) (opcode : Opcode) (operand : Operand) :
    (o.emit opcode operand).Guards A :=
  ⟨Draft.prefix_addCode h.code _, h.fixups⟩

theorem Guards.emitJump (h : o.Guards A) (opcode : Opcode) (label : Nat) :
    (o.emitJump opcode label).Guards A := by
  refine ⟨Draft.prefix_addCode h.code _, fun f hf => ?_⟩
  rcases List.mem_append.1 hf with hf | hf
  · exact h.fixups f hf
  · obtain rfl := List.mem_singleton.1 hf
    exact Nat.le_succ_of_le (Array.length_toList ▸ h.code.length_le)

/-- Finishing a body writes to its own jumps only. -/
theorem Guards.finish (h : o.Guards A) : o.finish.Guards A := by
  rw [OpenBody.finish]
  split
  · exact h
  · refine ⟨?_, List.forall_mem_nil _⟩
    exact List.foldlRecOn o.fixups _ (motive := fun d : Draft => A <+: d.code.toList)
      (h.emit .rsr .none).code fun d hd f hf => Draft.prefix_patch hd (h.fixups f hf) _

theorem Guards.step (h : o.Guards A) (item : BodyItem) : (o.step item).Guards A := by
  cases item with
  | emit opcode operand => exact h.emit opcode operand
  | pushText text => exact ⟨Draft.prefix_addCode h.code _, h.fixups⟩
  | branch symbol => exact h.emit _ _
  | call symbol =>
    rw [OpenBody.step]
    split <;> exact h.emit _ _
  | newLabel | bind => exact ⟨h.code, h.fixups⟩
  | jump label | jumpIfZero label => exact h.emitJump _ label
  | raw bytes => exact ⟨Draft.prefix_addCode h.code _, h.fixups⟩
  | finish => exact h.finish

theorem Guards.steps (h : o.Guards A) (items : List BodyItem) :
    (items.foldl OpenBody.step o).Guards A := by
  induction items generalizing o with
  | nil => exact h
  | cons item items ih => exact ih (h.step item)

theorem finish_of_finished (h : o.finished = true) : o.finish = o := by
  rw [finish, if_pos h]

theorem finished_finish (o : OpenBody) : o.finish.finished = true := by
  by_cases h : o.finished = true
  · rw [finish_of_finished h, h]
  · rw [finish, if_neg h]

/-- A body that is finished once more stays as it is. -/
theorem finish_finish (o : OpenBody) : o.finish.finish = o.finish :=
  finish_of_finished o.finished_finish

/-- An item leaves the symbols that are there. -/
theorem prefix_symbols_step (o : OpenBody) (item : BodyItem) :
    o.draft.symbols.toList <+: (o.step item).draft.symbols.toList := by
  cases item with
  | pushText text => exact ⟨_, (Array.toList_push ..).symm⟩
  | call symbol =>
    rw [step]
    split <;> exact List.prefix_rfl
  | finish => exact symbols_finish (o := o) ▸ List.prefix_rfl
  | emit | branch | newLabel | bind | jump | jumpIfZero | raw => exact List.prefix_rfl

theorem prefix_symbols_steps (o : OpenBody) (items : List BodyItem) :
    o.draft.symbols.toList <+: (items.foldl step o).draft.symbols.toList := by
  induction items generalizing o with
  | nil => exact List.prefix_rfl
  | cons item items ih => exact (o.prefix_symbols_step item).trans (ih _)

end OpenBody

/-- Whether a draft begins with the symbols and the code of another one. -/
structure Draft.Extends (d' d : Draft) : Prop where
  symbols : d.symbols.toList <+: d'.symbols.toList
  code : d.code.toList <+: d'.code.toList

namespace Draft.Extends

variable {d d' d'' : Draft}

theorem refl (d : Draft) : d.Extends d := ⟨List.prefix_rfl, List.prefix_rfl⟩

theorem trans (h : d'.Extends d) (h' : d''.Extends d') : d''.Extends d :=
  ⟨h.symbols.trans h'.symbols, h.code.trans h'.code⟩

theorem getElem? (h : d'.Extends d) {i : Nat} {s : Symbol} (hs : d.symbols[i]? = some s) :
    d'.symbols[i]? = some s := by
  obtain ⟨rest, hrest⟩ := h.symbols
  rw [← Array.getElem?_toList] at hs ⊢
  obtain ⟨hi, -⟩ := List.getElem?_eq_some_iff.1 hs
  rw [← hrest, List.getElem?_append_left hi, hs]

theorem add (d : Draft) (s : Symbol) : (d.add s).Extends d :=
  ⟨⟨_, (Array.toList_push ..).symm⟩, List.prefix_rfl⟩

theorem addAll (d : Draft) (symbols : List Symbol) : (d.addAll symbols).Extends d := by
  induction symbols generalizing d with
  | nil => exact refl d
  | cons s symbols ih => exact (add d s).trans (ih _)

theorem addBody (d : Draft) (items : List BodyItem) : (d.addBody items).Extends d :=
  ⟨OpenBody.prefix_symbols_steps d.openBody items, ((OpenBody.guards_openBody d).steps items).code⟩

/-- A declaration leaves what is there. -/
theorem declare (d : Draft) (decl : Declaration) : (d.declare decl).Extends d := by
  cases decl with
  | cls name members => exact addAll d _
  | external name params result => exact (add d _).trans (addAll _ _)
  | function name params result body =>
    exact ((add d _).trans (addAll _ (parameterSymbols name params))).trans (addBody _ _)
  | proto name parent body | inst name parent body => exact (add d _).trans (addBody _ _)
  | stringLiteral text => exact ⟨⟨_, (Array.toList_push ..).symm⟩, List.prefix_rfl⟩
  | var | instanceVar | intConst | floatConst | stringConst => exact add d _

theorem declareAll (d : Draft) (decls : List Declaration) :
    (decls.foldl Draft.declare d).Extends d := by
  induction decls generalizing d with
  | nil => exact refl d
  | cons decl decls ih => exact (declare d decl).trans (ih _)

/-- What is declared later leaves what is there. -/
theorem assemble (pre post : List Declaration) :
    (Assembler.assemble (pre ++ post)).Extends (Assembler.assemble pre) := by
  rw [Assembler.assemble, Assembler.assemble, List.foldl_append]
  exact declareAll _ post

end Draft.Extends

end ScriptMachine.Assembler
