import ScriptMachine.Execution.Loop
import ScriptMachine.Proofs.Operation

/-!
# What an instruction does

The ways in which an instruction can be performed, with everything it does to the machine. An
instruction that succeeds takes a fixed number of entries off the stack and leaves a fixed number
there, unless it runs a callback; one that fails has made edits only.

* `Effect.takes`, `Effect.gives` – the entries that go and those that come.
* `Performs` – the ways an instruction is performed.
* `perform_performs` – there are no others.
* `Stepped` – what a step of the execution loop can do.
-/

namespace ScriptMachine

namespace Effect

/-- The number of entries an instruction takes off the stack, apart from arguments of a
callback. -/
def takes : Effect → Nat
  | binary _ | assign _ | update _ => 2
  | unary _ | jumpIfZero => 1
  | _ => 0

/-- The number of entries an instruction leaves on the stack, apart from the result of a
callback. -/
def gives : Effect → Nat
  | binary _ | unary _ | pushImmediate | pushReference | pushElement | pushInstance => 1
  | _ => 0

/-- Whether an instruction may run a callback. -/
def isCall : Effect → Bool
  | callBody | callExternal => true
  | _ => false

end Effect

/-- Only one opcode enters bodies. -/
theorem Opcode.eq_bl {op : Opcode} (h : op.effect = .callBody) : op = .bl := by
  cases op <;> first | rfl | cases h

/-- Only one opcode runs external functions. -/
theorem Opcode.eq_be {op : Opcode} (h : op.effect = .callExternal) : op = .be := by
  cases op <;> first | rfl | cases h

/-- Only one opcode leaves bodies. -/
theorem Opcode.eq_rsr {op : Opcode} (h : op.effect = .leave) : op = .rsr := by
  cases op <;> first | rfl | cases h

/-- Only two opcodes jump within a body. -/
theorem Opcode.eq_b_or_bz {op : Opcode} (h : op.effect = .jump ∨ op.effect = .jumpIfZero) :
    op = .b ∨ op = .bz := by
  cases op <;> first | exact .inl rfl | exact .inr rfl | (rcases h with h | h <;> cases h)

namespace Machine

variable {σ : Type}

open Relation (ReflTransGen)

/-- The function whose replacement is run instead of the body at an address. -/
def overriding? (m : Machine σ) (target : UInt32) : Option UInt32 :=
  ((m.script.symbolByAddress? target).map (·.index)).filter m.hasOverride

/-- The machine with another stack, memory and current instance. -/
def revised (m : Machine σ) (stack : List Entry) (memory : Memory) (context : Option Handle) :
    Machine σ :=
  { m with stack, memory, context }

/-- The ways a machine performs an instruction with a given effect and operand. -/
inductive Performs (m : Machine σ) : Effect → Operand → Except Error Flow → Machine σ → Prop where
  | fails {eff : Effect} {op : Operand} {m' : Machine σ} (h : Edits m m') (e : Error) :
      Performs m eff op (.error e) m'
  | proceeds {eff : Effect} {op : Operand} {below : List Entry} {memory : Memory}
      {context : Option Handle} (taken given : List Entry) (hc : eff.isCall = false)
      (hs : m.stack = taken ++ below) (ht : taken.length = eff.takes)
      (hg : given.length = eff.gives)
      (h : Edits m (m.revised (given ++ below) memory context)) :
      Performs m eff op (.ok .next) (m.revised (given ++ below) memory context)
  | jumps {eff : Effect} {target : UInt32} {below : List Entry} (taken : List Entry)
      (he : eff = .jump ∨ eff = .jumpIfZero) (hs : m.stack = taken ++ below)
      (ht : taken.length = eff.takes) (h : Edits m (m.withStack below)) :
      Performs m eff (.address target) (.ok .next) { m.withStack below with pc := target }
  | enters {target : UInt32} (h : m.overriding? target = none)
      (depth : m.frames.length < m.config.maxCallDepth) :
      Performs m .callBody (.address target) (.ok .next)
        (m.entered ((m.script.symbolByAddress? target).map (·.index)) target false)
  | leaves (op : Operand) : Performs m .leave op (.ok .leave) m
  | external (f : UInt32) : Performs m .callExternal (.symbol f) (.ok (.external f)) m
  | override {target f : UInt32} (h : m.overriding? target = some f) :
      Performs m .callBody (.address target) (.ok (.override f)) m

/-- An instruction that fails has made edits only. -/
theorem Performs.edits_of_error {m m' : Machine σ} {eff : Effect} {op : Operand} {e : Error}
    (h : Performs m eff op (.error e) m') : Edits m m' := by
  cases h with
  | fails h => exact h

/-! ## Success of the operations on the stack -/

/-- Popping succeeds by taking off the top entry. -/
theorem pop_ok {k : CellKind} {m m' : Machine σ} {c : k.Content} (h : pop k m = (.ok c, m')) :
    ∃ e rest, m.stack = e :: rest ∧ m.content? k e = some (.ok c) ∧
      m' = m.withStack rest := by
  rcases pop_eq h with ⟨-, h, -⟩ | ⟨e, rest, hs, ⟨hc, rfl⟩ | ⟨err, -, h, -⟩⟩
  · cases h
  · exact ⟨e, rest, hs, hc, rfl⟩
  · cases h

theorem popReference_ok {m m' : Machine σ} {x : Reference} (h : popReference m = (.ok x, m')) :
    ∃ rest, m.stack = .reference x :: rest ∧ m' = m.withStack rest := by
  rcases popReference_eq h with ⟨-, h, -⟩ | ⟨e, rest, hs, ⟨y, rfl, hy, rfl⟩ | ⟨err, h, -⟩⟩
  · cases h
  · cases hy
    exact ⟨rest, hs, rfl⟩
  · cases h

theorem write_ok {m m' : Machine σ} {x : Reference} {v : CellValue} {u : Unit}
    (h : write x v m = (.ok u, m')) :
    ∃ memory, m.memory.write m.script m.config.flags x v = .ok memory ∧
      m' = { m with memory } := by
  rcases write_eq h with ⟨memory, hm, -, hm'⟩ | ⟨e, he, -⟩
  · exact ⟨memory, hm, hm'⟩
  · cases he

/-- A body is entered unless too many are active, and then nothing changes. -/
theorem enter_apply (function : Option UInt32) (target : UInt32) (hostEntry : Bool)
    (m : Machine σ) :
    enter function target hostEntry m =
      if m.config.maxCallDepth ≤ m.frames.length then
        (.error (.callDepthExceeded m.config.maxCallDepth), m)
      else (.ok (), m.entered function target hostEntry) := by
  rw [enter, MachineM.get_bind]
  split <;> rfl

theorem enter_ok {function : Option UInt32} {target : UInt32} {hostEntry : Bool}
    {m m' : Machine σ} {u : Unit} (h : enter function target hostEntry m = (.ok u, m')) :
    m.frames.length < m.config.maxCallDepth ∧ m' = m.entered function target hostEntry := by
  rw [enter_apply] at h
  split at h
  · cases h
  · next hd => exact ⟨Nat.lt_of_not_le hd, (Prod.mk.inj h).2.symm⟩

theorem enter_error {function : Option UInt32} {target : UInt32} {hostEntry : Bool}
    {m m' : Machine σ} {e : Error} (h : enter function target hostEntry m = (.error e, m')) :
    m' = m := by
  rw [enter_apply] at h
  split at h
  · exact (Prod.mk.inj h).2.symm
  · cases h

/-- An operator leaves the machine alone. -/
theorem result_eq {address : UInt32} {n : Option Int32} {m m' : Machine σ}
    {r : Except Error Int32} (h : result address n m = (r, m')) : m' = m := by
  unfold result at h
  split at h <;> exact (Prod.mk.inj h).2.symm

/-! ## The effects one by one -/

section

variable {R : Machine σ → Machine σ → Prop} [Absorbs R] {i : Instruction} (op : Operand)

theorem keeps_result (address : UInt32) (n : Option Int32) :
    MachineM.Keeps R (result address n) := by
  intro m r m' h
  rw [result_eq h]
  exact Absorbs.refl m

theorem keeps_pushInt (n : Int32) :
    MachineM.Keeps R (modify (push · (.int n)) : MachineM σ PUnit) :=
  .modify fun m => Absorbs.plain (.push m (by simp))

theorem keeps_binary (f : Int32 → Int32 → Option Int32) :
    MachineM.Keeps R (perform i (.binary f) op) :=
  .bind Absorbs.trans (keeps_pop _) fun _ => .bind Absorbs.trans (keeps_pop _) fun _ =>
    .bind Absorbs.trans (keeps_result _ _) fun n =>
      .bind Absorbs.trans (keeps_pushInt n) fun _ => .pure Absorbs.refl _

theorem keeps_unary (f : Int32 → Int32) : MachineM.Keeps R (perform i (.unary f) op) :=
  .bind Absorbs.trans (keeps_pop _) fun n =>
    .bind Absorbs.trans (keeps_pushInt (f n)) fun _ => .pure Absorbs.refl _

theorem keeps_update (f : Int32 → Int32 → Option Int32) :
    MachineM.Keeps R (perform i (.update f) op) := by
  refine .bind Absorbs.trans keeps_popReference fun x =>
    .bind Absorbs.trans (keeps_pop _) fun n => ?_
  intro m r m' h
  rw [MachineM.get_bind, MachineM.lift_bind] at h
  split at h
  · exact MachineM.Keeps.bind Absorbs.trans (keeps_result _ _) (fun k =>
      .bind Absorbs.trans (keeps_writeInt x k) fun _ => .pure Absorbs.refl _) _ _ _ h
  · obtain ⟨-, rfl⟩ := Prod.mk.inj h
    exact Absorbs.refl m

end

section

variable {m m' : Machine σ} {i : Instruction} {op : Operand} {r : Except Error Flow}

/-- An assignment fails before it writes anything, or it writes what is on the stack. -/
theorem assign_cases {k : CellKind} (h : perform i (.assign k) op m = (r, m')) :
    Plains m m' ∨ ∃ (a : Machine σ) (e : Entry) (rest : List Entry) (x : Reference) (c : k.Content)
      (s : Except Error Unit), Plains m a ∧ a.stack = e :: rest ∧ a.content? k e = some (.ok c) ∧
        write x ⟨k, c⟩ (a.withStack rest) = (s, m') := by
  rcases MachineM.bind_eq.1 h with ⟨x, a, hx, h₁⟩ | ⟨e, hx, -⟩
  · have ha : Plains m a := keeps_popReference _ _ _ hx
    rcases MachineM.bind_eq.1 h₁ with ⟨c, b, hc, h₂⟩ | ⟨e, hc, -⟩
    · obtain ⟨e, rest, hs, hcontent, rfl⟩ := pop_ok hc
      rcases MachineM.bind_eq.1 h₂ with ⟨u, d, hw, h₃⟩ | ⟨err, hw, -⟩
      · obtain ⟨-, rfl⟩ := Prod.mk.inj h₃
        exact .inr ⟨a, e, rest, x, c, _, ha, hs, hcontent, hw⟩
      · exact .inr ⟨a, e, rest, x, c, _, ha, hs, hcontent, hw⟩
    · exact .inl (ha.trans (keeps_pop k _ _ _ hc))
  · exact .inl (keeps_popReference _ _ _ hx)

theorem performs_binary {f : Int32 → Int32 → Option Int32}
    (h : perform i (.binary f) op m = (r, m')) : Performs m (.binary f) op r m' := by
  have hedits : Edits m m' := keeps_binary op f _ _ _ h
  rcases r with e | flow
  · exact .fails hedits e
  -- if there is a result, both operands were on the stack
  obtain ⟨a, m₁, ha, h₁⟩ := MachineM.bind_eq_ok.1 h
  obtain ⟨b, m₂, hb, h₂⟩ := MachineM.bind_eq_ok.1 h₁
  obtain ⟨n, m₃, hn, h₃⟩ := MachineM.bind_eq_ok.1 h₂
  obtain rfl := result_eq hn
  obtain ⟨e₁, s₁, hs₁, -, rfl⟩ := pop_ok ha
  obtain ⟨e₂, s₂, hs₂, -, rfl⟩ := pop_ok hb
  rw [MachineM.modify_bind] at h₃
  obtain ⟨rfl, rfl⟩ := MachineM.eq_of_pure h₃
  have hs : m.stack = [e₁, e₂] ++ s₂ := hs₁.trans (congrArg (e₁ :: ·) hs₂)
  exact .proceeds _ [.value (.int n)] rfl hs rfl rfl hedits

theorem performs_unary {f : Int32 → Int32} (h : perform i (.unary f) op m = (r, m')) :
    Performs m (.unary f) op r m' := by
  have hedits : Edits m m' := keeps_unary op f _ _ _ h
  rcases r with e | flow
  · exact .fails hedits e
  obtain ⟨a, m₁, ha, h₁⟩ := MachineM.bind_eq_ok.1 h
  obtain ⟨e₁, s₁, hs₁, -, rfl⟩ := pop_ok ha
  rw [MachineM.modify_bind] at h₁
  obtain ⟨rfl, rfl⟩ := MachineM.eq_of_pure h₁
  exact .proceeds [e₁] [.value (.int (f a))] rfl hs₁ rfl rfl hedits

theorem performs_assign {k : CellKind} (h : perform i (.assign k) op m = (r, m')) :
    Performs m (.assign k) op r m' := by
  have hedits : Edits m m' := by
    rcases assign_cases h with hp | ⟨a, e, rest, x, c, s, ha, hs, -, hw⟩
    · exact Absorbs.plains hp
    · have hedits : Edits m a := Absorbs.plains ha
      exact (hedits.tail (.drop hs)).trans ((governs_edits .any).write rfl hw)
  rcases r with e | flow
  · exact .fails hedits e
  obtain ⟨x, m₁, hx, h₁⟩ := MachineM.bind_eq_ok.1 h
  obtain ⟨c, m₂, hc, h₂⟩ := MachineM.bind_eq_ok.1 h₁
  obtain ⟨u, m₃, hw, h₃⟩ := MachineM.bind_eq_ok.1 h₂
  obtain ⟨s₁, hs₁, rfl⟩ := popReference_ok hx
  obtain ⟨e₂, s₂, hs₂, -, rfl⟩ := pop_ok hc
  obtain ⟨memory, -, rfl⟩ := write_ok hw
  obtain ⟨rfl, rfl⟩ := MachineM.eq_of_pure h₃
  have hs : m.stack = [.reference x, e₂] ++ s₂ := hs₁.trans (congrArg (_ :: ·) hs₂)
  exact .proceeds _ [] rfl hs rfl rfl hedits

theorem performs_update {f : Int32 → Int32 → Option Int32}
    (h : perform i (.update f) op m = (r, m')) : Performs m (.update f) op r m' := by
  have hedits : Edits m m' := keeps_update op f _ _ _ h
  rcases r with e | flow
  · exact .fails hedits e
  obtain ⟨x, m₁, hx, h₁⟩ := MachineM.bind_eq_ok.1 h
  obtain ⟨n, m₂, hn, h₂⟩ := MachineM.bind_eq_ok.1 h₁
  obtain ⟨s₁, hs₁, rfl⟩ := popReference_ok hx
  obtain ⟨e₂, s₂, hs₂, -, rfl⟩ := pop_ok hn
  rw [MachineM.get_bind, MachineM.lift_bind] at h₂
  split at h₂
  · obtain ⟨k, m₃, hr, h₃⟩ := MachineM.bind_eq_ok.1 h₂
    obtain ⟨u, m₄, hw, h₄⟩ := MachineM.bind_eq_ok.1 h₃
    obtain rfl := result_eq hr
    obtain ⟨memory, -, rfl⟩ := write_ok hw
    obtain ⟨rfl, rfl⟩ := MachineM.eq_of_pure h₄
    have hs : m.stack = [.reference x, e₂] ++ s₂ := hs₁.trans (congrArg (_ :: ·) hs₂)
    exact .proceeds _ [] rfl hs rfl rfl hedits
  · cases h₂

theorem performs_jumpIfZero {target : UInt32}
    (h : perform i .jumpIfZero (.address target) m = (r, m')) :
    Performs m .jumpIfZero (.address target) r m' := by
  rcases MachineM.bind_eq.1 h with ⟨n, m₁, hn, h₁⟩ | ⟨e, hn, rfl⟩
  · have hedits : Edits m m₁ := keeps_pop _ _ _ _ hn
    obtain ⟨e₁, s₁, hs₁, -, rfl⟩ := pop_ok hn
    split at h₁
    · obtain ⟨rfl, rfl⟩ := Prod.mk.inj h₁
      exact .jumps [e₁] (.inr rfl) hs₁ rfl hedits
    · obtain ⟨rfl, rfl⟩ := Prod.mk.inj h₁
      exact .proceeds [e₁] [] rfl hs₁ rfl rfl hedits
  · exact .fails (keeps_pop _ _ _ _ hn) e

theorem performs_callBody {target : UInt32}
    (h : perform i .callBody (.address target) m = (r, m')) :
    Performs m .callBody (.address target) r m' := by
  rw [perform, MachineM.get_bind, ← overriding?] at h
  rcases hf : m.overriding? target with _ | f
  · rw [hf] at h
    rcases MachineM.bind_eq.1 h with ⟨u, m₁, he, h₁⟩ | ⟨e, he, rfl⟩
    · obtain ⟨depth, rfl⟩ := enter_ok he
      obtain ⟨rfl, rfl⟩ := Prod.mk.inj h₁
      exact .enters hf depth
    · obtain rfl := enter_error he
      exact .fails .refl e
  · rw [hf] at h
    obtain ⟨rfl, rfl⟩ := Prod.mk.inj h
    exact .override hf

/-- There are no other ways to perform an instruction. -/
theorem perform_performs {eff : Effect} (h : perform i eff op m = (r, m')) :
    Performs m eff op r m' := by
  unfold perform at h
  split at h
  · exact performs_binary h
  · exact performs_unary (i := i) h
  · exact performs_assign (i := i) h
  · exact performs_update h
  · obtain ⟨rfl, rfl⟩ := Prod.mk.inj h
    exact .proceeds [] [_] rfl rfl rfl rfl (.single (.push m _))
  · obtain ⟨rfl, rfl⟩ := Prod.mk.inj h
    exact .proceeds [] [_] rfl rfl rfl rfl (.single (.push m _))
  · obtain ⟨rfl, rfl⟩ := Prod.mk.inj h
    exact .proceeds [] [_] rfl rfl rfl rfl (.single (.push m _))
  · obtain ⟨rfl, rfl⟩ := Prod.mk.inj h
    exact .proceeds [] [_] rfl rfl rfl rfl (.single (.push m _))
  · obtain ⟨rfl, rfl⟩ := Prod.mk.inj h
    exact .proceeds [] [] rfl rfl rfl rfl (.single (.context m _))
  · obtain ⟨rfl, rfl⟩ := Prod.mk.inj h
    exact .jumps [] (.inl rfl) rfl rfl .refl
  · exact performs_jumpIfZero (i := i) h
  · exact performs_callBody (i := i) h
  · obtain ⟨rfl, rfl⟩ := Prod.mk.inj h
    exact .external _
  · obtain ⟨rfl, rfl⟩ := Prod.mk.inj h
    exact .leaves _
  · obtain ⟨rfl, rfl⟩ := Prod.mk.inj h
    exact .proceeds [] [] rfl rfl rfl rfl .refl
  · -- the operand does not have the shape that the opcode asks for
    obtain ⟨rfl, rfl⟩ := Prod.mk.inj h
    exact .fails .refl _

end

end Machine

open Machine

variable {σ : Type}

/-- What a step of the execution loop can do. -/
inductive Stepped (b : Budget σ) (w : World σ) : Except Error Bool → World σ → Prop where
  | undecodable {e : Error} (hi : w.machine.script.decode w.machine.pc = .error e) :
      Stepped b w (.error e) w
  | fails {i : Instruction} {m : Machine σ} (hi : w.machine.script.decode w.machine.pc = .ok i)
      (hm : Edits (w.machine.fetched i) m) (e : Error) :
      Stepped b w (.error e) { w with machine := m }
  | proceeds {i : Instruction} {below : List Entry} {memory : Memory} {context : Option Handle}
      (hi : w.machine.script.decode w.machine.pc = .ok i) (taken given : List Entry)
      (hc : i.opcode.effect.isCall = false) (hs : w.machine.stack = taken ++ below)
      (ht : taken.length = i.opcode.effect.takes) (hg : given.length = i.opcode.effect.gives)
      (hm : Edits (w.machine.fetched i)
        ((w.machine.fetched i).revised (given ++ below) memory context)) :
      Stepped b w (.ok false)
        { w with machine := (w.machine.fetched i).revised (given ++ below) memory context }
  | jumps {i : Instruction} {target : UInt32} {below : List Entry}
      (hi : w.machine.script.decode w.machine.pc = .ok i) (hj : i.opcode = .b ∨ i.opcode = .bz)
      (hop : i.operand = .address target) (taken : List Entry)
      (hs : w.machine.stack = taken ++ below) (ht : taken.length = i.opcode.effect.takes)
      (hm : Edits (w.machine.fetched i) ((w.machine.fetched i).withStack below)) :
      Stepped b w (.ok false)
        { w with machine := { (w.machine.fetched i).withStack below with pc := target } }
  | enters {i : Instruction} {target : UInt32}
      (hi : w.machine.script.decode w.machine.pc = .ok i) (hbl : i.opcode = .bl)
      (hop : i.operand = .address target) (ho : w.machine.overriding? target = none)
      (depth : w.machine.frames.length < w.machine.config.maxCallDepth) :
      Stepped b w (.ok false)
        { w with
          machine := (w.machine.fetched i).entered
            ((w.machine.script.symbolByAddress? target).map (·.index)) target false }
  | leaves {i : Instruction} (hi : w.machine.script.decode w.machine.pc = .ok i)
      (hrsr : i.opcode = .rsr) :
      Stepped b w (.ok (w.machine.fetched i).leave.1)
        { w with machine := (w.machine.fetched i).leave.2 }
  | external {i : Instruction} {f : UInt32} {r : Except Error Unit} {w' : World σ}
      (hi : w.machine.script.decode w.machine.pc = .ok i) (hbe : i.opcode = .be)
      (hop : i.operand = .symbol f)
      (hc : RunM.callExternal b f { w with machine := w.machine.fetched i } = some (r, w')) :
      Stepped b w (r.map fun _ => false) w'
  | override {i : Instruction} {target f : UInt32} {r : Except Error Unit} {w' : World σ}
      (hi : w.machine.script.decode w.machine.pc = .ok i) (hbl : i.opcode = .bl)
      (hop : i.operand = .address target) (ho : w.machine.overriding? target = some f)
      (hc : RunM.callOverride b f { w with machine := w.machine.fetched i } = some (r, w')) :
      Stepped b w (r.map fun _ => false) w'

namespace RunM

variable {b : Budget σ}

/-- How a run goes on after an instruction. -/
def follow (b : Budget σ) : Flow → RunM σ Bool
  | .next => return false
  | .leave => onMachine fun m => (.ok m.leave.1, m.leave.2)
  | .external f => do callExternal b f; return false
  | .override f => do callOverride b f; return false

/-- A step without an instruction at `pc` fails and changes nothing. -/
theorem step_of_decode_error {w : World σ} {e : Error}
    (h : w.machine.script.decode w.machine.pc = .error e) : step b w = some (.error e, w) := by
  have hf : fetch w.machine = (.error e, w.machine) := by
    rw [fetch, MachineM.get_bind, MachineM.lift_bind, h]
  exact bind_eq_some.2 (.inr ⟨e, onMachine_eq_some.2 ⟨hf, rfl⟩, rfl⟩)

/-- A step with an instruction at `pc` executes it and goes on as it says. -/
theorem step_of_decode {w : World σ} {i : Instruction}
    (h : w.machine.script.decode w.machine.pc = .ok i) :
    step b w =
      (onMachine (execute i) >>= follow b) { w with machine := w.machine.fetched i } := by
  have hf : fetch w.machine = (.ok i, w.machine.fetched i) := by
    rw [fetch, MachineM.get_bind, MachineM.lift_bind, h]
    rfl
  have hs : step b = onMachine fetch >>= fun i => onMachine (execute i) >>= follow b := by
    rw [step]
    congr 2
  rw [hs]
  exact bind_of_ok (onMachine_eq_some.2 ⟨hf, rfl⟩)

/-- There is nothing else that a step can do. -/
theorem stepped_of_step {w w' : World σ} {r : Except Error Bool} (h : step b w = some (r, w')) :
    Stepped b w r w' := by
  rcases hi : w.machine.script.decode w.machine.pc with e | i
  · rw [step_of_decode_error hi] at h
    obtain ⟨rfl, rfl⟩ := Prod.mk.inj (Option.some.inj h)
    exact .undecodable hi
  rw [step_of_decode hi] at h
  rcases bind_eq_some.1 h with ⟨flow, v, h₁, h₂⟩ | ⟨e, h₁, rfl⟩
  · obtain ⟨hp, hv⟩ := onMachine_eq_some.1 h₁
    have hp := perform_performs hp
    rw [hv] at h₂
    -- effect and operand are named, so that the ways to perform them can be told apart
    generalize heff : i.opcode.effect = eff, hop : i.operand = op, v.machine = m at hp h₂
    cases hp with
    | proceeds taken given hc hs ht hg hm =>
      obtain ⟨rfl, rfl⟩ := Prod.mk.inj (Option.some.inj h₂)
      exact .proceeds hi taken given (heff ▸ hc) hs (heff ▸ ht) (heff ▸ hg) hm
    | jumps taken he hs ht hm =>
      obtain ⟨rfl, rfl⟩ := Prod.mk.inj (Option.some.inj h₂)
      exact .jumps hi (Opcode.eq_b_or_bz (heff ▸ he)) hop taken hs (heff ▸ ht) hm
    | enters ho depth =>
      obtain ⟨rfl, rfl⟩ := Prod.mk.inj (Option.some.inj h₂)
      exact .enters hi (Opcode.eq_bl heff) hop ho depth
    | leaves =>
      obtain ⟨rfl, rfl⟩ := Prod.mk.inj (Option.some.inj h₂)
      exact .leaves hi (Opcode.eq_rsr heff)
    | external f =>
      obtain ⟨s, hc, rfl⟩ := bind_pure_eq_some h₂
      exact .external hi (Opcode.eq_be heff) hop hc
    | override ho =>
      obtain ⟨s, hc, rfl⟩ := bind_pure_eq_some h₂
      exact .override hi (Opcode.eq_bl heff) hop ho hc
  · obtain ⟨hp, hw⟩ := onMachine_eq_some.1 h₁
    rw [hw]
    exact .fails hi (perform_performs hp).edits_of_error e

end RunM

end ScriptMachine
