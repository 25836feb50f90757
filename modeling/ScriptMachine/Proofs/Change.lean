import Mathlib.Logic.Relation
import ScriptMachine.Proofs.Computation

/-!
# Changes of a machine

Whatever a host and its scripts do to a machine is a sequence of small changes. Most are edits: they
change the stack, the memory, the registrations or the log, and leave the active bodies as they are.
The others move control, and each of them says when it may happen: an instruction is executed only
by a machine that is usable, and bodies are left without returning only by one that is not.

* `Edit` – the edits, one constructor for each kind of operation.
* `Change` – an edit or a move of control.
* `Evolves` – any number of changes.
* `Change.edit_or_sameData` – a move of control leaves everything else alone.
* `Evolves.of_poison` – what can still happen to a machine that has become unusable.
* `Evolves.exists_failure` – how a machine becomes unusable.
-/

namespace ScriptMachine

/-- Whether an event reports that an instruction is executed. -/
def LogEvent.isExecuted : LogEvent → Bool
  | .executed _ => true
  | _ => false

namespace Machine

variable {σ : Type}

/-- The machine with another stack. -/
def withStack (m : Machine σ) (stack : List Entry) : Machine σ := { m with stack }

/-- The machine once the instruction `i` is fetched. -/
def fetched (m : Machine σ) (i : Instruction) : Machine σ :=
  { m.report (.executed i) with pc := i.next }

/-- The machine once the body at an address is entered. -/
def entered (m : Machine σ) (function : Option UInt32) (target : UInt32) (hostEntry : Bool) :
    Machine σ :=
  { m with
    frames := ⟨function, m.pc, m.context, hostEntry⟩ :: m.frames
    pc := target }

/-- The machine with other active bodies, at another place. -/
def moved (m : Machine σ) (frames : List Frame) (pc : UInt32) (context : Option Handle) :
    Machine σ :=
  { m with frames, pc, context }

/-- Leaving a body moves the machine and does nothing else. -/
theorem leave_eq_moved (m : Machine σ) :
    ∃ frames pc context, m.leave.2 = m.moved frames pc context := by
  rw [leave]
  split
  · exact ⟨m.frames, m.pc, m.context, rfl⟩
  · exact ⟨_, _, _, rfl⟩

/-- Leaving several bodies moves the machine and does nothing else. -/
theorem unwind_eq_moved (m : Machine σ) (base : Nat) :
    ∃ frames pc context, m.unwind base = m.moved frames pc context := by
  rw [unwind]
  split
  · split
    · exact ⟨m.frames, m.pc, m.context, rfl⟩
    · exact ⟨_, _, _, rfl⟩
  · exact ⟨m.frames, m.pc, m.context, rfl⟩

/-- An operation that leaves the active bodies as they are. -/
inductive Edit : Machine σ → Machine σ → Prop where
  | push (m : Machine σ) (e : Entry) : Edit m (m.pushEntry e)
  | drop {m : Machine σ} {e : Entry} {rest : List Entry} (h : m.stack = e :: rest) :
      Edit m (m.withStack rest)
  /-- An error makes the machine unusable. -/
  | fail {m : Machine σ} (h : m.poison = none) (e : Error) : Edit m (m.poisonWith e)
  | report (m : Machine σ) {e : LogEvent} (h : e.isExecuted = false) : Edit m (m.report e)
  | context (m : Machine σ) (h : Option Handle) : Edit m { m with context := h }
  | write {m : Machine σ} {r : Reference} {v : CellValue} {memory : Memory}
      (h : m.memory.write m.script m.config.flags r v = .ok memory) : Edit m { m with memory }
  | writeField {m : Machine σ} {v : CellValue} {x : Handle} {member : String} {index : Nat}
      {memory : Memory} (h : m.memory.writeField m.script v x member index = .ok memory) :
      Edit m { m with memory }
  | alloc {m : Machine σ} {key : SymbolKey} {s : Symbol} {tag : InstanceTag} {x : Handle}
      {memory : Memory} (hs : m.script.find key = .ok s)
      (h : m.memory.alloc m.script s tag = .ok (x, memory)) : Edit m { m with memory }
  /-- A freed instance is no longer the current one. -/
  | free {m : Machine σ} {x : Handle} {memory : Memory} (h : m.memory.free x = .ok memory) :
      Edit m { m with memory, context := if m.context = some x then none else m.context }
  | setSlot (m : Machine σ) (slot : GlobalSlot) (x : Option Handle) : Edit m (m.setSlot slot x)
  | markInitialized {m : Machine σ} {x : Handle} {memory : Memory}
      (h : m.memory.markInitialized x = .ok memory) : Edit m { m with memory }
  | registerExternal {m m' : Machine σ} {key : SymbolKey} {x : Binding σ}
      (h : m.registerExternal key x = .ok m') : Edit m m'
  | overrideFunction {m m' : Machine σ} {key : SymbolKey} {x : Binding σ}
      (h : m.overrideFunction key x = .ok m') : Edit m m'
  | registerDefault (m : Machine σ) (callback : Symbol → Routine σ) :
      Edit m (m.registerDefault callback)
  | reportUnregistered (m : Machine σ) (f : Symbol) : Edit m (m.reportUnregistered f)

/-- Any number of edits. -/
abbrev Edits : Machine σ → Machine σ → Prop := Relation.ReflTransGen Edit

/-- A change: an edit, or a move of control. -/
inductive Change : Machine σ → Machine σ → Prop where
  | edit {m m' : Machine σ} (h : Edit m m') : Change m m'
  /-- An instruction is fetched. -/
  | fetch {m : Machine σ} {i : Instruction} (usable : m.poison = none)
      (h : m.script.decode m.pc = .ok i) : Change m (m.fetched i)
  /-- A jump is taken: the target is the operand of the instruction that was fetched. -/
  | jump {m : Machine σ} {i : Instruction} {target : UInt32} (usable : m.poison = none)
      (h : m.log.head? = some (.executed i)) (hi : i.opcode = .b ∨ i.opcode = .bz)
      (ht : i.operand = .address target) : Change m { m with pc := target }
  /-- An instruction enters a body. -/
  | call {m : Machine σ} {i : Instruction} {target : UInt32} (usable : m.poison = none)
      (h : m.script.decode m.pc = .ok i) (hi : i.opcode = .bl) (ht : i.operand = .address target)
      (function : Option UInt32) (depth : m.frames.length < m.config.maxCallDepth) :
      Change m ((m.fetched i).entered function target false)
  /-- An instruction leaves a body. -/
  | leave {m : Machine σ} {i : Instruction} (usable : m.poison = none)
      (h : m.script.decode m.pc = .ok i) (hi : i.opcode = .rsr) : Change m (m.fetched i).leave.2
  /-- The host enters a body. -/
  | enter {m : Machine σ} (usable : m.poison = none) (function address : UInt32)
      (depth : m.frames.length < m.config.maxCallDepth) :
      Change m (m.entered (some function) address true)
  /-- The bodies of an unusable machine are left. -/
  | unwind {m : Machine σ} (unusable : m.poison ≠ none) (base : Nat) : Change m (m.unwind base)

/-- Any number of changes. -/
abbrev Evolves : Machine σ → Machine σ → Prop := Relation.ReflTransGen Change

/-- Edits are changes. -/
theorem Edits.evolves {m m' : Machine σ} (h : Edits m m') : Evolves m m' :=
  Relation.ReflTransGen.mono (fun _ _ => Change.edit) _ _ h

/-! ## What edits leave alone -/

/-- Whether two machines run the same bodies of the same script and stand at the same place. -/
structure SameControl (m m' : Machine σ) : Prop where
  script : m'.script = m.script
  config : m'.config = m.config
  frames : m'.frames = m.frames
  pc : m'.pc = m.pc

namespace SameControl

theorem refl (m : Machine σ) : SameControl m m := ⟨rfl, rfl, rfl, rfl⟩

theorem trans {a b c : Machine σ} (h : SameControl a b) (h' : SameControl b c) :
    SameControl a c :=
  ⟨h'.script.trans h.script, h'.config.trans h.config, h'.frames.trans h.frames,
    h'.pc.trans h.pc⟩

/-- Making a machine unusable does not touch what it runs. -/
theorem poisonWith (m : Machine σ) (e : Error) : SameControl m (m.poisonWith e) := by
  rw [Machine.poisonWith]
  split
  · exact refl m
  · exact ⟨rfl, rfl, rfl, rfl⟩

end SameControl

/-- A trace only depends on the script, where the innermost body stands, and the frames. -/
theorem traceFrom_congr {m m' : Machine σ} (h : m'.script = m.script) (fs : List Frame) :
    ∀ pc, m'.traceFrom pc fs = m.traceFrom pc fs := by
  induction fs with
  | nil => exact fun pc => rfl
  | cons f fs ih =>
    intro pc
    have hn : m'.frameName f = m.frameName f := by rw [frameName, frameName, h]
    rw [traceFrom, traceFrom, ih, hn]

theorem SameControl.liveTrace_eq {m m' : Machine σ} (h : SameControl m m') :
    m'.liveTrace = m.liveTrace := by
  rw [Machine.liveTrace, Machine.liveTrace, h.pc, h.frames, traceFrom_congr h.script]

/-- Whether one machine becomes another without an instruction being executed. -/
def Silent (m m' : Machine σ) : Prop :=
  ∃ events, m'.log = events ++ m.log ∧ ∀ e ∈ events, e.isExecuted = false

namespace Silent

theorem refl (m : Machine σ) : Silent m m := ⟨[], rfl, by simp⟩

theorem of_log_eq {m m' : Machine σ} (h : m'.log = m.log) : Silent m m' := ⟨[], h, by simp⟩

theorem of_log_cons {m m' : Machine σ} {e : LogEvent} (h : m'.log = e :: m.log)
    (he : e.isExecuted = false) : Silent m m' :=
  ⟨[e], h, by simpa using he⟩

theorem trans {a b c : Machine σ} (h : Silent a b) (h' : Silent b c) : Silent a c := by
  obtain ⟨es, hb, hes⟩ := h
  obtain ⟨fs, hc, hfs⟩ := h'
  refine ⟨fs ++ es, by rw [hc, hb, List.append_assoc], ?_⟩
  intro e he
  rcases List.mem_append.1 he with he | he
  · exact hfs e he
  · exact hes e he

end Silent

/-- A callback that is accepted for an external function is bound to it, and nothing else changes
but the log. -/
theorem registerExternal_eq_ok {m m' : Machine σ} {key : SymbolKey} {x : Binding σ}
    (h : m.registerExternal key x = .ok m') :
    ∃ f, m.script.externalFunction key = .ok f ∧
      m.script.checkSignature f x.signature = .ok () ∧
      ∃ log, m' = { m with
          registrations.externals := m.registrations.externals.insert f.index x, log } ∧
        (log = m.log ∨ log = .registeredAgain f.name :: m.log) := by
  obtain ⟨f, hf, h⟩ := Except.bind_eq_ok.1 h
  obtain ⟨u, hs, h⟩ := Except.bind_eq_ok.1 h
  refine ⟨f, hf, hs, m'.log, ?_, ?_⟩
  · rw [← Except.ok.inj h]
    split <;> rfl
  · rw [← Except.ok.inj h]
    split
    · exact .inr rfl
    · exact .inl rfl

/-- A callback that is accepted for a script function replaces it, and nothing else changes but the
log. -/
theorem overrideFunction_eq_ok {m m' : Machine σ} {key : SymbolKey} {x : Binding σ}
    (h : m.overrideFunction key x = .ok m') :
    ∃ f, m.script.scriptFunction key = .ok f ∧
      m.script.checkSignature f x.signature = .ok () ∧
      m' = { m with
        registrations.overrides := m.registrations.overrides.insert f.index x
        log := .overridden f.name :: m.log } := by
  obtain ⟨f, hf, h⟩ := Except.bind_eq_ok.1 h
  obtain ⟨u, hs, h⟩ := Except.bind_eq_ok.1 h
  exact ⟨f, hf, hs, (Except.ok.inj h).symm⟩

namespace Edit

variable {m m' : Machine σ}

/-- An edit does not touch what a machine runs. -/
theorem sameControl (h : Edit m m') : SameControl m m' := by
  cases h with
  | fail _ e => exact .poisonWith m e
  | registerExternal h =>
    obtain ⟨f, -, -, log, rfl, -⟩ := registerExternal_eq_ok h
    exact ⟨rfl, rfl, rfl, rfl⟩
  | overrideFunction h =>
    obtain ⟨f, -, -, rfl⟩ := overrideFunction_eq_ok h
    exact ⟨rfl, rfl, rfl, rfl⟩
  | reportUnregistered f =>
    rw [Machine.reportUnregistered]
    split
    · exact .refl m
    · exact ⟨rfl, rfl, rfl, rfl⟩
  | _ => exact ⟨rfl, rfl, rfl, rfl⟩

/-- An edit other than a failure does not decide whether a machine is usable. -/
theorem poison_eq_or (h : Edit m m') :
    m'.poison = m.poison ∨ m.poison = none ∧ ∃ e, m' = m.poisonWith e := by
  cases h with
  | fail h e => exact .inr ⟨h, e, rfl⟩
  | registerExternal h =>
    obtain ⟨f, -, -, log, rfl, -⟩ := registerExternal_eq_ok h
    exact .inl rfl
  | overrideFunction h =>
    obtain ⟨f, -, -, rfl⟩ := overrideFunction_eq_ok h
    exact .inl rfl
  | reportUnregistered f =>
    rw [Machine.reportUnregistered]
    split <;> exact .inl rfl
  | _ => exact .inl rfl

/-- An edit executes no instruction. -/
theorem silent (h : Edit m m') : Silent m m' := by
  cases h with
  | fail h e =>
    -- the error is reported, and the bodies that were active
    refine ⟨[.stackTrace m.liveTrace, .fatal e], ?_, by simp [LogEvent.isExecuted]⟩
    rw [poisonWith, h]
    rfl
  | report h => exact .of_log_cons rfl h
  | registerExternal h =>
    obtain ⟨f, -, -, log, rfl, hl | hl⟩ := registerExternal_eq_ok h
    · exact .of_log_eq hl
    · exact .of_log_cons hl rfl
  | overrideFunction h =>
    obtain ⟨f, -, -, rfl⟩ := overrideFunction_eq_ok h
    exact .of_log_cons rfl rfl
  | reportUnregistered f =>
    rw [Machine.reportUnregistered]
    split
    · exact .refl m
    · exact .of_log_cons rfl rfl
  | _ => exact .of_log_eq rfl

end Edit

theorem Edits.sameControl {m m' : Machine σ} (h : Edits m m') : SameControl m m' := by
  induction h with
  | refl => exact .refl m
  | tail _ h ih => exact ih.trans h.sameControl

theorem Edits.silent {m m' : Machine σ} (h : Edits m m') : Silent m m' := by
  induction h with
  | refl => exact .refl m
  | tail _ h ih => exact ih.trans h.silent

/-! ## What moves of control leave alone -/

/-- Whether two machines hold the same, whatever bodies they run and wherever they stand. -/
structure SameData (m m' : Machine σ) : Prop where
  script : m'.script = m.script
  config : m'.config = m.config
  stack : m'.stack = m.stack
  memory : m'.memory = m.memory
  registrations : m'.registrations = m.registrations
  poison : m'.poison = m.poison

/-- A change that is no edit moves control only. -/
theorem Change.edit_or_sameData {m m' : Machine σ} (h : Change m m') :
    Edit m m' ∨ SameData m m' := by
  cases h with
  | edit h => exact .inl h
  | @leave i =>
    obtain ⟨_, _, _, h⟩ := (m.fetched i).leave_eq_moved
    rw [h]
    exact .inr ⟨rfl, rfl, rfl, rfl, rfl, rfl⟩
  | unwind _ base =>
    obtain ⟨_, _, _, h⟩ := m.unwind_eq_moved base
    rw [h]
    exact .inr ⟨rfl, rfl, rfl, rfl, rfl, rfl⟩
  | _ => exact .inr ⟨rfl, rfl, rfl, rfl, rfl, rfl⟩

/-- A change keeps the script. -/
theorem Change.script_eq {m m' : Machine σ} (h : Change m m') : m'.script = m.script := by
  rcases h.edit_or_sameData with h | h
  · exact h.sameControl.script
  · exact h.script

theorem Evolves.script_eq {m m' : Machine σ} (h : Evolves m m') : m'.script = m.script := by
  induction h with
  | refl => rfl
  | tail _ h ih => exact h.script_eq.trans ih

/-- A change keeps the configuration. -/
theorem Change.config_eq {m m' : Machine σ} (h : Change m m') : m'.config = m.config := by
  rcases h.edit_or_sameData with h | h
  · exact h.sameControl.config
  · exact h.config

theorem Evolves.config_eq {m m' : Machine σ} (h : Evolves m m') : m'.config = m.config := by
  induction h with
  | refl => rfl
  | tail _ h ih => exact h.config_eq.trans ih

/-! ## Machines that are unusable -/

/-- A machine that becomes unusable keeps the bodies that were active as its stack trace. -/
theorem poison_poisonWith {m : Machine σ} (h : m.poison = none) (e : Error) :
    (m.poisonWith e).poison = some m.liveTrace := by
  rw [poisonWith, h]

/-- A machine that is unusable does not fail again. -/
theorem poisonWith_of_poison {m : Machine σ} (h : m.poison ≠ none) (e : Error) :
    m.poisonWith e = m := by
  rw [poisonWith]
  split
  · rfl
  · next hp => exact absurd hp h

theorem isPoisoned_poisonWith (m : Machine σ) (e : Error) : (m.poisonWith e).isPoisoned = true := by
  rw [poisonWith, isPoisoned]
  rcases h : m.poison with _ | t
  · rfl
  · rw [h]
    rfl

theorem unwind_poison (m : Machine σ) (base : Nat) : (m.unwind base).poison = m.poison := by
  obtain ⟨_, _, _, h⟩ := m.unwind_eq_moved base
  rw [h]
  rfl

theorem leave_poison (m : Machine σ) : m.leave.2.poison = m.poison := by
  obtain ⟨_, _, _, h⟩ := m.leave_eq_moved
  rw [h]
  rfl

/-- A change of an unusable machine keeps its stack trace and executes no instruction. -/
theorem Change.of_poison {m m' : Machine σ} {t : List TraceLine} (h : Change m m')
    (ht : m.poison = some t) : m'.poison = some t ∧ Silent m m' := by
  cases h with
  | edit h =>
    refine ⟨?_, h.silent⟩
    rcases h.poison_eq_or with h | ⟨h, -⟩
    · rw [h, ht]
    · rw [ht] at h
      cases h
  | unwind _ base =>
    obtain ⟨_, _, _, h⟩ := m.unwind_eq_moved base
    rw [h]
    exact ⟨ht, .of_log_eq rfl⟩
  -- all other moves are made by usable machines only
  | fetch h | jump h | call h | leave h | enter h =>
    rw [ht] at h
    cases h

/-- A usable machine stays usable, or an error makes it unusable. -/
theorem Change.of_usable {m m' : Machine σ} (h : Change m m') (hm : m.poison = none) :
    m'.poison = none ∨ ∃ e, m' = m.poisonWith e := by
  rcases h.edit_or_sameData with h | h
  · rcases h.poison_eq_or with h | ⟨-, h⟩
    · exact .inl (h.trans hm)
    · exact .inr h
  · exact .inl (h.poison.trans hm)

/-- Whatever happens to an unusable machine, its stack trace stays and no instruction is
executed. -/
theorem Evolves.of_poison {m m' : Machine σ} {t : List TraceLine} (h : Evolves m m')
    (ht : m.poison = some t) : m'.poison = some t ∧ Silent m m' := by
  induction h with
  | refl => exact ⟨ht, .refl m⟩
  | tail _ h ih =>
    obtain ⟨hp, hs⟩ := h.of_poison ih.1
    exact ⟨hp, ih.2.trans hs⟩

/-- A machine becomes unusable at one moment, by an error. -/
theorem Evolves.exists_failure {m m' : Machine σ} {t : List TraceLine} (h : Evolves m m')
    (hm : m.poison = none) (ht : m'.poison = some t) :
    ∃ a e, Evolves m a ∧ a.poison = none ∧ a.liveTrace = t ∧ Evolves (a.poisonWith e) m' := by
  induction h with
  | refl =>
    rw [hm] at ht
    cases ht
  | @tail b c hb hc ih =>
    -- either the last change is the failure, or it came before and the trace has stayed since
    rcases hp : b.poison with _ | u
    · rcases hc.of_usable hp with h | ⟨e, rfl⟩
      · rw [h] at ht
        cases ht
      · rw [poison_poisonWith hp, Option.some.injEq] at ht
        exact ⟨b, e, hb, hp, ht, .refl⟩
    · obtain ⟨hu, -⟩ := hc.of_poison hp
      rw [hu, Option.some.injEq] at ht
      obtain ⟨a, e, h₁, h₂, h₃, h₄⟩ := ih (hp.trans (congrArg some ht))
      exact ⟨a, e, h₁, h₂, h₃, h₄.tail hc⟩

end Machine

end ScriptMachine
