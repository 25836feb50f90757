import ScriptMachine.Proofs.Parallel

/-!
# Calls by scripts and calls by the host

A function may be entered by an instruction of a script or, inside a callback, by the host. The two
frames differ in where to go on and in whether control returns to the host, and only the stack trace
tells. So if no callback looks at that, the function does the same in both cases.

* `Routine.Blind` – host code that never asks for the stack trace.
* `Routine.mirrors_runWithin` – such code cannot tell machines apart that mirror each other.
* `RunM.runCall` – an instruction that calls a body, up to the end of that body.
* `RunM.runFunction_iff_runCall` – a function that is entered in either way.
-/

namespace ScriptMachine

open Machine

variable {σ : Type}

/-! ## Host code that does not look at the stack trace -/

/-- Whether host code never asks for the stack trace, and neither does a callback it registers. -/
def Routine.Blind : Routine σ → Prop
  | finish _ => True
  | getHost next => ∀ s, (next s).Blind
  | setHost _ next => next.Blind
  | ask q next => q ≠ .stackTrace ∧ ∀ r, (next r).Blind
  | call _ _ _ next => ∀ r, (next r).Blind
  | create _ _ next => ∀ r, (next r).Blind
  | runBody _ next => ∀ r, (next r).Blind
  | registerExternal _ _ _ callback next => (∀ args, (callback args).Blind) ∧ ∀ r, (next r).Blind
  | overrideFunction _ _ _ callback next => (∀ args, (callback args).Blind) ∧ ∀ r, (next r).Blind
  | registerDefault callback next => (∀ f, (callback f).Blind) ∧ next.Blind

/-- Whether host code can tell machines apart only by what is compared: by stack traces, if they
are, and otherwise it never asks for one. -/
def Routine.Comparing (traced : Bool) (x : Routine σ) : Prop := traced = true ∨ x.Blind

/-- What follows an answer can tell no more machines apart. -/
theorem Routine.Comparing.resume {traced : Bool} {x : Routine σ} (hx : x.Comparing traced)
    (ends : Bool) : (Routine.resume ends x).Comparing traced := by
  cases ends with
  | true => exact .inr trivial
  | false => exact hx

theorem Routine.comparing_false : Comparing (σ := σ) false = Blind :=
  funext fun _ => propext (or_iff_right Bool.false_ne_true)

/-- A property of the callbacks that are bound, and of another one, holds of all that are bound once
this one is. -/
theorem Bindings.insert_forall {P : Routine σ → Prop} {bindings : Bindings σ} {i : UInt32}
    {x : Binding σ} (h : ∀ j y args, bindings j = some y → P (y.callback args))
    (hx : ∀ args, P (x.callback args)) :
    ∀ j y args, bindings.insert i x j = some y → P (y.callback args) := by
  intro j y args hy
  by_cases hj : j = i
  · rw [hj, insert_self] at hy
    obtain rfl := Option.some.inj hy
    exact hx args
  · rw [insert_of_ne _ hj] at hy
    exact h j y args hy

namespace Machine

variable {traced : Bool} {P : Routine σ → Prop}

/-! ## Instances -/

theorem mirrors_alloc (key : SymbolKey) (tag : InstanceTag) :
    MachineM.Mirrors (.strict traced P) (alloc (σ := σ) key tag) := by
  intro t t' m m' r n h hx _
  rw [alloc, MachineM.get_bind, MachineM.lift_bind] at hx ⊢
  rcases hs : m.script.find key with e | s
  · have hs' : m'.script.find key = .error e := by rw [h.script, hs]
    rw [hs] at hx
    rw [hs']
    obtain ⟨rfl, rfl⟩ := Prod.mk.inj hx
    exact ⟨m', rfl, h⟩
  have hs' : m'.script.find key = .ok s := by rw [h.script, hs]
  rw [hs] at hx
  rw [hs']
  dsimp only at hx ⊢
  have hmemory : m'.memory.alloc m'.script s tag = m.memory.alloc m.script s tag := by
    rw [h.script]
    exact congrArg (Memory.alloc · m.script s tag) h.memory
  rw [MachineM.lift_bind] at hx ⊢
  rw [hmemory]
  rcases ha : m.memory.alloc m.script s tag with e | ⟨x, memory⟩
  · rw [ha] at hx
    obtain ⟨rfl, rfl⟩ := Prod.mk.inj hx
    exact ⟨m', rfl, h⟩
  · rw [ha] at hx
    obtain ⟨rfl, rfl⟩ := Prod.mk.inj hx
    exact ⟨_, rfl, (h.setMemory memory).report _⟩

theorem mirrors_free (x : Handle) : MachineM.Mirrors (.strict traced P) (free (σ := σ) x) := by
  intro t t' m m' r n h hx _
  have hmemory : m'.memory = m.memory := h.memory
  rw [free, MachineM.get_bind, MachineM.lift_bind] at hx ⊢
  rw [hmemory, h.context]
  rcases hf : m.memory.free x with e | memory
  · rw [hf] at hx
    obtain ⟨rfl, rfl⟩ := Prod.mk.inj hx
    exact ⟨m', rfl, h⟩
  · rw [hf] at hx
    obtain ⟨rfl, rfl⟩ := Prod.mk.inj hx
    exact ⟨_, rfl, ((h.setMemory memory).setContext _).report _⟩

namespace Mirrors

variable {t t' : List Frame} {m m' : Machine σ} (h : m.Mirrors (.strict traced P) t t' m')

include h

/-! ## Queries -/

theorem store (x : Except Error Memory) :
    ∃ n', Query.store m' x = ((Query.store m x).1, n') ∧
      (Query.store m x).2.Mirrors (.strict traced P) t t' n' := by
  cases x with
  | error e => exact ⟨m', rfl, h⟩
  | ok memory => exact ⟨_, rfl, h.setMemory memory⟩

/-- A query that only looks has the same answer on both machines if both look the same. -/
theorem observe {α : Type} {a a' : α} (ha : a' = a) :
    ∃ n', Query.observe m' a' = ((Query.observe m a).1, n') ∧
      (Query.observe m a).2.Mirrors (.strict traced P) t t' n' :=
  ⟨m', congrArg (·, m') ha, h⟩

/-- The stack trace is the same on both machines if it is compared, and every other query has the
same answer anyway. -/
theorem answer (q : Query) (hq : traced = true ∨ q ≠ .stackTrace) :
    ∃ n', q.answer m' = ((q.answer m).1, n') ∧
      (q.answer m).2.Mirrors (.strict traced P) t t' n' := by
  have hmemory : m'.memory = m.memory := h.memory
  cases q with
  | push v => exact ⟨_, rfl, h.pushEntry _⟩
  | pop k => exact mirrors_popValue k h rfl trivial
  | stackLength => exact h.observe (congrArg List.length h.stack)
  | isPoisoned => exact h.observe h.usable
  | stackTrace =>
    have ht : traced = true := hq.resolve_right fun hne => hne rfl
    refine h.observe ?_
    rw [Machine.stackTrace, Machine.stackTrace, (h.traces ht).2, h.liveTrace ht]
  -- the traces that are printed differ, and only the logs show it
  | printStackTrace => exact ⟨_, rfl, { h with log := trivial }⟩
  | hasExternal key =>
    refine h.observe ?_
    rw [hasExternal, hasExternal, h.script, h.registrations]
  | alloc key tag => exact mirrors_alloc key tag h rfl trivial
  | free x => exact mirrors_free x h rfl trivial
  | state x => exact h.observe (by rw [hmemory])
  | className x => exact h.observe (by rw [hmemory, h.script])
  | instanceCount => exact h.observe (by rw [hmemory])
  | bound key => exact h.observe (by rw [hmemory, h.script])
  | current => exact h.observe h.context
  | global slot =>
    refine h.observe ?_
    rw [Machine.slot, Machine.slot, h.slotIndex, h.bound]
  | setGlobal slot x => exact ⟨_, rfl, h.setSlot slot x⟩
  | read k key index context =>
    have hread : m'.read k = m.read k := funext fun r => h.read trivial
    exact h.observe (by rw [hread, h.script])
  | write v key index context =>
    have hconfig : m'.config = m.config := h.config
    rw [Query.answer, Query.answer, hmemory, h.script, hconfig]
    exact h.store _
  | openView tag x => exact h.observe (by rw [hmemory])
  | readField k x member index => exact h.observe (by rw [hmemory, h.script])
  | writeField v x member index =>
    rw [Query.answer, Query.answer, hmemory, h.script]
    exact h.store _

/-! ## Callbacks that are registered -/

theorem setRegistrations {r : Registrations σ} (hr : r.All P) :
    ({ m with registrations := r } : Machine σ).Mirrors (.strict traced P) t t'
      { m' with registrations := r } :=
  { h with registrations := rfl, callbacks := hr }

theorem registerExternal (key : SymbolKey) {x : Binding σ} (hx : ∀ args, P (x.callback args)) :
    ∃ n', Routine.registered m' (m'.registerExternal key x) =
        ((Routine.registered m (m.registerExternal key x)).1, n') ∧
      (Routine.registered m (m.registerExternal key x)).2.Mirrors (.strict traced P) t t' n' := by
  have hfind : m'.script.externalFunction key = m.script.externalFunction key := by rw [h.script]
  have hcheck : m'.script.checkSignature = m.script.checkSignature := by rw [h.script]
  rw [Machine.registerExternal, Machine.registerExternal, hfind, hcheck, h.registrations]
  rcases m.script.externalFunction key with e | f
  · exact ⟨m', rfl, h⟩
  simp only [bind, Except.bind]
  rcases m.script.checkSignature f x.signature with e | u
  · exact ⟨m', rfl, h⟩
  have hm := h.setRegistrations (r := { m.registrations with
    externals := m.registrations.externals.insert f.index x })
    ⟨Bindings.insert_forall h.callbacks.externals hx, h.callbacks.overrides, h.callbacks.fallback⟩
  simp only [pure, Except.pure]
  split
  · exact ⟨_, rfl, hm.report _⟩
  · exact ⟨_, rfl, hm⟩

theorem overrideFunction (key : SymbolKey) {x : Binding σ} (hx : ∀ args, P (x.callback args)) :
    ∃ n', Routine.registered m' (m'.overrideFunction key x) =
        ((Routine.registered m (m.overrideFunction key x)).1, n') ∧
      (Routine.registered m (m.overrideFunction key x)).2.Mirrors (.strict traced P) t t' n' := by
  have hfind : m'.script.scriptFunction key = m.script.scriptFunction key := by rw [h.script]
  have hcheck : m'.script.checkSignature = m.script.checkSignature := by rw [h.script]
  rw [Machine.overrideFunction, Machine.overrideFunction, hfind, hcheck, h.registrations]
  rcases m.script.scriptFunction key with e | f
  · exact ⟨m', rfl, h⟩
  simp only [bind, Except.bind]
  rcases m.script.checkSignature f x.signature with e | u
  · exact ⟨m', rfl, h⟩
  have hm := h.setRegistrations (r := { m.registrations with
    overrides := m.registrations.overrides.insert f.index x })
    ⟨h.callbacks.externals, Bindings.insert_forall h.callbacks.overrides hx, h.callbacks.fallback⟩
  exact ⟨_, rfl, hm.report _⟩

theorem registerDefault {callback : Symbol → Routine σ} (hx : ∀ f, P (callback f)) :
    (m.registerDefault callback).Mirrors (.strict traced P) t t' (m'.registerDefault callback) := by
  have hm := h.setRegistrations (r := { m.registrations with fallback := some callback })
    ⟨h.callbacks.externals, h.callbacks.overrides, fun g f hg => Option.some.inj hg ▸ hx f⟩
  rw [Machine.registerDefault, Machine.registerDefault, h.registrations]
  exact hm

end Mirrors

end Machine

/-! ## Host code -/

namespace RunM

variable {traced : Bool} {P : Routine σ → Prop} {b : Budget σ}
  (hb : b.callback.Mirrors (.strict traced P)) (hc : b.callback.Keeps SameControl)

include hb hc

/-- Creating an instance ends alike on both machines. -/
theorem mirrors_create (key : SymbolKey) (tag : InstanceTag) :
    Mirrors (.strict traced P) (create b key tag) := by
  intro t t' w w' r v h hx hr
  rw [create, machine_bind] at hx ⊢
  rw [h.machine.ensureUsable]
  refine Mirrors.lift (fun _ => ?_) h hx hr
  exact .bind (.onMachine (mirrors_alloc key tag)) fun x =>
    .bind (mirrors_runBody hb hc x) fun _ => .pure x

end RunM

namespace Routine

variable {traced : Bool}

/-- Host code that can only see what is compared ends alike in a world and in one that mirrors it,
if the callbacks do that it gives rise to. -/
theorem mirrors_run {b : Budget σ} (hb : b.callback.Mirrors (.strict traced (Comparing traced)))
    (hc : b.callback.Keeps SameControl) :
    (run b).Mirrors (.strict traced (Comparing traced)) := by
  intro x
  -- on the host code, from any worlds that mirror each other
  induction x using induction_resume with
  | finish outcome =>
    intro t t' w w' o v _ h hr
    obtain ⟨rfl, rfl⟩ := Prod.mk.inj (Option.some.inj hr)
    exact ⟨w', rfl, h⟩
  | getHost next ih =>
    intro t t' w w' o v hx h hr
    rw [run] at hr ⊢
    rw [h.host]
    exact ih _ (hx.imp_right (· _)) h hr
  | setHost s next ih =>
    intro t t' w w' o v hx h hr
    have hset : World.Mirrors (.strict traced (Comparing traced)) t t' { w with host := s }
        { w' with host := s } := ⟨rfl, h.machine⟩
    exact ih hx hset hr
  | ask q next ih =>
    intro t t' w w' o v hx h hr
    obtain ⟨m', hm', hm⟩ := h.machine.answer q (hx.imp_right And.left)
    have hnext := Comparing.resume (hx.imp_right (·.2 (q.answer w.machine).1))
    rw [run_ask] at hr ⊢
    rw [hm']
    exact ih _ (hnext _) (h.withMachine hm) hr
  | call key args expected next ih =>
    intro t t' w w' o v hx h hr
    rw [run_call] at hr
    obtain ⟨⟨r, u⟩, hcall, hr⟩ := Option.bind_eq_some_iff.1 hr
    obtain ⟨u', hcall', hu⟩ := RunM.mirrors_call hb hc key args expected h hcall trivial
    rw [run_call, hcall']
    exact ih r (Comparing.resume (hx.imp_right (· r)) _) hu hr
  | create key tag next ih =>
    intro t t' w w' o v hx h hr
    rw [run_create] at hr
    obtain ⟨⟨r, u⟩, hcreate, hr⟩ := Option.bind_eq_some_iff.1 hr
    obtain ⟨u', hcreate', hu⟩ := RunM.mirrors_create hb hc key tag h hcreate trivial
    rw [run_create, hcreate']
    exact ih r (Comparing.resume (hx.imp_right (· r)) _) hu hr
  | runBody x next ih =>
    intro t t' w w' o v hx h hr
    rw [run_runBody] at hr
    obtain ⟨⟨r, u⟩, hbody, hr⟩ := Option.bind_eq_some_iff.1 hr
    obtain ⟨u', hbody', hu⟩ := RunM.mirrors_runBody hb hc x h hbody trivial
    rw [run_runBody, hbody']
    exact ih r (Comparing.resume (hx.imp_right (· r)) _) hu hr
  -- a callback that is registered cannot see more either
  | registerExternal key params result callback next ih =>
    intro t t' w w' o v hx h hr
    obtain ⟨m', hm', hm⟩ := h.machine.registerExternal key (x := ⟨callback, params, result⟩)
      fun args => hx.imp_right (·.1 args)
    rw [run, hm']
    exact ih _ (hx.imp_right (·.2 _)) (h.withMachine hm) hr
  | overrideFunction key params result callback next ih =>
    intro t t' w w' o v hx h hr
    obtain ⟨m', hm', hm⟩ := h.machine.overrideFunction key (x := ⟨callback, params, result⟩)
      fun args => hx.imp_right (·.1 args)
    rw [run, hm']
    exact ih _ (hx.imp_right (·.2 _)) (h.withMachine hm) hr
  | registerDefault callback next ih =>
    intro t t' w w' o v hx h hr
    have hm := h.machine.registerDefault fun f => hx.imp_right (·.1 f)
    exact ih (hx.imp_right And.right) (h.withMachine hm) hr

/-- However deep callbacks nest, host code that can only see what is compared cannot tell machines
apart that mirror each other. -/
theorem mirrors_runWithin_strict (traced : Bool) :
    ∀ n, (runWithin n : RoutineRunner σ).Mirrors (.strict traced (Comparing traced))
  | 0 => fun _ _ _ _ _ _ _ _ _ h => nomatch h
  | n + 1 => mirrors_run (b := ⟨runWithin n, n⟩) (mirrors_runWithin_strict traced n)
      (RunM.nested_keeps_sameControl n n)

theorem mirrors_runWithin (n : Nat) :
    (runWithin n : RoutineRunner σ).Mirrors (.equal Blind) := by
  have h := mirrors_runWithin_strict (σ := σ) false n
  rwa [comparing_false] at h

end Routine

/-! ## A function that is entered in either way -/

namespace Machine

/-- The machine with control at an address. -/
def goto (m : Machine σ) (pc : UInt32) : Machine σ := { m with pc }

variable {traced : Bool} {P : Routine σ → Prop} {t t' : List Frame} {m m' : Machine σ}

/-- With one configuration, machines mirror each other. -/
theorem Mirrors.symm (h : m.Mirrors (.strict traced P) t t' m') :
    m'.Mirrors (.strict traced P) t' t m where
  script := h.script.symm
  config := h.config.symm
  allows := trivial
  stack := h.stack.symm
  memory := h.memory.symm
  registrations := h.registrations.symm
  callbacks := h.registrations ▸ h.callbacks
  pc := h.pc.symm
  context := h.context.symm
  usable := h.usable.symm
  traces := fun ht => ⟨(h.traces ht).1.symm, (h.traces ht).2.symm⟩
  log := trivial
  depth := h.depth.symm
  frames := by
    obtain ⟨inner, hm, hm', hi⟩ := h.frames
    exact ⟨inner, hm', hm, hi⟩

/-- A body is the same whether the host has entered it, or an instruction somewhere in the
script. -/
theorem mirrors_entered (h : m.registrations.All P) (f target pc : UInt32) (i : Instruction) :
    (m.entered (some f) target true).Mirrors (.equal P)
      (hostFrame f m :: m.frames) (⟨some f, i.next, m.context, false⟩ :: m.frames)
      (((m.goto pc).fetched i).entered (some f) target false) where
  script := rfl
  config := rfl
  allows := trivial
  stack := rfl
  memory := rfl
  registrations := rfl
  callbacks := h
  pc := rfl
  context := rfl
  usable := rfl
  traces := nofun
  log := trivial
  depth := rfl
  frames := ⟨[], rfl, rfl, nofun⟩

/-- Machines that have left bodies that were entered on the same ones differ in where they go on and
in their logs. -/
theorem Mirrors.moved_eq {g g' : Frame} {rest : List Frame}
    (h : m.Mirrors (.equal P) (g :: rest) (g' :: rest) m') (hu : m.poison = none)
    (hc : g'.context = g.context) :
    m'.moved rest g'.returnPc g'.context =
      { (m.moved rest g.returnPc g.context).goto g'.returnPc with log := m'.log } := by
  have hp := h.poison_eq_none hu
  have hconfig : m'.config = m.config := h.config
  have hmemory : m'.memory = m.memory := h.memory
  rw [moved, moved, goto, h.script, hconfig, h.stack, hmemory, h.registrations, hp, hu, hc]

end Machine

theorem World.Mirrors.symm {traced : Bool} {P : Routine σ → Prop} {t t' : List Frame}
    {w w' : World σ} (h : w.Mirrors (.strict traced P) t t' w') :
    w'.Mirrors (.strict traced P) t' t w :=
  ⟨h.host.symm, h.machine.symm⟩

/-! ## Small scripts -/

/-- A body that calls a function of the host, and an instruction that calls this body. -/
def Script.called : Script :=
  .ofParts 50
    [.body "MAIN" 0 0,
      { Symbol.body "HOST" 1 0 with flags := .union .const .external }]
    #[62, 1, 0, 0, 0, 60, 61, 0, 0, 0, 0, 60]

/-- A machine whose host reports the active bodies and pushes a number. -/
def World.reporting : World Unit :=
  let m : Machine Unit := .new .called .default
  let report : Routine Unit :=
    .ask .printStackTrace fun _ => .ask (.push (.int 5)) fun _ => .finish (.ok .void)
  ⟨(), { m with registrations.externals := Bindings.empty.insert 1 ⟨fun _ => report, [], .void⟩ }⟩

namespace RunM

variable {b : Budget σ} {w : World σ}

/-- Executes the instruction at `pc`, and goes on as long as there are more bodies active than
before it. So an instruction that calls a body runs until this body is left, which may execute as
many instructions as a body that the host runs. -/
def runCall (b : Budget σ) : RunM σ Unit := fun w =>
  repeatStep (descend b w.machine.frames.length) (b.steps + 1) w

/-- What an instruction does that calls a function, up to the end of its body. -/
theorem runCall_of_bl {f : Symbol} {i : Instruction}
    (hi : w.machine.script.decode w.machine.pc = .ok i) (hbl : i.opcode = .bl)
    (hop : i.operand = .address f.address)
    (hf : w.machine.script.symbolByAddress? f.address = some f)
    (ho : w.machine.hasOverride f.index = false) :
    runCall b w =
      if w.machine.config.maxCallDepth ≤ w.machine.frames.length then
        some (.error (.callDepthExceeded w.machine.config.maxCallDepth),
          { w with machine := w.machine.fetched i })
      else
        repeatStep (descend b w.machine.frames.length) b.steps { w with
          machine := (w.machine.fetched i).entered (some f.index) f.address false } := by
  have hoverriding : w.machine.overriding? f.address = none := by
    rw [overriding?, hf, Option.map_some, Option.filter_some, ho]
    rfl
  have hstep := step_of_bl (b := b) hi hbl hop hoverriding
  rw [hf, Option.map_some] at hstep
  rw [runCall, repeatStep]
  by_cases hd : w.machine.config.maxCallDepth ≤ w.machine.frames.length
  · rw [if_pos hd] at hstep ⊢
    rw [descend_of_error hstep]
  · -- one more body is active after the instruction, so the loop goes on in it
    have hlt : w.machine.frames.length <
        ((w.machine.fetched i).entered (some f.index) f.address false).frames.length :=
      Nat.lt_succ_self _
    rw [if_neg hd] at hstep ⊢
    rw [descend_of_lt hstep hlt]

/-- Loops in bodies that are entered in different ways have the same outcomes. -/
theorem exists_descent_iff {g g' : Frame} {rest rest' : List Frame} {w w' : World σ} {n : Nat}
    {P : Routine σ → Prop} (hb : b.callback.Mirrors (.equal P))
    (h : w.Mirrors (.equal P) (g :: rest) (g' :: rest') w') (r : Except Error Unit) :
    (∃ v, repeatStep (descend b rest.length) n w = some (r, v)) ↔
      ∃ v', repeatStep (descend b rest'.length) n w' = some (r, v') := by
  constructor
  · rintro ⟨v, hv⟩
    obtain ⟨v', hv', -⟩ := mirrors_descent hb trivial h hv
    exact ⟨v', hv'⟩
  · rintro ⟨v', hv'⟩
    obtain ⟨v, hv, -⟩ := mirrors_descent hb trivial h.symm hv'
    exact ⟨v, hv⟩

/-- Take a usable machine whose callbacks never ask for the stack trace, and an instruction that
calls a function: one that is what the address of its body stands for, and that is not replaced. If
the host runs the function, and if the instruction is executed and execution goes on until the body
is left, then both end in the same way, with the same error if they fail. If they succeed, they
leave the same but for where control goes on and what was logged. -/
theorem runFunction_iff_runCall (n steps : Nat) {w : World σ} {f : Symbol} {a : UInt32}
    {i : Instruction} (hu : w.machine.poison = none)
    (hblind : w.machine.registrations.All Routine.Blind)
    (hf : w.machine.script.symbolByAddress? f.address = some f)
    (ho : w.machine.hasOverride f.index = false) (hi : w.machine.script.decode a = .ok i)
    (hbl : i.opcode = .bl) (hop : i.operand = .address f.address) :
    (∀ r, (∃ v, runFunction (.nested n steps) f.index f.address w = some (r, v)) ↔
      ∃ v', runCall (.nested n steps) { w with machine := w.machine.goto a } = some (r, v')) ∧
    ∀ v v', runFunction (.nested n steps) f.index f.address w = some (.ok (), v) →
      runCall (.nested n steps) { w with machine := w.machine.goto a } = some (.ok (), v') →
      v' = { v with machine := { v.machine.goto i.next with log := v'.machine.log } } := by
  have hb : (Budget.nested n steps : Budget σ).callback.Mirrors (.equal Routine.Blind) :=
    Routine.mirrors_runWithin n
  have hcall : runCall (.nested n steps) { w with machine := w.machine.goto a } =
      if w.machine.config.maxCallDepth ≤ w.machine.frames.length then _ else _ :=
    runCall_of_bl hi hbl hop hf ho
  by_cases hd : w.machine.config.maxCallDepth ≤ w.machine.frames.length
  · -- neither enters the body, and both fail for that
    rw [runFunction_of_full hd, hcall, if_pos hd]
    simp [goto]
  rw [if_neg hd] at hcall
  have hrun := runFunction_of_lt (f := f.index) (a := f.address)
    (nested_keeps_sameControl (σ := σ) n steps) (Nat.lt_of_not_le hd)
  -- both enter the body, and what is active below it differs in the one frame only
  have hroot : World.Mirrors (.equal Routine.Blind) _ _
      { w with machine := w.machine.entered (some f.index) f.address true }
      { w with
        machine := ((w.machine.goto a).fetched i).entered (some f.index) f.address false } :=
    ⟨rfl, mirrors_entered hblind f.index f.address a i⟩
  refine ⟨fun r => ?_, fun v v' h h' => ?_⟩
  · rw [hrun, hcall, exists_onError_iff]
    exact exists_descent_iff hb hroot r
  · have hv := usable_of_runFunction h hu
    rw [hrun] at h
    rw [hcall] at h'
    obtain ⟨u, hloop, rfl⟩ := andThen_eq_some.1 h
    obtain ⟨u', hloop', hleft⟩ := mirrors_descent hb trivial hroot hloop
    obtain rfl : u' = v' := (Prod.mk.inj (Option.some.inj (hloop'.symm.trans h'))).2
    cases hleft with
    | @intro u u' hm => exact congrArg₂ World.mk hm.host (hm.machine.moved_eq hv rfl)

/-- A function that the host runs, whose callback reports the active bodies, ends in the same way
when a script calls it. -/
theorem runFunction_iff_runCall_of_reporting :
    ∃ v v', runFunction (.nested 1 2) 0 0 World.reporting = some (.ok (), v) ∧
      runCall (.nested 1 2) { World.reporting with machine := World.reporting.machine.goto 6 } =
        some (.ok (), v') ∧
      v'.machine.stack = [.value (.int 5)] ∧
      v' = { v with machine := { v.machine.goto 11 with log := v'.machine.log } } := by
  have hblind : World.reporting.machine.registrations.All Routine.Blind := by
    refine ⟨Bindings.insert_forall (fun _ _ _ h => nomatch h) fun _ => ?_, nofun, nofun⟩
    exact ⟨nofun, fun _ => ⟨nofun, fun _ => trivial⟩⟩
  obtain ⟨hends, hleaves⟩ := runFunction_iff_runCall 1 2 (f := .body "MAIN" 0 0) (a := 6)
    (i := ⟨6, .bl, .address 0⟩) rfl hblind rfl rfl rfl rfl rfl
  have hrun : ∃ p ∈ runFunction (.nested 1 2) 0 0 World.reporting,
      p.1 = .ok () ∧ p.2.machine.stack = [.value (.int 5)] := by decide +kernel
  obtain ⟨⟨_, v⟩, h, rfl, hstack⟩ := hrun
  obtain ⟨v', h'⟩ := (hends (.ok ())).1 ⟨v, h⟩
  have heq := hleaves v v' h h'
  refine ⟨v, v', h, h', ?_, heq⟩
  rw [heq]
  exact hstack

end RunM

end ScriptMachine
